import GrammarProfile.Proofs.Landmarks

/-!
Recorded places lie in the text. Every place is on one of the lines, before a character or at the end
of the line, and what it was recorded for is there: the key as it is written, or the first character
of the item.
-/
namespace GrammarProfile

namespace Text

theorem eq_of_splitFirst? {sep : Char} {cs before after : List Char}
    (h : splitFirst? sep cs = some (before, after)) : cs = before ++ sep :: after := by
  induction cs generalizing before with
  | nil => exact nomatch h
  | cons c rest ih =>
      rw [splitFirst?] at h
      split at h
      · next hc =>
        obtain ⟨rfl, rfl⟩ := Prod.mk.inj (Option.some.inj h)
        rw [hc]
        rfl
      · obtain ⟨⟨left, right⟩, hrest, hparts⟩ := Option.map_eq_some_iff.1 h
        obtain ⟨rfl, rfl⟩ := Prod.mk.inj hparts
        rw [ih hrest, List.cons_append]

theorem eq_of_dropTail? {cs tail kept : List Char} (h : dropTail? cs tail = some kept) :
    cs = kept ++ tail := by
  unfold dropTail? at h
  split at h
  · next hsuffix =>
    obtain ⟨before, rfl⟩ := List.isSuffixOf_iff_suffix.1 hsuffix
    rw [← Option.some.inj h, List.length_append, Nat.add_sub_cancel, List.take_left']
    rfl
  · exact nomatch h

end Text

namespace Profile

open Yaml (spaces)

/-! ## Parts of a line -/

/-- The piece stands in the line, with so many bytes before it. -/
def StandsIn (raw : List Char) (column : ℕ) (piece : List Char) : Prop :=
  ∃ before after, raw = before ++ (piece ++ after) ∧ Text.byteCount before = column

section Pieces

variable {raw piece part : List Char} {column : ℕ}

theorem bytesBefore_append (gap rest : List Char) :
    bytesBefore (gap ++ rest) rest = Text.byteCount gap := by
  rw [bytesBefore, Text.byteCount_append, Nat.add_sub_cancel]

theorem StandsIn.initial (h : StandsIn raw column piece) (hpart : part <+: piece) :
    StandsIn raw column part := by
  obtain ⟨before, after, rfl, hbytes⟩ := h
  obtain ⟨more, rfl⟩ := hpart
  exact ⟨before, more ++ after, by rw [List.append_assoc part], hbytes⟩

theorem StandsIn.final (h : StandsIn raw column piece) (hpart : part <:+ piece) :
    StandsIn raw (column + bytesBefore piece part) part := by
  obtain ⟨before, after, rfl, rfl⟩ := h
  obtain ⟨gap, rfl⟩ := hpart
  refine ⟨before ++ gap, after, by simp only [List.append_assoc], ?_⟩
  rw [Text.byteCount_append, bytesBefore_append]

theorem StandsIn.tail {c : Char} (h : StandsIn raw column (c :: piece)) :
    StandsIn raw (column + c.utf8Size) piece := by
  have hbytes : bytesBefore (c :: piece) piece = c.utf8Size := bytesBefore_append [c] piece
  exact hbytes ▸ h.final (List.suffix_cons c piece)

theorem trim_prefix_trimStart (cs : List Char) : Text.trim cs <+: Text.trimStart cs :=
  Text.trimEnd_initial _

theorem cutComment?_initial {value before : List Char} (h : cutComment? value = some before) :
    before <+: value := by
  fun_induction cutComment? value generalizing before with
  | case1 => exact nomatch h
  | case2 => exact Option.some.inj h ▸ List.nil_prefix
  | case3 c rest _ ih =>
      obtain ⟨kept, hrest, rfl⟩ := Option.map_eq_some_iff.1 h
      exact List.cons_prefix_cons.2 ⟨rfl, ih hrest⟩

theorem stripComment_initial (value : List Char) : stripComment value <+: value := by
  unfold stripComment
  split
  · exact List.prefix_rfl
  · exact List.prefix_rfl
  · split
    · next hcut => exact (Text.trimEnd_initial _).trans (cutComment?_initial hcut)
    · split
      · exact List.nil_prefix
      · exact List.prefix_rfl

theorem eq_of_enclosed? {opening closing : Char} {value inner : List Char}
    (h : enclosed? opening closing value = some inner) : value = opening :: (inner ++ [closing]) := by
  unfold enclosed? at h
  split at h
  · next c rest =>
    split at h
    · next hc => rw [beq_iff_eq.1 hc, ← Text.eq_of_dropTail? h]
    · exact nomatch h
  · exact nomatch h

end Pieces

/-! ## Keys -/

/-- A key as it is written, perhaps in quotes, with the colon after it and all that follows. -/
inductive IsKeyText (name : List Char) : List Char → Prop
  | plain {gap : List Char} (rest : List Char) (hgap : ∀ c ∈ gap, Text.isBlank c = true) :
      IsKeyText name (name ++ (gap ++ ':' :: rest))
  | quoted {quote : Char} {gap : List Char} (rest : List Char) (hquote : quote = '"' ∨ quote = '\'')
      (hgap : ∀ c ∈ gap, Text.isBlank c = true) :
      IsKeyText name (quote :: (name ++ quote :: (gap ++ ':' :: rest)))

theorem IsKeyText.append {name content : List Char} (h : IsKeyText name content)
    (more : List Char) : IsKeyText name (content ++ more) := by
  cases h with
  | plain rest hgap =>
      have hmore : IsKeyText name _ := .plain (rest ++ more) hgap
      simpa only [List.append_assoc, List.cons_append] using hmore
  | quoted rest hquote hgap =>
      have hmore : IsKeyText name _ := .quoted (rest ++ more) hquote hgap
      simpa only [List.append_assoc, List.cons_append] using hmore

theorem eq_of_splitColon? {content before after : List Char}
    (h : splitColon? content = some (before, after)) : content = before ++ ':' :: after := by
  fun_induction splitColon? content generalizing before with
  | case1 => exact nomatch h
  | case2 =>
      obtain ⟨rfl, rfl⟩ := Prod.mk.inj (Option.some.inj h)
      rfl
  | case3 rest =>
      obtain ⟨rfl, rfl⟩ := Prod.mk.inj (Option.some.inj h)
      rfl
  | case4 c rest _ _ ih =>
      obtain ⟨⟨left, right⟩, hrest, hparts⟩ := Option.map_eq_some_iff.1 h
      obtain ⟨rfl, rfl⟩ := Prod.mk.inj hparts
      rw [ih hrest, List.cons_append]

/-- A key in quotes, cut at its closing quote and at the colon after it. -/
theorem parts_of_quoted {quote : Char} {rest key after found : List Char}
    (hquote : quote = '"' ∨ quote = '\'') (hsplit : Text.splitFirst? quote rest = some (key, after))
    (hafter : Text.trimStart after = ':' :: found) :
    IsKeyText key (quote :: rest) ∧ Text.trimStart found <:+ quote :: rest := by
  obtain ⟨gap, hgap, hblank⟩ := Text.exists_trimStart after
  rw [hafter] at hgap
  have hrest := Text.eq_of_splitFirst? hsplit
  rw [hgap] at hrest
  refine ⟨hrest ▸ .quoted found hquote hblank, (Text.trimStart_suffix found).trans ?_⟩
  refine ⟨quote :: (key ++ quote :: (gap ++ [':'])), ?_⟩
  rw [hrest]
  simp only [List.append_assoc, List.cons_append, List.nil_append]

/-- What is split off is the key as it is written, and the value is at the end. -/
theorem parts_of_splitKey? {content name value : List Char}
    (h : splitKey? content = some (name, value)) : IsKeyText name content ∧ value <:+ content := by
  have hnone : none ≠ some (name, value) := (Option.some_ne_none _).symm
  unfold splitKey? at h
  dsimp only at h
  split at h
  · split at h
    · next hsplit =>
      split at h
      · next hafter =>
        obtain ⟨rfl, rfl⟩ := Prod.mk.inj (Option.some.inj h)
        exact parts_of_quoted (.inl rfl) hsplit hafter
      · exact absurd h hnone
    · exact absurd h hnone
  · split at h
    · next hsplit =>
      split at h
      · next hafter =>
        obtain ⟨rfl, rfl⟩ := Prod.mk.inj (Option.some.inj h)
        exact parts_of_quoted (.inr rfl) hsplit hafter
      · exact absurd h hnone
    · exact absurd h hnone
  · split at h
    · next before after hsplit =>
      obtain ⟨gap, hgap, hblank⟩ := Text.exists_dropEndWhile Text.isBlank before
      have hcontent : content = Text.trimEnd before ++ (gap ++ ':' :: after) := by
        rw [← List.append_assoc, Text.trimEnd, ← hgap]
        exact eq_of_splitColon? hsplit
      have hkey : some (Text.trimEnd before, Text.trimStart after) = some (name, value) := by
        split at h
        · exact absurd h hnone
        · exact absurd h hnone
        · exact absurd h hnone
        · exact h
      obtain ⟨rfl, rfl⟩ := Prod.mk.inj (Option.some.inj hkey)
      refine ⟨hcontent ▸ .plain after hblank, (Text.trimStart_suffix after).trans ?_⟩
      refine ⟨Text.trimEnd before ++ (gap ++ [':']), ?_⟩
      rw [hcontent]
      simp only [List.append_assoc, List.cons_append, List.nil_append]
    · exact absurd h hnone

/-! ## What stands at a place -/

/-- What stands around the place of a key or an item on its line: a key as it is written begins
there. After the dash of an item, either its first character is there, or the line ends but for
blanks. Between brackets, the first character of the item is there; as many commas come before it
as its number says, and only blanks after the last one. -/
def Landmark.Stands (before after : List Char) : Landmark → Prop
  | key _ name => IsKeyText name after
  | dashed _ _ =>
    (∃ indent gap, before = spaces indent ++ '-' :: gap ∧
      ∀ c ∈ gap, Text.isBlank c = true) ∧
    ((∃ c rest, after = c :: rest ∧ Text.isBlank c = false) ∨ before = Text.trimEnd (before ++ after))
  | listed _ number =>
    ∃ outer done gap c rest, before = outer ++ '[' :: (done ++ gap) ∧
      done.count ',' = number ∧ (∀ d ∈ done.getLast?, d = ',') ∧
      (∀ d ∈ gap, Text.isBlank d = true) ∧
      after = c :: rest ∧ Text.isBlank c = false ∧ c ≠ ','

/-- A finding on that line, at a byte where a character begins or the line ends. -/
def Finding.StandsOn (f : Finding) (line : ℕ) (raw : List Char) : Prop :=
  f.place.line = line ∧ ∃ before after, raw = before ++ after ∧
    Text.byteCount before = f.place.column ∧ f.landmark.Stands before after

section Line

variable {raw : List Char} {line column : ℕ}

theorem StandsIn.key {content name value : List Char} (h : StandsIn raw column content)
    (hkey : splitKey? content = some (name, value)) (outer : Option String) :
    Finding.StandsOn ⟨.key outer name, ⟨line, column⟩⟩ line raw := by
  obtain ⟨before, after, hraw, hbytes⟩ := h
  exact ⟨rfl, before, content ++ after, hraw, hbytes, (parts_of_splitKey? hkey).1.append after⟩

/-- The items of a list from a place inside it. Up to there the commas of the list are counted, and
unless an item has begun only blanks come after the last of them. -/
theorem standsOn_of_mem_itemFindings {list : String} {outer cs after : List Char} {seen : Bool}
    {between : List Char} {i : ℕ} (hraw : raw = outer ++ '[' :: (between ++ (cs ++ after)))
    (hbytes : Text.byteCount (outer ++ '[' :: between) = column) (hcount : between.count ',' = i)
    (hfresh : seen = false → ∃ done gap, between = done ++ gap ∧ (∀ d ∈ done.getLast?, d = ',') ∧
      ∀ d ∈ gap, Text.isBlank d = true) :
    ∀ f ∈ itemFindings list line column i seen cs, f.StandsOn line raw := by
  induction cs generalizing between column i seen with
  | nil => exact fun f hf => absurd hf List.not_mem_nil
  | cons c rest ih =>
      have hstep : raw = outer ++ '[' :: (between ++ [c] ++ (rest ++ after)) := by
        rw [hraw, List.append_assoc between]
        rfl
      have hnext : Text.byteCount (outer ++ '[' :: (between ++ [c])) = column + c.utf8Size := by
        rw [← List.cons_append, ← List.append_assoc, Text.byteCount_append, hbytes]
        rfl
      rw [itemFindings]
      split
      · next hc =>
        subst hc
        refine ih hstep hnext ?_ fun _ => ⟨between ++ [','], [], ?_, ?_, List.forall_mem_nil _⟩
        · rw [List.count_append, hcount]
          rfl
        · rw [List.append_nil]
        · intro d hd
          rw [List.getLast?_concat] at hd
          exact (Option.some.inj hd).symm
      · next hc =>
        have hsame : (between ++ [c]).count ',' = i := by
          rw [List.count_append, hcount, List.count_singleton, if_neg (by simpa using hc)]
          rfl
        split
        · next hpass =>
          refine ih hstep hnext hsame fun hseen => ?_
          obtain ⟨done, gap, rfl, hdone, hgap⟩ := hfresh hseen
          rw [hseen, Bool.false_or] at hpass
          exact ⟨done, gap ++ [c], List.append_assoc .., hdone,
            List.forall_mem_append.2 ⟨hgap, List.forall_mem_singleton.2 hpass⟩⟩
        · next hbegins =>
          obtain ⟨hseen, hblank⟩ := Bool.or_eq_false_iff.1 (Bool.eq_false_iff.2 hbegins)
          refine List.forall_mem_cons.2 ⟨?_, ih hstep hnext hsame fun h => absurd h (by decide)⟩
          obtain ⟨done, gap, rfl, hdone, hgap⟩ := hfresh hseen
          have hcommas : done.count ',' = i := by
            have hnone : gap.count ',' = 0 :=
              List.count_eq_zero.2 fun hmem => absurd (hgap _ hmem) (by decide)
            rw [← hcount, List.count_append, hnone, Nat.add_zero]
          refine ⟨rfl, outer ++ '[' :: (done ++ gap), c :: (rest ++ after), ?_, hbytes,
            outer, done, gap, c, rest ++ after, rfl, hcommas, hdone, hgap, rfl, hblank, hc⟩
          rw [hraw, List.append_assoc outer]
          rfl

theorem standsOn_of_mem_listFindings {list : String} {value : List Char}
    (h : StandsIn raw column value) :
    ∀ f ∈ listFindings list line column value, f.StandsOn line raw := by
  rw [listFindings]
  cases hinner : enclosed? '[' ']' value with
  | none => exact fun f hf => absurd hf List.not_mem_nil
  | some inner =>
      obtain ⟨outer, after, hraw, hbytes⟩ := h
      rw [eq_of_enclosed? hinner] at hraw
      have hparts : raw = outer ++ '[' :: ([] ++ (inner ++ ']' :: after)) := by
        rw [hraw]
        simp only [List.cons_append, List.append_assoc, List.nil_append]
      have hopened : Text.byteCount (outer ++ ['[']) = column + 1 := by
        rw [Text.byteCount_append, hbytes]
        rfl
      exact standsOn_of_mem_itemFindings hparts hopened rfl fun _ =>
        ⟨[], [], rfl, fun d hd => absurd hd (Option.not_mem_none d), List.forall_mem_nil _⟩

theorem splitFlow_ne_nil (quote : Option Char) (depth : ℕ) (piece cs : List Char) :
    splitFlow quote depth piece cs ≠ [] := by
  fun_induction splitFlow quote depth piece cs with
  | case1 => exact List.cons_ne_nil _ _
  | case2 _ _ _ _ _ ih => exact ih
  | case3 _ _ _ _ _ ih => exact ih
  | case4 _ _ _ _ _ _ ih => exact ih
  | case5 _ _ _ _ _ _ _ ih => exact ih
  | case6 => exact List.cons_ne_nil _ _
  | case7 _ _ _ _ _ _ _ _ ih => exact ih

/-- With their commas, the pieces are what was cut. -/
theorem joinWith_splitFlow (quote : Option Char) (depth : ℕ) (piece cs : List Char) :
    Text.joinWith [','] (splitFlow quote depth piece cs) = piece.reverse ++ cs := by
  have hpush : ∀ (piece rest : List Char) (c : Char),
      (c :: piece).reverse ++ rest = piece.reverse ++ c :: rest := fun piece rest c => by
    rw [List.reverse_cons, List.append_assoc, List.singleton_append]
  fun_induction splitFlow quote depth piece cs with
  | case1 => exact (List.append_nil _).symm
  | case2 _ _ _ _ _ ih => exact ih.trans (hpush _ _ _)
  | case3 _ _ _ _ _ ih => exact ih.trans (hpush _ _ _)
  | case4 _ _ _ _ _ _ ih => exact ih.trans (hpush _ _ _)
  | case5 _ _ _ _ _ _ _ ih => exact ih.trans (hpush _ _ _)
  | case6 depth piece c rest _ _ _ hcomma ih =>
      obtain ⟨rfl, -⟩ : c = ',' ∧ depth = 0 := by simpa using hcomma
      rw [Text.joinWith_cons (splitFlow_ne_nil _ _ _ _), ih, List.append_assoc]
      rfl
  | case7 _ _ _ _ _ _ _ _ ih => exact ih.trans (hpush _ _ _)

theorem StandsIn.of_mem_withOffsets {pieces : List (List Char)}
    (h : StandsIn raw column (Text.joinWith [','] pieces)) :
    ∀ p ∈ withOffsets column pieces, StandsIn raw p.1 p.2 := by
  induction pieces generalizing column with
  | nil => exact fun p hp => absurd hp List.not_mem_nil
  | cons piece pieces ih =>
      by_cases hlast : pieces = []
      · subst hlast
        exact List.forall_mem_singleton.2 h
      · rw [Text.joinWith_cons hlast] at h
        refine List.forall_mem_cons.2 ⟨h.initial ⟨_, (List.append_assoc ..).symm⟩, ih ?_⟩
        have hnext := h.final (List.suffix_append _ _)
        rw [bytesBefore_append, Text.byteCount_append] at hnext
        rwa [Nat.add_assoc]

/-- What is found in the braces of a mapping stands there, at any depth. -/
theorem standsOn_of_mem_mappingFindings (fuel : ℕ) {outer : String} {value : List Char}
    (h : StandsIn raw column value) :
    ∀ f ∈ mappingFindings fuel outer line column value, f.StandsOn line raw := by
  induction fuel generalizing outer column value with
  | zero => exact fun f hf => absurd hf List.not_mem_nil
  | succ fuel ih =>
      rw [mappingFindings]
      cases hinner : enclosed? '\x7b' '\x7d' value with
      | none => exact fun f hf => absurd hf List.not_mem_nil
      | some inner =>
          rw [eq_of_enclosed? hinner] at h
          have hpieces := h.tail.initial (List.prefix_append inner _)
          rw [← List.nil_append inner, ← List.reverse_nil, ← joinWith_splitFlow none 0] at hpieces
          intro f hf
          obtain ⟨⟨start, piece⟩, hpiece, hf⟩ := List.mem_flatMap.1 hf
          have hcontent := ((hpieces.of_mem_withOffsets _ hpiece).final
            (Text.trimStart_suffix piece)).initial (trim_prefix_trimStart piece)
          dsimp only at hf hcontent
          cases hkey : splitKey? (Text.trim piece) with
          | none =>
              rw [hkey] at hf
              exact absurd hf List.not_mem_nil
          | some parts =>
              obtain ⟨name, rest⟩ := parts
              rw [hkey] at hf
              have hvalue := hcontent.final (parts_of_splitKey? hkey).2
              rcases List.mem_cons.1 hf with rfl | hf
              · exact hcontent.key hkey _
              · split at hf
                · exact standsOn_of_mem_listFindings hvalue f hf
                · exact ih hvalue f hf
                · exact absurd hf List.not_mem_nil

theorem standsOn_of_mem_valueFindings {outer : String} {value : List Char}
    (h : StandsIn raw column value) :
    ∀ f ∈ valueFindings outer line column value, f.StandsOn line raw := by
  unfold valueFindings
  split
  · exact standsOn_of_mem_listFindings h
  · exact standsOn_of_mem_mappingFindings _ h
  · exact fun f hf => absurd hf List.not_mem_nil

/-! ## Lines of an outline -/

variable (o : Outline) {content : List Char}

theorem Outline.standsOn_of_mem_keyFindings (h : StandsIn raw column content) :
    ∀ f ∈ o.keyFindings line column content, f.StandsOn line raw := by
  rw [keyFindings]
  cases hkey : splitKey? content with
  | none => exact fun f hf => absurd hf List.not_mem_nil
  | some parts =>
      obtain ⟨name, value⟩ := parts
      have hvalue := (h.final (parts_of_splitKey? hkey).2).initial (stripComment_initial value)
      exact List.forall_mem_cons.2 ⟨h.key hkey _, standsOn_of_mem_valueFindings hvalue⟩

theorem exists_dash (h : isItem content = true) : ∃ more, content = '-' :: more := by
  rw [isItem, Bool.or_eq_true, beq_iff_eq, Text.startsWith, List.isPrefixOf_iff_prefix] at h
  rcases h with rfl | ⟨more, rfl⟩
  · exact ⟨[], rfl⟩
  · exact ⟨' ' :: more, rfl⟩

/-- The place of an item after a dash: its first character is there, or the trimmed line ends. -/
theorem standsOn_dashed {indent number : ℕ} {list : String} {gap rest tail : List Char}
    (hraw : raw = spaces indent ++ '-' :: gap ++ (rest ++ tail))
    (htrim : Text.trimEnd raw = spaces indent ++ '-' :: gap ++ rest)
    (hgap : ∀ c ∈ gap, Text.isBlank c = true) (hrest : ∀ c ∈ rest.head?, Text.isBlank c = false) :
    Finding.StandsOn ⟨.dashed list number, ⟨line, indent + Text.byteCount ('-' :: gap)⟩⟩ line raw := by
  refine ⟨rfl, spaces indent ++ '-' :: gap, rest ++ tail, hraw, ?_, ⟨indent, gap, rfl, hgap⟩, ?_⟩
  · rw [Text.byteCount_append, Outline.byteCount_spaces]
  · cases rest with
    | nil =>
        rw [List.append_nil] at htrim
        exact .inr (hraw ▸ htrim.symm)
    | cons c rest => exact .inl ⟨c, rest ++ tail, rfl, hrest c rfl⟩

/-- An item is found after its dash, and behind it the key that may follow. -/
theorem Outline.standsOn_of_mem_dashFindings {indent : ℕ} {tail : List Char}
    (hraw : raw = spaces indent ++ (content ++ tail))
    (htrim : Text.trimEnd raw = spaces indent ++ content) (hitem : isItem content = true) :
    ∀ f ∈ o.dashFindings line indent content, f.StandsOn line raw := by
  obtain ⟨more, rfl⟩ := exists_dash hitem
  obtain ⟨gap, hgap, hblank⟩ := Text.exists_trimStart more
  have hparts : '-' :: more = '-' :: gap ++ Text.trimStart more := congrArg _ hgap
  have hrest : StandsIn raw (indent + bytesBefore ('-' :: more) (Text.trimStart more))
      (Text.trimStart more) :=
    StandsIn.final ⟨spaces indent, tail, hraw, byteCount_spaces indent⟩
      ((Text.trimStart_suffix more).trans (List.suffix_cons '-' more))
  have hdash : ∀ list number, Finding.StandsOn ⟨.dashed list number,
      ⟨line, indent + bytesBefore ('-' :: more) (Text.trimStart more)⟩⟩ line raw := by
    intro list number
    have hbytes : bytesBefore ('-' :: more) (Text.trimStart more) = Text.byteCount ('-' :: gap) := by
      rw [hparts, bytesBefore_append]
    rw [hparts, ← List.append_assoc] at htrim
    rw [hparts, List.append_assoc, ← List.append_assoc] at hraw
    rw [hbytes]
    refine standsOn_dashed hraw htrim hblank fun c hc => ?_
    obtain ⟨later, hlater⟩ := List.head?_eq_some_iff.1 hc
    exact Text.not_blank_of_trimStart hlater
  rw [dashFindings]
  dsimp only [List.drop_succ_cons, List.drop_zero]
  cases o.frames.dropWhile fun f => indent < f.indent || (f.indent == indent && f.isItem) with
  | nil => exact fun f hf => absurd hf List.not_mem_nil
  | cons parent outer =>
      dsimp only
      split
      · exact List.forall_mem_singleton.2 (hdash _ _)
      · exact List.forall_mem_singleton.2 (hdash _ _)
      · split
        · exact List.forall_mem_singleton.2 (hdash _ _)
        · exact List.forall_mem_cons.2 ⟨hdash _ _, standsOn_of_mem_keyFindings _ hrest⟩

theorem eq_spaces_append_drop (raw : List Char) :
    raw = spaces (raw.takeWhile (· == ' ')).length ++ raw.drop (raw.takeWhile (· == ' ')).length := by
  have hspaces : raw.takeWhile (· == ' ') = spaces (raw.takeWhile (· == ' ')).length :=
    List.eq_replicate_of_mem fun c hc =>
      beq_iff_eq.1 (List.all_eq_true.1 (List.all_takeWhile (p := (· == ' '))) c hc)
  have hparts := List.takeWhile_append_dropWhile (p := (· == ' ')) (l := raw)
  rw [hspaces] at hparts
  generalize (raw.takeWhile (· == ' ')).length = indent at hparts ⊢
  rw [← hparts, Outline.drop_spaces]

theorem Outline.standsOn_of_mem_contentFindings {indent : ℕ} {tail : List Char}
    (hraw : raw = spaces indent ++ (content ++ tail))
    (htrim : Text.trimEnd raw = spaces indent ++ content) :
    ∀ f ∈ o.contentFindings line indent content, f.StandsOn line raw := by
  unfold contentFindings
  split
  · exact fun f hf => absurd hf List.not_mem_nil
  · split
    · exact fun f hf => absurd hf List.not_mem_nil
    · split
      · next hitem => exact o.standsOn_of_mem_dashFindings hraw htrim hitem
      · exact o.standsOn_of_mem_keyFindings ⟨spaces indent, tail, hraw, byteCount_spaces indent⟩

/-- What is found on a line stands on it. -/
theorem Outline.standsOn_of_mem_lineFindings (raw : List Char) :
    ∀ f ∈ o.lineFindings line raw, f.StandsOn line raw := by
  have hindent := eq_spaces_append_drop raw
  rw [lineFindings]
  dsimp only
  generalize (raw.takeWhile (· == ' ')).length = indent at hindent ⊢
  obtain ⟨tail, hdrop, -⟩ := Text.exists_dropEndWhile Text.isBlank (raw.drop indent)
  have hraw : raw = spaces indent ++ (Text.trimEnd (raw.drop indent) ++ tail) := by
    rwa [Text.trimEnd, ← hdrop]
  split
  · exact fun f hf => absurd hf List.not_mem_nil
  · next hcontent =>
    have hne : Text.trimEnd (raw.drop indent) ≠ [] := fun hnil => hcontent (hnil ▸ rfl)
    have htrim : Text.trimEnd raw = spaces indent ++ Text.trimEnd (raw.drop indent) := by
      conv_lhs => rw [hindent]
      exact Text.dropEndWhile_append _ hne
    have houtside : ∀ f ∈ contentFindings ⟨o.frames, none⟩ line indent _, f.StandsOn line raw :=
      standsOn_of_mem_contentFindings _ hraw htrim
    split
    · split
      · exact fun f hf => absurd hf List.not_mem_nil
      · exact houtside
    · exact houtside

theorem Outline.exists_of_mem_findings {n : ℕ} {lines : List (List Char)} :
    ∀ f ∈ o.findings n lines, ∃ k raw, lines[k]? = some raw ∧ f.StandsOn (n + k) raw := by
  induction lines generalizing o n with
  | nil => exact fun f hf => absurd hf List.not_mem_nil
  | cons raw rest ih =>
      intro f hf
      rcases List.mem_append.1 hf with hf | hf
      · exact ⟨0, raw, rfl, o.standsOn_of_mem_lineFindings raw f hf⟩
      · obtain ⟨k, later, hlater, hstands⟩ := ih _ f hf
        exact ⟨k + 1, later, hlater, by rwa [← Nat.add_assoc, Nat.add_right_comm]⟩

end Line

/-! ## Texts -/

/-- Recorded places lie in the text. The index records the keys and items that are found, of equal
paths the last one. Each is found on one of the lines, at a byte up to its end that divides no
character, and the key as it is written or the first character of the item stands there. -/
theorem recorded_places_lie_in_text (text : String) :
    LineIndex.ofText text = .ofList ((findings text).map Finding.entry) ∧
    (∀ path place, (path, place) ∈ (LineIndex.ofText text).pairs →
      ∃ f ∈ findings text, f.landmark.path = path ∧ f.place = place) ∧
    ∀ f ∈ findings text, 1 ≤ f.place.line ∧ f.place.line ≤ (Text.lines text.toList).length ∧
      ∃ raw before after, (Text.lines text.toList)[f.place.line - 1]? = some raw ∧
        raw = before ++ after ∧ Text.byteCount before = f.place.column ∧
        f.place.column ≤ Text.byteCount raw ∧ f.landmark.Stands before after := by
  refine ⟨LineIndex.ofText_eq text, fun path place hmem => ?_, fun f hf => ?_⟩
  · rw [LineIndex.ofText_eq] at hmem
    obtain ⟨f, hf, hentry⟩ := List.mem_map.1 (OrderedMap.mem_of_mem_ofList hmem)
    exact ⟨f, hf, congrArg Prod.fst hentry, congrArg Prod.snd hentry⟩
  · obtain ⟨k, raw, hraw, hline, before, after, hparts, hbytes, hstands⟩ :=
      Outline.start.exists_of_mem_findings f hf
    obtain ⟨hlt, -⟩ := List.getElem?_eq_some_iff.1 hraw
    have hindex : f.place.line - 1 = k := by omega
    refine ⟨by omega, by omega, raw, before, after, hindex ▸ hraw, hparts, hbytes, ?_, hstands⟩
    rw [hparts, Text.byteCount_append, hbytes]
    exact Nat.le_add_right _ _

example : (findings "é: [ü , 'ß']\n'k': \x7bö: 1\x7d").map (fun f => (f.landmark.path, f.place)) =
    [("é", ⟨1, 0⟩), ("é[0]", ⟨1, 5⟩), ("é[1]", ⟨1, 10⟩), ("k", ⟨2, 0⟩), ("k.ö", ⟨2, 6⟩)] := by
  decide +kernel

end Profile

end GrammarProfile
