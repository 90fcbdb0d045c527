import GrammarProfile.Proofs.Collections
import GrammarProfile.Proofs.Documents
import GrammarProfile.Proofs.LaidBlocks
import GrammarProfile.Proofs.ScalarText
import GrammarProfile.Proofs.SingleTags
import GrammarProfile.Yaml.Printer

/-!
What is read of a printed value once it is laid out: a value all of whose literal blocks are
recognised is read as a tree that differs from it in nulls that are not written only.
-/
namespace GrammarProfile.Yaml

open Text (Clean)
open Profile.Layout (Tidier EndsInNull Opens IsKeptBlock indentOf)
open Lexer (Deeper Places Parts AtGap)

/-! ## Blocks that are recognised -/

namespace Value

mutual

/-- Whether every literal block in a value is recognised and keeps its lines. `seen` tells whether one
in the place of the value is, and `shared` whether a list there begins in a line that something else
begins. -/
def blocksSeen (seen shared : Bool) : Value → Bool
  | string s => Style.ofText s.toList != .literal || (seen && keepsLines s.toList)
  | tagged _ v => blocksSeen false false v
  | sequence items => itemsSeen (!shared) items
  | mapping pairs => pairsSeen pairs
  | _ => true

def itemsSeen (isFirst : Bool) : List Value → Bool
  | [] => true
  | v :: rest => blocksSeen isFirst true v && itemsSeen true rest

def pairsSeen : List (Value × Value) → Bool
  | [] => true
  | (k, v) :: rest =>
    (if isSimpleKey 0 k then blocksSeen true false v
      else blocksSeen false true k && blocksSeen true true v) && pairsSeen rest

end

/-- The text of a value without parts and without a tag. -/
def lineText (n : Nat) : Value → List Char
  | null => "null".toList
  | bool b => (toString b).toList
  | number x => x.text.toList
  | string s => scalarText n s.toList
  | sequence _ => "[]".toList
  | mapping _ => "\x7b\x7d".toList
  | tagged _ _ => []

end Value

/-! ## What printed values are read as -/

/-- The tag that is read where a tag is written. -/
def Tag.read? (t : String) : Option String :=
  match written t with
  | .tag handle suffix => Tree.tagOf (handle == "!") suffix
  | _ => none

theorem Tag.read?_eq {t : String} {hasHandle : Bool} {suffix : Option String}
    (h : written t = Tree.tagKind hasHandle suffix) : read? t = Tree.tagOf hasHandle suffix := by
  rw [read?, h]
  cases hasHandle <;> rfl

namespace Value

mutual

/-- The events that are read of a value, before which a tag is written or none. -/
def shapes (tag : Option String) : Value → List Shape
  | null => [⟨.scalar "null" true, tag, none⟩]
  | bool b => [⟨.scalar (toString b) true, tag, none⟩]
  | number x => [⟨.scalar x.text true, tag, none⟩]
  | string s => [⟨.scalar s (Style.ofText s.toList == .plain), tag, none⟩]
  | sequence items => ⟨.sequence, tag, none⟩ :: (itemShapes items ++ [Shape.bare .sequenceEnd])
  | mapping pairs => ⟨.mapping, tag, none⟩ :: (pairShapes pairs ++ [Shape.bare .mappingEnd])
  | tagged t v => shapes (Tag.read? t) v

def itemShapes : List Value → List Shape
  | [] => []
  | v :: rest => shapes none v ++ itemShapes rest

def pairShapes : List (Value × Value) → List Shape
  | [] => []
  | (k, v) :: rest => shapes none k ++ shapes none v ++ pairShapes rest

end

mutual

/-- Whether a printed value is cut into tokens to its end: every tag can be read, and no key on the
line of its value is too long. -/
def Readable : Value → Prop
  | sequence items => ItemsReadable items
  | mapping pairs => PairsReadable pairs
  | tagged t v => Tag.Readable t ∧ Readable v
  | _ => True

def ItemsReadable : List Value → Prop
  | [] => True
  | v :: rest => Readable v ∧ ItemsReadable rest

def PairsReadable : List (Value × Value) → Prop
  | [] => True
  | (k, v) :: rest =>
    ((Readable k ∧ (isSimpleKey 0 k = true → (simpleKeyText k).length ≤ Lexer.longestKey)) ∧
      Readable v) ∧ PairsReadable rest

end

end Value

/-! ## Values without parts -/

/-- A node of one token, or of two brackets with nothing between. -/
structure Tree.Leaf (t : Tree) : Prop where
  fits : ∀ inPair, t.Fits inPair
  untagged : t.isTagged = false
  shapes : ∀ tag, List.Forall₂ Alike (t.shapes tag) (t.shapes tag)

theorem leaf_scalar (text : String) (isPlain : Bool) : (Tree.scalar text isPlain).Leaf where
  fits _ := trivial
  untagged := rfl
  shapes _ := .cons (.same fun _ h => nomatch h) .nil

theorem leaf_emptyList : (Tree.flow []).Leaf where
  fits _ := trivial
  untagged := rfl
  shapes _ := .cons (.same fun _ h => nomatch h) (.cons (.same fun _ h => nomatch h) .nil)

theorem leaf_emptyMapping : Tree.emptyMapping.Leaf where
  fits _ := trivial
  untagged := rfl
  shapes _ := .cons (.same fun _ h => nomatch h) (.cons (.same fun _ h => nomatch h) .nil)

/-- A simple key is read before its colon, whatever comes after it. -/
theorem exists_keyText {k : Value} (hk : k.SingleTags) {n : Nat} (hsimple : k.isSimpleKey n = true) :
    ∃ t, KeyText k.Readable k.simpleKeyText (Tree.kinds t) ∧ t.Fits true ∧
      List.Forall₂ Alike (k.shapes none) (t.shapes none) := by
  have hleaf : ∀ {k : Value} {n : Nat}, k.isSimpleKey n = true → k.isTagged = false →
      ∃ t : Tree, t.Leaf ∧ KeyText k.Readable k.simpleKeyText t.kinds ∧
        ∀ tag, k.shapes tag = t.shapes tag := by
    intro k n hsimple htag
    cases k with
    | null => exact ⟨.scalar "null" true, leaf_scalar _ _, keyText_plain isPlain_null, fun _ => rfl⟩
    | bool b =>
        refine ⟨.scalar (toString b) true, leaf_scalar _ _, ?_, fun _ => rfl⟩
        have hkey := keyText_plain (isPlain_bool b)
        rwa [String.ofList_toList] at hkey
    | number x =>
        refine ⟨.scalar x.text true, leaf_scalar _ _, ?_, fun _ => rfl⟩
        have hkey := keyText_plain (isPlain_number x)
        rwa [String.ofList_toList] at hkey
    | string s =>
        rw [Value.isSimpleKey, Bool.and_eq_true, Bool.not_eq_true'] at hsimple
        have hbreaks : ∀ c ∈ s.toList, isBreak c = false := by
          simpa using List.any_eq_false.1 hsimple.1
        refine ⟨.scalar s (Style.ofText s.toList == .plain), leaf_scalar _ _, ?_, fun _ => rfl⟩
        have hkey := keyText_text hbreaks
        rwa [String.ofList_toList] at hkey
    | sequence items =>
        rw [Value.isSimpleKey, Bool.and_eq_true, List.isEmpty_iff] at hsimple
        obtain ⟨rfl, -⟩ := hsimple
        exact ⟨.flow [], leaf_emptyList, keyText_emptyList, fun _ => rfl⟩
    | mapping pairs =>
        rw [Value.isSimpleKey, Bool.and_eq_true, List.isEmpty_iff] at hsimple
        obtain ⟨rfl, -⟩ := hsimple
        exact ⟨.emptyMapping, leaf_emptyMapping, keyText_emptyMapping, fun _ => rfl⟩
    | tagged tag v => exact nomatch htag
  cases hk with
  | @tagged v tag _ hv =>
      obtain ⟨t, ht, hkey, hshapes⟩ := hleaf (k := v) hsimple hv
      obtain ⟨hasHandle, suffix, hwritten, -⟩ := exists_tag tag
      refine ⟨.tagged hasHandle suffix t, ?_, ⟨ht.untagged, .inr (ht.fits _)⟩, ?_⟩
      · rw [Tree.kinds, ← hwritten]
        exact hkey.tagged tag
      · rw [Value.shapes, hshapes, Tag.read?_eq hwritten]
        exact ht.shapes _
  | _ =>
      obtain ⟨t, ht, hkey, hshapes⟩ := hleaf hsimple rfl
      exact ⟨t, hkey, ht.fits _, hshapes none ▸ ht.shapes none⟩

/-! ## Where values stand -/

/-- Where a value stands: after what, in which line, inside which collections, and whether its tag is
written already. -/
structure Site where
  place : Place
  hasTag : Bool
  indent : Nat
  /-- What stands before it in its line. -/
  pre : List Char
  /-- The columns of the collections around it. -/
  outer : List Nat
  /-- The column where it stands, where that is known. -/
  start : Option Nat
  /-- Whether a key may begin there. -/
  allowed : Bool

namespace Site

def sequence (σ : Site) : Opening := σ.place.sequence σ.hasTag σ.indent

def mapping (σ : Site) : Opening := σ.place.mapping σ.hasTag σ.indent

def scalarIndent (σ : Site) : Nat := σ.place.scalarIndent σ.indent

/-- The number of blanks before a value in the same line. -/
def gap (σ : Site) : Nat := if σ.hasTag || σ.place != .document then 1 else 0

/-- Whether the value is a key or the value of one. -/
def inPair (σ : Site) : Bool := σ.place == .afterKey || σ.place == .afterMark

/-- The text of a value without a tag. -/
def text (σ : Site) : Value → List Char
  | .sequence (item :: items) =>
    layParts (spaces σ.gap) [] σ.sequence (Value.printItems σ.sequence.indent (item :: items))
  | .mapping (pair :: pairs) =>
    layParts (spaces σ.gap) [] σ.mapping (Value.printPairs σ.mapping.indent (pair :: pairs))
  | v => spaces σ.gap ++ endLine (v.lineText σ.scalarIndent)

/-- The site after a tag. -/
def tagged (σ : Site) (t : String) : Site :=
  { σ with hasTag := true, pre := σ.pre ++ (σ.place.lead ++ tagText t), start := none, allowed := false }

/-- What holds at the sites where values are printed. -/
structure Sound (σ : Site) : Prop where
  clean : Clean σ.pre
  null : ¬EndsInNull σ.pre
  colon : σ.pre.getLast? = some ':' → σ.inPair = true ∨ σ.hasTag = true
  outer : (σ.place = .document ∧ σ.indent = 0 ∧ σ.outer = []) ∨
    (σ.place ≠ .document ∧ (∃ I, σ.outer = σ.indent :: I ∧ Deeper I σ.indent) ∧
      ∀ tail, indentOf (σ.pre ++ tail) ≤ σ.indent)
  bare : σ.hasTag = false → σ.place = .document → σ.pre = []
  start : σ.hasTag = false → σ.place ≠ .afterKey →
    σ.allowed = true ∧ σ.start = some (if σ.place = .document then 0 else σ.indent + 1)

/-- How the parts of a collection begin. -/
inductive Begins (σ : Site) (o : Opening) : Prop where
  | line (hline : o.sameLine = true) (hallowed : σ.allowed = true)
      (hstart : ∃ column, σ.start = some column ∧ o.indent = column + σ.gap)
      (hdeeper : Deeper σ.outer o.indent)
      (hindent : ∀ r, r ≠ [] → AtToken r → indentOf (σ.pre ++ (spaces σ.gap ++ r)) ≤ o.indent)
  | newLine (hline : o.sameLine = false) (hgap : σ.gap = 1) (hdeeper : Deeper σ.outer o.indent)

/-- Where a list has no indentation of its own. -/
structure Indentless (σ : Site) : Prop where
  line : σ.sequence.sameLine = false
  gap : σ.gap = 1
  inPair : σ.inPair = true
  outer : ∃ I, σ.outer = σ.sequence.indent :: I ∧ Deeper I σ.sequence.indent

variable {σ : Site}

theorem Sound.scalarIndent_eq (h : σ.Sound) : σ.scalarIndent = Lexer.least σ.outer - 1 + 2 := by
  obtain ⟨place, hasTag, indent, pre, outer, start, allowed⟩ := σ
  rcases h.outer with ⟨hplace, -, houter⟩ | ⟨hplace, ⟨I, houter, -⟩, -⟩
  · cases hplace
    cases houter
    rfl
  · obtain rfl : outer = indent :: I := houter
    cases place
    · exact absurd rfl hplace
    all_goals rfl

theorem indentOf_token {r : List Char} (hr : AtToken r) : indentOf r = 0 := by
  cases r with
  | nil => rfl
  | cons c r =>
      have hc : c ≠ ' ' := by
        rintro rfl
        exact absurd (hr _ rfl) (by decide)
      rw [indentOf, List.takeWhile_cons_of_neg (by simpa using hc)]
      rfl

theorem Sound.begins_mapping (h : σ.Sound) : σ.Begins σ.mapping := by
  obtain ⟨place, hasTag, indent, pre, outer, start, allowed⟩ := σ
  rcases h.outer with ⟨hplace, hindent, houter⟩ | ⟨hplace, ⟨I, houter, hI⟩, hindent⟩
  · cases hplace
    cases hindent
    cases houter
    cases hasTag with
    | true => exact .newLine rfl rfl fun _ hn => nomatch hn
    | false =>
        obtain ⟨hallowed, hstart⟩ := h.start rfl (by simp)
        refine .line rfl hallowed ⟨0, hstart, rfl⟩ (fun _ hn => nomatch hn) fun r _ hr => ?_
        have hpre : pre = [] := h.bare rfl rfl
        rw [hpre]
        exact Nat.le_of_eq (indentOf_token hr)
  · obtain rfl : outer = indent :: I := houter
    have hdeeper : Deeper (indent :: I) (indent + 2) := Lexer.deeper_cons (by omega)
    have hline : ∀ r : List Char, indentOf (pre ++ (spaces 1 ++ r)) ≤ indent + 2 := fun r =>
      Nat.le_trans (hindent _) (Nat.le_add_right _ _)
    cases place with
    | document => exact absurd rfl hplace
    | afterKey => exact .newLine rfl (by simp [gap]) hdeeper
    | afterDash =>
        cases hasTag with
        | true => exact .newLine rfl rfl hdeeper
        | false =>
            obtain ⟨hallowed, hstart⟩ := h.start rfl (by simp)
            exact .line rfl hallowed ⟨indent + 1, hstart, rfl⟩ hdeeper fun r _ _ => hline r
    | afterMark =>
        cases hasTag with
        | true => exact .newLine rfl rfl hdeeper
        | false =>
            obtain ⟨hallowed, hstart⟩ := h.start rfl (by simp)
            exact .line rfl hallowed ⟨indent + 1, hstart, rfl⟩ hdeeper fun r _ _ => hline r

theorem Sound.begins_sequence (h : σ.Sound) : σ.Begins σ.sequence ∨ σ.Indentless := by
  have hmapping := h.begins_mapping
  obtain ⟨place, hasTag, indent, pre, outer, start, allowed⟩ := σ
  rcases h.outer with ⟨hplace, -, -⟩ | ⟨hplace, houter, -⟩
  · cases hplace
    exact .inl hmapping
  · cases place with
    | document => exact absurd rfl hplace
    | afterKey => exact .inr ⟨rfl, by simp [gap], rfl, houter⟩
    | afterDash => exact .inl hmapping
    | afterMark =>
        cases hasTag with
        | true => exact .inr ⟨rfl, rfl, rfl, houter⟩
        | false => exact .inl hmapping

theorem gap_cases (σ : Site) : σ.gap = 0 ∧ σ.hasTag = false ∧ σ.place = .document ∨ σ.gap = 1 := by
  obtain ⟨place, hasTag, indent, pre, outer, start, allowed⟩ := σ
  cases hasTag
  · cases place
    · exact .inl ⟨rfl, rfl, rfl⟩
    all_goals exact .inr rfl
  · exact .inr rfl

/-- A value on one line does not end in a null that is left out, unless it is null. -/
theorem Sound.not_endsInNull (h : σ.Sound) {w : List Char} (hw : ¬EndsInNull w)
    (hnull : w ≠ "null".toList) : ¬EndsInNull (σ.pre ++ (spaces σ.gap ++ w)) := by
  rcases σ.gap_cases with ⟨hgap, htag, hplace⟩ | hgap
  · rw [hgap, h.bare htag hplace]
    exact hw
  · rw [hgap]
    rintro ⟨key, hkey⟩
    exact (Profile.Layout.endsInNull_spaced hkey).elim (fun h => hnull h.1) hw

/-- What is known of a text that stands at a site and is read as tokens of the kinds given. -/
structure Placed (σ : Site) (T : Tidier) (ok : Prop) (w : List Char) (after : T.State)
    (kinds : List TokenKind) : Prop where
  token : σ.gap = 0 → ∀ tail, AtToken (w ++ tail)
  blank : σ.gap = 1 → ∀ tail, AtGap (w ++ tail)
  places : Places ok (T.May after) σ.outer σ.start σ.allowed w kinds

/-- What is read of a value without its tag at a site, once it is laid out as `w`: a tree with events
like those given. -/
structure Content (σ : Site) (T : Tidier) (ok : Prop) (shapes : Option String → List Shape)
    (w : List Char) (after : T.State) (t : Tree) : Prop extends Placed σ T ok w after t.kinds where
  fits : t.Fits σ.inPair ∨ t = .absent ∧ σ.pre.getLast? = some ':'
  untagged : t.isTagged = false
  shapes : ∀ tag, (∀ u ∈ tag, isOwnTag u = true) → List.Forall₂ Alike (shapes tag) (t.shapes tag)

/-- However a text is laid out, a tree is read with events like those given. -/
def Reads (σ : Site) (ok : Prop) (shapes : Option String → List Shape) (w : List Char) : Prop :=
  ∀ T : Tidier, T.Turns σ.pre w fun written after => ∃ t, σ.Content T ok shapes written after t

/-- Text after the gap of a site. -/
theorem Placed.spaced {T : Tidier} {ok : Prop} {w : List Char} {after : T.State}
    {kinds : List TokenKind} (hw : ∀ tail, AtToken (w ++ tail))
    (h : Places ok (T.May after) σ.outer σ.start σ.allowed (spaces σ.gap ++ w) kinds) :
    σ.Placed T ok (spaces σ.gap ++ w) after kinds where
  token hgap tail := by
    rw [hgap]
    exact hw tail
  blank hgap tail := by
    rw [hgap]
    rfl
  places := h

theorem Sound.reads_null (h : σ.Sound) :
    σ.Reads True (Tree.scalar "null" true).shapes (spaces σ.gap ++ endLine "null".toList) := by
  have hline : OneLine "null".toList (Tree.scalar "null" true).kinds := oneLine_plain isPlain_null
  have hwritten : ∀ (T : Tidier) (after : T.State), σ.Content T True (Tree.scalar "null" true).shapes
      (spaces σ.gap ++ "null\n".toList) after (.scalar "null" true) := fun T after =>
    { Placed.spaced (fun _ => atToken_cons (by decide) _) (hline.places _ _ _) with
      fits := .inl trivial
      untagged := rfl
      shapes := fun tag _ => (leaf_scalar _ _).shapes tag }
  intro T
  rcases σ.gap_cases with ⟨hgap, htag, hplace⟩ | hgap
  · have hpre := h.bare htag hplace
    have hturns := @Tidier.turns_line [] "null".toList T hline.clean hline.null
    rw [hgap, hpre]
    refine hturns.mono ?_
    rintro written after rfl
    exact ⟨_, hgap ▸ hwritten T after⟩
  · rw [hgap] at hwritten ⊢
    refine (T.turns_null h.clean).mono ?_
    rintro written after (rfl | ⟨hcolon, rfl⟩)
    · exact ⟨_, hwritten T after⟩
    · -- The null is left out, and nothing is read in its place.
      refine ⟨.absent, ⟨fun hzero => ?_, fun _ _ => rfl, Lexer.places_absent isFiller_nil _ _⟩,
        .inr ⟨rfl, hcolon⟩, rfl, fun tag htag => .cons (.null (.inl rfl) (.inr rfl) htag) .nil⟩
      rw [hgap] at hzero
      exact nomatch hzero

/-- A value on one line. -/
theorem Sound.reads_oneLine (h : σ.Sound) {w : List Char} {t : Tree} (hw : OneLine w t.kinds)
    (hnull : w = "null".toList → t = .scalar "null" true) (ht : t.Leaf) :
    σ.Reads True t.shapes (spaces σ.gap ++ endLine w) := by
  by_cases hwritten : w = "null".toList
  · rw [hnull hwritten, hwritten]
    exact h.reads_null
  · intro T
    have hclean : Clean (σ.pre ++ (spaces σ.gap ++ w)) :=
      Text.clean_append.2 ⟨h.clean, Text.clean_append.2 ⟨Text.clean_spaces _, hw.clean⟩⟩
    rw [hw.endLine, ← List.append_assoc]
    refine (T.turns_line hclean (h.not_endsInNull hw.null hwritten)).mono ?_
    rintro written after rfl
    rw [List.append_assoc]
    have hplaced : σ.Placed T True (spaces σ.gap ++ (w ++ ['\n'])) after t.kinds := by
      refine Placed.spaced (fun tail => ?_) (hw.places _ _ _)
      rw [List.append_assoc]
      exact hw.head _
    exact ⟨t, hplaced, .inl (ht.fits _), ht.untagged, fun tag _ => ht.shapes tag⟩

/-- What the flags for recognised blocks tell about a site. -/
structure Sees (σ : Site) (seen shared : Bool) : Prop where
  opens : seen = true → Opens σ.pre ∧ σ.place ≠ .document
  alone : shared = false → σ.sequence.sameLine = true → σ.pre = []

theorem Sound.reads_literal (h : σ.Sound) (hopens : Opens σ.pre) (hplace : σ.place ≠ .document)
    {s : String} (hs : IsKeptBlock s.toList) : σ.Reads True (Tree.scalar s false).shapes
      (spaces σ.gap ++ endLine (literalBlock σ.scalarIndent s.toList)) := by
  have hgap : σ.gap = 1 := σ.gap_cases.resolve_left fun hdocument => hplace hdocument.2.2
  have hindent : ∀ tail, indentOf (σ.pre ++ ' ' :: tail) < σ.scalarIndent := by
    obtain ⟨-, -, hindent⟩ := h.outer.resolve_left fun hdocument => hplace hdocument.1
    have hscalar : σ.indent < σ.scalarIndent := by
      rw [scalarIndent]
      cases hcases : σ.place with
      | document => exact absurd hcases hplace
      | _ => exact Nat.lt_add_of_pos_right (by decide)
    exact fun tail => Nat.lt_of_le_of_lt (hindent _) hscalar
  intro T
  rw [hgap]
  refine (T.turns_block hs h.clean hopens hindent).mono ?_
  rintro written after ⟨rfl, hkeep⟩
  refine ⟨.scalar s false, ⟨fun hzero => ?_, fun _ _ => rfl, ?_⟩, .inl trivial, rfl,
    fun tag _ => (leaf_scalar _ _).shapes tag⟩
  · rw [hgap] at hzero
    exact nomatch hzero
  · have hplaces := @Lexer.places_literal σ.outer σ.allowed s.toList hs.nonempty hs.printable σ.start 1
    rw [← h.scalarIndent_eq, String.ofList_toList] at hplaces
    have hmay : ∀ lines, T.May after lines → Lexer.AfterBlock s.toList lines := fun lines hlines =>
      ⟨hlines.1, fun hkept => hlines.2 (hkeep hkept)⟩
    exact @Places.mono _ _ _ _ _ _ _ _ hplaces hmay

/-- After a tag a value stands where values are printed. -/
theorem Sound.tagged (h : σ.Sound) (htag : σ.hasTag = false) (t : String) : (σ.tagged t).Sound := by
  have hspace : ' ' ∉ tagText t := fun hmem => nomatch isGap_of_mem_tagText hmem
  have hnull : ¬EndsInNull (tagText t) := by
    rintro ⟨key, hkey⟩
    exact hspace (hkey ▸ List.mem_append_right _ (by decide))
  have hlead : Clean σ.place.lead ∧ (σ.place ≠ .document → σ.place.lead = [' ']) := by
    cases σ.place <;> simp [Place.lead, Clean]
  refine ⟨Text.clean_append.2 ⟨h.clean, Text.clean_append.2 ⟨hlead.1, clean_tagText t⟩⟩, ?_,
    fun _ => .inr rfl, h.outer.imp id fun ⟨hplace, houter, hindent⟩ => ⟨hplace, houter, fun tail => ?_⟩,
    fun hno => (nomatch hno), fun hno => (nomatch hno)⟩
  · by_cases hplace : σ.place = .document
    · change ¬EndsInNull (σ.pre ++ (σ.place.lead ++ tagText t))
      rw [h.bare htag hplace, hplace]
      exact hnull
    · change ¬EndsInNull (σ.pre ++ (σ.place.lead ++ tagText t))
      rw [hlead.2 hplace]
      rintro ⟨key, hkey⟩
      rcases Profile.Layout.endsInNull_spaced hkey with ⟨htext, -⟩ | hends
      · obtain ⟨rest, hhead⟩ := Lexer.tagText_head t
        exact nomatch (List.cons.inj (hhead.symm.trans htext)).1
      · exact hnull hends
  · change indentOf (σ.pre ++ (σ.place.lead ++ tagText t) ++ tail) ≤ σ.indent
    rw [List.append_assoc]
    exact hindent _

/-- After a tag no literal block is recognised, and no list begins in the line. -/
theorem sees_tagged (σ : Site) (t : String) : (σ.tagged t).Sees false false := by
  refine ⟨fun h => (nomatch h), fun _ hline => ?_⟩
  have hsequence : (σ.tagged t).sequence.sameLine = false := by
    change (σ.place.sequence true σ.indent).sameLine = false
    cases σ.place <;> rfl
  exact nomatch hline.symm.trans hsequence

end Site

end GrammarProfile.Yaml
