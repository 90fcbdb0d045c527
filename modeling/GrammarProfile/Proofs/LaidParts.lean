import GrammarProfile.Proofs.LaidValues

/-!
What is read of lists and mappings once they are laid out, part by part, and of whole values.
-/
namespace GrammarProfile.Yaml

open Text (Clean)
open Profile.Layout (Tidier EndsInNull Opens IsKeptBlock indentOf)
open Lexer (Deeper Places Parts AtGap)

/-! ## Parts of collections -/

/-- Parts of a collection in a column, the first of them in a line that is begun. -/
def joinParts (column : Nat) : List (List Char) → List Char
  | [] => []
  | part :: rest => part ++ rest.flatMap (spaces column ++ ·)

theorem joinParts_cons_cons (column : Nat) (part next : List Char) (rest : List (List Char)) :
    joinParts column (part :: next :: rest) =
      part ++ (spaces column ++ joinParts column (next :: rest)) := by
  rw [joinParts, joinParts, List.flatMap_cons, List.append_assoc]

theorem layParts_eq (lead : List Char) (o : Opening) (part : List Char) (rest : List (List Char)) :
    layParts lead [] o (part :: rest) =
      if o.sameLine then lead ++ joinParts o.indent (part :: rest)
      else '\n' :: (spaces o.indent ++ joinParts o.indent (part :: rest)) := by
  rw [layParts, joinParts]
  split
  · rw [List.append_assoc]
  · rw [List.flatMap_cons, List.append_assoc]
    rfl

/-- What stands in a line before a part of a collection in a column. -/
structure PartStart (I : List Nat) (column : Nat) (pre : List Char) : Prop where
  clean : Clean pre
  indent : ∀ r, r ≠ [] → AtToken r → indentOf (pre ++ r) ≤ column
  deeper : Deeper I column

theorem partStart_spaces {I : List Nat} {column : Nat} (h : Deeper I column) :
    PartStart I column (spaces column) where
  clean := Text.clean_spaces column
  indent r _ hr := by
    rw [Profile.Layout.indentOf_spaces, Site.indentOf_token hr]
    exact Nat.le_refl _
  deeper := h

namespace Site

/-- After the dash of an item, which is the last of `pre`. -/
def item (I : List Nat) (column : Nat) (pre : List Char) : Site :=
  ⟨.afterDash, false, column, pre, column :: I, some (column + 1), true⟩

/-- After the colon of a key in the same line. -/
def value (I : List Nat) (column : Nat) (pre : List Char) : Site :=
  ⟨.afterKey, false, column, pre, column :: I, none, false⟩

/-- After the mark of a key or a value. -/
def marked (I : List Nat) (column : Nat) (pre : List Char) : Site :=
  ⟨.afterMark, false, column, pre, column :: I, some (column + 1), true⟩

end Site

variable {I : List Nat} {column : Nat} {pre : List Char}

/-- A value after the indicator of a part, with which `w` ends. -/
theorem PartStart.sound (h : PartStart I column pre) {w : List Char} {c : Char}
    (hhead : ∀ tail, AtToken (w ++ tail)) (hclean : Clean w) (hlast : w.getLast? = some c)
    (hc : c ∈ "-?:".toList) {σ : Site} (hpre : σ.pre = pre ++ w) (hindent : σ.indent = column)
    (houter : σ.outer = column :: I) (hplace : σ.place ≠ .document)
    (hcolon : c = ':' → σ.inPair = true)
    (hstart : σ.place ≠ .afterKey → σ.allowed = true ∧ σ.start = some (column + 1)) : σ.Sound := by
  have hend : σ.pre.getLast? = some c := by rw [hpre, List.getLast?_append, hlast]; rfl
  have hne : w ≠ [] := by
    rintro rfl
    exact nomatch hlast
  refine ⟨hpre ▸ Text.clean_append.2 ⟨h.clean, hclean⟩, fun hnull => ?_,
    fun hlast => .inl (hcolon (Option.some.inj (hend.symm.trans hlast))),
    .inr ⟨hplace, ⟨I, hindent ▸ houter, hindent ▸ h.deeper⟩, fun tail => ?_⟩,
    fun _ hdocument => absurd hdocument hplace, fun _ hkey => ?_⟩
  · have hmarks : ∀ c ∈ "-?:".toList, c ≠ 'l' := List.all_iff_forall_prop.1 (by decide)
    exact hmarks c hc (Option.some.inj (hend.symm.trans (Profile.Layout.endsInNull_last hnull)))
  · rw [hpre, hindent, List.append_assoc]
    exact h.indent _ (List.append_ne_nil_of_left_ne_nil hne _) (hhead tail)
  · rw [if_neg hplace, hindent]
    exact hstart hkey

theorem clean_mark {c : Char} (h : c ∈ "-?:".toList) : Clean [c] := by
  have hmarks : ∀ c ∈ "-?:".toList, c ≠ '\n' ∧ c ≠ '\r' := List.all_iff_forall_prop.1 (by decide)
  exact Text.clean_cons.2 ⟨hmarks c h, Text.clean_nil⟩

theorem atToken_mark {c : Char} (h : c ∈ "-?:".toList) (tail : List Char) : AtToken (c :: tail) := by
  have hmarks : ∀ c ∈ "-?:".toList, isTokenHead c = true := List.all_iff_forall_prop.1 (by decide)
  exact atToken_cons (hmarks c h) tail

theorem PartStart.item_sound (h : PartStart I column pre) :
    (Site.item I column (pre ++ ['-'])).Sound :=
  h.sound (w := ['-']) (c := '-') (atToken_mark (by decide)) (clean_mark (by decide)) rfl (by decide)
    rfl rfl rfl (by simp [Site.item]) (by simp) fun _ => ⟨rfl, rfl⟩

theorem PartStart.marked_sound (h : PartStart I column pre) {c : Char} (hc : c ∈ "?:".toList) :
    (Site.marked I column (pre ++ [c])).Sound := by
  have hmark : c ∈ "-?:".toList := List.mem_cons_of_mem _ hc
  exact h.sound (w := [c]) (c := c) (atToken_mark hmark) (clean_mark hmark) rfl hmark rfl rfl rfl
    (by simp [Site.marked]) (fun _ => rfl) fun _ => ⟨rfl, rfl⟩

theorem PartStart.value_sound (h : PartStart I column pre) {ok : Prop} {w : List Char}
    {kinds : List TokenKind} (hw : KeyText ok w kinds) :
    (Site.value I column (pre ++ (w ++ [':']))).Sound :=
  h.sound (w := w ++ [':']) (c := ':') (fun tail => by rw [List.append_assoc]; exact hw.head _)
    (Text.clean_append.2 ⟨clean_of_not_break hw.breaks, clean_mark (by decide)⟩) (by simp)
    (by decide) rfl rfl rfl (by simp [Site.value]) (fun _ => rfl) fun hkey => absurd rfl hkey

/-- What is read of the parts of a collection in a column, laid out as `w`. -/
structure PartsRead (T : Tidier) (ok : Prop) (I : List Nat) (column : Nat) (kind : TokenKind)
    (w : List Char) (after : T.State) (kinds : List TokenKind) : Prop where
  nonempty : w ≠ []
  head : ∀ tail, AtToken (w ++ tail)
  parts : ∀ opened : Bool, Parts ok (T.May after) I column opened kind w kinds

/-- Parts, and further ones in lines of their own. -/
theorem PartsRead.append {T : Tidier} {first second : Prop} {between after : T.State}
    {kind : TokenKind} {v w : List Char} {ks₁ ks₂ : List TokenKind} {blanks : List (List Char)}
    (h : PartsRead T first I column kind v between ks₁)
    (hrest : PartsRead T second I column kind w after ks₂) (hblanks : T.May between blanks) :
    PartsRead T (first ∧ second) I column kind (v ++ (fill blanks ++ (spaces column ++ w))) after
      (ks₁ ++ ks₂) where
  nonempty := List.append_ne_nil_of_left_ne_nil h.nonempty _
  head tail := by
    rw [List.append_assoc]
    exact h.head _
  parts opened := Parts.append (h.parts opened) (hrest.parts true) hrest.head hrest.nonempty
    (fun line hline => hblanks.1 line hline ▸ isFiller_nil) hblanks

/-! ## Collections in their places -/

namespace Site

variable {σ : Site} {o : Opening}

theorem isFiller_blanks {blanks : List (List Char)} (h : ∀ line ∈ blanks, line = []) :
    ∀ line ∈ [] :: blanks, IsFiller line :=
  List.forall_mem_cons.2 ⟨isFiller_nil, fun line hline => h line hline ▸ isFiller_nil⟩

/-- A collection is read where it stands if its parts are read from where they begin. -/
theorem Begins.exists_start (hσ : σ.Sound) (h : σ.Begins o) : ∃ pre, PartStart σ.outer o.indent pre ∧
    (o.sameLine = false ∨ σ.pre = [] → ∃ n, pre = spaces n) ∧
    ∀ {T : Tidier} {ok : Prop} {kind : TokenKind} {α : Type} {Q : α → Prop}
      {kinds : α → List TokenKind} {part : List Char} {rest : List (List Char)},
      (T.Turns pre (joinParts o.indent (part :: rest)) fun w after =>
        ∃ x, Q x ∧ PartsRead T ok σ.outer o.indent kind w after (kinds x)) →
      T.Turns σ.pre (layParts (spaces σ.gap) [] o (part :: rest)) fun w after =>
        ∃ x, Q x ∧ σ.Placed T ok w after (kind :: kinds x ++ [.blockEnd]) := by
  cases h with
  | line hline hallowed hstart hdeeper hindent =>
      obtain ⟨column, hstart, hcolumn⟩ := hstart
      refine ⟨σ.pre ++ spaces σ.gap, ⟨Text.clean_append.2 ⟨hσ.clean, Text.clean_spaces _⟩, ?_, hdeeper⟩,
        fun h => ⟨σ.gap, ?_⟩, fun {T ok kind α Q kinds part rest} hturns => ?_⟩
      · intro r hne hr
        rw [List.append_assoc]
        exact hindent r hne hr
      · rcases h with h | h
        · exact nomatch hline.symm.trans h
        · rw [h, List.nil_append]
      · rw [layParts_eq, if_pos hline]
        refine (Tidier.Turns.within hturns).mono ?_
        rintro written after ⟨w, rfl, x, hx, hread⟩
        refine ⟨x, hx, Placed.spaced hread.head ?_⟩
        rw [hstart, hallowed]
        exact Parts.places_line (hcolumn ▸ hread.parts false) hread.head
  | newLine hline hgap hdeeper =>
      refine ⟨spaces o.indent, partStart_spaces hdeeper, fun _ => ⟨_, rfl⟩,
        fun {T ok kind α Q kinds part rest} hturns => ?_⟩
      rw [layParts_eq, if_neg (by rw [hline]; decide)]
      refine (hturns.newLine hσ.clean hσ.null).mono ?_
      rintro written after ⟨blanks, w, rfl, hblanks, x, hx, hread⟩
      refine ⟨x, hx, fun hzero => ?_, fun _ _ => rfl, ?_⟩
      · exact nomatch hzero.symm.trans hgap
      · exact Parts.places_newLine (hread.parts false) hdeeper hread.head (isFiller_blanks hblanks)
          (List.cons_ne_nil _ _) _

/-- So is a list at the indentation of the mapping around it. -/
theorem Indentless.exists_start (hσ : σ.Sound) (h : σ.Indentless) :
    ∃ I, PartStart I σ.sequence.indent (spaces σ.sequence.indent) ∧
    ∀ {T : Tidier} {ok : Prop} {kind : TokenKind} {α : Type} {Q : α → Prop}
      {kinds : α → List TokenKind} {part : List Char} {rest : List (List Char)},
      (T.Turns (spaces σ.sequence.indent) (joinParts σ.sequence.indent (part :: rest)) fun w after =>
        ∃ x, Q x ∧ PartsRead T ok I σ.sequence.indent kind w after (kinds x)) →
      T.Turns σ.pre (layParts (spaces σ.gap) [] σ.sequence (part :: rest)) fun w after =>
        ∃ x, Q x ∧ σ.Placed T ok w after (kinds x) := by
  obtain ⟨I, houter, hdeeper⟩ := h.outer
  refine ⟨I, partStart_spaces hdeeper, fun {T ok kind α Q kinds part rest} hturns => ?_⟩
  rw [layParts_eq, if_neg (by rw [h.line]; decide)]
  refine (hturns.newLine hσ.clean hσ.null).mono ?_
  rintro written after ⟨blanks, w, rfl, hblanks, x, hx, hread⟩
  refine ⟨x, hx, fun hzero => ?_, fun _ _ => rfl, ?_⟩
  · exact nomatch hzero.symm.trans h.gap
  · rw [houter]
    exact Parts.places_indentless (hread.parts true) hdeeper hread.head (isFiller_blanks hblanks)
      (List.cons_ne_nil _ _) _

end Site

/-! ## Values, items and pairs -/

/-- A value in its place, with a tag or without. -/
structure Whole (σ : Site) (T : Tidier) (ok : Prop) (shapes : List Shape) (w : List Char)
    (after : T.State) (t : Tree) : Prop extends σ.Placed T ok w after t.kinds where
  fits : t.Fits σ.inPair
  shapes : List.Forall₂ Alike shapes (t.shapes none)

namespace Value

/-- Without its tag a value is read as a tree with its events however it is laid out. -/
def ContentLaid (v : Value) : Prop :=
  ∀ ⦃σ : Site⦄ ⦃seen shared : Bool⦄, σ.Sound → σ.Sees seen shared →
    v.blocksSeen seen shared = true → σ.Reads v.Readable (fun tag => v.shapes tag) (σ.text v)

/-- So it is with the tag that it may have. -/
def WholeLaid (v : Value) : Prop :=
  ∀ ⦃σ : Site⦄ ⦃seen shared : Bool⦄, σ.hasTag = false → σ.Sound → σ.Sees seen shared →
    v.blocksSeen seen shared = true → ∀ T : Tidier,
      T.Turns σ.pre (v.print σ.place σ.indent []) fun w after =>
        ∃ t, Whole σ T v.Readable (v.shapes none) w after t

/-- Trees that items are read as. -/
structure ItemTrees (shapes : List Shape) (ts : List Tree) : Prop where
  nonempty : ts ≠ []
  fits : Tree.ItemsFit ts
  shapes : List.Forall₂ Alike shapes (Tree.itemShapes ts)

structure PairTrees (shapes : List Shape) (ts : List (Tree × Tree)) : Prop where
  fits : Tree.PairsFit ts
  shapes : List.Forall₂ Alike shapes (Tree.pairShapes ts)

/-- The items of a list are read as trees with their events however they are laid out. -/
def ItemsLaid (items : List Value) : Prop :=
  ∀ ⦃I : List Nat⦄ ⦃column : Nat⦄ ⦃pre : List Char⦄ ⦃isFirst : Bool⦄, PartStart I column pre →
    (isFirst = true → ∃ n, pre = spaces n) → itemsSeen isFirst items = true → items ≠ [] →
    ∀ T : Tidier, T.Turns pre (joinParts column (printItems column items)) fun w after =>
      ∃ ts, ItemTrees (itemShapes items) ts ∧
        PartsRead T (ItemsReadable items) I column .blockSequence w after (Tree.itemKinds ts)

def PairsLaid (pairs : List (Value × Value)) : Prop :=
  ∀ ⦃I : List Nat⦄ ⦃column : Nat⦄ ⦃pre : List Char⦄, PartStart I column pre →
    pairsSeen pairs = true → pairs ≠ [] →
    ∀ T : Tidier, T.Turns pre (joinParts column (printPairs column pairs)) fun w after =>
      ∃ ts, PairTrees (pairShapes pairs) ts ∧
        PartsRead T (PairsReadable pairs) I column .blockMapping w after (Tree.pairKinds ts)

variable {I : List Nat} {column : Nat} {pre : List Char}

/-- A value after a dash or a mark that begins a part. -/
theorem WholeLaid.marked {v : Value} (h : v.WholeLaid) {c : Char} {σ : Site} {seen : Bool}
    (hpre : σ.pre = pre ++ [c]) (htag : σ.hasTag = false) (hσ : σ.Sound) (hsees : σ.Sees seen true)
    (hgap : σ.gap = 1) (hseen : v.blocksSeen seen true = true) :
    ∀ T : Tidier, T.Turns pre (c :: v.print σ.place σ.indent []) fun w after =>
      ∃ (tail : List Char) (t : Tree), w = c :: tail ∧ Whole σ T v.Readable (v.shapes none) tail after t ∧
        ∀ more, AtGap (tail ++ more) := by
  have hturns := h htag hσ hsees hseen
  intro T
  refine (Tidier.Turns.within (u := [c]) (hpre ▸ hturns T)).mono ?_
  rintro written after ⟨tail, rfl, t, ht⟩
  exact ⟨tail, t, rfl, ht, ht.blank hgap⟩

/-- One item. -/
theorem WholeLaid.item {v : Value} (h : v.WholeLaid) {isFirst : Bool} (hpre : PartStart I column pre)
    (hfirst : isFirst = true → ∃ n, pre = spaces n) (hseen : v.blocksSeen isFirst true = true) :
    ∀ T : Tidier, T.Turns pre ('-' :: v.print .afterDash column []) fun w after =>
      ∃ t : Tree, (t.Fits false ∧ List.Forall₂ Alike (v.shapes none) (t.shapes none)) ∧
        PartsRead T v.Readable I column .blockSequence w after (.entry :: t.kinds) := by
  have hsees : (Site.item I column (pre ++ ['-'])).Sees isFirst true := by
    refine ⟨fun h => ⟨.inr ?_, by simp [Site.item]⟩, fun h => absurd h (by decide)⟩
    obtain ⟨n, rfl⟩ := hfirst h
    exact ⟨n, rfl⟩
  intro T
  refine (h.marked rfl rfl hpre.item_sound hsees rfl hseen T).mono ?_
  rintro written after ⟨tail, t, rfl, ht, hgap⟩
  exact ⟨t, ⟨ht.fits, ht.shapes⟩, List.cons_ne_nil _ _, fun _ => atToken_cons (by decide) _,
    fun opened => Lexer.parts_entry ht.places hgap⟩

theorem WholeLaid.items {v : Value} {rest : List Value} (h : v.WholeLaid) (hrest : ItemsLaid rest) :
    ItemsLaid (v :: rest) := by
  intro I column pre isFirst hpre hfirst hseen _
  rw [itemsSeen, Bool.and_eq_true] at hseen
  have hturns := h.item hpre hfirst hseen.1
  intro T
  cases rest with
  | nil =>
      rw [printItems, printItems, joinParts, List.flatMap_nil, List.append_nil]
      refine (hturns T).mono ?_
      rintro written after ⟨t, ⟨hfits, hshapes⟩, hread⟩
      refine ⟨[t], ⟨List.cons_ne_nil _ _, ⟨hfits, trivial⟩, List.rel_append hshapes .nil⟩, ?_⟩
      rw [Tree.itemKinds, Tree.itemKinds, List.append_nil, ItemsReadable, ItemsReadable, and_true]
      exact hread
  | cons v' rest =>
      have hturns' := hrest (partStart_spaces hpre.deeper) (fun _ => ⟨column, rfl⟩) hseen.2
        (List.cons_ne_nil _ _)
      rw [printItems, printItems, joinParts_cons_cons]
      refine ((hturns T).append (hturns' T)).mono ?_
      rintro written after ⟨first, between, blanks, last, rfl, ⟨t, ⟨hfits, hshapes⟩, hread⟩, hblanks,
        ts, hts, hread'⟩
      exact ⟨t :: ts, ⟨List.cons_ne_nil _ _, ⟨hfits, hts.fits⟩, List.rel_append hshapes hts.shapes⟩,
        hread.append hread' hblanks⟩

/-- One pair of a mapping as it is written. -/
def pairText (column : Nat) (k v : Value) : List Char :=
  if isSimpleKey 0 k then simpleKeyText k ++ ':' :: print .afterKey column [] v
  else '?' :: print .afterMark column [] k ++ spaces column ++ ':' :: print .afterMark column [] v

def pairSeen (k v : Value) : Bool :=
  if isSimpleKey 0 k then blocksSeen true false v
  else blocksSeen false true k && blocksSeen true true v

/-- Whether one pair of a mapping is cut into tokens to its end. -/
def pairReadable (k v : Value) : Prop :=
  (k.Readable ∧ (isSimpleKey 0 k = true → k.simpleKeyText.length ≤ Lexer.longestKey)) ∧ v.Readable

theorem pairsReadable_cons (k v : Value) (rest : List (Value × Value)) :
    PairsReadable ((k, v) :: rest) = (pairReadable k v ∧ PairsReadable rest) := by
  rw [PairsReadable, pairReadable]

theorem sees_value (I : List Nat) (column : Nat) (w : List Char) :
    (Site.value I column (pre ++ (w ++ [':']))).Sees true false :=
  ⟨fun _ => ⟨.inl (by simp [Site.value]), by simp [Site.value]⟩, fun _ h => nomatch h⟩

theorem sees_key (I : List Nat) (column : Nat) : (Site.marked I column (pre ++ ['?'])).Sees false true :=
  ⟨fun h => (nomatch h), fun h => (nomatch h)⟩

theorem sees_markedValue (I : List Nat) (column : Nat) :
    (Site.marked I column (pre ++ [':'])).Sees true true :=
  ⟨fun _ => ⟨.inl (by simp [Site.marked]), by simp [Site.marked]⟩, fun h => nomatch h⟩

/-- One pair. -/
theorem WholeLaid.pair {k v : Value} (hk : k.WholeLaid) (hsingle : k.SingleTags) (hv : v.WholeLaid)
    (hpre : PartStart I column pre) (hseen : pairSeen k v = true) :
    ∀ T : Tidier, T.Turns pre (pairText column k v) fun w after =>
      ∃ t : Tree × Tree, (t.1.Fits true ∧ t.2.Fits true ∧
          List.Forall₂ Alike (k.shapes none ++ v.shapes none) (t.1.shapes none ++ t.2.shapes none)) ∧
        PartsRead T (pairReadable k v) I column .blockMapping w after
          (.key :: t.1.kinds ++ .value :: t.2.kinds) := by
  intro T
  rw [pairSeen] at hseen
  unfold pairText pairReadable
  split at hseen
  · next hsimple =>
    obtain ⟨key, hkey, hfits, hshapes⟩ := exists_keyText hsingle hsimple
    have hturns := hv rfl (hpre.value_sound hkey) (sees_value I column _) hseen
    have htext : ∀ w : List Char, k.simpleKeyText ++ ':' :: w = (k.simpleKeyText ++ [':']) ++ w := by simp
    rw [if_pos hsimple, htext, forall_prop_of_true hsimple]
    refine (Tidier.Turns.within (hturns T)).mono ?_
    rintro written after ⟨tail, rfl, t, ht⟩
    rw [← htext]
    refine ⟨(key, t), ⟨hfits, ht.fits, List.rel_append hshapes ht.shapes⟩,
      List.append_ne_nil_of_right_ne_nil _ (List.cons_ne_nil _ _), fun more => ?_,
      fun opened => Lexer.parts_pair hkey.inline hkey.breaks ht.places (ht.blank rfl)⟩
    rw [List.append_assoc]
    exact hkey.head _
  · next hsimple =>
    rw [Bool.and_eq_true] at hseen
    have hkeys := hk.marked rfl rfl (hpre.marked_sound (by decide)) (sees_key I column) rfl hseen.1
    have hvalues := hv.marked rfl rfl
      ((partStart_spaces hpre.deeper).marked_sound (by decide)) (sees_markedValue I column) rfl hseen.2
    rw [if_neg hsimple, List.append_assoc, forall_prop_of_false hsimple, and_true]
    refine ((hkeys T).append (hvalues T)).mono ?_
    rintro written after ⟨first, between, blanks, last, rfl, ⟨key, k', rfl, hk', hkgap⟩, hblanks,
      tail, v', rfl, hv', hvgap⟩
    exact ⟨(k', v'), ⟨hk'.fits, hv'.fits, List.rel_append hk'.shapes hv'.shapes⟩,
      List.cons_ne_nil _ _, fun _ => atToken_cons (by decide) _,
      fun opened => Lexer.parts_marked hk'.places hv'.places hkgap hvgap
        (fun line hline => hblanks.1 line hline ▸ isFiller_nil) hblanks⟩

theorem WholeLaid.pairs {k v : Value} {rest : List (Value × Value)} (hk : k.WholeLaid)
    (hsingle : k.SingleTags) (hv : v.WholeLaid) (hrest : PairsLaid rest) :
    PairsLaid ((k, v) :: rest) := by
  intro I column pre hpre hseen _
  rw [pairsSeen, Bool.and_eq_true] at hseen
  have hturns := hk.pair hsingle hv hpre hseen.1
  intro T
  cases rest with
  | nil =>
      rw [printPairs, printPairs, joinParts, List.flatMap_nil, List.append_nil]
      refine (hturns T).mono ?_
      rintro written after ⟨t, ⟨hkey, hvalue, hshapes⟩, hread⟩
      refine ⟨[t], ⟨⟨hkey, hvalue, trivial⟩, ?_⟩, ?_⟩
      · rw [Tree.pairShapes, ← List.append_assoc]
        exact List.rel_append hshapes .nil
      · rw [pairsReadable_cons, PairsReadable, and_true]
        simpa [Tree.pairKinds] using hread
  | cons p rest =>
      have hturns' := hrest (partStart_spaces hpre.deeper) hseen.2 (List.cons_ne_nil _ _)
      obtain ⟨k', v'⟩ := p
      rw [printPairs, printPairs, joinParts_cons_cons]
      refine ((hturns T).append (hturns' T)).mono ?_
      rintro written after ⟨first, between, blanks, last, rfl, ⟨t, ⟨hkey, hvalue, hshapes⟩, hread⟩,
        hblanks, ts, hts, hread'⟩
      refine ⟨t :: ts, ⟨⟨hkey, hvalue, hts.fits⟩, ?_⟩, ?_⟩
      · rw [Tree.pairShapes, ← List.append_assoc]
        exact List.rel_append hshapes hts.shapes
      · rw [pairsReadable_cons]
        simpa [Tree.pairKinds] using hread.append hread' hblanks

/-! ## Whole values -/

/-- A list is read as one where it stands. -/
theorem ItemsLaid.content {item : Value} {items : List Value} (h : ItemsLaid (item :: items)) :
    (sequence (item :: items)).ContentLaid := by
  intro σ seen shared hσ hsees hseen
  rw [blocksSeen] at hseen
  rcases hσ.begins_sequence with hbegins | hbegins
  · obtain ⟨pre, hstart, hspaces, hplaced⟩ := hbegins.exists_start hσ
    have hfirst : (!shared) = true → ∃ n, pre = spaces n := by
      intro hshared
      rw [Bool.not_eq_true'] at hshared
      refine hspaces ?_
      cases hline : σ.sequence.sameLine with
      | false => exact .inl rfl
      | true => exact .inr (hsees.alone hshared hline)
    intro T
    refine (hplaced (h hstart hfirst hseen (List.cons_ne_nil _ _) T)).mono ?_
    rintro written after ⟨ts, hts, hplaced⟩
    exact ⟨.sequence false ts, hplaced, .inl ⟨fun h => (nomatch h), hts.fits⟩, rfl, fun tag _ =>
      .cons (.same fun _ h => nomatch h) (List.rel_append hts.shapes (.cons (.same fun _ h => nomatch h) .nil))⟩
  · obtain ⟨I, hstart, hplaced⟩ := hbegins.exists_start hσ
    intro T
    refine (hplaced (h hstart (fun _ => ⟨_, rfl⟩) hseen (List.cons_ne_nil _ _) T)).mono ?_
    rintro written after ⟨ts, hts, hplaced⟩
    exact ⟨.sequence true ts, hplaced, .inl ⟨fun _ => ⟨hbegins.inPair, hts.nonempty⟩, hts.fits⟩, rfl,
      fun tag _ => .cons (.same fun _ h => nomatch h)
        (List.rel_append hts.shapes (.cons (.same fun _ h => nomatch h) .nil))⟩

/-- So is a mapping. -/
theorem PairsLaid.content {pair : Value × Value} {pairs : List (Value × Value)}
    (h : PairsLaid (pair :: pairs)) : (mapping (pair :: pairs)).ContentLaid := by
  intro σ seen shared hσ _ hseen
  rw [blocksSeen] at hseen
  obtain ⟨pre, hstart, -, hplaced⟩ := hσ.begins_mapping.exists_start hσ
  intro T
  refine (hplaced (h hstart hseen (List.cons_ne_nil _ _) T)).mono ?_
  rintro written after ⟨ts, hts, hplaced⟩
  exact ⟨.mapping ts, hplaced, .inl hts.fits, rfl, fun tag _ => .cons (.same fun _ h => nomatch h)
    (List.rel_append hts.shapes (.cons (.same fun _ h => nomatch h) .nil))⟩

theorem scalarText_eq_null {n : Nat} {cs : List Char} (h : scalarText n cs = "null".toList)
    (hstyle : Style.ofText cs ≠ .literal) :
    cs = "null".toList ∧ (Style.ofText cs == .plain) = true := by
  rw [scalarText] at h
  generalize Style.ofText cs = style at h hstyle
  cases style with
  | plain => exact ⟨h, rfl⟩
  | singleQuoted => exact absurd (List.cons.inj h).1 (by decide)
  | doubleQuoted => exact absurd (List.cons.inj h).1 (by decide)
  | literal => exact absurd rfl hstyle

theorem isKeptBlock_of_literal {cs : List Char} (hstyle : Style.ofText cs = .literal)
    (hlines : keepsLines cs = true) : IsKeptBlock cs := by
  have hstyled := styled cs
  rw [hstyle] at hstyled
  cases hstyled with
  | literal hline hprintable => exact ⟨List.ne_nil_of_mem hline, hprintable, hlines⟩

/-- A text is read as it is, in the style that it is written in. -/
theorem content_string (s : String) : (string s).ContentLaid := by
  intro σ seen shared hσ hsees hseen
  by_cases hstyle : Style.ofText s.toList = .literal
  · rw [blocksSeen, hstyle, Bool.or_eq_true, Bool.and_eq_true] at hseen
    obtain ⟨hseen, hlines⟩ := hseen.resolve_left (by decide)
    obtain ⟨hopens, hplace⟩ := hsees.opens hseen
    have hreads := hσ.reads_literal hopens hplace (isKeptBlock_of_literal hstyle hlines)
    have htext : σ.text (string s) = spaces σ.gap ++ endLine (literalBlock σ.scalarIndent s.toList) := by
      rw [Site.text, lineText, scalarText, hstyle]
      all_goals simp
    have hshapes : (fun tag => (string s).shapes tag) = (Tree.scalar s false).shapes := by
      funext tag
      rw [shapes, hstyle]
      rfl
    rw [hshapes, htext, Readable]
    · exact hreads
    all_goals simp
  · have hline := oneLine_text hstyle (Lexer.least σ.outer - 1 + 1)
    rw [← hσ.scalarIndent_eq] at hline
    rw [String.ofList_toList] at hline
    have htree := leaf_scalar s (Style.ofText s.toList == .plain)
    refine hσ.reads_oneLine (t := .scalar _ _) hline (fun hnull => ?_) htree
    obtain ⟨hcs, hplain⟩ := scalarText_eq_null hnull hstyle
    rw [hplain, String.toList_inj.1 hcs]

theorem content_line {v : Value} {t : Tree} (hv : ∀ n, OneLine (v.lineText n) t.kinds)
    (hnull : ∀ n, v.lineText n = "null".toList → t = .scalar "null" true) (ht : t.Leaf)
    (htext : ∀ σ : Site, σ.text v = spaces σ.gap ++ endLine (v.lineText σ.scalarIndent))
    (hreadable : v.Readable = True) (hshapes : ∀ tag, v.shapes tag = t.shapes tag) :
    v.ContentLaid := by
  intro σ seen shared hσ _ _
  rw [htext, hreadable, funext hshapes]
  exact hσ.reads_oneLine (hv _) (hnull _) ht

/-- A value that is written plainly. -/
theorem content_plain {v : Value} {s : String} (hv : ∀ n, v.lineText n = s.toList) (hs : IsPlain s.toList)
    (htext : ∀ σ : Site, σ.text v = spaces σ.gap ++ endLine (v.lineText σ.scalarIndent))
    (hreadable : v.Readable = True) (hshapes : ∀ tag, v.shapes tag = [⟨.scalar s true, tag, none⟩]) :
    v.ContentLaid := by
  refine content_line (t := .scalar s true) (fun n => ?_) (fun n hnull => ?_) (leaf_scalar _ _) htext
    hreadable hshapes
  · rw [hv]
    have hline := oneLine_plain hs
    rwa [String.ofList_toList] at hline
  · rw [hv n] at hnull
    rw [String.toList_inj.1 hnull]

theorem content_emptyList : (sequence []).ContentLaid := by
  refine content_line (v := sequence []) (t := .flow []) (fun _ => oneLine_emptyList) (fun n h => ?_) leaf_emptyList
    (fun _ => rfl) rfl fun _ => rfl
  rw [lineText] at h
  exact absurd h (by decide)

theorem content_emptyMapping : (mapping []).ContentLaid := by
  refine content_line (v := mapping []) (t := .emptyMapping) (fun _ => oneLine_emptyMapping) (fun n h => ?_)
    leaf_emptyMapping (fun _ => rfl) rfl fun _ => rfl
  rw [lineText] at h
  exact absurd h (by decide)

theorem lead_eq {σ : Site} (h : σ.hasTag = false) : σ.place.lead = spaces σ.gap := by
  obtain ⟨place, hasTag, indent, pre, outer, start, allowed⟩ := σ
  obtain rfl : hasTag = false := h
  cases place <;> rfl

/-- What is written for a value without a tag. -/
theorem print_eq {σ : Site} (h : σ.hasTag = false) {v : Value} (hv : v.isTagged = false) :
    v.print σ.place σ.indent [] = σ.text v := by
  have hlead := lead_eq h
  have hline : ∀ w, σ.place.scalarLine [] w = spaces σ.gap ++ endLine w := by
    intro w
    rw [Place.scalarLine, hlead, List.isEmpty_nil, if_pos rfl, List.append_nil]
  have hsequence : σ.place.sequence (!([] : List Char).isEmpty) σ.indent = σ.sequence := by
    rw [Site.sequence, h]
    rfl
  have hmapping : σ.place.mapping (!([] : List Char).isEmpty) σ.indent = σ.mapping := by
    rw [Site.mapping, h]
    rfl
  cases v with
  | sequence items =>
      cases items with
      | nil => exact hline _
      | cons item items => rw [print, hlead, hsequence, Site.text]
  | mapping pairs =>
      cases pairs with
      | nil => exact hline _
      | cons pair pairs => rw [print, hlead, hmapping, Site.text]
  | tagged t v => exact nomatch hv
  | _ => exact hline _

theorem ContentLaid.whole {v : Value} (h : v.ContentLaid) (hv : v.isTagged = false) : v.WholeLaid := by
  intro σ seen shared htag hσ hsees hseen T
  rw [print_eq htag hv]
  refine (h hσ hsees hseen T).mono ?_
  rintro written after ⟨t, ht⟩
  refine ⟨t, ht.toPlaced, ht.fits.elim id ?_, ht.shapes none fun _ h => nomatch h⟩
  rintro ⟨rfl, hcolon⟩
  exact (hσ.colon hcolon).resolve_right (by rw [htag]; decide)

/-- What is written for a value after its tag. -/
theorem print_tagged {σ : Site} {v : Value} (hv : v.isTagged = false) (t : String) :
    (tagged t v).print σ.place σ.indent [] = σ.place.lead ++ tagText t ++ (σ.tagged t).text v := by
  obtain ⟨rest, htag⟩ := Lexer.tagText_head t
  have hempty : (tagText t).isEmpty = false := by rw [htag]; rfl
  have hline : ∀ w, σ.place.scalarLine (tagText t) w = σ.place.lead ++ tagText t ++ (spaces 1 ++ endLine w) := by
    intro w
    rw [Place.scalarLine, hempty]
    simp [spaces]
  have hparts : ∀ (o : Opening) (part : List Char) (rest : List (List Char)), o.sameLine = false →
      layParts σ.place.lead (tagText t) o (part :: rest) =
        σ.place.lead ++ tagText t ++ layParts (spaces 1) [] o (part :: rest) := by
    intro o part rest ho
    simp [layParts, ho, hempty]
  rw [print]
  cases v with
  | sequence items =>
      cases items with
      | nil => exact hline _
      | cons item items =>
          rw [print, hempty, printItems, hparts]
          · rfl
          · cases σ.place <;> rfl
  | mapping pairs =>
      cases pairs with
      | nil => exact hline _
      | cons pair pairs =>
          rw [print, hempty, printPairs, hparts]
          · rfl
          · cases σ.place <;> rfl
  | tagged t v => cases hv
  | _ => exact hline _

theorem ContentLaid.tagged {v : Value} (h : v.ContentLaid) (hv : v.isTagged = false) (t : String) :
    (Value.tagged t v).WholeLaid := by
  intro σ seen shared htag hσ _ hseen
  rw [blocksSeen] at hseen
  obtain ⟨hasHandle, suffix, hwritten, hown⟩ := exists_tag t
  intro T
  rw [print_tagged hv, lead_eq htag, shapes, Tag.read?_eq hwritten]
  have hturns := h (hσ.tagged htag t) (σ.sees_tagged t) hseen T
  rw [Site.tagged, lead_eq htag] at hturns
  refine (Tidier.Turns.within hturns).mono ?_
  rintro written after ⟨w, rfl, tree, htree⟩
  have hbreaks : ∀ c ∈ tagText t, isBreak c = false := fun c hc =>
    (not_gap_facts (isGap_of_mem_tagText hc)).2
  have hplaced : σ.Placed T (Value.tagged t v).Readable (spaces σ.gap ++ (tagText t ++ w)) after
      (Tree.tagged hasHandle suffix tree).kinds := by
    refine Site.Placed.spaced (fun tail => ?_) ?_
    · rw [List.append_assoc]
      exact Lexer.atToken_tag t _
    · rw [Tree.kinds, ← hwritten]
      exact Lexer.Inline.before (Lexer.inline_tag t) htree.places hbreaks (Lexer.atToken_tag t)
        (htree.blank rfl) σ.start σ.gap
  rw [List.append_assoc]
  exact ⟨.tagged hasHandle suffix tree, hplaced,
    ⟨htree.untagged, htree.fits.symm.imp And.left id⟩, htree.shapes _ hown⟩

mutual

/-- However it is laid out, a value is read as a tree with the same events where it stands. -/
theorem laid (v : Value) (h : v.SingleTags) : (v.isTagged = false → v.ContentLaid) ∧ v.WholeLaid := by
  have huntagged : v.isTagged = false → v.ContentLaid → (v.isTagged = false → v.ContentLaid) ∧ v.WholeLaid :=
    fun hv hlaid => ⟨fun _ => hlaid, hlaid.whole hv⟩
  match v with
  | sequence [] => exact huntagged rfl content_emptyList
  | sequence (item :: items) =>
      cases h with
      | sequence hitems => exact huntagged rfl (itemsLaid (item :: items) hitems).content
  | mapping [] => exact huntagged rfl content_emptyMapping
  | mapping (pair :: pairs) =>
      cases h with
      | mapping hkeys hvalues => exact huntagged rfl (pairsLaid (pair :: pairs) hkeys hvalues).content
  | tagged t v =>
      cases h with
      | tagged _ hsingle hv => exact ⟨fun h => (nomatch h), ((laid v hsingle).1 hv).tagged hv t⟩
  | null =>
      exact huntagged rfl (content_plain (fun _ => rfl) isPlain_null (fun _ => rfl) rfl fun _ => rfl)
  | bool b =>
      exact huntagged rfl (content_plain (fun _ => rfl) (isPlain_bool b) (fun _ => rfl) rfl fun _ => rfl)
  | number x =>
      exact huntagged rfl (content_plain (fun _ => rfl) (isPlain_number x) (fun _ => rfl) rfl fun _ => rfl)
  | string s => exact huntagged rfl (content_string s)

theorem itemsLaid (items : List Value) (h : ∀ v ∈ items, v.SingleTags) : ItemsLaid items := by
  match items with
  | [] => exact fun _ _ _ _ _ _ _ hne => absurd rfl hne
  | v :: rest =>
      obtain ⟨hv, hrest⟩ := List.forall_mem_cons.1 h
      exact (laid v hv).2.items (itemsLaid rest hrest)

theorem pairsLaid (pairs : List (Value × Value)) (hkeys : ∀ p ∈ pairs, p.1.SingleTags)
    (hvalues : ∀ p ∈ pairs, p.2.SingleTags) : PairsLaid pairs := by
  match pairs with
  | [] => exact fun _ _ _ _ _ hne => absurd rfl hne
  | (k, v) :: rest =>
      obtain ⟨hk, hkrest⟩ := List.forall_mem_cons.1 hkeys
      obtain ⟨hv, hvrest⟩ := List.forall_mem_cons.1 hvalues
      exact (laid k hk).2.pairs hk (laid v hv).2 (pairsLaid rest hkrest hvrest)

end

end Value

end GrammarProfile.Yaml
