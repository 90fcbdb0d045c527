import GrammarProfile.Proofs.LaidBlocks
import GrammarProfile.Proofs.OrderedMap
import GrammarProfile.Proofs.Printed

/-!
What the outline finds in texts printed in block style: the paths of their keys and items, each at
the place where it was printed.
-/
namespace GrammarProfile.Profile

open Yaml (spaces fill)
open Text (IsLine Clean)
open Printed

/-! ## The line of a key -/

namespace Printed

/-- A content of one line that is taken for a key or an item. -/
structure Shown (content : List Char) : Prop where
  head : ∃ c rest, content = c :: rest ∧ Text.isBlank c = false ∧ c ≠ '#'
  last : Text.trimEnd content = content
  noMark : Text.startsWith content "---".toList = false ∧ Text.startsWith content "...".toList = false

theorem Word.cons (w : Word) :
    ∃ c rest, w.text = c :: rest ∧ c.isAlphanum = true := by
  obtain ⟨c, rest, heq⟩ := List.exists_cons_of_ne_nil w.nonempty
  exact ⟨c, rest, heq, w.plain c (heq ▸ List.mem_cons_self)⟩

theorem Word.not_mem (w : Word) {d : Char} (hd : d.isAlphanum = false) : d ∉ w.text :=
  fun h => Text.ne_of_isAlphanum (w.plain d h) hd rfl

theorem Word.not_blank (w : Word) : ∀ c ∈ w.text, Text.isBlank c = false :=
  fun c hc => Text.not_isBlank_of_isAlphanum (w.plain c hc)

theorem Scalar.not_blank (s : Scalar) : ∀ c ∈ s.header, Text.isBlank c = false := by
  intro c hc
  obtain rfl | hc := List.mem_cons.1 hc
  · exact s.isMark.elim (fun h => by rw [h]; decide) fun h => by rw [h]; decide
  · obtain rfl | rfl | hdigit := s.areHints c hc
    · decide
    · decide
    · exact Text.not_isBlank_of_isAlphanum (by simp [Char.isAlphanum, hdigit])

theorem Scalar.header_ne_nil (s : Scalar) : s.header ≠ [] := List.cons_ne_nil _ _

theorem Value.not_blank : ∀ v : Value, ∀ c ∈ v.head, Text.isBlank c = false
  | .word w => w.not_blank
  | .scalar s => s.not_blank
  | .empty => fun _ h => absurd h List.not_mem_nil
  | .mapping _ _ _ => fun _ h => absurd h List.not_mem_nil
  | .list _ _ _ => fun _ h => absurd h List.not_mem_nil

theorem clean_of_not_blank {cs : List Char} (h : ∀ c ∈ cs, Text.isBlank c = false) : Clean cs := by
  refine fun c hc => ⟨?_, ?_⟩
  · rintro rfl
    exact Bool.noConfusion (h '\n' hc)
  · rintro rfl
    exact Bool.noConfusion (h '\r' hc)

theorem clean_keyLine (key : Word) (v : Value) : Clean (keyLine key v) := by
  refine Text.clean_append.2 ⟨clean_of_not_blank key.not_blank, Text.clean_cons.2 ⟨by decide, ?_⟩⟩
  split
  · exact Text.clean_nil
  · exact Text.clean_cons.2 ⟨by decide, clean_of_not_blank v.not_blank⟩

theorem clean_dash (i : Nat) : Clean (dash i) :=
  Text.clean_append.2 ⟨Text.clean_spaces i, Text.clean_cons.2 ⟨by decide, Text.clean_spaces 1⟩⟩

theorem isLine_append {before line : List Char} (hbefore : Clean before) (h : IsLine line) :
    IsLine (before ++ line) where
  feed hin := (List.mem_append.1 hin).elim (fun hb => (hbefore _ hb).1 rfl) h.feed
  ending hlast := by
    cases hline : line.getLast? with
    | some c =>
        rw [List.getLast?_append, hline] at hlast
        exact h.ending (hline.trans hlast)
    | none =>
        rw [List.getLast?_append, hline] at hlast
        exact (hbefore _ (List.mem_of_getLast? hlast)).2 rfl

theorem Idle.isLine_text : ∀ l : Idle, IsLine l.text
  | .blank _ h _ => h
  | .comment indent text h => by
      have hmark : Clean (spaces indent ++ ['#']) :=
        Text.clean_append.2 ⟨Text.clean_spaces indent, Text.clean_cons.2 ⟨by decide, Text.clean_nil⟩⟩
      simpa [Idle.text] using isLine_append hmark h

theorem ScalarLine.isLine_text (k : Nat) : ∀ l : ScalarLine, IsLine (l.text k)
  | .blank _ h _ => h
  | .deeper step _ h => isLine_append (Text.clean_spaces (k + 1 + step)) h

end Printed

/-- A text without blanks is not cut at its end. -/
theorem trimEnd_append (before : List Char) {content : List Char} (hne : content ≠ [])
    (h : ∀ c ∈ content, Text.isBlank c = false) :
    Text.trimEnd (before ++ content) = before ++ content := by
  have hlast : (before ++ content).getLast? = some (content.getLast hne) := by
    rw [List.getLast?_append, List.getLast?_eq_some_getLast hne, Option.some_or]
  exact Text.trimEnd_of_last hlast (h _ (List.getLast_mem hne))

theorem trimStart_of_not_blank {content : List Char}
    (h : ∀ c ∈ content, Text.isBlank c = false) : Text.trimStart content = content := by
  cases content with
  | nil => rfl
  | cons c rest =>
      rw [Text.trimStart, List.dropWhile_cons, h c List.mem_cons_self, if_neg Bool.false_ne_true]

theorem splitColon?_append {key rest : List Char} (hkey : ':' ∉ key)
    (hrest : rest = [] ∨ ∃ r, rest = ' ' :: r) :
    splitColon? (key ++ ':' :: rest) = some (key, rest) := by
  induction key with
  | nil =>
      obtain rfl | ⟨r, rfl⟩ := hrest
      · rfl
      · rfl
  | cons c key ih =>
      have hc : c ≠ ':' := (List.ne_of_not_mem_cons hkey).symm
      have hcut : splitColon? (c :: (key ++ ':' :: rest)) =
          (splitColon? (key ++ ':' :: rest)).map fun p => (c :: p.1, p.2) := by
        rw [splitColon?]
        · exact fun h => absurd h hc
        · exact fun _ h => absurd h hc
      rw [List.cons_append, hcut, ih (List.not_mem_of_not_mem_cons hkey), Option.map_some]

theorem splitKey?_keyLine (key : Word) (v : Value) :
    splitKey? (keyLine key v) = some (key.text, v.head) := by
  have hcolon : splitColon? (keyLine key v) =
      some (key.text, if v.head = [] then [] else ' ' :: v.head) := by
    refine splitColon?_append (key.not_mem (by decide)) ?_
    split
    · exact .inl rfl
    · exact .inr ⟨_, rfl⟩
  have hvalue : Text.trimStart (if v.head = [] then [] else ' ' :: v.head) = v.head := by
    split
    · next hnil => rw [hnil]; rfl
    · exact trimStart_of_not_blank v.not_blank
  have hkey : Text.trimEnd key.text = key.text :=
    trimEnd_append [] key.nonempty key.not_blank
  obtain ⟨c, rest, heq, hc⟩ := key.cons
  have hne : ∀ {d : Char}, d.isAlphanum = false → c ≠ d := Text.ne_of_isAlphanum hc
  have hline : keyLine key v = c :: (rest ++ ':' :: if v.head = [] then [] else ' ' :: v.head) := by
    rw [keyLine, heq, List.cons_append]
  rw [splitKey?]
  · rw [hcolon]
    simp only [hkey, hvalue]
    rw [heq]
    split
    · next hnil => exact absurd hnil (List.cons_ne_nil _ _)
    · next hbrace => exact absurd (List.cons.inj hbrace).1 (hne rfl)
    · next hbracket => exact absurd (List.cons.inj hbracket).1 (hne rfl)
    · rfl
  · intro _ hquote
    exact absurd (List.cons.inj (hline.symm.trans hquote)).1 (hne rfl)
  · intro _ hquote
    exact absurd (List.cons.inj (hline.symm.trans hquote)).1 (hne rfl)

theorem cutComment?_eq_none {value : List Char} (h : ∀ c ∈ value, Text.isBlank c = false) :
    cutComment? value = none := by
  induction value with
  | nil => rfl
  | cons c rest ih =>
      have hc : c ≠ ' ' := by
        rintro rfl
        exact Bool.noConfusion (h ' ' List.mem_cons_self)
      rw [cutComment?, ih fun d hd => h d (List.mem_cons_of_mem _ hd), Option.map_none]
      exact fun _ he => absurd he hc

theorem stripComment_head (v : Value) : stripComment v.head = v.head := by
  have hcut : cutComment? v.head = none := cutComment?_eq_none v.not_blank
  have hmark : Text.startsWith v.head ['#'] = false := by
    cases v with
    | word w =>
        obtain ⟨c, rest, heq, hc⟩ := w.cons
        simp only [Value.head, heq, Text.startsWith, List.isPrefixOf, Bool.and_true, beq_eq_false_iff_ne]
        exact (Text.ne_of_isAlphanum hc rfl).symm
    | scalar s =>
        simp only [Value.head, Scalar.header, Text.startsWith, List.isPrefixOf, Bool.and_true]
        exact s.isMark.elim (fun h => by rw [h]; rfl) fun h => by rw [h]; rfl
    | empty => rfl
    | mapping => rfl
    | list => rfl
  unfold stripComment
  split
  · rfl
  · rfl
  · simp only [hcut, hmark, Bool.false_eq_true, if_false]

/-- The column of a key whose value is a block scalar. -/
def Printed.Value.opened (k : Nat) : Value → Option Nat
  | .scalar _ => some k
  | .empty => none
  | .word _ => none
  | .mapping _ _ _ => none
  | .list _ _ _ => none

namespace Outline

/-- What the paths of keys inside the innermost frame begin with. -/
def base : List Frame → String
  | [] => ""
  | f :: _ => f.path ++ "."

theorem key_keyLine (frames : List Frame) (n k : Nat) (key : Word) (v : Value) :
    Outline.key ⟨frames, none⟩ n k (keyLine key v) =
      (⟨⟨k, keyPath (base (frames.dropWhile fun f => k ≤ f.indent)) key, false, 0⟩ ::
          frames.dropWhile (fun f => k ≤ f.indent), v.opened k⟩,
        [(keyPath (base (frames.dropWhile fun f => k ≤ f.indent)) key, ⟨n, k⟩)]) := by
  rw [Outline.key, splitKey?_keyLine]
  simp only [stripComment_head]
  generalize frames.dropWhile (fun f => k ≤ f.indent) = F
  have hroot : keyPath (base []) key = String.ofList key.text := by
    simp [keyPath, base]
  have hinner : ∀ (f : Frame) (G : List Frame),
      keyPath (base (f :: G)) key = f.path ++ "." ++ String.ofList key.text := fun _ _ => rfl
  cases v with
  | empty => cases F <;> simp only [hroot, hinner, Value.head, Value.opened]
  | word w =>
      obtain ⟨c, rest, heq, hc⟩ := w.cons
      have hne : ∀ {d : Char}, d.isAlphanum = false → c ≠ d := Text.ne_of_isAlphanum hc
      have hscalar : c ≠ '|' ∧ c ≠ '>' := ⟨hne rfl, hne rfl⟩
      have hflow : c ≠ '[' ∧ c ≠ '\x7b' := ⟨hne rfl, hne rfl⟩
      cases F <;> simp [hroot, hinner, Value.head, Value.opened, heq, hscalar, hflow]
  | scalar s =>
      obtain hmark | hmark := s.isMark
      · cases F <;> simp only [hroot, hinner, Value.head, Value.opened, Scalar.header, hmark]
      · cases F <;> simp only [hroot, hinner, Value.head, Value.opened, Scalar.header, hmark]
  | mapping step above pairs => cases F <;> simp only [hroot, hinner, Value.head, Value.opened]
  | list step above items => cases F <;> simp only [hroot, hinner, Value.head, Value.opened]

theorem takeWhile_space_append {content : List Char} (h : ∀ c ∈ content.head?, c ≠ ' ') (k : Nat) :
    ((spaces k ++ content).takeWhile (· == ' ')).length = k := by
  rw [Yaml.takeWhile_spaces rfl (fun c hc => beq_eq_false_iff_ne.2 (h c hc)), spaces,
    List.length_replicate]

theorem drop_spaces (k : Nat) (content : List Char) : (spaces k ++ content).drop k = content :=
  List.drop_left' List.length_replicate

theorem line_shown {o : Outline} {content : List Char} (h : Shown content) {k : Nat}
    (hscalar : ∀ b ∈ o.blockScalar, k ≤ b) (n : Nat) :
    o.line n (spaces k ++ content) =
      if Profile.isItem content then item ⟨o.frames, none⟩ n k content
      else key ⟨o.frames, none⟩ n k content := by
  obtain ⟨c, rest, heq, hblank, hcomment⟩ := h.head
  have hhead : ∀ d ∈ content.head?, d ≠ ' ' := by
    rintro d hd rfl
    rw [heq] at hd
    obtain rfl : c = ' ' := Option.some.inj hd
    exact Bool.noConfusion hblank
  have hne : content.isEmpty = false := by rw [heq]; rfl
  have hmark : Text.startsWith content ['#'] = false := by
    rw [heq, Text.startsWith, List.isPrefixOf, beq_eq_false_iff_ne.2 hcomment.symm, Bool.false_and]
  have hroot : (k == 0 && (Text.startsWith content "---".toList ||
      Text.startsWith content "...".toList)) = false := by
    rw [h.noMark.1, h.noMark.2, Bool.or_false, Bool.and_false]
  rw [line, takeWhile_space_append hhead, drop_spaces, h.last]
  simp only [hne, hmark, hroot, Bool.false_eq_true, if_false]
  cases hopen : o.blockScalar with
  | none => simp only [Bool.false_eq_true, if_false]
  | some b => simp only [decide_eq_false (Nat.not_lt.2 (hscalar b hopen)), Bool.false_eq_true, if_false]

theorem line_blank (o : Outline) {raw : List Char} (h : ∀ c ∈ raw, Text.isBlank c = true) (n : Nat) :
    o.line n raw = (o, []) := by
  have hnil : Text.trimEnd (raw.drop (raw.takeWhile (· == ' ')).length) = [] :=
    Text.dropEndWhile_eq_nil.2 fun c hc => h c (List.drop_subset _ _ hc)
  rw [line, hnil]
  rfl

theorem line_deeper {o : Outline} {k : Nat} (h : o.blockScalar = some k) {raw : List Char}
    (hdeep : k < (raw.takeWhile (· == ' ')).length) (n : Nat) : o.line n raw = (o, []) := by
  rw [line]
  split
  · rfl
  · simp only [h, decide_eq_true hdeep, if_true]

theorem line_comment (o : Outline) (k : Nat) (text : List Char) :
    ∃ o' : Outline, (∀ n, o.line n (spaces k ++ '#' :: text) = (o', [])) ∧
      (o' = o ∨ o' = ⟨o.frames, none⟩) := by
  have hhead : ∀ d ∈ ('#' :: text).head?, d ≠ ' ' := by
    rintro d hd rfl
    exact absurd (Option.some.inj hd) (by decide)
  obtain ⟨rest, hrest⟩ : ∃ rest, Text.trimEnd ('#' :: text) = '#' :: rest := by
    rw [Text.trimEnd, Text.dropEndWhile]
    split
    · exact ⟨[], rfl⟩
    · exact ⟨_, rfl⟩
  cases hopen : o.blockScalar with
  | none =>
      refine ⟨⟨o.frames, none⟩, fun n => ?_, .inr rfl⟩
      rw [line, takeWhile_space_append hhead, drop_spaces, hrest]
      simp [hopen, Text.startsWith]
  | some b =>
      by_cases hdeep : b < k
      · refine ⟨o, fun n => ?_, .inl rfl⟩
        rw [line, takeWhile_space_append hhead, drop_spaces, hrest]
        simp [hopen, hdeep]
      · refine ⟨⟨o.frames, none⟩, fun n => ?_, .inr rfl⟩
        rw [line, takeWhile_space_append hhead, drop_spaces, hrest]
        simp [hopen, hdeep, Text.startsWith]

/-! ## The line of an item -/

/-- The frames inside a new item of `parent`. -/
def inside (i : Nat) (parent : Frame) (outer : List Frame) : List Frame :=
  ⟨i, itemPath parent.path parent.nextItem, true, 0⟩ ::
    { parent with nextItem := parent.nextItem + 1 } :: outer

variable {frames outer : List Frame} {parent : Frame} {i : Nat}

theorem bytesBefore_dash (rest : List Char) : bytesBefore ('-' :: ' ' :: rest) rest = 2 := by
  have hdash : '-'.utf8Size = 1 ∧ ' '.utf8Size = 1 := ⟨rfl, rfl⟩
  simp only [bytesBefore, Text.byteCount, hdash]
  omega

theorem splitKey?_word (w : Word) : splitKey? w.text = none := by
  have hcolon : ∀ cs : List Char, ':' ∉ cs → splitColon? cs = none := by
    intro cs hcs
    induction cs with
    | nil => rfl
    | cons c cs ih =>
        have hc : c ≠ ':' := (List.ne_of_not_mem_cons hcs).symm
        rw [splitColon?, ih (List.not_mem_of_not_mem_cons hcs), Option.map_none]
        · exact fun h => absurd h hc
        · exact fun _ h => absurd h hc
  rw [splitKey?]
  · rw [hcolon w.text (w.not_mem rfl)]
  · exact fun _ h => w.not_mem (d := '"') rfl (h ▸ List.mem_cons_self)
  · exact fun _ h => w.not_mem (d := '\'') rfl (h ▸ List.mem_cons_self)

theorem isItem_of_head {c : Char} (hc : c ≠ '-') (rest : List Char) :
    Profile.isItem (c :: rest) = false := by
  simp [Profile.isItem, Text.startsWith, List.isPrefixOf, hc, hc.symm]

section

variable (hframes : frames.dropWhile (fun f => i < f.indent || (f.indent == i && f.isItem)) =
  parent :: outer)
include hframes

theorem item_word (w : Word) (n : Nat) :
    item ⟨frames, none⟩ n i ('-' :: ' ' :: w.text) =
      (⟨inside i parent outer, none⟩, [(itemPath parent.path parent.nextItem, ⟨n, i + 2⟩)]) := by
  have hrest : Text.trimStart (' ' :: w.text) = w.text := trimStart_of_not_blank w.not_blank
  obtain ⟨c, rest, heq, hc⟩ := w.cons
  have hne : ∀ {d : Char}, d.isAlphanum = false → c ≠ d := Text.ne_of_isAlphanum hc
  have hscalar : c ≠ '|' ∧ c ≠ '>' := ⟨hne rfl, hne rfl⟩
  have hsplit : splitKey? (c :: rest) = none := heq ▸ splitKey?_word w
  simp only [item, hframes, List.drop_succ_cons, List.drop_zero, hrest, bytesBefore_dash]
  simp [heq, hscalar, hsplit, inside, itemPath]

theorem item_scalar (s : Scalar) (n : Nat) :
    item ⟨frames, none⟩ n i ('-' :: ' ' :: s.header) =
      (⟨inside i parent outer, some i⟩, [(itemPath parent.path parent.nextItem, ⟨n, i + 2⟩)]) := by
  have hrest : Text.trimStart (' ' :: s.header) = s.header := trimStart_of_not_blank s.not_blank
  simp only [item, hframes, List.drop_succ_cons, List.drop_zero, hrest, bytesBefore_dash]
  obtain hmark | hmark := s.isMark
  · simp only [Scalar.header, hmark, inside, itemPath]
  · simp only [Scalar.header, hmark, inside, itemPath]

theorem item_keyLine (key : Word) (v : Value) (n : Nat) :
    item ⟨frames, none⟩ n i ('-' :: ' ' :: keyLine key v) =
      (⟨⟨i + 2, keyPath (itemPath parent.path parent.nextItem ++ ".") key, false, 0⟩ ::
          inside i parent outer, v.opened (i + 2)⟩,
        [(itemPath parent.path parent.nextItem, ⟨n, i + 2⟩),
          (keyPath (itemPath parent.path parent.nextItem ++ ".") key, ⟨n, i + 2⟩)]) := by
  obtain ⟨c, rest, heq, hc⟩ := key.cons
  have hline : keyLine key v = c :: (rest ++ ':' :: if v.head = [] then [] else ' ' :: v.head) := by
    rw [keyLine, heq, List.cons_append]
  have hrest : Text.trimStart (' ' :: keyLine key v) = keyLine key v := by
    rw [hline, Text.trimStart, List.dropWhile_cons, if_pos (by decide), List.dropWhile_cons,
      Text.not_isBlank_of_isAlphanum hc, if_neg Bool.false_ne_true]
  have hne : ∀ {d : Char}, d.isAlphanum = false → c ≠ d := Text.ne_of_isAlphanum hc
  have hscalar : c ≠ '|' ∧ c ≠ '>' := ⟨hne rfl, hne rfl⟩
  have hitem : Profile.isItem (keyLine key v) = false := by
    rw [hline]
    exact isItem_of_head (hne rfl) _
  have hstay : (inside i parent outer).dropWhile (fun f => i + 2 ≤ f.indent) =
      inside i parent outer := by
    simp [inside]
  have hkey := key_keyLine (inside i parent outer) n (i + 2) key v
  rw [hstay] at hkey
  simp only [item, hframes, List.drop_succ_cons, List.drop_zero, hrest, bytesBefore_dash]
  split
  · next hmark => exact absurd (List.cons.inj (hline.symm.trans hmark)).1 hscalar.1
  · next hmark => exact absurd (List.cons.inj (hline.symm.trans hmark)).1 hscalar.2
  · have hopens : ((keyLine key v).isEmpty || Profile.isItem (keyLine key v) ||
        (splitKey? (keyLine key v)).isNone) = false := by
      rw [hitem, splitKey?_keyLine, hline]
      rfl
    rw [hopens, if_neg Bool.false_ne_true]
    change ((Outline.key ⟨inside i parent outer, none⟩ n (i + 2) (keyLine key v)).1,
      _ :: (Outline.key ⟨inside i parent outer, none⟩ n (i + 2) (keyLine key v)).2) = _
    rw [hkey]
    rfl

end

/-! ## States between lines -/

/-- A key in column `k` finds the frames `F` open. -/
structure Ready (k : Nat) (F : List Frame) (o : Outline) : Prop where
  frames : o.frames.dropWhile (fun f => k ≤ f.indent) = F
  scalar : ∀ b ∈ o.blockScalar, k ≤ b

/-- An item in column `i` finds the key `parent` open inside `outer`. -/
structure Awaits (i : Nat) (parent : Frame) (outer : List Frame) (o : Outline) : Prop where
  frames : o.frames.dropWhile (fun f => i < f.indent || (f.indent == i && f.isItem)) =
    parent :: outer
  scalar : ∀ b ∈ o.blockScalar, i ≤ b
  notItem : parent.isItem = false
  indent : parent.indent ≤ i

/-- What a line that says nothing may change. -/
structure Settles (o o' : Outline) : Prop where
  frames : o'.frames = o.frames
  scalar : ∀ b ∈ o'.blockScalar, b ∈ o.blockScalar

variable {o o' : Outline} {k : Nat} {F : List Frame}

theorem Settles.refl (o : Outline) : Settles o o := ⟨rfl, fun _ h => h⟩

theorem Settles.trans {o'' : Outline} (h : Settles o o') (h' : Settles o' o'') : Settles o o'' :=
  ⟨h'.frames.trans h.frames, fun b hb => h.scalar b (h'.scalar b hb)⟩

theorem Settles.ready (h : Settles o o') (hready : Ready k F o) : Ready k F o' :=
  ⟨h.frames ▸ hready.frames, fun b hb => hready.scalar b (h.scalar b hb)⟩

theorem Settles.awaits (h : Settles o o') (hawaits : Awaits i parent outer o) :
    Awaits i parent outer o' :=
  ⟨h.frames ▸ hawaits.frames, fun b hb => hawaits.scalar b (h.scalar b hb), hawaits.notItem,
    hawaits.indent⟩

/-- What is dropped by a stronger condition may be dropped first. -/
theorem dropWhile_dropWhile {p q : Frame → Bool} (h : ∀ f, p f = true → q f = true) (l : List Frame) :
    (l.dropWhile p).dropWhile q = l.dropWhile q := by
  induction l with
  | nil => rfl
  | cons f l ih =>
      rw [List.dropWhile_cons]
      split
      · next hp => rw [ih, List.dropWhile_cons, if_pos (h f hp)]
      · rfl

theorem Ready.idem (h : Ready k F o) : F.dropWhile (fun f => k ≤ f.indent) = F := by
  rw [← h.frames, dropWhile_dropWhile fun _ hf => hf]

theorem dropWhile_cons_of_le {f : Frame} (hf : k ≤ f.indent) (F : List Frame) :
    (f :: F).dropWhile (fun f => k ≤ f.indent) = F.dropWhile fun f => k ≤ f.indent := by
  rw [List.dropWhile_cons, if_pos (decide_eq_true hf)]

/-- After the line of a key the next key in its column may follow. -/
theorem ready_after {f : Frame} (hf : k ≤ f.indent) (hF : F.dropWhile (fun f => k ≤ f.indent) = F)
    {opened : Option Nat} (hopened : ∀ b ∈ opened, k ≤ b) : Ready k F ⟨f :: F, opened⟩ :=
  ⟨by rw [dropWhile_cons_of_le hf, hF], hopened⟩

theorem ready_below {f : Frame} (hf : f.indent < k) : Ready k (f :: F) ⟨f :: F, none⟩ :=
  ⟨List.dropWhile_cons_of_neg (by simp [hf]), fun b hb => absurd hb (Option.not_mem_none b)⟩

theorem awaits_below {f : Frame} (hf : f.indent ≤ i) (hitem : f.isItem = false) :
    Awaits i f F ⟨f :: F, none⟩ :=
  ⟨List.dropWhile_cons_of_neg (by simp [hf, hitem]),
    fun b hb => absurd hb (Option.not_mem_none b), hitem, hf⟩

/-- What is open after a nested mapping or list leaves the column of its key ready. -/
theorem Ready.closed {f : Frame} {k' : Nat} (h : Ready k' (f :: F) o) (hk : k ≤ k')
    (hf : k ≤ f.indent) (hF : F.dropWhile (fun f => k ≤ f.indent) = F) : Ready k F o := by
  have hdrop : ∀ g : Frame, decide (k' ≤ g.indent) = true → decide (k ≤ g.indent) = true :=
    fun g hg => decide_eq_true (Nat.le_trans hk (of_decide_eq_true hg))
  refine ⟨?_, fun b hb => Nat.le_trans hk (h.scalar b hb)⟩
  rw [← dropWhile_dropWhile hdrop, h.frames, dropWhile_cons_of_le hf, hF]

theorem Awaits.closed {f : Frame} (h : Awaits i f F o) (hf : k = f.indent)
    (hF : F.dropWhile (fun f => k ≤ f.indent) = F) : Ready k F o := by
  have hk : k ≤ i := hf ▸ h.indent
  have hdrop : ∀ g : Frame, (decide (i < g.indent) || (g.indent == i && g.isItem)) = true →
      decide (k ≤ g.indent) = true := by
    intro g hg
    simp only [Bool.or_eq_true, decide_eq_true_eq, Bool.and_eq_true, beq_iff_eq] at hg ⊢
    omega
  refine ⟨?_, fun b hb => Nat.le_trans hk (h.scalar b hb)⟩
  rw [← dropWhile_dropWhile hdrop, h.frames, dropWhile_cons_of_le (Nat.le_of_eq hf), hF]

/-- After an item the next one may follow. -/
theorem Ready.awaits (h : Ready (i + 2) (inside i parent outer) o) (hitem : parent.isItem = false)
    (hparent : parent.indent ≤ i) :
    Awaits i { parent with nextItem := parent.nextItem + 1 } outer o := by
  have hdrop : ∀ g : Frame, decide (i + 2 ≤ g.indent) = true →
      (decide (i < g.indent) || (g.indent == i && g.isItem)) = true := by
    intro g hg
    simp only [Bool.or_eq_true, decide_eq_true_eq] at hg ⊢
    omega
  refine ⟨?_, fun b hb => Nat.le_of_add_right_le (h.scalar b hb), hitem, hparent⟩
  rw [← dropWhile_dropWhile hdrop, h.frames, inside, List.dropWhile_cons_of_pos (by simp),
    List.dropWhile_cons_of_neg (by simp [hitem, hparent])]

theorem awaits_after {opened : Option Nat} (hopened : ∀ b ∈ opened, i ≤ b)
    (hitem : parent.isItem = false) (hparent : parent.indent ≤ i) :
    Awaits i { parent with nextItem := parent.nextItem + 1 } outer ⟨inside i parent outer, opened⟩ := by
  refine ⟨?_, hopened, hitem, hparent⟩
  rw [inside, List.dropWhile_cons_of_pos (by simp), List.dropWhile_cons_of_neg (by simp [hitem, hparent])]

/-! ## Runs -/

/-- From one state the lines lead to another one, and the entries found in them are theirs. -/
inductive Follows : Outline → List Line → Outline → Prop
  | nil (o : Outline) : Follows o [] o
  | cons {o o₁ o₂ : Outline} {l : Line} {rest : List Line} (hwhole : IsLine l.text)
      (hline : ∀ n, o.line n l.text = (o₁, l.entries n)) (hrest : Follows o₁ rest o₂) :
      Follows o (l :: rest) o₂

theorem Follows.append {o₁ o₂ o₃ : Outline} {ls ms : List Line} (h : Follows o₁ ls o₂)
    (h' : Follows o₂ ms o₃) : Follows o₁ (ls ++ ms) o₃ := by
  induction h with
  | nil o => exact h'
  | cons hwhole hline _ ih => exact .cons hwhole hline (ih h')

theorem Follows.entries {ls : List Line} (h : Follows o ls o') (n : Nat) :
    o.entries n (ls.map Line.text) = Line.allEntries n ls := by
  induction h generalizing n with
  | nil o => rfl
  | cons _ hline _ ih =>
      rw [List.map_cons, Outline.entries, hline, Line.allEntries]
      exact congrArg _ (ih (n + 1))

theorem Follows.isLine {ls : List Line} (h : Follows o ls o') : ∀ l ∈ ls, IsLine l.text := by
  induction h with
  | nil o => exact fun _ hl => absurd hl List.not_mem_nil
  | cons hwhole _ _ ih => exact List.forall_mem_cons.2 ⟨hwhole, ih⟩

theorem follows_idle (o : Outline) (idle : List Idle) :
    ∃ o', Follows o (idleLines idle) o' ∧ Settles o o' := by
  induction idle generalizing o with
  | nil => exact ⟨o, .nil o, .refl o⟩
  | cons l idle ih =>
      obtain ⟨o₁, hline, hsettles⟩ : ∃ o₁, (∀ n, o.line n l.text = (o₁, [])) ∧ Settles o o₁ := by
        cases l with
        | blank text _ hblank => exact ⟨o, line_blank o hblank, .refl o⟩
        | comment indent text _ =>
            obtain ⟨o₁, hline, rfl | rfl⟩ := line_comment o indent text
            · exact ⟨_, hline, .refl _⟩
            · exact ⟨_, hline, rfl, fun b hb => absurd hb (Option.not_mem_none b)⟩
      obtain ⟨o', hrest, hsettles'⟩ := ih o₁
      exact ⟨o', .cons l.isLine_text hline hrest, hsettles.trans hsettles'⟩

theorem follows_scalar (h : o.blockScalar = some k) (s : Scalar) :
    Follows o (scalarLines k s) o := by
  have hline : ∀ (l : ScalarLine) (n : Nat), o.line n (l.text k) = (o, []) := by
    intro l n
    cases l with
    | blank text _ hblank => exact line_blank o hblank n
    | deeper step text _ =>
        refine line_deeper h ?_ n
        rw [ScalarLine.text, Yaml.spaces, List.takeWhile_append_of_pos fun c hc => by
          rw [List.eq_of_mem_replicate hc]; rfl, List.length_append, List.length_replicate]
        omega
  have hall : ∀ ls : List ScalarLine,
      Follows o (ls.map fun l => (⟨[], l.text k, []⟩ : Line)) o := by
    intro ls
    induction ls with
    | nil => exact .nil o
    | cons l ls ih => exact .cons (l.isLine_text k) (hline l) ih
  exact hall s.lines

/-- After `lead` a pair in column `k` begins inside `F`, and before it what `paths` name. -/
structure Takes (o : Outline) (k : Nat) (lead : List Char) (paths : List String)
    (F : List Frame) : Prop where
  line : ∀ (key : Word) (v : Value) (n : Nat), o.line n (lead ++ keyLine key v) =
    (⟨⟨k, keyPath (base F) key, false, 0⟩ :: F, v.opened k⟩,
      (paths ++ [keyPath (base F) key]).map fun path => (path, ⟨n, Text.byteCount lead⟩))
  clean : Clean lead
  idem : F.dropWhile (fun f => k ≤ f.indent) = F

theorem trimEnd_keyLine (before : List Char) (key : Word) (v : Value) :
    Text.trimEnd (before ++ keyLine key v) = before ++ keyLine key v := by
  rw [keyLine]
  split
  · rw [← List.append_assoc]
    exact trimEnd_append _ (List.cons_ne_nil _ _) fun c hc => List.mem_singleton.1 hc ▸ rfl
  · next hne =>
      have hcut := trimEnd_append (before ++ key.text ++ [':', ' ']) hne v.not_blank
      simpa using hcut

theorem byteCount_spaces (k : Nat) : Text.byteCount (spaces k) = k := by
  induction k with
  | zero => rfl
  | succ k ih =>
      rw [Yaml.spaces_succ, Text.byteCount, ih]
      exact Nat.add_comm 1 k

theorem byteCount_dash (i : Nat) : Text.byteCount (dash i) = i + 2 := by
  induction i with
  | zero => rfl
  | succ i ih =>
      rw [dash, Yaml.spaces_succ, List.cons_append, Text.byteCount, ← dash, ih]
      exact Nat.add_comm 1 _

theorem Ready.takes (h : Ready k F o) : Takes o k (spaces k) [] F where
  line key v n := by
    obtain ⟨c, rest, heq, hc⟩ := key.cons
    have hne : ∀ {d : Char}, d.isAlphanum = false → c ≠ d := Text.ne_of_isAlphanum hc
    have hline : keyLine key v = c :: (rest ++ ':' :: if v.head = [] then [] else ' ' :: v.head) := by
      rw [keyLine, heq, List.cons_append]
    have hshown : Shown (keyLine key v) :=
      { head := ⟨c, _, hline, Text.not_isBlank_of_isAlphanum hc, hne rfl⟩
        last := trimEnd_keyLine [] key v
        noMark := by
          rw [hline]
          exact ⟨by simp [Text.startsWith, List.isPrefixOf, (hne (d := '-') rfl).symm],
            by simp [Text.startsWith, List.isPrefixOf, (hne (d := '.') rfl).symm]⟩ }
    have hitem : Profile.isItem (keyLine key v) = false := by
      rw [hline]
      exact isItem_of_head (hne rfl) _
    rw [line_shown hshown h.scalar, hitem, if_neg Bool.false_ne_true, key_keyLine, h.frames,
      byteCount_spaces]
    rfl
  clean := Text.clean_spaces k
  idem := h.idem

/-- The line of an item, without what its content says. -/
theorem Awaits.line (h : Awaits i parent outer o) {content : List Char}
    (hlast : ∀ before, Text.trimEnd (before ++ content) = before ++ content) (n : Nat) :
    o.line n (dash i ++ content) = item ⟨o.frames, none⟩ n i ('-' :: ' ' :: content) := by
  have hshown : Shown ('-' :: ' ' :: content) :=
    { head := ⟨'-', _, rfl, by decide, by decide⟩
      last := hlast ['-', ' ']
      noMark := ⟨rfl, rfl⟩ }
  rw [dash, List.append_assoc]
  exact (line_shown hshown h.scalar n).trans (if_pos rfl)

theorem Awaits.takes (h : Awaits i parent outer o) :
    Takes o (i + 2) (dash i) [itemPath parent.path parent.nextItem] (inside i parent outer) where
  line key v n := by
    rw [h.line (fun before => trimEnd_keyLine before key v), item_keyLine h.frames, byteCount_dash]
    rfl
  clean := clean_dash i
  idem := by simp [inside]

theorem Takes.isLine {lead : List Char} {paths : List String} (h : Takes o k lead paths F)
    (key : Word) (v : Value) : IsLine (lead ++ keyLine key v) :=
  Clean.isLine (Text.clean_append.2 ⟨h.clean, clean_keyLine key v⟩)

end Outline

/-! ## Whole texts -/

namespace Printed

open Outline

mutual
/-- Below the line of a key its value is followed, and then its column is ready again. -/
theorem Value.follows (path : String) {k : Nat} {F : List Frame}
    (hF : F.dropWhile (fun f => k ≤ f.indent) = F) : ∀ v : Value,
    ∃ o, Follows ⟨⟨k, path, false, 0⟩ :: F, v.opened k⟩ (v.lines path k) o ∧ Ready k F o
  | .empty => ⟨_, .nil _, ready_after (Nat.le_refl k) hF fun b hb => absurd hb (Option.not_mem_none b)⟩
  | .word _ => ⟨_, .nil _, ready_after (Nat.le_refl k) hF fun b hb => absurd hb (Option.not_mem_none b)⟩
  | .scalar s =>
      ⟨_, follows_scalar rfl s, ready_after (Nat.le_refl k) hF fun b hb =>
        Nat.le_of_eq (Option.some.inj hb)⟩
  | .mapping step above pairs => by
      obtain ⟨o₁, habove, hsettles⟩ := follows_idle ⟨⟨k, path, false, 0⟩ :: F, none⟩ above
      have hbelow : k < k + 1 + step := by omega
      have hready : Ready (k + 1 + step) (⟨k, path, false, 0⟩ :: F) o₁ :=
        hsettles.ready (ready_below hbelow)
      obtain ⟨o₂, hpairs, hafter⟩ := pairs.follows hready.takes
      exact ⟨o₂, habove.append hpairs, hafter.closed (Nat.le_of_lt hbelow) (Nat.le_refl k) hF⟩
  | .list step above items => by
      obtain ⟨o₁, habove, hsettles⟩ := follows_idle ⟨⟨k, path, false, 0⟩ :: F, none⟩ above
      have hawaits : Awaits (k + step) ⟨k, path, false, 0⟩ F o₁ :=
        hsettles.awaits (awaits_below (Nat.le_add_right k step) rfl)
      obtain ⟨o₂, m, hitems, hafter⟩ := items.follows hawaits
      exact ⟨o₂, habove.append hitems, hafter.closed rfl hF⟩
/-- Pairs that begin where a pair is taken leave their column ready. -/
theorem Pairs.follows {o : Outline} {k : Nat} {lead : List Char} {paths : List String}
    {F : List Frame} (h : Takes o k lead paths F) : ∀ p : Pairs,
    ∃ o', Follows o (p.lines (base F) k lead paths) o' ∧ Ready k F o'
  | .last key value => by
      obtain ⟨o', hvalue, hready⟩ := value.follows (keyPath (base F) key) h.idem
      exact ⟨o', .cons (h.isLine key value) (h.line key value) hvalue, hready⟩
  | .next key value between more => by
      obtain ⟨o₁, hvalue, hready⟩ := value.follows (keyPath (base F) key) h.idem
      obtain ⟨o₂, hbetween, hsettles⟩ := follows_idle o₁ between
      obtain ⟨o₃, hmore, hafter⟩ := more.follows (hsettles.ready hready).takes
      have hfirst := Follows.cons (l := ⟨lead, keyLine key value, paths ++ [keyPath (base F) key]⟩)
        (h.isLine key value) (h.line key value) hvalue
      exact ⟨o₃, hfirst.append (hbetween.append hmore), hafter⟩
/-- Items leave the key that they belong to waiting for another one. -/
theorem Items.follows {o : Outline} {i : Nat} {parent : Frame} {outer : List Frame}
    (h : Awaits i parent outer o) : ∀ l : Items,
    ∃ o' m, Follows o (l.lines parent.path i parent.nextItem) o' ∧
      Awaits i { parent with nextItem := m } outer o'
  | .last item => by
      obtain ⟨o', hitem, hafter⟩ := item.follows h
      exact ⟨o', _, hitem, hafter⟩
  | .next item between more => by
      obtain ⟨o₁, hitem, hawaits⟩ := item.follows h
      obtain ⟨o₂, hbetween, hsettles⟩ := follows_idle o₁ between
      obtain ⟨o₃, m, hmore, hafter⟩ := more.follows (hsettles.awaits hawaits)
      exact ⟨o₃, m, hitem.append (hbetween.append hmore), hafter⟩
theorem Item.follows {o : Outline} {i : Nat} {parent : Frame} {outer : List Frame}
    (h : Awaits i parent outer o) : ∀ l : Item,
    ∃ o', Follows o (l.lines (itemPath parent.path parent.nextItem) i) o' ∧
      Awaits i { parent with nextItem := parent.nextItem + 1 } outer o'
  | .word w => by
      have hwhole : IsLine (dash i ++ w.text) :=
        Clean.isLine (Text.clean_append.2 ⟨clean_dash i, clean_of_not_blank w.not_blank⟩)
      have hline : ∀ n, o.line n (dash i ++ w.text) = (⟨inside i parent outer, none⟩,
          Line.entries n ⟨dash i, w.text, [itemPath parent.path parent.nextItem]⟩) := by
        intro n
        rw [h.line (fun before => trimEnd_append before w.nonempty w.not_blank), item_word h.frames,
          Line.entries, byteCount_dash]
        rfl
      exact ⟨_, .cons hwhole hline (.nil _), awaits_after (fun b hb => absurd hb (Option.not_mem_none b))
        h.notItem h.indent⟩
  | .scalar s => by
      have hwhole : IsLine (dash i ++ s.header) :=
        Clean.isLine (Text.clean_append.2 ⟨clean_dash i, clean_of_not_blank s.not_blank⟩)
      have hline : ∀ n, o.line n (dash i ++ s.header) = (⟨inside i parent outer, some i⟩,
          Line.entries n ⟨dash i, s.header, [itemPath parent.path parent.nextItem]⟩) := by
        intro n
        rw [h.line (fun before => trimEnd_append before s.header_ne_nil s.not_blank),
          item_scalar h.frames, Line.entries, byteCount_dash]
        rfl
      exact ⟨_, .cons hwhole hline (follows_scalar rfl s), awaits_after (fun b hb =>
        Nat.le_of_eq (Option.some.inj hb)) h.notItem h.indent⟩
  | .mapping pairs => by
      obtain ⟨o', hpairs, hready⟩ := pairs.follows h.takes
      exact ⟨o', hpairs, hready.awaits h.notItem h.indent⟩
end

theorem follows (d : Printed) : ∃ o, Follows Outline.start d.lines o := by
  obtain ⟨o₁, habove, hsettles⟩ := follows_idle Outline.start d.above
  have hstart : Ready d.indent [] Outline.start := ⟨rfl, fun b hb => absurd hb (Option.not_mem_none b)⟩
  obtain ⟨o₂, hpairs, -⟩ := d.pairs.follows (hsettles.ready hstart).takes
  obtain ⟨o₃, hbelow, -⟩ := follows_idle o₂ d.below
  exact ⟨o₃, (habove.append hpairs).append hbelow⟩

theorem names_allEntries (n : Nat) (ls : List Line) :
    (Line.allEntries n ls).map Prod.fst = ls.flatMap Line.paths := by
  induction ls generalizing n with
  | nil => rfl
  | cons l ls ih =>
      rw [Line.allEntries, List.map_append, ih, List.flatMap_cons, Line.entries, List.map_map]
      exact congrArg (· ++ _) (List.map_id _)

theorem names_places (d : Printed) : d.places.map Prod.fst = d.pairs.paths "" := by
  rw [places, names_allEntries, lines, List.flatMap_append, List.flatMap_append, Pairs.paths_lines,
    paths_idleLines, paths_idleLines, List.append_nil, List.nil_append, List.nil_append]

/-- The outline of a text printed in block style has the paths of its keys and items, and no
other ones, each at the line and the column at which it was printed. -/
theorem ofText_pairs (d : Printed) (h : d.Distinct) :
    (LineIndex.ofText d.text).pairs = d.places ∧ (LineIndex.ofText d.text).keys = d.pairs.paths "" := by
  obtain ⟨o, hfollows⟩ := d.follows
  have hlines : Text.lines d.text.toList = d.lines.map Line.text := by
    have hwhole : ∀ line ∈ d.lines.map Line.text, IsLine line :=
      List.forall_mem_map.2 hfollows.isLine
    have hcut := Layout.lines_fill hwhole []
    rw [List.append_nil] at hcut
    rw [text, String.toList_ofList, hcut]
    exact List.append_nil _
  have hnodup : (d.places.map Prod.fst).Nodup := by
    rw [names_places]
    exact d.pairs.nodup_paths "" h.1 h.2
  have hpairs : (LineIndex.ofText d.text).pairs = d.places := by
    rw [LineIndex.ofText, hlines, hfollows.entries]
    exact OrderedMap.pairs_ofList hnodup
  exact ⟨hpairs, (congrArg (List.map Prod.fst) hpairs).trans d.names_places⟩

def Word.ofLetters (text : List Char) (h : (!text.isEmpty && text.all Char.isAlphanum) = true) :
    Word :=
  have hfacts := Bool.and_eq_true_iff.1 h
  ⟨text, List.isEmpty_eq_false_iff.1 (by simpa using hfacts.1), List.all_eq_true.1 hfacts.2⟩

/-- A profile of one type with a note, below a comment. -/
def notedPage : Printed where
  indent := 0
  above := [.comment 0 [' ', 'p'] ⟨by decide, by decide⟩]
  pairs :=
    .last (.ofLetters ['p'] rfl) <| .mapping 1 [] <|
      .next (.ofLetters ['t'] rfl)
        (.list 0 [] <| .next (.word (.ofLetters ['a', 'c', 't'] rfl))
          [.blank [] Text.isLine_nil (by simp)] <|
          .last <| .mapping <| .next (.ofLetters ['k'] rfl) .empty [] <|
            .last (.ofLetters ['l'] rfl) (.word (.ofLetters ['7'] rfl)))
        [] <|
      .last (.ofLetters ['n'] rfl) <|
        .scalar ⟨'|', .inl rfl, ['-'], by simp, [.deeper 1 ['t', ':'] ⟨by decide, by decide⟩]⟩
  below := []

theorem ofText_notedPage :
    notedPage.Distinct ∧
    notedPage.text = "# p\np:\n  t:\n  - act\n\n  - k:\n    l: 7\n  n: |-\n    t:\n" ∧
    (LineIndex.ofText notedPage.text).pairs =
      [("p", ⟨2, 0⟩), ("p.t", ⟨3, 2⟩), ("p.t[0]", ⟨4, 4⟩), ("p.t[1]", ⟨6, 4⟩), ("p.t[1].k", ⟨6, 4⟩),
        ("p.t[1].l", ⟨7, 4⟩), ("p.n", ⟨8, 2⟩)] := by
  have hdistinct : notedPage.Distinct := by
    simp [notedPage, Distinct, Pairs.Distinct, Value.Distinct, Items.Distinct, Item.Distinct,
      Pairs.keys, Word.ofLetters]
  exact ⟨hdistinct, by decide +kernel, (ofText_pairs notedPage hdistinct).1.trans (by decide +kernel)⟩

end Printed

end GrammarProfile.Profile
