import GrammarProfile.Profile.Layout
import GrammarProfile.Proofs.Lexing
import GrammarProfile.Proofs.TextParts

/-!
What laying out a text does to its lines: a line may get a blank line before it and lose a null
after a colon, and the lines of block scalars that are recognised stay as they are.
-/
namespace GrammarProfile

namespace Text

/-- What may be a whole line of a text: it holds no line feed, and no carriage return ends it. -/
structure IsLine (line : List Char) : Prop where
  feed : '\n' ∉ line
  ending : line.getLast? ≠ some '\r'

theorem isLine_nil : IsLine [] := ⟨List.not_mem_nil, fun h => nomatch h⟩

/-- A line feed ends a line, which is read without a carriage return right before it. -/
theorem lines_feed {piece : List Char} (h : '\n' ∉ piece) (rest : List Char) :
    lines (piece ++ '\n' :: rest) = dropReturn piece :: lines rest := by
  rw [lines, splitAll_append h, lines]
  obtain ⟨next, more, hmore⟩ := List.exists_cons_of_ne_nil (splitAll_ne_nil '\n' rest)
  rw [hmore, linesOfPieces]
  exact fun hnil => nomatch hnil

/-- What is read of pieces with a line feed after each: the pieces, without a carriage return that ends
one. -/
theorem lines_pieces {pieces : List (List Char)} (h : ∀ piece ∈ pieces, '\n' ∉ piece) (rest : List Char) :
    lines (Yaml.fill pieces ++ rest) = pieces.map dropReturn ++ lines rest := by
  induction pieces with
  | nil => rfl
  | cons piece pieces ih =>
      obtain ⟨hpiece, hpieces⟩ := List.forall_mem_cons.1 h
      rw [Yaml.fill_cons, List.append_assoc, List.cons_append, lines_feed hpiece, ih hpieces, List.map_cons,
        List.cons_append]

theorem IsLine.dropReturn_eq {line : List Char} (h : IsLine line) : dropReturn line = line := by
  unfold dropReturn
  split
  · next hlast => exact absurd hlast h.ending
  · rfl

theorem lines_cons {line : List Char} (h : IsLine line) (rest : List Char) :
    lines (line ++ '\n' :: rest) = line :: lines rest := by
  rw [lines_feed h.feed, h.dropReturn_eq]

end Text

namespace Profile.Layout

open Text (IsLine)
open Yaml (fill fill_nil fill_cons)

theorem fill_append (ls₁ ls₂ : List (List Char)) : fill (ls₁ ++ ls₂) = fill ls₁ ++ fill ls₂ :=
  List.flatMap_append

theorem lines_fill {body : List (List Char)} (h : ∀ line ∈ body, IsLine line) (rest : List Char) :
    Text.lines (fill body ++ rest) = body ++ Text.lines rest := by
  rw [Text.lines_pieces fun line hline => (h line hline).feed,
    List.map_congr_left fun line hline => (h line hline).dropReturn_eq, List.map_id']

/-- A line that opens a block scalar is not blank. -/
theorem not_blank_of_opens {line : List Char} (h : opensBlockScalar line = true) :
    (Text.trim line).isEmpty = false := by
  rw [List.isEmpty_eq_false_iff]
  intro hblank
  have hnil : Text.trimEnd line = [] := Text.dropEndWhile_eq_nil.2 (Text.trim_eq_nil.1 hblank)
  rw [opensBlockScalar, hnil] at h
  exact nomatch h

/-- How a line is written: as it is, or without its null. -/
def Kept (line written : List Char) : Prop := written = line ∨ written = bareNull line

/-- A way to lay out texts line by line that leaves block scalars alone. Blank lines come only where
it is not quiet. -/
structure Tidier where
  State : Type
  start : State
  /-- The text that is written for the rest of a text. -/
  lay : State → List Char → List Char
  Quiet : State → Prop
  quiet_start : Quiet start
  lay_nil : ∀ s, lay s [] = []
  lay_line : ∀ (s : State) {line : List Char} (rest : List Char), IsLine line →
    ∃ blanks written after, lay s (line ++ '\n' :: rest) =
        fill blanks ++ (written ++ '\n' :: lay after rest) ∧ Kept line written ∧
      (∀ b ∈ blanks, b = []) ∧ (Quiet s → blanks = [])
  lay_block : ∀ (s : State) {header : List Char} {body : List (List Char)} (rest : List Char),
    IsLine header → opensBlockScalar header = true →
    (∀ line ∈ body, IsLine line ∧ (line = [] ∨ indentOf header < indentOf line)) →
    ∃ blanks written after, lay s (header ++ '\n' :: (fill body ++ rest)) =
        fill blanks ++ (written ++ '\n' :: (fill body ++ lay after rest)) ∧ Kept header written ∧
      (∀ b ∈ blanks, b = []) ∧ (Quiet s → blanks = []) ∧ (body.getLast? = some [] → Quiet after)

/-- The text as it is. -/
def Tidier.untouched : Tidier where
  State := Unit
  start := ()
  lay _ cs := cs
  Quiet _ := True
  quiet_start := trivial
  lay_nil _ := rfl
  lay_line _ {line} _ _ := ⟨[], line, (), rfl, .inl rfl, fun _ hb => absurd hb List.not_mem_nil, fun _ => rfl⟩
  lay_block _ {header} _ _ _ _ _ :=
    ⟨[], header, (), rfl, .inl rfl, fun _ hb => absurd hb List.not_mem_nil, fun _ => rfl, fun _ => trivial⟩

/-! ## The layout of written profiles -/

/-- No blank line comes next. -/
def State.Quiet (s : State) : Prop := s.last.getD [] = []

/-- Whether a line belongs to the block that is going on. -/
def inBlock (s : State) (line : List Char) : Bool :=
  s.block.any fun outer => (Text.trim line).isEmpty || decide (outer < indentOf line)

/-- Whether a blank line comes before a line outside blocks. -/
def setsOff (s : State) (line : List Char) : Bool :=
  let afterText := s.last.getD [] != []
  (s.last.isSome && isSection line && afterText) ||
    (s.inElements && (line.isEmpty || 4 ≤ indentOf line) && isEntry line && afterText &&
      s.last != some elementsLine)

/-- What a line outside blocks leaves behind. -/
def State.past (s : State) (line : List Char) : State where
  last := some (bareNull line)
  inElements := s.inElements && (line.isEmpty || 4 ≤ indentOf line) || line == elementsLine
  block := if opensBlockScalar line then some (indentOf line) else none

/-- What is done with a line outside blocks. -/
theorem layLine_outside {s : State} {line : List Char} (h : inBlock s line = false) :
    layLine s line =
      (s.past line, if setsOff s line then [[], bareNull line] else [bareNull line]) := by
  obtain ⟨last, inElements, block⟩ := s
  cases block with
  | none => rfl
  | some outer =>
      have hnot : ((Text.trim line).isEmpty || decide (outer < indentOf line)) = false := h
      simp only [layLine, hnot]
      rfl

/-- Blank lines come only between lines that are not empty. -/
theorem setsOff_apart {s : State} {line : List Char} (h : setsOff s line = true) :
    line ≠ [] ∧ ¬s.Quiet := by
  simp only [setsOff, Bool.or_eq_true, Bool.and_eq_true, bne_iff_ne] at h
  rcases h with ⟨⟨-, hsection⟩, htext⟩ | ⟨⟨⟨-, hentry⟩, htext⟩, -⟩
  · refine ⟨?_, htext⟩
    rintro rfl
    exact nomatch hsection
  · refine ⟨?_, htext⟩
    rintro rfl
    exact nomatch hentry

theorem layLine_inside {s : State} {line : List Char} (h : inBlock s line = true) :
    layLine s line = (⟨some line, s.inElements, s.block⟩, [line]) := by
  obtain ⟨last, inElements, block⟩ := s
  cases block with
  | none => exact nomatch h
  | some outer =>
      have hin : ((Text.trim line).isEmpty || decide (outer < indentOf line)) = true := h
      simp only [layLine, hin, if_true]

theorem inBlock_of_deeper {s : State} {outer : Nat} (hblock : s.block = some outer) {line : List Char}
    (hline : line = [] ∨ outer < indentOf line) : inBlock s line = true := by
  rw [inBlock, hblock, Option.any_some]
  rcases hline with rfl | hline
  · rfl
  · rw [decide_eq_true hline, Bool.or_true]

/-- The lines of a block are copied. -/
theorem layLines_copies {body : List (List Char)} {outer : Nat}
    (hbody : ∀ line ∈ body, line = [] ∨ outer < indentOf line) {s : State}
    (hblock : s.block = some outer) (rest : List (List Char)) :
    ∃ after, layLines s (body ++ rest) = body ++ layLines after rest ∧
      (body.getLast? = some [] → after.Quiet) := by
  induction body generalizing s with
  | nil => exact ⟨s, rfl, fun h => nomatch h⟩
  | cons line body ih =>
      obtain ⟨after, hlay, hquiet⟩ := @ih (fun l hl => hbody l (List.mem_cons_of_mem _ hl))
        ⟨some line, s.inElements, s.block⟩ hblock
      have hstep := layLine_inside (inBlock_of_deeper hblock (hbody line List.mem_cons_self))
      cases body with
      | nil =>
          refine ⟨⟨some line, s.inElements, s.block⟩, ?_, fun hlast => ?_⟩
          · rw [List.cons_append, layLines, hstep]
            rfl
          · obtain rfl := Option.some.inj hlast
            rfl
      | cons line' body =>
          refine ⟨after, ?_, fun hlast => hquiet hlast⟩
          rw [List.cons_append, layLines, hstep]
          exact congrArg (line :: ·) hlay

/-- What a line leads to: blank lines and the line as it is written, and a block if it opens one. -/
structure Lays (s : State) (line : List Char) (blanks : List (List Char)) (written : List Char)
    (after : State) : Prop where
  lay : layLine s line = (after, blanks ++ [written])
  kept : Kept line written
  blank : ∀ b ∈ blanks, b = []
  quiet : s.Quiet → blanks = []
  block : opensBlockScalar line = true → ∃ outer ≤ indentOf line, after.block = some outer

theorem exists_lays (s : State) (line : List Char) :
    ∃ blanks written after, Lays s line blanks written after := by
  cases hin : inBlock s line with
  | true =>
      refine ⟨[], line, _, layLine_inside hin, .inl rfl, fun _ hb => absurd hb List.not_mem_nil,
        fun _ => rfl, fun hopens => ?_⟩
      rw [inBlock, Option.any_eq_true] at hin
      obtain ⟨outer, hblock, hline⟩ := hin
      rw [not_blank_of_opens hopens, Bool.false_or, decide_eq_true_eq] at hline
      exact ⟨outer, Nat.le_of_lt hline, hblock⟩
  | false =>
      refine ⟨if setsOff s line then [[]] else [], bareNull line, s.past line, (layLine_outside hin).trans ?_,
        .inr rfl, ?_, fun h => ?_, fun hopens => ⟨indentOf line, Nat.le_refl _, ?_⟩⟩
      · cases setsOff s line <;> rfl
      · split
        · exact fun _ hb => List.mem_singleton.1 hb
        · exact fun _ hb => absurd hb List.not_mem_nil
      · exact if_neg fun hset => (setsOff_apart hset).2 h
      · exact if_pos hopens

/-- The lines of a text after a state. -/
def lay (s : State) (cs : List Char) : List Char := fill (layLines s (Text.lines cs))

theorem Lays.lay_cons {s after : State} {line written : List Char} {blanks : List (List Char)}
    (h : Lays s line blanks written after) (hline : IsLine line) (rest : List Char) :
    Layout.lay s (line ++ '\n' :: rest) = fill blanks ++ (written ++ '\n' :: Layout.lay after rest) := by
  rw [Layout.lay, Text.lines_cons hline, layLines, h.lay, Layout.lay]
  simp [fill_append]

/-- The layout of written profiles. -/
def Tidier.layout : Tidier where
  State := Layout.State
  start := Layout.State.start
  lay := Layout.lay
  Quiet := Layout.State.Quiet
  quiet_start := rfl
  lay_nil _ := rfl
  lay_line s line rest hline := by
    obtain ⟨blanks, written, after, h⟩ := exists_lays s line
    exact ⟨blanks, written, after, h.lay_cons hline rest, h.kept, h.blank, h.quiet⟩
  lay_block s header body rest hheader hopens hbody := by
    obtain ⟨blanks, written, after, h⟩ := exists_lays s header
    obtain ⟨outer, houter, hblock⟩ := h.block hopens
    obtain ⟨last, hlay, hquiet⟩ := layLines_copies
      (fun line hl => (hbody line hl).2.imp id fun hdeeper => Nat.lt_of_le_of_lt houter hdeeper)
      hblock (Text.lines rest)
    refine ⟨blanks, written, last, ?_, h.kept, h.blank, h.quiet, hquiet⟩
    rw [h.lay_cons hheader, Layout.lay, lines_fill fun line hl => (hbody line hl).1, hlay, fill_append]
    rfl

theorem joinWith_eq_fill {ls : List (List Char)} (h : ls ≠ []) :
    Text.joinWith ['\n'] ls ++ ['\n'] = fill ls := by
  induction ls with
  | nil => exact absurd rfl h
  | cons line ls ih =>
      cases ls with
      | nil => simp [Text.joinWith]
      | cons line' ls =>
          rw [Text.joinWith, fill_cons, List.append_assoc, List.append_assoc, ih (List.cons_ne_nil _ _)]
          · rfl
          · exact fun hnil => nomatch hnil

theorem tidy_eq {text : String} (h : Text.lines text.toList ≠ []) :
    (tidy text).toList = Tidier.layout.lay Tidier.layout.start text.toList := by
  have hne : layLines .start (Text.lines text.toList) ≠ [] := by
    obtain ⟨line, rest, hlines⟩ := List.exists_cons_of_ne_nil h
    obtain ⟨blanks, written, after, hlay⟩ := exists_lays .start line
    rw [hlines, layLines, hlay.lay]
    simp
  rw [tidy, joinWith_eq_fill hne, String.toList_ofList]
  rfl

end Profile.Layout

end GrammarProfile
