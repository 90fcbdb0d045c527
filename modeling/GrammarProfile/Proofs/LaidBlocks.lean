import GrammarProfile.Proofs.BlockText
import GrammarProfile.Proofs.LaidText

/-!
What laying out does to literal blocks: where the header of a block is recognised and no line of its
text begins or ends in a line separator, the block stays as it is.
-/
namespace GrammarProfile

namespace Yaml

def isSeparator (c : Char) : Bool := c == '\u2028' || c == '\u2029'

/-- Whether no line of a text begins or ends in a line separator. -/
def keepsLines (cs : List Char) : Bool :=
  !(headIs isSeparator cs || lastIs isSeparator cs || hasNeighbours (· == '\n') isSeparator cs ||
    hasNeighbours isSeparator (· == '\n') cs)

theorem isSeparator_of_printable {c : Char} (hc : isBreak c = true) (hprint : isPrintable c = true)
    (hline : c ≠ '\n') : isSeparator c = true := by
  rcases Quoted.isSeparator_of_printable hc hprint hline with rfl | rfl <;> decide

end Yaml

namespace Profile.Layout

open Text (IsLine Clean)
open Yaml (fill fill_nil fill_cons spaces isSeparator hasNeighbours isBreak isPrintable literalBody
  literalBlock literalHints endLine headIs lastIs)

/-! ## The lines of a block -/

/-- A text that ends in a line feed, or is empty, is made of lines. Where no separator follows a line
feed, only the first line may begin with one. -/
theorem exists_lines {cs : List Char} (hlast : ∀ c ∈ cs.getLast?, c = '\n')
    (hfeeds : hasNeighbours (· == '\n') isSeparator cs = false) :
    ∃ lines, cs = fill lines ∧ (∀ line ∈ lines, '\n' ∉ line) ∧
      ∀ line ∈ lines.tail, headIs isSeparator line = false := by
  induction cs with
  | nil => exact ⟨[], rfl, fun _ h => absurd h List.not_mem_nil, fun _ h => absurd h List.not_mem_nil⟩
  | cons c rest ih =>
      have hrest : (∀ d ∈ rest.getLast?, d = '\n') ∧
          hasNeighbours (· == '\n') isSeparator rest = false := by
        cases rest with
        | nil => exact ⟨fun _ h => (nomatch h), rfl⟩
        | cons d more =>
            refine ⟨fun e he => hlast e (by rwa [List.getLast?_cons_cons]), ?_⟩
            rw [hasNeighbours, Bool.or_eq_false_iff] at hfeeds
            exact hfeeds.2
      obtain ⟨lines, heq, hfree, hheads⟩ := ih hrest.1 hrest.2
      by_cases hc : c = '\n'
      · subst hc
        refine ⟨[] :: lines, by rw [heq]; rfl, List.forall_mem_cons.2 ⟨List.not_mem_nil, hfree⟩, ?_⟩
        cases lines with
        | nil => exact fun _ h => absurd h List.not_mem_nil
        | cons line more =>
            refine List.forall_mem_cons.2 ⟨?_, hheads⟩
            cases line with
            | nil => rfl
            | cons d line =>
                rw [heq, fill_cons, List.cons_append, hasNeighbours, Bool.or_eq_false_iff] at hfeeds
                exact hfeeds.1
      · cases lines with
        | nil =>
            rw [heq] at hlast
            exact absurd (hlast c rfl) hc
        | cons line more =>
            refine ⟨(c :: line) :: more, by rw [heq]; rfl, ?_, hheads⟩
            obtain ⟨hline, hmore⟩ := List.forall_mem_cons.1 hfree
            exact List.forall_mem_cons.2
              ⟨fun h => (List.mem_cons.1 h).elim (fun h => hc h.symm) hline, hmore⟩

theorem literalBody_append_feed {line : List Char} (n : Nat) (afterBreak : Bool) (tail : List Char) :
    literalBody n afterBreak (line ++ '\n' :: tail) =
      literalBody n afterBreak line ++ '\n' :: literalBody n true tail := by
  induction line generalizing afterBreak with
  | nil => rfl
  | cons c line ih =>
      rw [List.cons_append, literalBody, literalBody]
      split
      · rw [ih, List.cons_append]
      · rw [ih, List.append_assoc, List.cons_append]

theorem literalBody_fill (n : Nat) (lines : List (List Char)) :
    literalBody n true (fill lines) = fill (lines.map (literalBody n true)) := by
  induction lines with
  | nil => rfl
  | cons line lines ih => rw [fill_cons, literalBody_append_feed, ih, List.map_cons, fill_cons]

theorem mem_literalBody {n : Nat} {afterBreak : Bool} {cs : List Char} {c : Char}
    (h : c ∈ literalBody n afterBreak cs) : c = ' ' ∨ c ∈ cs := by
  induction cs generalizing afterBreak with
  | nil => exact absurd h List.not_mem_nil
  | cons d cs ih =>
      rw [literalBody] at h
      split at h
      · rcases List.mem_cons.1 h with rfl | h
        · exact .inr List.mem_cons_self
        · exact (ih h).imp id (List.mem_cons_of_mem _)
      · rcases List.mem_append.1 h with h | h
        · cases afterBreak with
          | false => exact absurd h List.not_mem_nil
          | true => exact .inl (List.eq_of_mem_replicate h)
        · rcases List.mem_cons.1 h with rfl | h
          · exact .inr List.mem_cons_self
          · exact (ih h).imp id (List.mem_cons_of_mem _)

theorem indentOf_spaces (n : Nat) (cs : List Char) : indentOf (spaces n ++ cs) = n + indentOf cs := by
  rw [indentOf, spaces, List.takeWhile_append_of_pos fun c hc => by rw [List.eq_of_mem_replicate hc]; rfl,
    List.length_append, List.length_replicate]
  rfl

/-- A line of a block that begins with no line end is empty or indented. -/
theorem literalBody_indented {line : List Char} (hline : headIs isBreak line = false) (n : Nat) :
    literalBody n true line = [] ∨ n ≤ indentOf (literalBody n true line) := by
  cases line with
  | nil => exact .inl rfl
  | cons c line =>
      have hc : isBreak c = false := hline
      rw [literalBody, hc]
      refine .inr ?_
      rw [if_neg Bool.false_ne_true, if_pos rfl, indentOf_spaces]
      exact Nat.le_add_right _ _

/-! ## The header of a block -/

theorem mem_literalHints {cs : List Char} {c : Char} (h : c ∈ literalHints cs) : c ∈ "2-+".toList := by
  rw [Yaml.Block.literalHints_eq, List.mem_append] at h
  rcases h with h | h
  · cases hwidth : Yaml.Block.width? cs with
    | none => rw [hwidth] at h; exact absurd h List.not_mem_nil
    | some n =>
        rw [hwidth] at h
        obtain rfl : c = '2' := List.mem_singleton.1 h
        decide
  · cases hchomping : Yaml.Block.chomping cs <;> rw [hchomping] at h
    · obtain rfl : c = '-' := List.mem_singleton.1 h
      decide
    · exact absurd h List.not_mem_nil
    · obtain rfl : c = '+' := List.mem_singleton.1 h
      decide

/-- Where a literal block is recognised: after a colon, or after the dash that begins a line. -/
def Opens (pre : List Char) : Prop := pre.getLast? = some ':' ∨ ∃ n, pre = spaces n ++ ['-']

theorem splitLast?_append {sep : Char} {w : List Char} (hw : sep ∉ w) (v : List Char) :
    Text.splitLast? sep (v ++ sep :: w) = some (v, w) := by
  have hnone : Text.splitLast? sep w = none := by
    induction w with
    | nil => rfl
    | cons c w ih =>
        rw [Text.splitLast?, ih (List.not_mem_of_not_mem_cons hw)]
        exact if_neg (List.ne_of_not_mem_cons hw).symm
  induction v with
  | nil => rw [List.nil_append, Text.splitLast?, hnone]; exact if_pos rfl
  | cons c v ih => rw [List.cons_append, Text.splitLast?, ih]

theorem opensBlockScalar_header {pre : List Char} (hpre : Opens pre) (cs : List Char) :
    opensBlockScalar (pre ++ ' ' :: '|' :: literalHints cs) = true := by
  have hhints : ∀ c ∈ literalHints cs, c ∈ "2-+".toList := fun c hc => mem_literalHints hc
  have hchars : ∀ c ∈ "|2-+".toList, Text.isBlank c = false ∧ c ≠ ' ' :=
    List.all_iff_forall_prop.1 (by decide)
  have hheader : ∀ c ∈ '|' :: literalHints cs, c ∈ "|2-+".toList :=
    List.forall_mem_cons.2 ⟨by decide, fun c hc => List.mem_cons_of_mem _ (hhints c hc)⟩
  have hend : Text.trimEnd (pre ++ ' ' :: '|' :: literalHints cs) =
      pre ++ ' ' :: '|' :: literalHints cs := by
    obtain ⟨c, hc⟩ := Option.isSome_iff_exists.1
      (List.getLast?_isSome.2 (List.cons_ne_nil '|' (literalHints cs)))
    refine Text.trimEnd_of_last (c := c) ?_ (hchars c (hheader c (List.mem_of_getLast? hc))).1
    rw [List.getLast?_append, List.getLast?_cons_cons, hc]
    rfl
  have hsplit : Text.splitLast? ' ' (pre ++ ' ' :: '|' :: literalHints cs) =
      some (pre, '|' :: literalHints cs) :=
    splitLast?_append (fun h => (hchars _ (hheader _ h)).2 rfl) pre
  have hmarks : (literalHints cs).all (fun d => d == '-' || d == '+' || d.isDigit) = true := by
    have hdigits : ∀ c ∈ "2-+".toList, (c == '-' || c == '+' || c.isDigit) = true :=
      List.all_iff_forall_prop.1 (by decide)
    exact List.all_eq_true.2 fun c hc => hdigits c (hhints c hc)
  rw [opensBlockScalar, hend, hsplit]
  simp only [hmarks, beq_self_eq_true, Bool.true_or, Bool.true_and, Bool.or_eq_true]
  rcases hpre with hcolon | ⟨n, rfl⟩
  · left
    rw [Text.trimEnd_of_last hcolon (by decide), Text.endsWith, List.isSuffixOf_iff_suffix]
    obtain ⟨before, rfl⟩ := List.getLast?_eq_some_iff.1 hcolon
    exact List.suffix_append _ _
  · right
    rw [Text.trimEnd_of_last (c := '-') (by simp) (by decide), Text.trimStart, beq_iff_eq, spaces]
    rw [List.dropWhile_append_of_pos fun c hc => by rw [List.eq_of_mem_replicate hc]; decide]
    rfl

/-! ## Whole blocks -/

/-- What a literal block needs to stay as it is. -/
structure IsKeptBlock (cs : List Char) : Prop where
  nonempty : cs ≠ []
  printable : ∀ c ∈ cs, isPrintable c = true
  lines : Yaml.keepsLines cs = true

theorem IsKeptBlock.facts {cs : List Char} (h : IsKeptBlock cs) :
    headIs isSeparator cs = false ∧ lastIs isSeparator cs = false ∧
      hasNeighbours (· == '\n') isSeparator cs = false ∧
      hasNeighbours isSeparator (· == '\n') cs = false := by
  have := h.lines
  rw [Yaml.keepsLines, Bool.not_eq_true', Bool.or_eq_false_iff, Bool.or_eq_false_iff,
    Bool.or_eq_false_iff] at this
  exact ⟨this.1.1.1, this.1.1.2, this.1.2, this.2⟩

/-- The text that stands in a block: with a line feed at its end. -/
def ended (cs : List Char) : List Char := cs ++ if lastIs isBreak cs then [] else ['\n']

theorem hasNeighbours_append_singleton {p q : Char → Bool} {c : Char} (hc : q c = false)
    {cs : List Char} (h : hasNeighbours p q cs = false) : hasNeighbours p q (cs ++ [c]) = false := by
  induction cs with
  | nil => rfl
  | cons d rest ih =>
      cases rest with
      | nil => simp [hasNeighbours, hc]
      | cons e more =>
          rw [hasNeighbours, Bool.or_eq_false_iff] at h
          rw [List.cons_append, List.cons_append, hasNeighbours, h.1]
          exact ih h.2

theorem IsKeptBlock.last {cs : List Char} (h : IsKeptBlock cs) (hlast : lastIs isBreak cs = true) :
    cs.getLast? = some '\n' := by
  rw [lastIs, Option.any_eq_true] at hlast
  obtain ⟨c, hc, hbreak⟩ := hlast
  by_cases hline : c = '\n'
  · exact hline ▸ hc
  · have hseparator := Yaml.isSeparator_of_printable hbreak
      (h.printable c (List.mem_of_getLast? hc)) hline
    have hnot := h.facts.2.1
    rw [lastIs, hc, Option.any_some, hseparator] at hnot
    cases hnot

/-- A block that keeps its line feeds ends in an empty line. -/
theorem IsKeptBlock.last_line {cs : List Char} (h : IsKeptBlock cs)
    (hkeep : Yaml.Block.chomping cs = .keep) {lines : List (List Char)} (hlines : ended cs = fill lines)
    (hfree : ∀ line ∈ lines, '\n' ∉ line) : lines.getLast? = some [] := by
  have hbreak := Yaml.Lexer.lastIs_of_keep hkeep
  obtain ⟨before, rfl⟩ := List.getLast?_eq_some_iff.1 (h.last hbreak)
  have hhead : before.reverse.head?.all isBreak = true := by
    simp only [Yaml.Block.chomping, List.reverse_append, List.reverse_singleton, List.singleton_append,
      show isBreak '\n' = true from rfl, Bool.not_true, Bool.false_eq_true, if_false] at hkeep
    cases hall : before.reverse.head?.all isBreak with
    | true => rfl
    | false =>
        rw [hall] at hkeep
        cases hkeep
  rw [ended, if_pos hbreak, List.append_nil] at hlines
  obtain rfl | ⟨front, line, rfl⟩ := List.eq_nil_or_concat lines
  · simp at hlines
  · rw [List.concat_eq_append] at hlines hfree ⊢
    obtain rfl : before = fill front ++ line := by
      rw [fill_append, fill_cons, fill_nil, ← List.append_assoc] at hlines
      exact (List.append_inj' hlines rfl).1
    rcases List.eq_nil_or_concat line with rfl | ⟨start, d, rfl⟩
    · simp
    · -- The last character of this line would be a separator before a line feed.
      rw [List.concat_eq_append] at hhead hfree h
      have hd : d ≠ '\n' := by
        rintro rfl
        exact hfree (start ++ ['\n']) (by simp) (by simp)
      have hbreak : isBreak d = true := by simpa using hhead
      have hseparator := Yaml.isSeparator_of_printable hbreak (h.printable d (by simp)) hd
      have hnot : hasNeighbours isSeparator (· == '\n') [d, '\n'] = false := by
        refine Yaml.hasNeighbours_append_right (v := fill front ++ start) ?_
        simpa using h.facts.2.2.2
      rw [hasNeighbours, hseparator] at hnot
      cases hnot

theorem IsKeptBlock.printable_ended {cs : List Char} (h : IsKeptBlock cs) :
    ∀ c ∈ ended cs, isPrintable c = true := by
  intro c hc
  rcases List.mem_append.1 hc with hc | hc
  · exact h.printable c hc
  · split at hc
    · exact absurd hc List.not_mem_nil
    · exact List.mem_singleton.1 hc ▸ by decide

/-- A block is made of lines that begin with no line end. -/
theorem IsKeptBlock.exists_lines {cs : List Char} (h : IsKeptBlock cs) :
    ∃ lines, ended cs = fill lines ∧ (∀ line ∈ lines, '\n' ∉ line) ∧
      ∀ line ∈ lines, headIs isBreak line = false := by
  obtain ⟨hhead, -, hfeeds, -⟩ := h.facts
  have hended : ∀ c ∈ (ended cs).getLast?, c = '\n' := by
    intro c hc
    rw [ended] at hc
    split at hc
    · next hlast =>
      rw [List.append_nil, h.last hlast] at hc
      exact (Option.some.inj hc).symm
    · rw [List.getLast?_append] at hc
      exact (Option.some.inj hc).symm
  have hneighbours : hasNeighbours (· == '\n') isSeparator (ended cs) = false := by
    rw [ended]
    split
    · rwa [List.append_nil]
    · exact hasNeighbours_append_singleton (by decide) hfeeds
  obtain ⟨lines, hlines, hfree, hheads⟩ := Layout.exists_lines hended hneighbours
  have hfirst : ∀ line ∈ lines, headIs isSeparator line = false := by
    cases lines with
    | nil => exact fun _ h => absurd h List.not_mem_nil
    | cons line more =>
        refine List.forall_mem_cons.2 ⟨?_, hheads⟩
        cases line with
        | nil => rfl
        | cons c line =>
            obtain ⟨d, rest, rfl⟩ := List.exists_cons_of_ne_nil h.nonempty
            rw [fill_cons] at hlines
            obtain ⟨rfl, -⟩ := List.cons.inj hlines
            exact hhead
  refine ⟨lines, hlines, hfree, fun line hline => ?_⟩
  cases line with
  | nil => rfl
  | cons c rest =>
      cases hc : isBreak c with
      | false => exact hc
      | true =>
          have hmem : c ∈ ended cs := by
            rw [hlines]
            exact List.mem_flatMap.2 ⟨c :: rest, hline, List.mem_append_left _ List.mem_cons_self⟩
          have hseparator := Yaml.isSeparator_of_printable hc (h.printable_ended c hmem)
            fun h => hfree _ hline (h ▸ List.mem_cons_self)
          exact nomatch hseparator.symm.trans (hfirst _ hline)

/-- The lines of a block as they are written are empty or indented. -/
theorem IsKeptBlock.exists_body {cs : List Char} (h : IsKeptBlock cs) (n : Nat) :
    ∃ body, literalBody n true (ended cs) = fill body ∧
      (∀ line ∈ body, IsLine line ∧ (line = [] ∨ n ≤ indentOf line)) ∧
      (Yaml.Block.chomping cs = .keep → body.getLast? = some []) := by
  obtain ⟨lines, hlines, hfree, hheads⟩ := h.exists_lines
  refine ⟨lines.map (literalBody n true), by rw [hlines, literalBody_fill], fun line hline => ?_,
    fun hkeep => ?_⟩
  · obtain ⟨bare, hbare, rfl⟩ := List.mem_map.1 hline
    refine ⟨Clean.isLine fun c hc => ?_, literalBody_indented (hheads bare hbare) n⟩
    rcases mem_literalBody hc with rfl | hc
    · decide
    · have hmem : c ∈ ended cs := by
        rw [hlines]
        exact List.mem_flatMap.2 ⟨bare, hbare, List.mem_append_left _ hc⟩
      refine ⟨fun h => hfree bare hbare (h ▸ hc), ?_⟩
      rintro rfl
      exact absurd (h.printable_ended _ hmem) (by decide)
  · rw [List.getLast?_map, h.last_line hkeep hlines hfree]
    rfl

theorem clean_header {pre : List Char} (hpre : Clean pre) (cs : List Char) :
    Clean (pre ++ ' ' :: '|' :: literalHints cs) ∧
      ¬EndsInNull (pre ++ ' ' :: '|' :: literalHints cs) := by
  have hhints : ∀ c ∈ '|' :: literalHints cs, c ∈ "|2-+".toList :=
    List.forall_mem_cons.2 ⟨by decide, fun c hc => List.mem_cons_of_mem _ (mem_literalHints hc)⟩
  have hmarks : ∀ c ∈ "|2-+".toList, c ≠ '\n' ∧ c ≠ '\r' := List.all_iff_forall_prop.1 (by decide)
  refine ⟨Text.clean_append.2
    ⟨hpre, Text.clean_cons.2 ⟨by decide, fun c hc => hmarks c (hhints c hc)⟩⟩, fun ⟨key, hkey⟩ => ?_⟩
  rcases endsInNull_spaced hkey with ⟨h, -⟩ | h
  · exact absurd (List.cons.inj h).1 (by decide)
  · exact absurd (hhints _ (List.mem_of_getLast? (endsInNull_last h))) (by decide)

/-- A block that is recognised stays as it is. -/
theorem Tidier.turns_block (T : Tidier) {pre cs : List Char} {n : Nat} (hcs : IsKeptBlock cs)
    (hpre : Clean pre) (hopens : Opens pre) (hindent : ∀ tail, indentOf (pre ++ ' ' :: tail) < n) :
    T.Turns pre (' ' :: endLine (literalBlock n cs)) fun written after =>
      written = ' ' :: endLine (literalBlock n cs) ∧
        (Yaml.Block.chomping cs = .keep → T.Quiet after) := by
  obtain ⟨body, heq, hbody, hlast⟩ := hcs.exists_body n
  obtain ⟨hheader, hnull⟩ := clean_header hpre cs
  have hwritten : ∀ rest, pre ++ (' ' :: endLine (literalBlock n cs) ++ rest) =
      pre ++ ' ' :: '|' :: literalHints cs ++ '\n' :: (fill body ++ rest) := by
    intro rest
    rw [Yaml.endLine_literalBlock hcs.nonempty n, ← ended, heq]
    simp
  intro s rest
  obtain ⟨blanks, written, after, hlay, hkept, hblank, hquiet, hafter⟩ := T.lay_block s rest
    hheader.isLine (opensBlockScalar_header hopens cs)
    fun line hline => ⟨(hbody line hline).1, (hbody line hline).2.imp id
      fun h => Nat.lt_of_lt_of_le (hindent _) h⟩
  obtain rfl := hkept.eq hnull
  exact ⟨blanks, ' ' :: endLine (literalBlock n cs), after, by rw [hwritten, hwritten, hlay],
    ⟨hblank, hquiet⟩, rfl, fun hkeep => hafter (hlast hkeep)⟩

end Profile.Layout

end GrammarProfile
