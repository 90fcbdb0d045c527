import Mathlib.Data.Bool.AllAny
import GrammarProfile.Proofs.LaidOut

/-!
What laying out does to parts of a text, whatever comes after them: parts of a line, lines with
nothing to leave out, nulls after a colon, and literal blocks with their headers.
-/
namespace GrammarProfile

namespace Text

/-- Characters none of which ends a line where a text is cut into lines. -/
def Clean (cs : List Char) : Prop := ∀ c ∈ cs, c ≠ '\n' ∧ c ≠ '\r'

theorem clean_nil : Clean [] := fun _ h => absurd h List.not_mem_nil

theorem clean_append {v w : List Char} : Clean (v ++ w) ↔ Clean v ∧ Clean w :=
  List.forall_mem_append

theorem clean_cons {c : Char} {w : List Char} : Clean (c :: w) ↔ (c ≠ '\n' ∧ c ≠ '\r') ∧ Clean w :=
  List.forall_mem_cons

theorem clean_spaces (n : Nat) : Clean (Yaml.spaces n) := by
  intro c hc
  rw [List.eq_of_mem_replicate hc]
  decide

theorem Clean.isLine {cs : List Char} (h : Clean cs) : IsLine cs where
  feed hc := (h _ hc).1 rfl
  ending hlast := (h _ (List.mem_of_getLast? hlast)).2 rfl

end Text

namespace Profile.Layout

open Text (IsLine Clean)
open Yaml (fill fill_nil fill_cons spaces)

/-! ## Nulls after a colon -/

/-- What ends the line of a key whose value is null. -/
def colonNull : List Char := ": null".toList

/-- A text that ends as the line of a key whose value is null. -/
def EndsInNull (cs : List Char) : Prop := ∃ key, cs = key ++ colonNull

theorem bareNull_cases (line : List Char) :
    bareNull line = line ∨ ∃ key, line = key ++ colonNull ∧ bareNull line = key ++ [':'] := by
  unfold bareNull Text.dropTail?
  split
  · next key hkey =>
    split at hkey
    · next htail =>
      obtain ⟨before, hline⟩ := List.isSuffixOf_iff_suffix.1 htail
      cases hkey
      rw [← hline, List.length_append, Nat.add_sub_cancel, List.take_left]
      split
      · next hcolon =>
        obtain ⟨key, rfl⟩ := List.isSuffixOf_iff_suffix.1 hcolon
        refine .inr ⟨key, ?_, rfl⟩
        rw [List.append_assoc]
        rfl
      · exact .inl rfl
    · exact nomatch hkey
  · exact .inl rfl

/-- Only a null after a colon is left out. -/
theorem Kept.cases {line written : List Char} (h : Kept line written) :
    written = line ∨ ∃ key, line = key ++ colonNull ∧ written = key ++ [':'] := by
  rcases h with rfl | rfl
  · exact .inl rfl
  · exact bareNull_cases line

theorem Kept.eq {line written : List Char} (h : Kept line written) (hline : ¬EndsInNull line) :
    written = line :=
  h.cases.resolve_right fun ⟨key, heq, _⟩ => hline ⟨key, heq⟩

theorem endsInNull_last {cs : List Char} (h : EndsInNull cs) : cs.getLast? = some 'l' := by
  obtain ⟨key, rfl⟩ := h
  rw [List.getLast?_append]
  rfl

theorem endsInNull_length {cs : List Char} (h : EndsInNull cs) : colonNull.length ≤ cs.length := by
  obtain ⟨key, rfl⟩ := h
  rw [List.length_append]
  exact Nat.le_add_left _ _

/-- Where the last part of a line stands after a space, either this part is the null, and a colon
comes before it, or it ends in a null itself. -/
theorem endsInNull_spaced {v w key : List Char} (h : v ++ ' ' :: w = key ++ colonNull) :
    (w = "null".toList ∧ v = key ++ [':']) ∨ EndsInNull w := by
  rcases List.append_eq_append_iff.1 h with ⟨more, rfl, hmore⟩ | ⟨more, rfl, hmore⟩
  · cases more with
    | nil => exact nomatch hmore
    | cons c more =>
        obtain ⟨-, rfl⟩ := List.cons.inj hmore
        exact .inr ⟨more, rfl⟩
  · cases more with
    | nil => exact nomatch hmore
    | cons c more =>
        obtain ⟨rfl, hrest⟩ := List.cons.inj hmore
        cases more with
        | nil => exact .inl ⟨(List.cons.inj hrest).2.symm, rfl⟩
        | cons d more =>
            -- The space would have to stand inside the word.
            have hmem : ' ' ∈ "null".toList := by
              rw [show "null".toList = more ++ ' ' :: w from (List.cons.inj hrest).2]
              simp
            exact absurd hmem (by decide)

/-! ## Parts of a text -/

/-- Lines that may come after what left the state `s`: blank ones, and none where it is quiet. -/
def Tidier.May (T : Tidier) (s : T.State) (lines : List (List Char)) : Prop :=
  (∀ line ∈ lines, line = []) ∧ (T.Quiet s → lines = [])

theorem Tidier.may_nil (T : Tidier) (s : T.State) : T.May s [] :=
  ⟨fun _ h => absurd h List.not_mem_nil, fun _ => rfl⟩

/-- What is written for the rest `w` of a line and the lines after it, where `pre` stands before in
this line: blank lines, the same beginning of the line, and something that satisfies `Q`. -/
def Tidier.Turns (T : Tidier) (pre w : List Char) (Q : List Char → T.State → Prop) : Prop :=
  ∀ (s : T.State) (rest : List Char), ∃ blanks written after,
    T.lay s (pre ++ (w ++ rest)) = fill blanks ++ (pre ++ (written ++ T.lay after rest)) ∧
      T.May s blanks ∧ Q written after

variable {T : Tidier} {pre u v w : List Char} {Q R : List Char → T.State → Prop}

theorem Tidier.Turns.mono (h : T.Turns pre w Q) (hmono : ∀ written after, Q written after → R written after) :
    T.Turns pre w R := by
  intro s rest
  obtain ⟨blanks, written, after, hlay, hblanks, hQ⟩ := h s rest
  exact ⟨blanks, written, after, hlay, hblanks, hmono written after hQ⟩

/-- What stands in the same line may count as part of what is written. -/
theorem Tidier.Turns.within (h : T.Turns (pre ++ u) w Q) :
    T.Turns pre (u ++ w) fun written after => ∃ tail, written = u ++ tail ∧ Q tail after := by
  intro s rest
  obtain ⟨blanks, written, after, hlay, hblanks, hQ⟩ := h s rest
  refine ⟨blanks, u ++ written, after, ?_, hblanks, written, rfl, hQ⟩
  simpa using hlay

/-- Two parts, of which the second begins a line. -/
theorem Tidier.Turns.append {n : Nat} (h : T.Turns pre v Q) (hnext : T.Turns (spaces n) w R) :
    T.Turns pre (v ++ (spaces n ++ w)) fun written after =>
      ∃ first between blanks last, written = first ++ (fill blanks ++ (spaces n ++ last)) ∧
        Q first between ∧ T.May between blanks ∧ R last after := by
  intro s rest
  obtain ⟨blanks, first, between, hlay, hblanks, hQ⟩ := h s (spaces n ++ (w ++ rest))
  obtain ⟨more, last, after, hlay', hmore, hR⟩ := hnext between rest
  refine ⟨blanks, first ++ (fill more ++ (spaces n ++ last)), after, ?_, hblanks, first, between, more,
    last, rfl, hQ, hmore, hR⟩
  rw [hlay'] at hlay
  simpa using hlay

/-- The rest of a line without a null to leave out. -/
theorem Tidier.turns_line (T : Tidier) (hline : Clean (pre ++ w)) (hnull : ¬EndsInNull (pre ++ w)) :
    T.Turns pre (w ++ ['\n']) fun written _ => written = w ++ ['\n'] := by
  intro s rest
  obtain ⟨blanks, written, after, hlay, hkept, hblanks⟩ := T.lay_line s rest hline.isLine
  obtain rfl := hkept.eq hnull
  exact ⟨blanks, w ++ ['\n'], after, by simpa using hlay, hblanks, rfl⟩

/-- A null after a space, which may be left out after a colon. -/
theorem Tidier.turns_null (T : Tidier) (hpre : Clean pre) :
    T.Turns pre " null\n".toList fun written _ =>
      written = " null\n".toList ∨ (pre.getLast? = some ':' ∧ written = ['\n']) := by
  intro s rest
  have hline : Clean (pre ++ " null".toList) :=
    Text.clean_append.2 ⟨hpre, List.all_iff_forall_prop.1 (by decide)⟩
  obtain ⟨blanks, written, after, hlay, hkept, hblanks⟩ := T.lay_line s rest hline.isLine
  have htext : pre ++ (" null\n".toList ++ rest) = pre ++ " null".toList ++ '\n' :: rest := by simp
  rw [htext, hlay]
  rcases hkept.cases with rfl | ⟨key, hkey, rfl⟩
  · exact ⟨blanks, _, after, by simp, hblanks, .inl rfl⟩
  · rcases endsInNull_spaced hkey with ⟨-, rfl⟩ | hnull
    · exact ⟨blanks, ['\n'], after, by simp, hblanks, .inr ⟨by simp, rfl⟩⟩
    · exact absurd (endsInNull_length hnull) (by decide)

/-- A line that ends before a part that begins in the next line. -/
theorem Tidier.Turns.newLine {n : Nat} (h : T.Turns (spaces n) w Q) (hpre : Clean pre)
    (hnull : ¬EndsInNull pre) : T.Turns pre ('\n' :: (spaces n ++ w)) fun written after =>
      ∃ blanks last, written = fill ([] :: blanks) ++ (spaces n ++ last) ∧
        (∀ line ∈ blanks, line = []) ∧ Q last after := by
  have hfirst : T.Turns pre ([] ++ ['\n']) fun written _ => written = [] ++ ['\n'] :=
    T.turns_line (by rwa [List.append_nil]) (by rwa [List.append_nil])
  refine (hfirst.append h).mono fun written after => ?_
  rintro ⟨first, between, blanks, last, rfl, rfl, hblanks, hQ⟩
  exact ⟨blanks, last, by simp, hblanks.1, hQ⟩

end Profile.Layout

end GrammarProfile
