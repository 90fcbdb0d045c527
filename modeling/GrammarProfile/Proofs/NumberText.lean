import Mathlib.Data.Bool.AllAny
import GrammarProfile.Proofs.PlainText

/-!
The texts of numbers and of the words for null and the booleans, which are written plainly.
-/
namespace GrammarProfile

namespace Yaml

/-- A character that no gap, colon or comment is made of. -/
def isWordLike (c : Char) : Bool := !isGap c && c != ':' && c != '#' && isPrintable c

theorem isPlain_of_wordLike {cs : List Char} (hne : cs ≠ []) (hcs : ∀ c ∈ cs, isWordLike c = true)
    (hstart : beginsAsIndicator cs = false) : IsPlain cs := by
  have hfacts : ∀ c ∈ cs, isGap c = false ∧ c ≠ ':' ∧ c ≠ '#' ∧ isPrintable c = true := by
    intro c hc
    simpa [isWordLike, and_assoc] using hcs c hc
  have hspace : ' ' ∉ cs := fun h => absurd (hfacts _ h).1 (by decide)
  refine ⟨⟨fun c hc hgap => absurd hgap (by rw [(hfacts c hc).1]; decide),
    fun h => hspace (List.mem_of_getLast? h), ?_, ?_⟩, hne, fun c hc => (hfacts c hc).2.2.2,
    fun c hc => (not_gap_facts (hfacts c hc).1).2, fun h => hspace (List.mem_of_head? h), hstart⟩
  · clear hne hcs hstart hspace
    induction cs with
    | nil => rfl
    | cons c cs ih =>
        rw [hasEndingColon, beq_eq_false_iff_ne.2 (hfacts c List.mem_cons_self).2.1,
          ih fun d hd => hfacts d (List.mem_cons_of_mem _ hd)]
        rfl
  · clear hne hcs hstart hspace
    induction cs with
    | nil => rfl
    | cons c cs ih =>
        cases cs with
        | nil => rfl
        | cons d cs =>
            rw [hasNeighbours, (hfacts c List.mem_cons_self).1,
              ih fun e he => hfacts e (List.mem_cons_of_mem _ he)]
            rfl

theorem isPlain_null : IsPlain "null".toList :=
  isPlain_of_wordLike (by decide) (List.all_iff_forall_prop.1 (by decide)) (by decide)

theorem isPlain_bool (b : Bool) : IsPlain (toString b).toList := by
  cases b
  · exact isPlain_of_wordLike (by decide) (List.all_iff_forall_prop.1 (by decide)) (by decide)
  · exact isPlain_of_wordLike (by decide) (List.all_iff_forall_prop.1 (by decide)) (by decide)

/-! ## Numbers -/

/-- A text that begins with a digit and holds only what numbers are made of. -/
structure IsFigure (cs : List Char) : Prop where
  chars : ∀ c ∈ cs, c.isDigit = true ∨ c ∈ ".e-".toList
  head : ∃ d rest, cs = d :: rest ∧ d.isDigit = true

theorem isWordLike_of_isDigit {c : Char} (h : c.isDigit = true) : isWordLike c = true := by
  have hrange : 48 ≤ c.toNat ∧ c.toNat ≤ 57 := by
    simpa [Char.isDigit, Char.le_def, UInt32.le_iff_toNat_le] using h
  have hgap : isGap c = false := by
    rw [isGap, isSpacing, isBreak]
    simp only [Bool.or_eq_false_iff, beq_eq_false_iff_ne]
    refine ⟨⟨⟨?_, ?_⟩, ⟨⟨⟨?_, ?_⟩, ?_⟩, ?_⟩, ?_⟩, ?_⟩ <;> rintro rfl <;> exact absurd h (by decide)
  have hprint : isPrintable c = true := by
    rw [isPrintable]
    simp only [Bool.or_eq_true, Bool.and_eq_true, decide_eq_true_eq]
    omega
  rw [isWordLike, hgap, hprint]
  have hmarks : c ≠ ':' ∧ c ≠ '#' := by
    constructor <;> rintro rfl <;> exact absurd h (by decide)
  simp [hmarks]

theorem IsFigure.wordLike {cs : List Char} (h : IsFigure cs) : ∀ c ∈ cs, isWordLike c = true := by
  have hmarks : ∀ c ∈ ".e-".toList, isWordLike c = true := List.all_iff_forall_prop.1 (by decide)
  exact fun c hc => (h.chars c hc).elim isWordLike_of_isDigit (hmarks c)

theorem digit_facts {d : Char} (h : d.isDigit = true) :
    d ≠ '-' ∧ d ≠ '.' ∧ d ≠ '?' ∧ d ≠ ':' ∧ isGap d = false ∧
      "#,[]\x7b\x7d&*!|>'\"%@`".toList.contains d = false := by
  refine ⟨?_, ?_, ?_, ?_, ?_, ?_⟩
  · rintro rfl; exact absurd h (by decide)
  · rintro rfl; exact absurd h (by decide)
  · rintro rfl; exact absurd h (by decide)
  · rintro rfl; exact absurd h (by decide)
  · have := isWordLike_of_isDigit h
    rw [isWordLike, Bool.and_eq_true, Bool.and_eq_true, Bool.and_eq_true] at this
    simpa using this.1.1.1
  · have hmarks : ∀ c ∈ "#,[]\x7b\x7d&*!|>'\"%@`".toList, c.isDigit = false :=
      List.all_iff_forall_prop.1 (by decide)
    cases hcontains : "#,[]\x7b\x7d&*!|>'\"%@`".toList.contains d with
    | false => rfl
    | true => exact nomatch h.symm.trans (hmarks d (List.contains_iff_mem.1 hcontains))

theorem IsFigure.isPlain {cs : List Char} (h : IsFigure cs) : IsPlain cs := by
  obtain ⟨d, rest, rfl, hd⟩ := h.head
  obtain ⟨hdash, hdot, hmark, hcolon, -, hindicator⟩ := digit_facts hd
  refine isPlain_of_wordLike (List.cons_ne_nil _ _) h.wordLike ?_
  rw [beginsAsIndicator, hindicator]
  simp [Text.startsWith, List.isPrefixOf, hdash, hdash.symm, hdot.symm, hmark, hcolon]

theorem IsFigure.isPlain_negative {cs : List Char} (h : IsFigure cs) : IsPlain ('-' :: cs) := by
  have hwordLike := h.wordLike
  obtain ⟨d, rest, rfl, hd⟩ := h.head
  obtain ⟨hdash, -, -, -, hgap, -⟩ := digit_facts hd
  refine isPlain_of_wordLike (List.cons_ne_nil _ _)
    (List.forall_mem_cons.2 ⟨by decide, hwordLike⟩) ?_
  simp [beginsAsIndicator, Text.startsWith, List.isPrefixOf, hdash.symm, atGap, hgap]

theorem isFigure_toDigits (n : Nat) : IsFigure (Nat.toDigits 10 n) where
  chars c hc := .inl (Nat.isDigit_of_mem_toDigits (by decide) (by decide) hc)
  head := by
    obtain ⟨d, rest, h⟩ := List.exists_cons_of_ne_nil (@Nat.toDigits_ne_nil n 10)
    exact ⟨d, rest, h, Nat.isDigit_of_mem_toDigits (by decide) (by decide) (h ▸ List.mem_cons_self)⟩

/-- More characters of numbers after a text that begins with a digit. -/
theorem IsFigure.append {v w : List Char} (h : IsFigure v)
    (hw : ∀ c ∈ w, c.isDigit = true ∨ c ∈ ".e-".toList) : IsFigure (v ++ w) where
  chars c hc := (List.mem_append.1 hc).elim (h.chars c) (hw c)
  head := by
    obtain ⟨d, rest, rfl, hd⟩ := h.head
    exact ⟨d, rest ++ w, rfl, hd⟩

theorem toList_repr (n : Nat) : (Nat.repr n).toList = Nat.toDigits 10 n := String.toList_ofList

theorem toList_int (n : Int) :
    (toString n).toList = Nat.toDigits 10 n.natAbs ∨
      (toString n).toList = '-' :: Nat.toDigits 10 n.natAbs := by
  cases n with
  | ofNat m => exact .inl (toList_repr m)
  | negSucc m =>
      have htext : toString (Int.negSucc m) = "-" ++ Nat.repr (m + 1) := rfl
      rw [htext, String.toList_append, toList_repr]
      exact .inr rfl

theorem chars_int (n : Int) : ∀ c ∈ (toString n).toList, c.isDigit = true ∨ c ∈ ".e-".toList := by
  have hdigits := (isFigure_toDigits n.natAbs).chars
  rcases toList_int n with h | h
  · rw [h]
    exact hdigits
  · rw [h]
    exact List.forall_mem_cons.2 ⟨.inr (by decide), hdigits⟩

/-- Digits with a point after the first one. -/
theorem isFigure_pointed (cs : List Char) : IsFigure cs → IsFigure (match cs with
    | [d] => [d]
    | d :: rest => d :: '.' :: rest
    | [] => []) := by
  intro h
  obtain ⟨d, rest, rfl, hd⟩ := h.head
  cases rest with
  | nil => exact h
  | cons e rest =>
      obtain ⟨hfirst, hrest⟩ := List.forall_mem_cons.1 h.chars
      exact ⟨List.forall_mem_cons.2 ⟨hfirst, List.forall_mem_cons.2 ⟨.inr (by decide), hrest⟩⟩,
        d, _, rfl, hd⟩

theorem isFigure_layOut (digits : Nat) (k : Int) : IsFigure (Decimal.layOut digits k).toList := by
  have hfigure := isFigure_toDigits digits
  have hzeros : ∀ n, ∀ c ∈ List.replicate n '0', c.isDigit = true ∨ c ∈ ".e-".toList := by
    intro n c hc
    rw [List.eq_of_mem_replicate hc]
    exact .inl (by decide)
  unfold Decimal.layOut
  generalize Nat.toDigits 10 digits = ds at hfigure
  dsimp only
  obtain ⟨d, rest, rfl, hd⟩ := hfigure.head
  split
  · rw [String.toList_append, String.toList_ofList]
    exact (hfigure.append (hzeros _)).append (List.all_iff_forall_prop.1 (by decide))
  · split
    · next hpoint =>
      simp only [Bool.and_eq_true, decide_eq_true_eq] at hpoint
      obtain ⟨n, hn⟩ : ∃ n, (((d :: rest).length : Int) + k).toNat = n + 1 :=
        ⟨_, (Nat.succ_pred_eq_of_pos (by omega)).symm⟩
      rw [String.toList_ofList, hn]
      refine ⟨fun c hc => ?_, d, _, rfl, hd⟩
      rcases List.mem_append.1 hc with hc | hc
      · exact hfigure.chars c ((List.take_subset _ _) hc)
      · rcases List.mem_cons.1 hc with rfl | hc
        · exact .inr (by decide)
        · exact hfigure.chars c ((List.drop_subset _ _) hc)
    · split
      · rw [String.toList_ofList]
        have hzero : IsFigure ['0', '.'] :=
          ⟨List.all_iff_forall_prop.1 (by decide), '0', ['.'], rfl, by decide⟩
        exact (hzero.append (hzeros _)).append hfigure.chars
      · rw [String.toList_append, String.toList_append, String.toList_ofList]
        have hmark : ∀ c ∈ ['e'], c.isDigit = true ∨ c ∈ ".e-".toList :=
          List.all_iff_forall_prop.1 (by decide)
        exact ((isFigure_pointed _ hfigure).append hmark).append (chars_int _)

theorem text_negative (m : Nat) (e : Int) : (Decimal.Binary64.finite true m e).text =
    "-" ++ (Decimal.Binary64.finite false m e).text := by
  simp only [Decimal.Binary64.text, if_true, Bool.false_eq_true, if_false]

theorem isFigure_finite (m : Nat) (e : Int) :
    IsFigure (Decimal.Binary64.finite false m e).text.toList := by
  simp only [Decimal.Binary64.text, Bool.false_eq_true, if_false]
  split
  · exact ⟨List.all_iff_forall_prop.1 (by decide), '0', _, rfl, by decide⟩
  · exact isFigure_layOut _ _

/-- The text of a number is written plainly. -/
theorem isPlain_number (n : Number) : IsPlain n.text.toList := by
  have hword : ∀ w ∈ [".nan".toList, "-.inf".toList, ".inf".toList],
      w ≠ [] ∧ (∀ c ∈ w, isWordLike c = true) ∧ beginsAsIndicator w = false := by
    refine List.forall_mem_cons.2 ⟨?_, List.forall_mem_cons.2 ⟨?_, List.forall_mem_singleton.2 ?_⟩⟩
    · exact ⟨by decide, List.all_iff_forall_prop.1 (by decide), by decide⟩
    · exact ⟨by decide, List.all_iff_forall_prop.1 (by decide), by decide⟩
    · exact ⟨by decide, List.all_iff_forall_prop.1 (by decide), by decide⟩
  have hspecial : ∀ w ∈ [".nan".toList, "-.inf".toList, ".inf".toList], IsPlain w := fun w hw =>
    isPlain_of_wordLike (hword w hw).1 (hword w hw).2.1 (hword w hw).2.2
  cases n with
  | int n =>
      have hfigure := isFigure_toDigits n.natAbs
      rw [Number.text]
      rcases toList_int n with h | h
      · exact h ▸ hfigure.isPlain
      · exact h ▸ hfigure.isPlain_negative
  | float x =>
      rw [Number.text]
      cases x with
      | nan => exact hspecial _ (by simp [Decimal.Binary64.text])
      | infinite negative =>
          refine hspecial _ ?_
          cases negative <;> simp [Decimal.Binary64.text]
      | finite negative m e =>
          cases negative with
          | false => exact (isFigure_finite m e).isPlain
          | true =>
              rw [text_negative, String.toList_append]
              exact (isFigure_finite m e).isPlain_negative

end Yaml

end GrammarProfile
