import GrammarProfile.Profile.Cardinality
import GrammarProfile.Proofs.Permitted
import GrammarProfile.Proofs.TextParts
import Mathlib.Data.List.Induction

/-!
Cardinality labels: which texts write which bounds, and that the label of bounds is read back as
these bounds.
-/
namespace GrammarProfile.Text

variable {n : ℕ}

theorem range_of_isDigit {c : Char} (h : c.isDigit = true) : 48 ≤ c.toNat ∧ c.toNat ≤ 57 := by
  simpa [Char.isDigit, Char.le_def, UInt32.le_iff_toNat_le] using h

theorem isBlank_of_isDigit {c : Char} (h : c.isDigit = true) : isBlank c = false := by
  have hrange := range_of_isDigit h
  unfold isBlank
  simp only [Bool.or_eq_false_iff, Bool.and_eq_false_imp, decide_eq_true_eq,
    decide_eq_false_iff_not, beq_eq_false_iff_ne]
  omega

/-! ## Numbers -/

theorem isDigit_of_mem_toDigits {c : Char} (h : c ∈ Nat.toDigits 10 n) : c.isDigit = true :=
  Nat.isDigit_of_mem_toDigits (by decide) (by decide) h

theorem toDigits_digit {d : Char} (h : d.isDigit = true) : Nat.toDigits 10 (d.toNat - 48) = [d] := by
  have hrange := range_of_isDigit h
  have hcode : ∀ v < 10, (Nat.digitChar v).toNat = v + 48 := by decide
  rw [Nat.toDigits_of_lt_base (by omega)]
  refine congrArg (· :: []) (Char.toNat_inj.1 ?_)
  rw [hcode _ (by omega)]
  omega

/-- The digits of a number, with zeros in front. -/
def zerosDigits (zeros n : ℕ) : List Char := List.replicate zeros '0' ++ Nat.toDigits 10 n

theorem isDigit_of_mem_zerosDigits {zeros : ℕ} {c : Char} (h : c ∈ zerosDigits zeros n) :
    c.isDigit = true := by
  rcases List.mem_append.1 h with h | h
  · exact List.eq_of_mem_replicate h ▸ rfl
  · exact isDigit_of_mem_toDigits h

theorem zerosDigits_ne_nil (zeros n : ℕ) : zerosDigits zeros n ≠ [] :=
  List.append_ne_nil_of_right_ne_nil _ Nat.toDigits_ne_nil

theorem decimal?_zerosDigits (zeros n : ℕ) : decimal? (zerosDigits zeros n) = some n := by
  have hdigits : (zerosDigits zeros n).all Char.isDigit = true :=
    List.all_eq_true.2 fun c hc => isDigit_of_mem_zerosDigits hc
  have hzeros : (zerosDigits zeros n).foldl (fun m c => m * 10 + (c.toNat - 48)) 0 =
      (Nat.toDigits 10 n).foldl (fun m c => m * 10 + (c.toNat - 48)) 0 := by
    induction zeros with
    | zero => rfl
    | succ zeros ih => exact ih (List.all_eq_true.2 fun c hc => isDigit_of_mem_zerosDigits hc)
  have hvalue : (Nat.toDigits 10 n).foldl (fun m c => m * 10 + (c.toNat - 48)) 0 = n := by
    calc (Nat.toDigits 10 n).foldl (fun m c => m * 10 + (c.toNat - 48)) 0
      _ = Nat.ofDigitChars 10 (Nat.toDigits 10 n) 0 := by
          unfold Nat.ofDigitChars
          simp only [Nat.mul_comm]
          rfl
      _ = n := Nat.ofDigitChars_ten_toDigits
  unfold decimal?
  rw [hdigits, hzeros, hvalue, List.isEmpty_eq_false_iff.2 (zerosDigits_ne_nil zeros n)]
  rfl

theorem decimal?_toDigits (n : ℕ) : decimal? (Nat.toDigits 10 n) = some n := decimal?_zerosDigits 0 n

/-- Digits are those of the number that they write, with zeros in front. -/
theorem exists_zeros {cs : List Char} (hne : cs ≠ []) (h : ∀ c ∈ cs, c.isDigit = true) :
    ∃ zeros, cs = zerosDigits zeros (cs.foldl (fun n c => n * 10 + (c.toNat - 48)) 0) := by
  induction cs using List.reverseRecOn with
  | nil => exact absurd rfl hne
  | append_singleton cs d ih =>
      have hd : d.isDigit = true := h d (List.mem_append_right _ List.mem_cons_self)
      rw [List.foldl_append, List.foldl_cons, List.foldl_nil]
      by_cases hempty : cs = []
      · subst hempty
        refine ⟨0, ?_⟩
        rw [List.foldl_nil, Nat.zero_mul, Nat.zero_add, zerosDigits, toDigits_digit hd]
        rfl
      · obtain ⟨zeros, hzeros⟩ := ih hempty fun c hc => h c (List.mem_append_left _ hc)
        generalize cs.foldl (fun n c => n * 10 + (c.toNat - 48)) 0 = value at hzeros ⊢
        rcases Nat.eq_zero_or_pos value with rfl | hpos
        · refine ⟨zeros + 1, ?_⟩
          rw [hzeros, zerosDigits, Nat.toDigits_zero, Nat.zero_mul, Nat.zero_add, zerosDigits,
            toDigits_digit hd, List.replicate_succ']
        · refine ⟨zeros, ?_⟩
          have hbelow : d.toNat - 48 < 10 := by
            have hrange := range_of_isDigit hd
            omega
          rw [zerosDigits, Nat.mul_comm value, ← Nat.toDigits_append_toDigits (by decide) hpos hbelow,
            toDigits_digit hd, ← List.append_assoc, ← zerosDigits, ← hzeros]

theorem decimal?_eq_some_iff {cs : List Char} :
    decimal? cs = some n ↔ ∃ zeros, cs = zerosDigits zeros n := by
  constructor
  · intro h
    unfold decimal? at h
    split at h
    · exact absurd h.symm (Option.some_ne_none n)
    · next hdigits =>
      simp only [Bool.or_eq_true, List.isEmpty_iff, Bool.not_eq_true', not_or, Bool.not_eq_false,
        List.all_eq_true] at hdigits
      rw [← Option.some.inj h]
      exact exists_zeros hdigits.1 hdigits.2
  · rintro ⟨zeros, rfl⟩
    exact decimal?_zerosDigits zeros n

theorem count?_plus (rest : List Char) :
    count? ('+' :: rest) = (decimal? rest).filter (· ≤ 4294967295) := by
  simp only [count?]
  cases decimal? rest with
  | none => rfl
  | some m => simp [Option.filter]

theorem count?_unsigned {cs : List Char} (h : ∀ rest, cs ≠ '+' :: rest) :
    count? cs = (decimal? cs).filter (· ≤ 4294967295) := by
  unfold count?
  split
  · exact absurd rfl (h _)
  · dsimp only
    cases decimal? cs with
    | none => rfl
    | some m => simp [Option.filter]

/-- A count is written with digits, perhaps after a plus sign. -/
theorem count?_eq_some_iff {cs : List Char} : count? cs = some n ↔ n ≤ 4294967295 ∧
    ∃ sign zeros, (sign = [] ∨ sign = ['+']) ∧ cs = sign ++ zerosDigits zeros n := by
  have hplus : ∀ zeros rest, zerosDigits zeros n ≠ '+' :: rest := fun zeros rest heq =>
    absurd (isDigit_of_mem_zerosDigits (heq ▸ List.mem_cons_self)) (by decide)
  by_cases hsign : ∃ rest, cs = '+' :: rest
  · obtain ⟨rest, rfl⟩ := hsign
    rw [count?_plus, Option.filter_eq_some_iff, decimal?_eq_some_iff, decide_eq_true_eq, and_comm]
    refine and_congr_right fun _ => ⟨?_, ?_⟩
    · rintro ⟨zeros, rfl⟩
      exact ⟨['+'], zeros, .inr rfl, rfl⟩
    · rintro ⟨sign, zeros, rfl | rfl, heq⟩
      · exact absurd heq.symm (hplus zeros rest)
      · exact ⟨zeros, List.tail_eq_of_cons_eq heq⟩
  · rw [count?_unsigned fun rest heq => hsign ⟨rest, heq⟩, Option.filter_eq_some_iff,
      decimal?_eq_some_iff, decide_eq_true_eq, and_comm]
    refine and_congr_right fun _ => ⟨?_, ?_⟩
    · rintro ⟨zeros, rfl⟩
      exact ⟨[], zeros, .inl rfl, rfl⟩
    · rintro ⟨sign, zeros, rfl | rfl, rfl⟩
      · exact ⟨zeros, rfl⟩
      · exact absurd ⟨_, rfl⟩ hsign

/-- How a count may be written: with zeros in front of it, perhaps after a plus sign, and between
blanks. -/
inductive IsCountText : List Char → ℕ → Prop
  | spelled {before sign after : List Char} (zeros n : ℕ)
      (hbefore : ∀ c ∈ before, isBlank c = true) (hsign : sign = [] ∨ sign = ['+'])
      (hafter : ∀ c ∈ after, isBlank c = true) :
      IsCountText (before ++ (sign ++ zerosDigits zeros n ++ after)) n

theorem isCountText_toDigits (n : ℕ) : IsCountText (Nat.toDigits 10 n) n := by
  have hdigits := IsCountText.spelled 0 n (List.forall_mem_nil _) (.inl rfl) (List.forall_mem_nil _)
  rwa [List.append_nil] at hdigits

theorem not_blank_of_mem_signed {sign : List Char} {zeros : ℕ} {c : Char}
    (hsign : sign = [] ∨ sign = ['+']) (h : c ∈ sign ++ zerosDigits zeros n) : isBlank c = false := by
  rcases List.mem_append.1 h with h | h
  · rcases hsign with rfl | rfl
    · exact nomatch h
    · exact List.mem_singleton.1 h ▸ (by decide)
  · exact isBlank_of_isDigit (isDigit_of_mem_zerosDigits h)

theorem IsCountText.surround {cs before after : List Char} (h : IsCountText cs n)
    (hbefore : ∀ c ∈ before, isBlank c = true) (hafter : ∀ c ∈ after, isBlank c = true) :
    IsCountText (before ++ (cs ++ after)) n := by
  obtain ⟨zeros, _, hleft, hsign, hright⟩ := h
  have houter := IsCountText.spelled zeros n (List.forall_mem_append.2 ⟨hbefore, hleft⟩) hsign
    (List.forall_mem_append.2 ⟨hright, hafter⟩)
  simpa only [List.append_assoc] using houter

theorem count?_trim_eq_some_iff {cs : List Char} :
    count? (trim cs) = some n ↔ n ≤ 4294967295 ∧ IsCountText cs n := by
  rw [count?_eq_some_iff]
  refine and_congr_right fun _ => ⟨?_, ?_⟩
  · rintro ⟨sign, zeros, hsign, htrim⟩
    obtain ⟨before, after, hcs, hbefore, hafter⟩ := exists_trim cs
    rw [hcs, htrim]
    exact .spelled zeros n hbefore hsign hafter
  · rintro ⟨zeros, _, hbefore, hsign, hafter⟩
    refine ⟨_, zeros, hsign, trim_surrounded hbefore (fun c hc => ?_) (fun c hc => ?_) hafter⟩
    · exact not_blank_of_mem_signed hsign (List.mem_of_head? hc)
    · exact not_blank_of_mem_signed hsign (List.mem_of_getLast? hc)

theorem IsCountText.dot_not_mem {cs : List Char} (h : IsCountText cs n) : '.' ∉ cs := by
  obtain ⟨zeros, _, hbefore, hsign, hafter⟩ := h
  intro hdot
  rw [List.mem_append, List.mem_append, List.mem_append] at hdot
  rcases hdot with hdot | (hdot | hdot) | hdot
  · exact absurd (hbefore _ hdot) (by decide)
  · rcases hsign with rfl | rfl
    · exact nomatch hdot
    · exact absurd (List.mem_singleton.1 hdot) (by decide)
  · exact absurd (isDigit_of_mem_zerosDigits hdot) (by decide)
  · exact absurd (hafter _ hdot) (by decide)

end GrammarProfile.Text

namespace GrammarProfile.Profile

open GrammarProfile.Grammar (Count Occurs)

theorem splitRange?_append {low : List Char} (h : '.' ∉ low) (high : List Char) :
    splitRange? (low ++ '.' :: '.' :: high) = some (low, high) := by
  induction low with
  | nil => rfl
  | cons c rest ih =>
      obtain ⟨hc, hrest⟩ := not_or.1 (List.mem_cons.not.1 h)
      rw [List.cons_append, splitRange?]
      · rw [ih hrest]
        rfl
      · intro more hmore
        exact absurd hmore (Ne.symm hc)

theorem eq_of_splitRange? {cs low high : List Char} (h : splitRange? cs = some (low, high)) :
    cs = low ++ '.' :: '.' :: high := by
  fun_induction splitRange? cs generalizing low with
  | case1 rest =>
      obtain ⟨rfl, rfl⟩ := Prod.mk.inj (Option.some.inj h)
      rfl
  | case2 c rest _ ih =>
      obtain ⟨⟨before, after⟩, hrest, hparts⟩ := Option.map_eq_some_iff.1 h
      obtain ⟨rfl, rfl⟩ := Prod.mk.inj hparts
      rw [ih hrest, List.cons_append]
  | case3 => exact nomatch h

theorem toList_label (o : Occurs) : (label o).toList = Nat.toDigits 10 o.min.val ++ '.' :: '.' ::
    (o.max.map fun m => Nat.toDigits 10 m.val).getD ['*'] := by
  unfold label Grammar.cardinalityLabel
  cases o.max with
  | none => simp [Nat.toString_eq_repr, Nat.toList_repr]
  | some m => simp [Nat.toString_eq_repr, Nat.toList_repr]

/-- The count that a part of a label writes, blanks cut off. -/
theorem readCount_eq_some_iff {cs : List Char} {m : Count} :
    (Text.count? (Text.trim cs)).bind Count.ofNat? = some m ↔ Text.IsCountText cs m.val := by
  constructor
  · intro h
    obtain ⟨n, hcount, hlimit⟩ := Option.bind_eq_some_iff.1 h
    unfold Count.ofNat? at hlimit
    split at hlimit
    · obtain rfl := Option.some.inj hlimit
      exact (Text.count?_trim_eq_some_iff.1 hcount).2
    · exact nomatch hlimit
  · intro h
    rw [Text.count?_trim_eq_some_iff.2 ⟨m.le_limit, h⟩, Option.bind_some, Count.ofNat?,
      dif_pos m.le_limit]

theorem trim_eq_star_iff {cs : List Char} : Text.trim cs = ['*'] ↔ ∃ before after,
    cs = before ++ '*' :: after ∧ (∀ c ∈ before, Text.isBlank c = true) ∧
      ∀ c ∈ after, Text.isBlank c = true := by
  constructor
  · intro h
    obtain ⟨before, after, hcs, hbefore, hafter⟩ := Text.exists_trim cs
    rw [h] at hcs
    exact ⟨before, after, hcs, hbefore, hafter⟩
  · rintro ⟨before, after, rfl, hbefore, hafter⟩
    have htrim := Text.trim_within ['*'] hbefore hafter
    exact htrim.trans (by decide)

/-- How a label of bounds may be written. -/
inductive IsSpelling : List Char → Occurs → Prop
  | bounded {low high : List Char} {min max : Count} (hlow : Text.IsCountText low min.val)
      (hhigh : Text.IsCountText high max.val) :
      IsSpelling (low ++ '.' :: '.' :: high) ⟨min, some max⟩
  | unbounded {low before after : List Char} {min : Count} (hlow : Text.IsCountText low min.val)
      (hbefore : ∀ c ∈ before, Text.isBlank c = true) (hafter : ∀ c ∈ after, Text.isBlank c = true) :
      IsSpelling (low ++ '.' :: '.' :: (before ++ '*' :: after)) ⟨min, none⟩

/-- The two parts of a label, once it is split, determine the bounds. -/
theorem readLabel_eq_ok_iff_parts {text : String} {o : Occurs} : readLabel text = .ok o ↔
    ∃ low high, splitRange? (Text.trim text.toList) = some (low, high) ∧
      Text.IsCountText low o.min.val ∧
      ((Text.trim high = ['*'] ∧ o.max = none) ∨
        ∃ max, Text.IsCountText high max.val ∧ o.max = some max ∧ o.min.val ≤ max.val) := by
  constructor
  · intro h
    unfold readLabel at h
    split at h
    · exact nomatch h
    · next low high hsplit =>
      refine ⟨low, high, hsplit, ?_⟩
      split at h
      · exact nomatch h
      · next min hmin =>
        split at h
        · next hstar =>
          obtain rfl := Except.ok.inj h
          exact ⟨readCount_eq_some_iff.1 hmin, .inl ⟨beq_iff_eq.1 hstar, rfl⟩⟩
        · split at h
          · exact nomatch h
          · next max hmax =>
            split at h
            · exact nomatch h
            · next hle =>
              obtain rfl := Except.ok.inj h
              exact ⟨readCount_eq_some_iff.1 hmin,
                .inr ⟨max, readCount_eq_some_iff.1 hmax, rfl, Nat.not_lt.1 hle⟩⟩
  · obtain ⟨min, bound⟩ := o
    rintro ⟨low, high, hsplit, hmin, ⟨hstar, rfl⟩ | ⟨max, hmax, rfl, hle⟩⟩
    · unfold readLabel
      rw [hsplit]
      dsimp only
      rw [readCount_eq_some_iff.2 hmin]
      exact if_pos (beq_iff_eq.2 hstar)
    · have hread := readCount_eq_some_iff.2 hmax
      have hstar : ¬(Text.trim high == ['*']) = true := fun hstar => by
        rw [beq_iff_eq.1 hstar] at hread
        exact nomatch hread
      unfold readLabel
      rw [hsplit]
      dsimp only
      rw [readCount_eq_some_iff.2 hmin]
      dsimp only
      rw [if_neg hstar, hread]
      exact if_neg (Nat.not_lt.2 hle)

/-- What is read as bounds is a spelling of these bounds, the minimum not above the maximum. -/
theorem readLabel_eq_ok_iff {text : String} {o : Occurs} :
    readLabel text = .ok o ↔ IsSpelling text.toList o ∧ o.Ordered := by
  rw [readLabel_eq_ok_iff_parts]
  constructor
  · rintro ⟨low, high, hsplit, hmin, hmax⟩
    obtain ⟨min, bound⟩ := o
    obtain ⟨before, after, htext, hbefore, hafter⟩ := Text.exists_trim text.toList
    have hlow := hmin.surround hbefore (List.forall_mem_nil _)
    rw [List.append_nil] at hlow
    have hparts : text.toList = before ++ low ++ '.' :: '.' :: (high ++ after) := by
      rw [htext, eq_of_splitRange? hsplit]
      simp only [List.append_assoc, List.cons_append]
    rw [hparts]
    rcases hmax with ⟨hstar, rfl⟩ | ⟨max, hhigh, rfl, hle⟩
    · obtain ⟨left, right, rfl, hleft, hright⟩ := trim_eq_star_iff.1 hstar
      rw [List.append_assoc left, List.cons_append]
      exact ⟨.unbounded hlow hleft (List.forall_mem_append.2 ⟨hright, hafter⟩),
        fun _ hmax => nomatch hmax⟩
    · refine ⟨.bounded hlow ?_, fun limit hmax => Option.some.inj hmax ▸ hle⟩
      exact hhigh.surround (List.forall_mem_nil _) hafter
  · rintro ⟨hspelling, hordered⟩
    have hsplit : ∀ {low : List Char} {n : ℕ}, Text.IsCountText low n → ∀ high,
        splitRange? (Text.trim (low ++ '.' :: '.' :: high)) =
          some (Text.trimStart low, Text.trimEnd high) := by
      intro low n hlow high
      have hdot : '.' ∉ Text.trimStart low := fun h =>
        hlow.dot_not_mem ((Text.trimStart_suffix low).subset h)
      rw [Text.trim_append_cons (by decide), Text.trimEnd_cons (by decide),
        splitRange?_append hdot]
    generalize text.toList = cs at hspelling ⊢
    cases hspelling with
    | bounded hlow hhigh =>
        refine ⟨_, _, hsplit hlow _, ?_, .inr ⟨_, ?_, rfl, hordered _ rfl⟩⟩
        · rw [← readCount_eq_some_iff, Text.trim_trimStart]
          exact readCount_eq_some_iff.2 hlow
        · rw [← readCount_eq_some_iff, Text.trim_trimEnd]
          exact readCount_eq_some_iff.2 hhigh
    | unbounded hlow hbefore hafter =>
        refine ⟨_, _, hsplit hlow _, ?_, .inl ⟨?_, rfl⟩⟩
        · rw [← readCount_eq_some_iff, Text.trim_trimStart]
          exact readCount_eq_some_iff.2 hlow
        · rw [Text.trim_trimEnd]
          exact trim_eq_star_iff.2 ⟨_, _, rfl, hbefore, hafter⟩

theorem readLabel_label {o : Occurs} (h : o.Ordered) : readLabel (label o) = .ok o := by
  have hcount : ∀ m : Count, Text.IsCountText (Nat.toDigits 10 m.val) m.val := fun m =>
    Text.isCountText_toDigits m.val
  refine readLabel_eq_ok_iff.2 ⟨?_, h⟩
  rw [toList_label]
  obtain ⟨min, bound⟩ := o
  cases bound with
  | none => exact .unbounded (hcount min) (List.forall_mem_nil _) (List.forall_mem_nil _)
  | some max => exact .bounded (hcount min) (hcount max)

/-- Labels keep bounds. The label of ordered bounds is read back as these bounds, whose label it
is. The bounds of a text that is a label are ordered, and their own label gives them again. Labels
are the spellings of ordered bounds: zeros or a plus sign in front of a number and blanks around it
make no difference. -/
theorem labels_keep_bounds :
    (∀ (min : Count) (max : Option Count), (∀ m, max = some m → min.val ≤ m.val) →
      readLabel (Grammar.cardinalityLabel min max) = .ok ⟨min, max⟩ ∧
        label ⟨min, max⟩ = Grammar.cardinalityLabel min max) ∧
    (∀ text o, readLabel text = .ok o → o.Ordered ∧ readLabel (label o) = .ok o) ∧
    ∀ text o, readLabel text = .ok o ↔ IsSpelling text.toList o ∧ o.Ordered := by
  refine ⟨fun min max h => ⟨readLabel_label (o := ⟨min, max⟩) h, rfl⟩, fun text o h => ?_,
    fun text o => readLabel_eq_ok_iff⟩
  have hordered := (readLabel_eq_ok_iff.1 h).2
  exact ⟨hordered, readLabel_label hordered⟩

theorem widest_and_padded_labels_kept :
    let widest : Occurs := ⟨.zero, some (.clamp 4294967295)⟩
    let padded : Occurs := ⟨.clamp 7, none⟩
    readLabel (Grammar.cardinalityLabel widest.min widest.max) = .ok widest ∧
      readLabel " +007 .. *" = .ok padded ∧ readLabel (label padded) = .ok padded := by
  intro widest padded
  have hread : readLabel " +007 .. *" = .ok padded := by decide
  exact ⟨(labels_keep_bounds.1 widest.min widest.max (by decide)).1, hread,
    (labels_keep_bounds.2.1 _ _ hread).2⟩

theorem within_self (o : Occurs) : within o o = true := by
  unfold within
  cases o.max <;> simp

end GrammarProfile.Profile
