import GrammarProfile.Text.Blank
import GrammarProfile.Text.Lines
import Mathlib.Data.List.Basic

/-!
Parts of a text: what trimming leaves and what it takes away, pieces between separators, and the
bytes that parts take.
-/
namespace GrammarProfile.Text

variable {cs : List Char}

/-! ## Trimming -/

section DropEnd

variable {p : Char → Bool}

theorem dropEndWhile_eq_nil : dropEndWhile p cs = [] ↔ ∀ c ∈ cs, p c = true := by
  induction cs with
  | nil => simp [dropEndWhile]
  | cons c rest ih =>
      rw [dropEndWhile]
      cases hrest : dropEndWhile p rest with
      | nil =>
          have hall := ih.1 hrest
          rw [List.forall_mem_cons]
          simpa using fun _ => hall
      | cons d kept =>
          have hnot : ¬∀ c ∈ rest, p c = true := fun h => by
            rw [ih.2 h] at hrest
            exact nomatch hrest
          rw [List.forall_mem_cons]
          exact iff_of_false (fun h => nomatch h) fun h => hnot h.2

theorem dropEndWhile_eq_self (h : ∀ c ∈ cs, p c = false) : dropEndWhile p cs = cs := by
  induction cs with
  | nil => rfl
  | cons c rest ih =>
      have hc : p c = false := h c List.mem_cons_self
      rw [dropEndWhile, ih fun d hd => h d (List.mem_cons_of_mem _ hd)]
      cases rest with
      | nil => simp [hc]
      | cons d rest => rfl

theorem dropEndWhile_append_of_all (cs : List Char) {tail : List Char} (h : ∀ c ∈ tail, p c = true) :
    dropEndWhile p (cs ++ tail) = dropEndWhile p cs := by
  induction cs with
  | nil => exact dropEndWhile_eq_nil.2 h
  | cons c cs ih =>
      rw [List.cons_append, dropEndWhile, ih]
      rfl

theorem dropEndWhile_append (before : List Char) (h : dropEndWhile p cs ≠ []) :
    dropEndWhile p (before ++ cs) = before ++ dropEndWhile p cs := by
  induction before with
  | nil => rfl
  | cons c before ih =>
      obtain ⟨d, kept, hkept⟩ := List.exists_cons_of_ne_nil (List.append_ne_nil_of_right_ne_nil before h)
      rw [List.cons_append, dropEndWhile, ih, hkept, List.cons_append, hkept]

/-- What is dropped at the end satisfies the condition. -/
theorem exists_dropEndWhile (p : Char → Bool) (cs : List Char) :
    ∃ tail, cs = dropEndWhile p cs ++ tail ∧ ∀ c ∈ tail, p c = true := by
  induction cs with
  | nil => exact ⟨[], rfl, List.forall_mem_nil _⟩
  | cons c rest ih =>
      obtain ⟨tail, hrest, htail⟩ := ih
      cases hkept : dropEndWhile p rest with
      | nil =>
          have hall := dropEndWhile_eq_nil.1 hkept
          rw [dropEndWhile, hkept]
          cases hc : p c with
          | true => exact ⟨c :: rest, rfl, List.forall_mem_cons.2 ⟨hc, hall⟩⟩
          | false => exact ⟨rest, rfl, hall⟩
      | cons d kept =>
          refine ⟨tail, ?_, htail⟩
          rw [dropEndWhile, hkept, List.cons_append, ← hkept, ← hrest]

theorem of_getLast?_dropEndWhile {c : Char} (h : c ∈ (dropEndWhile p cs).getLast?) :
    p c = false := by
  induction cs with
  | nil => exact nomatch h
  | cons d rest ih =>
      rw [dropEndWhile] at h
      cases hkept : dropEndWhile p rest with
      | nil =>
          rw [hkept] at h
          cases hd : p d with
          | true =>
              rw [hd] at h
              exact nomatch h
          | false =>
              rw [hd] at h
              exact Option.some.inj h ▸ hd
      | cons e kept =>
          rw [hkept] at h ih
          exact ih (by rwa [List.getLast?_cons_cons] at h)

end DropEnd

theorem trimEnd_append_blank (cs : List Char) {tail : List Char} (h : ∀ c ∈ tail, isBlank c = true) :
    trimEnd (cs ++ tail) = trimEnd cs := dropEndWhile_append_of_all cs h

theorem trimEnd_of_last {c : Char} (h : cs.getLast? = some c) (hc : isBlank c = false) :
    trimEnd cs = cs := by
  obtain ⟨before, rfl⟩ := List.getLast?_eq_some_iff.1 h
  have hend : dropEndWhile isBlank [c] = [c] :=
    dropEndWhile_eq_self (List.forall_mem_singleton.2 hc)
  have hne : dropEndWhile isBlank [c] ≠ [] := by
    rw [hend]
    exact List.cons_ne_nil _ _
  rw [trimEnd, dropEndWhile_append _ hne, hend]

theorem trimEnd_initial (cs : List Char) : trimEnd cs <+: cs := by
  obtain ⟨tail, hcs, -⟩ := exists_dropEndWhile isBlank cs
  exact ⟨tail, hcs.symm⟩

theorem trimStart_suffix (cs : List Char) : trimStart cs <:+ cs := List.dropWhile_suffix _

/-- Only blanks stand before what is left when the start is trimmed. -/
theorem exists_trimStart (cs : List Char) :
    ∃ gap, cs = gap ++ trimStart cs ∧ ∀ c ∈ gap, isBlank c = true :=
  ⟨cs.takeWhile isBlank, List.takeWhile_append_dropWhile.symm, List.all_eq_true.1 List.all_takeWhile⟩

theorem not_blank_of_trimStart {c : Char} {rest : List Char} (h : trimStart cs = c :: rest) :
    isBlank c = false := by
  have hhead := List.head?_dropWhile_not isBlank cs
  rwa [show cs.dropWhile isBlank = c :: rest from h] at hhead

theorem trimStart_append {gap rest : List Char} (h : ∀ c ∈ gap, isBlank c = true)
    (hrest : ∀ c ∈ rest.head?, isBlank c = false) : trimStart (gap ++ rest) = rest := by
  rw [trimStart, List.dropWhile_append_of_pos h]
  cases rest with
  | nil => rfl
  | cons c rest => rw [List.dropWhile_cons, hrest c rfl, if_neg Bool.false_ne_true]

theorem trim_eq_nil : trim cs = [] ↔ ∀ c ∈ cs, isBlank c = true := by
  have hstart : (∀ c ∈ cs.dropWhile isBlank, isBlank c = true) ↔ ∀ c ∈ cs, isBlank c = true := by
    refine ⟨fun h c hc => ?_, fun h c hc => h c ((List.dropWhile_suffix _).subset hc)⟩
    rw [← List.takeWhile_append_dropWhile (p := isBlank) (l := cs), List.mem_append] at hc
    exact hc.elim (fun hc => List.all_eq_true.1 List.all_takeWhile c hc) (h c)
  rw [trim, trimEnd, dropEndWhile_eq_nil, trimStart, hstart]

/-- Trimming takes away the blanks around a text that neither begins nor ends with one. -/
theorem trim_surrounded {before after : List Char} (hbefore : ∀ c ∈ before, isBlank c = true)
    (hhead : ∀ c ∈ cs.head?, isBlank c = false) (hlast : ∀ c ∈ cs.getLast?, isBlank c = false)
    (hafter : ∀ c ∈ after, isBlank c = true) : trim (before ++ (cs ++ after)) = cs := by
  cases hend : cs.getLast? with
  | none =>
      obtain rfl := List.getLast?_eq_none_iff.1 hend
      refine trim_eq_nil.2 fun c hc => ?_
      rcases List.mem_append.1 hc with hc | hc
      · exact hbefore c hc
      · exact hafter c hc
  | some c =>
      have hstart : trimStart (before ++ (cs ++ after)) = cs ++ after := by
        refine trimStart_append hbefore fun d hd => hhead d ?_
        rwa [List.head?_append_of_ne_nil _ (by rintro rfl; exact nomatch hend)] at hd
      rw [trim, hstart, trimEnd_append_blank _ hafter, trimEnd_of_last hend (hlast c hend)]

/-- Trimming takes blanks away from both ends. -/
theorem exists_trim (cs : List Char) : ∃ before after, cs = before ++ (trim cs ++ after) ∧
    (∀ c ∈ before, isBlank c = true) ∧ ∀ c ∈ after, isBlank c = true := by
  obtain ⟨before, hcs, hbefore⟩ := exists_trimStart cs
  obtain ⟨after, hstart, hafter⟩ := exists_dropEndWhile isBlank (trimStart cs)
  refine ⟨before, after, ?_, hbefore, hafter⟩
  rw [trim, trimEnd, ← hstart]
  exact hcs

theorem not_blank_of_head?_trim {c : Char} (h : c ∈ (trim cs).head?) : isBlank c = false := by
  obtain ⟨rest, htrim⟩ := List.head?_eq_some_iff.1 h
  obtain ⟨after, hstart⟩ := trimEnd_initial (trimStart cs)
  have hrest : trimStart cs = c :: (rest ++ after) := by
    rw [← hstart, ← trim, htrim]
    rfl
  exact not_blank_of_trimStart hrest

theorem not_blank_of_getLast?_trim {c : Char} (h : c ∈ (trim cs).getLast?) : isBlank c = false :=
  of_getLast?_dropEndWhile h

/-- Blanks around a text do not count when it is trimmed. -/
theorem trim_within (cs : List Char) {before after : List Char} (hbefore : ∀ c ∈ before, isBlank c = true)
    (hafter : ∀ c ∈ after, isBlank c = true) : trim (before ++ (cs ++ after)) = trim cs := by
  obtain ⟨left, right, hcs, hleft, hright⟩ := exists_trim cs
  have hparts : before ++ (cs ++ after) = before ++ left ++ (trim cs ++ (right ++ after)) := by
    conv_lhs => rw [hcs]
    simp only [List.append_assoc]
  rw [hparts, trim_surrounded (List.forall_mem_append.2 ⟨hbefore, hleft⟩)
    (fun c hc => not_blank_of_head?_trim hc) (fun c hc => not_blank_of_getLast?_trim hc)
    (List.forall_mem_append.2 ⟨hright, hafter⟩)]

theorem trimEnd_cons {c : Char} (hc : isBlank c = false) (rest : List Char) :
    trimEnd (c :: rest) = c :: trimEnd rest := by
  rw [trimEnd, dropEndWhile, ← trimEnd]
  cases trimEnd rest with
  | nil => rw [hc, if_neg Bool.false_ne_true]
  | cons d kept => rfl

/-- Around a character that is no blank, the two sides of a text are trimmed apart. -/
theorem trim_append_cons {c : Char} (hc : isBlank c = false) (low high : List Char) :
    trim (low ++ c :: high) = trimStart low ++ c :: trimEnd high := by
  have hstart : trimStart (low ++ c :: high) = trimStart low ++ c :: high := by
    obtain ⟨gap, hlow, hgap⟩ := exists_trimStart low
    conv_lhs => rw [hlow, List.append_assoc]
    refine trimStart_append hgap fun d hd => ?_
    cases hkept : trimStart low with
    | nil =>
        rw [hkept] at hd
        exact Option.some.inj hd ▸ hc
    | cons e kept =>
        rw [hkept] at hd
        exact Option.some.inj hd ▸ not_blank_of_trimStart hkept
  have hend := trimEnd_cons hc high
  have hne : trimEnd (c :: high) ≠ [] := hend ▸ List.cons_ne_nil _ _
  rw [trim, hstart, trimEnd, dropEndWhile_append _ hne, ← trimEnd, hend]

theorem trim_trimStart (cs : List Char) : trim (trimStart cs) = trim cs := by
  obtain ⟨gap, hcs, hgap⟩ := exists_trimStart cs
  have htrim := trim_within (trimStart cs) hgap (List.forall_mem_nil _)
  rwa [List.append_nil, ← hcs, eq_comm] at htrim

theorem trim_trimEnd (cs : List Char) : trim (trimEnd cs) = trim cs := by
  obtain ⟨tail, hcs, htail⟩ := exists_dropEndWhile isBlank cs
  have htrim := trim_within (trimEnd cs) (List.forall_mem_nil _) htail
  rwa [List.nil_append, trimEnd, ← hcs, eq_comm] at htrim

/-! ## Pieces and bytes -/

theorem splitAll_ne_nil (sep : Char) (cs : List Char) : splitAll sep cs ≠ [] := by
  cases cs with
  | nil => exact List.cons_ne_nil _ _
  | cons c rest =>
      rw [splitAll]
      split
      · exact List.cons_ne_nil _ _
      · split <;> exact List.cons_ne_nil _ _

theorem splitAll_append {sep : Char} {piece : List Char} (h : sep ∉ piece) (rest : List Char) :
    splitAll sep (piece ++ sep :: rest) = piece :: splitAll sep rest := by
  induction piece with
  | nil => exact if_pos rfl
  | cons c piece ih =>
      rw [List.cons_append, splitAll, if_neg (List.ne_of_not_mem_cons h).symm,
        ih (List.not_mem_of_not_mem_cons h)]

theorem splitAll_of_not_mem {sep : Char} (h : sep ∉ cs) : splitAll sep cs = [cs] := by
  induction cs with
  | nil => rfl
  | cons c rest ih =>
      rw [splitAll, if_neg (List.ne_of_not_mem_cons h).symm, ih (List.not_mem_of_not_mem_cons h)]

theorem not_mem_of_mem_splitAll {sep : Char} : ∀ piece ∈ splitAll sep cs, sep ∉ piece := by
  induction cs with
  | nil => exact List.forall_mem_singleton.2 List.not_mem_nil
  | cons c rest ih =>
      rw [splitAll]
      split
      · exact List.forall_mem_cons.2 ⟨List.not_mem_nil, ih⟩
      · next hc =>
        have hcons : ∀ piece, sep ∉ piece → sep ∉ c :: piece := fun piece hpiece =>
          List.not_mem_cons_of_ne_of_not_mem (Ne.symm hc) hpiece
        cases hpieces : splitAll sep rest with
        | nil => exact List.forall_mem_singleton.2 (hcons [] List.not_mem_nil)
        | cons piece pieces =>
            rw [hpieces] at ih
            obtain ⟨hpiece, hmore⟩ := List.forall_mem_cons.1 ih
            exact List.forall_mem_cons.2 ⟨hcons piece hpiece, hmore⟩

theorem joinWith_cons {sep piece : List Char} {pieces : List (List Char)} (h : pieces ≠ []) :
    joinWith sep (piece :: pieces) = piece ++ sep ++ joinWith sep pieces := by
  obtain ⟨next, more, rfl⟩ := List.exists_cons_of_ne_nil h
  rfl

theorem byteCount_append (a b : List Char) : byteCount (a ++ b) = byteCount a + byteCount b := by
  induction a with
  | nil => exact (Nat.zero_add _).symm
  | cons c a ih => rw [List.cons_append, byteCount, byteCount, ih, Nat.add_assoc]

end GrammarProfile.Text
