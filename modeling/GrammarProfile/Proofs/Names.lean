import GrammarProfile.Text.Names

/-!
Lists of names without repetitions, and sets of names in code point order.
-/
namespace GrammarProfile.Text

theorem nodup_eraseDups (names : List String) : names.eraseDups.Nodup := by
  match names with
  | [] => exact List.nodup_nil
  | a :: rest =>
      rw [List.eraseDups_cons, List.nodup_cons]
      refine ⟨?_, nodup_eraseDups _⟩
      rw [List.mem_eraseDups, List.mem_filter]
      simp
termination_by names.length
decreasing_by exact Nat.lt_succ_of_le (List.length_filter_le _ _)

theorem eraseDups_of_nodup {names : List String} (h : names.Nodup) : names.eraseDups = names := by
  induction names with
  | nil => rfl
  | cons a rest ih =>
      obtain ⟨ha, hrest⟩ := List.nodup_cons.1 h
      have hfilter : rest.filter (fun b => !b == a) = rest :=
        List.filter_eq_self.2 fun b hb => by simpa using fun e : b = a => ha (e ▸ hb)
      rw [List.eraseDups_cons, hfilter, ih hrest]

theorem eraseDups_filter (p : String → Bool) (names : List String) :
    (names.filter p).eraseDups = names.eraseDups.filter p := by
  match names with
  | [] => rfl
  | a :: rest =>
      have hrest := eraseDups_filter p (rest.filter fun b => !b == a)
      have hcomm : (rest.filter p).filter (fun b => !b == a) =
          (rest.filter fun b => !b == a).filter p := by
        rw [List.filter_filter, List.filter_filter]
        exact List.filter_congr fun b _ => Bool.and_comm _ _
      by_cases ha : p a = true
      · rw [List.filter_cons_of_pos ha, List.eraseDups_cons, List.eraseDups_cons,
          List.filter_cons_of_pos ha, hcomm, hrest]
      · have hdrop : (rest.filter p).filter (fun b => !b == a) = rest.filter p := by
          refine List.filter_eq_self.2 fun b hb => ?_
          have hb : p b = true := (List.mem_filter.1 hb).2
          simpa using fun e : b = a => ha (e ▸ hb)
        rw [List.filter_cons_of_neg ha, List.eraseDups_cons, List.filter_cons_of_neg ha, ← hrest,
          ← hcomm, hdrop]
termination_by names.length
decreasing_by exact Nat.lt_succ_of_le (List.length_filter_le _ _)

/-- The names of two lists: those of the first, then what the second adds. -/
theorem eraseDups_append (a b : List String) :
    (a ++ b).eraseDups = a.eraseDups ++ b.eraseDups.filter fun n => !a.contains n := by
  rw [List.eraseDups_append, List.removeAll, ← eraseDups_filter]

theorem mem_nameSet {names : List String} {n : String} : n ∈ nameSet names ↔ n ∈ names := by
  rw [nameSet, List.mem_mergeSort, List.mem_eraseDups]

theorem nodup_nameSet (names : List String) : (nameSet names).Nodup :=
  (List.mergeSort_perm _ _).nodup_iff.2 (nodup_eraseDups names)

theorem nameSet_eq_nil {names : List String} : nameSet names = [] ↔ names = [] := by
  simp only [List.eq_nil_iff_forall_not_mem, mem_nameSet]

end GrammarProfile.Text
