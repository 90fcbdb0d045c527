import GrammarProfile.Proofs.Accepted

/-!
The names that the entries of a profile list, and the graph of the entries.
-/
namespace GrammarProfile.Cascade

open GrammarProfile.Profile (IsSection IsEntry IsEntries choiceKey)
open GrammarProfile.Yaml (Value Pairs)

/-- A name stands among some children, or among the members of their choice. -/
def ListedIn (children : Pairs) (m : String) : Prop :=
  (m ≠ choiceKey ∧ Pairs.contains children m = true) ∨
    ∃ members, Pairs.get? children choiceKey = some (.mapping members) ∧
      Pairs.contains members m = true

/-- An entry lists a name as a child or as a member of its choice. -/
def Lists (entry : Value) (m : String) : Prop :=
  ∃ fields children, entry = .mapping fields ∧
    Pairs.get? fields "children" = some (.mapping children) ∧ ListedIn children m

/-- There is an entry `a`, and it lists `b`. -/
def Links (elements : Pairs) (a b : String) : Prop :=
  ∃ v, Pairs.get? elements a = some v ∧ Lists v b

theorem lists_mapping_iff {fields : Pairs} {m : String} :
    Lists (.mapping fields) m ↔ ∃ children,
      Pairs.get? fields "children" = some (.mapping children) ∧ ListedIn children m := by
  constructor
  · rintro ⟨_, children, hfields, hchildren, hlisted⟩
    obtain rfl := Value.mapping.inj hfields
    exact ⟨children, hchildren, hlisted⟩
  · rintro ⟨children, hchildren, hlisted⟩
    exact ⟨fields, children, rfl, hchildren, hlisted⟩

theorem not_lists_null {m : String} : ¬Lists .null m := fun ⟨_, _, h, _⟩ => nomatch h

theorem not_listedIn_nil {m : String} : ¬ListedIn [] m := by
  rintro (⟨_, h⟩ | ⟨_, h, _⟩)
  · cases h
  · cases h

section Declared

variable {children : Pairs} {m : String}

theorem mem_declaredIn_cons (p : Value × Value) (rest : Pairs) :
    m ∈ Tree.declaredIn (p :: rest) ↔ (p.1.scalarText? = some m ∧ m ≠ choiceKey ∨
      p.1.scalarText? = some choiceKey ∧
        ∃ members, p.2.pairs? = some members ∧ m ∈ Pairs.names members) ∨
      m ∈ Tree.declaredIn rest := by
  obtain ⟨key, value⟩ := p
  rw [Tree.declaredIn, List.mem_append]
  refine or_congr_left ?_
  cases hkey : key.scalarText? with
  | none => simp
  | some name =>
      by_cases hname : name = choiceKey
      · subst hname
        have hplain : ¬(choiceKey = m ∧ m ≠ choiceKey) := fun h => h.2 h.1.symm
        cases hvalue : value.pairs? with
        | none => simp [hplain]
        | some members => simp [hplain]
      · have hm : name = m ∧ m ≠ choiceKey ↔ m = name :=
          ⟨fun h => h.1.symm, by rintro rfl; exact ⟨rfl, hname⟩⟩
        simp [hname, hm]

theorem mem_declaredIn : m ∈ Tree.declaredIn children ↔
    m ≠ choiceKey ∧ m ∈ Pairs.names children ∨
      ∃ p ∈ children, p.1.scalarText? = some choiceKey ∧
        ∃ members, p.2.pairs? = some members ∧ m ∈ Pairs.names members := by
  induction children with
  | nil => simp [Tree.declaredIn, Pairs.names]
  | cons p rest ih =>
      have hnames : m ∈ Pairs.names (p :: rest) ↔
          p.1.scalarText? = some m ∨ m ∈ Pairs.names rest := by
        cases hkey : p.1.scalarText? <;> simp [Pairs.names, hkey, eq_comm]
      rw [mem_declaredIn_cons, ih, hnames, List.exists_mem_cons_iff, and_or_left, and_comm]
      exact or_or_or_comm

/-- The choice has its members for a name, all other keys stand for themselves. -/
theorem mem_declaredIn_iff (h : children.Keyed) :
    m ∈ Tree.declaredIn children ↔ (m ≠ choiceKey ∧ m ∈ Pairs.names children) ∨
      ∃ v members, Pairs.get? children choiceKey = some v ∧ v.pairs? = some members ∧
        m ∈ Pairs.names members := by
  rw [mem_declaredIn]
  refine or_congr_right ?_
  constructor
  · rintro ⟨⟨key, v⟩, hp, hkey, members, hv, hm⟩
    obtain ⟨n, rfl⟩ := h.textual _ hp
    obtain rfl := Option.some.inj hkey
    exact ⟨v, members, h.get?_eq_some_iff.2 hp, hv, hm⟩
  · rintro ⟨v, members, hv, hmembers, hm⟩
    exact ⟨_, Pairs.mem_of_get? hv, rfl, members, hmembers, hm⟩

end Declared

variable {v : Value} {fields children : Pairs}

theorem mem_childReferences_iff (h : IsEntry v fields children) {m : String} :
    m ∈ Tree.childReferences v ↔ Lists v m := by
  cases h.entry with
  | null => exact iff_of_false List.not_mem_nil not_lists_null
  | mapping _ =>
      rw [lists_mapping_iff]
      unfold Tree.childReferences
      rw [Value.pairs?_mapping, Option.bind_some]
      have hlisted := h.listed
      cases hc : Pairs.get? fields "children" with
      | none => simp
      | some w =>
          rw [hc] at hlisted
          cases hlisted with
          | null => simp
          | mapping hkeyed =>
              simp only [Option.bind_some, Value.pairs?_mapping, Option.some.injEq,
                Value.mapping.injEq, exists_eq_left']
              rw [mem_declaredIn_iff hkeyed, ListedIn, hkeyed.contains_iff]
              refine or_congr_right ?_
              obtain ⟨members, hmembers⟩ := h.members
              cases hch : Pairs.get? children choiceKey with
              | none => simp
              | some u =>
                  rw [hch] at hmembers
                  cases hmembers with
                  | null => simp
                  | mapping hmembers => simp [hmembers.contains_iff]

section Elements

variable {elements : Pairs} {a b n : String}

theorem Links.mem_names (h : Links elements a b) : a ∈ Pairs.names elements := by
  obtain ⟨_, hv, _⟩ := h
  exact Pairs.mem_names_of_get? hv

theorem map_fst_references (elements : Pairs) :
    (Tree.references elements).map Prod.fst = Pairs.names elements := by
  unfold Tree.references Pairs.names
  rw [List.map_filterMap]
  refine List.filterMap_congr fun p _ => ?_
  cases p.1.scalarText? <;> rfl

theorem mem_references_iff (h : elements.Keyed) {listed : List String} :
    (n, listed) ∈ Tree.references elements ↔
      ∃ v, Pairs.get? elements n = some v ∧ Tree.childReferences v = listed := by
  unfold Tree.references
  rw [List.mem_filterMap]
  constructor
  · rintro ⟨⟨key, v⟩, hp, heq⟩
    obtain ⟨m, rfl⟩ := h.textual _ hp
    obtain ⟨rfl, rfl⟩ : m = n ∧ Tree.childReferences v = listed := by
      simpa [Value.scalarText?] using heq
    exact ⟨v, h.get?_eq_some_iff.2 hp, rfl⟩
  · rintro ⟨v, hv, rfl⟩
    exact ⟨_, Pairs.mem_of_get? hv, rfl⟩

theorem exists_mem_references_iff (h : IsEntries elements) :
    (∃ listed, (a, listed) ∈ Tree.references elements ∧ b ∈ listed) ↔ Links elements a b := by
  constructor
  · rintro ⟨listed, hmem, hb⟩
    obtain ⟨v, hv, rfl⟩ := (mem_references_iff h.keyed).1 hmem
    obtain ⟨fields, children, hentry⟩ := h.entry a v hv
    exact ⟨v, hv, (mem_childReferences_iff hentry).1 hb⟩
  · rintro ⟨v, hv, hlists⟩
    obtain ⟨fields, children, hentry⟩ := h.entry a v hv
    exact ⟨_, (mem_references_iff h.keyed).2 ⟨v, hv, rfl⟩,
      (mem_childReferences_iff hentry).2 hlists⟩

end Elements

end GrammarProfile.Cascade
