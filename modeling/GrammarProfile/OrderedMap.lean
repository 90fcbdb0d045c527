import GrammarProfile.Text.Names

/-!
Maps from names to values that remember the order in which their names were first written.
-/
namespace GrammarProfile

/-- Replaces the value of `name` where it stands, or adds the pair at the end. -/
def setPair {α : Type} (name : String) (value : α) : List (String × α) → List (String × α)
  | [] => [(name, value)]
  | (n, v) :: rest => if n = name then (n, value) :: rest else (n, v) :: setPair name value rest

theorem mem_names_setPair {α : Type} {name : String} {value : α} {pairs : List (String × α)}
    {n : String} :
    n ∈ (setPair name value pairs).map Prod.fst ↔ n = name ∨ n ∈ pairs.map Prod.fst := by
  induction pairs with
  | nil => simp [setPair]
  | cons p rest ih =>
    obtain ⟨m, v⟩ := p
    by_cases h : m = name
    · subst h; simp [setPair]
    · simp only [setPair, h, if_false, List.map_cons, List.mem_cons, ih]
      constructor
      · rintro (h | h | h) <;> simp [h]
      · rintro (h | h | h) <;> simp [h]

theorem setPair_distinct {α : Type} {name : String} {value : α} {pairs : List (String × α)}
    (h : (pairs.map Prod.fst).Nodup) : ((setPair name value pairs).map Prod.fst).Nodup := by
  induction pairs with
  | nil => simp [setPair]
  | cons p rest ih =>
    obtain ⟨m, v⟩ := p
    simp only [List.map_cons, List.nodup_cons] at h
    by_cases e : m = name
    · subst e; simpa [setPair] using h
    · simp only [setPair, e, if_false, List.map_cons, List.nodup_cons]
      refine ⟨fun hm => ?_, ih h.2⟩
      rcases mem_names_setPair.1 hm with he | he
      · exact e he
      · exact h.1 he

/-- A finite map whose pairs stand in the order in which their names were first written. -/
structure OrderedMap (α : Type) where
  pairs : List (String × α)
  distinct : (pairs.map Prod.fst).Nodup
  deriving DecidableEq

namespace OrderedMap

variable {α β : Type}

def empty : OrderedMap α := ⟨[], List.nodup_nil⟩

instance : EmptyCollection (OrderedMap α) := ⟨empty⟩

instance : Inhabited (OrderedMap α) := ⟨empty⟩

def get? (m : OrderedMap α) (name : String) : Option α := m.pairs.lookup name

def contains (m : OrderedMap α) (name : String) : Bool := m.pairs.any fun p => p.1 == name

def keys (m : OrderedMap α) : List String := m.pairs.map Prod.fst

def values (m : OrderedMap α) : List α := m.pairs.map Prod.snd

def size (m : OrderedMap α) : Nat := m.pairs.length

def isEmpty (m : OrderedMap α) : Bool := m.pairs.isEmpty

/-- A known name keeps its place and takes the new value; a new name comes last. -/
def insert (m : OrderedMap α) (name : String) (value : α) : OrderedMap α :=
  ⟨setPair name value m.pairs, setPair_distinct m.distinct⟩

/-- A map without `name`; the others keep their order. -/
def erase (m : OrderedMap α) (name : String) : OrderedMap α :=
  ⟨m.pairs.filter fun p => p.1 != name,
    List.Nodup.sublist (List.Sublist.map _ List.filter_sublist) m.distinct⟩

/-- The pairs in order; a repeated name keeps its first place and takes its last value. -/
def ofList (pairs : List (String × α)) : OrderedMap α :=
  pairs.foldl (fun m p => m.insert p.1 p.2) empty

def map (f : String → α → β) (m : OrderedMap α) : OrderedMap β :=
  ⟨m.pairs.map fun p => (p.1, f p.1 p.2), by
    have h := m.distinct
    simpa [List.map_map, Function.comp_def] using h⟩

/-- The pairs in code point order of the names. -/
def sorted (m : OrderedMap α) : OrderedMap α :=
  ⟨m.pairs.mergeSort fun a b => Text.nameLE a.1 b.1,
    ((List.mergeSort_perm _ _).map Prod.fst).nodup_iff.2 m.distinct⟩

/-- The same pairs, in whatever order. -/
def sameContents [BEq α] (a b : OrderedMap α) : Bool :=
  a.size == b.size && a.pairs.all fun p =>
    match b.get? p.1 with
    | some v => p.2 == v
    | none => false

end OrderedMap

end GrammarProfile
