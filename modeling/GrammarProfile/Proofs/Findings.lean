import GrammarProfile.Validation

/-!
Findings as a whole: every rule reports with one severity, so that dropping repeated findings
never hides an error behind a finding of another kind.
-/
namespace GrammarProfile.Validation

open GrammarProfile.Profile

/-- No finding is an error. -/
def Clean (found : List Diagnostic) : Prop := ∀ d ∈ found, d.severity ≠ .error

/-- All findings come from one rule and have one severity. -/
def Reports (severity : Severity) (rule : String) (found : List Diagnostic) : Prop :=
  ∀ d ∈ found, d.severity = severity ∧ d.ruleId = rule

def advisoryRules : List String :=
  ["identity.doctype-without-element-restriction", "datatype.custom-enum-on-free-attribute"]

def warningRules : List String :=
  ["identity.duplicate-structure-entry", "strictness.missing-required-child",
    "strictness.missing-required-attribute", "strictness.undeclared-child-element"]

/-- The severity with which a rule reports. -/
def ruleSeverity (rule : String) : Severity :=
  if rule ∈ advisoryRules then .info else if rule ∈ warningRules then .warning else .error

/-- The rules of a category, with their severities. -/
def Category.rules : Category → List (String × Severity)
  | vocabulary =>
    [("vocabulary.unknown-document-type", .error), ("vocabulary.unknown-element", .error),
      ("vocabulary.unknown-attribute", .error)]
  | containment =>
    [("structure.invalid-child", .error), ("structure.invalid-structure-root", .error),
      ("structure.invalid-structure-chain", .error)]
  | datatype =>
    [("datatype.invalid-enum-value", .error), ("datatype.custom-enum-on-free-attribute", .info),
      ("datatype.pattern-mismatch", .error)]
  | identity =>
    [("identity.duplicate-structure-entry", .warning),
      ("identity.doctype-without-element-restriction", .info)]
  | choice =>
    [("choice.required-group-empty", .error), ("choice.incomplete-branches", .error),
      ("choice.exclusive-branch-conflict", .error), ("choice.branch-invalid-child", .error),
      ("choice.branch-overlap", .error)]
  | strictness =>
    [("strictness.missing-required-child", .warning),
      ("strictness.missing-required-attribute", .warning),
      ("strictness.invalid-cardinality", .error),
      ("strictness.loosened-child-cardinality", .error),
      ("strictness.loosened-attribute-required", .error),
      ("strictness.undeclared-child-element", .warning),
      ("strictness.missing-required-element", .error)]

/-- Every finding comes from one of the rules and has its severity. -/
def Listed (rules : List (String × Severity)) (found : List Diagnostic) : Prop :=
  ∀ d ∈ found, (d.ruleId, d.severity) ∈ rules

/-- Every finding has the severity of its rule. -/
def Graded (found : List Diagnostic) : Prop := ∀ d ∈ found, d.severity = ruleSeverity d.ruleId

section Located

variable (d : Diagnostic) (place : Option Location)

@[simp] theorem located_severity : (d.located place).severity = d.severity := by
  cases place <;> rfl

@[simp] theorem located_ruleId : (d.located place).ruleId = d.ruleId := by
  cases place <;> rfl

@[simp] theorem located_path : (d.located place).path = d.path := by
  cases place <;> rfl

@[simp] theorem located_message : (d.located place).message = d.message := by
  cases place <;> rfl

end Located

@[simp] theorem report_severity (s : Subject) (severity : Severity) (rule path message : String) :
    (s.report severity rule path message).severity = severity := located_severity _ _

@[simp] theorem report_ruleId (s : Subject) (severity : Severity) (rule path message : String) :
    (s.report severity rule path message).ruleId = rule := located_ruleId _ _

@[simp] theorem report_path (s : Subject) (severity : Severity) (rule path message : String) :
    (s.report severity rule path message).path = path := located_path _ _

@[simp] theorem report_message (s : Subject) (severity : Severity) (rule path message : String) :
    (s.report severity rule path message).message = message := located_message _ _

/-! ## Lists of findings -/

@[simp] theorem clean_nil : Clean [] := fun _ hd => absurd hd List.not_mem_nil

@[simp] theorem clean_append {a b : List Diagnostic} : Clean (a ++ b) ↔ Clean a ∧ Clean b :=
  List.forall_mem_append

@[simp] theorem clean_flatMap {α : Type} {items : List α} {f : α → List Diagnostic} :
    Clean (items.flatMap f) ↔ ∀ x ∈ items, Clean (f x) := by
  simp only [Clean, List.mem_flatMap]
  exact ⟨fun h x hx d hd => h d ⟨x, hx, hd⟩, fun h d ⟨x, hx, hd⟩ => h x hx d hd⟩

section Listed

variable {rules : List (String × Severity)}

@[simp] theorem listed_nil : Listed rules [] := fun _ hd => absurd hd List.not_mem_nil

@[simp] theorem listed_append {a b : List Diagnostic} :
    Listed rules (a ++ b) ↔ Listed rules a ∧ Listed rules b := List.forall_mem_append

theorem listed_flatMap {α : Type} {items : List α} {f : α → List Diagnostic}
    (h : ∀ x ∈ items, Listed rules (f x)) : Listed rules (items.flatMap f) := by
  intro d hd
  obtain ⟨x, hx, hd⟩ := List.mem_flatMap.1 hd
  exact h x hx d hd

theorem Listed.graded {c : Category} {found : List Diagnostic} (h : Listed c.rules found) :
    Graded found := by
  have hseverity : ∀ r ∈ c.rules, r.2 = ruleSeverity r.1 := by
    cases c <;> decide +kernel
  intro d hd
  exact hseverity _ (h d hd)

/-- The names of the rules begin with the name of their category. -/
theorem Listed.category {c : Category} {found : List Diagnostic} (h : Listed c.rules found)
    {d : Diagnostic} (hd : d ∈ found) : d.category = c.name := by
  have hname : ∀ r ∈ c.rules, String.ofList (r.1.toList.takeWhile (· != '.')) = c.name := by
    cases c <;> decide +kernel
  unfold Diagnostic.category
  exact hname (d.ruleId, d.severity) (h d hd)

end Listed

theorem graded_flatMap {α : Type} {items : List α} {f : α → List Diagnostic}
    (h : ∀ x ∈ items, Graded (f x)) : Graded (items.flatMap f) := by
  intro d hd
  obtain ⟨x, hx, hd⟩ := List.mem_flatMap.1 hd
  exact h x hx d hd

theorem reports_nil (severity : Severity) (rule : String) : Reports severity rule [] :=
  fun _ hd => absurd hd List.not_mem_nil

theorem reports_singleton {severity : Severity} {rule : String} {d : Diagnostic}
    (hs : d.severity = severity) (hr : d.ruleId = rule) : Reports severity rule [d] := by
  intro x hx
  rw [List.mem_singleton.1 hx]
  exact ⟨hs, hr⟩

theorem reports_map {α : Type} {severity : Severity} {rule : String} {items : List α}
    {f : α → Diagnostic} (hs : ∀ x, (f x).severity = severity) (hr : ∀ x, (f x).ruleId = rule) :
    Reports severity rule (items.map f) := by
  intro d hd
  obtain ⟨x, _, rfl⟩ := List.mem_map.1 hd
  exact ⟨hs x, hr x⟩

theorem Reports.append {severity : Severity} {rule : String} {a b : List Diagnostic}
    (ha : Reports severity rule a) (hb : Reports severity rule b) :
    Reports severity rule (a ++ b) := List.forall_mem_append.2 ⟨ha, hb⟩

theorem Reports.not_mem {severity : Severity} {rule other : String} {found : List Diagnostic}
    {d : Diagnostic} (h : Reports severity other found) (hd : d.ruleId = rule)
    (hne : other ≠ rule) : d ∉ found :=
  fun hmem => hne ((h d hmem).2.symm.trans hd)

theorem Reports.listed {severity : Severity} {rule : String} {found : List Diagnostic}
    {rules : List (String × Severity)} (h : Reports severity rule found)
    (hr : (rule, severity) ∈ rules) : Listed rules found := by
  intro d hd
  rw [(h d hd).1, (h d hd).2]
  exact hr

theorem Reports.clean_iff {rule : String} {found : List Diagnostic}
    (h : Reports .error rule found) : Clean found ↔ found = [] := by
  constructor
  · intro hc
    exact List.eq_nil_iff_forall_not_mem.2 fun d hd => hc d hd (h d hd).1
  · rintro rfl
    exact clean_nil

theorem Reports.clean {severity : Severity} {rule : String} {found : List Diagnostic}
    (h : Reports severity rule found) (hs : severity ≠ .error) : Clean found := by
  intro d hd
  rw [(h d hd).1]
  exact hs

/-! ## Repeated findings -/

theorem sameFinding_iff {a b : Diagnostic} :
    sameFinding a b = true ↔ a.ruleId = b.ruleId ∧ a.path = b.path ∧ a.message = b.message := by
  simp [sameFinding, and_assoc]

theorem dropRepeats_subset (seen found : List Diagnostic) : dropRepeats seen found ⊆ found := by
  induction found generalizing seen with
  | nil => exact List.Subset.refl _
  | cons d rest ih =>
      simp only [dropRepeats]
      split
      · exact List.subset_cons_of_subset _ (ih seen)
      · exact List.cons_subset_cons _ (ih (d :: seen))

/-- What is dropped repeats something that was seen before or is kept. -/
theorem dropRepeats_covers (seen found : List Diagnostic) {d : Diagnostic} (hd : d ∈ found) :
    ∃ k, (k ∈ seen ∨ k ∈ dropRepeats seen found) ∧
      k.ruleId = d.ruleId ∧ k.path = d.path ∧ k.message = d.message := by
  induction found generalizing seen with
  | nil => exact absurd hd List.not_mem_nil
  | cons first rest ih =>
      simp only [dropRepeats]
      split
      · next hrepeat =>
          rcases List.mem_cons.1 hd with rfl | hd
          · obtain ⟨k, hk, same⟩ := List.any_eq_true.1 hrepeat
            obtain ⟨hrule, hpath, hmessage⟩ := sameFinding_iff.1 same
            exact ⟨k, .inl hk, hrule.symm, hpath.symm, hmessage.symm⟩
          · exact ih seen hd
      · rcases List.mem_cons.1 hd with rfl | hd
        · exact ⟨d, .inr List.mem_cons_self, rfl, rfl, rfl⟩
        · obtain ⟨k, hk, same⟩ := ih (first :: seen) hd
          refine ⟨k, ?_, same⟩
          rcases hk with hk | hk
          · rcases List.mem_cons.1 hk with rfl | hk
            · exact .inr List.mem_cons_self
            · exact .inl hk
          · exact .inr (List.mem_cons_of_mem _ hk)

/-- Where every rule has its severity, a kept finding stands for all its repeats. -/
theorem clean_dropRepeats {found : List Diagnostic} (h : Graded found) :
    Clean (dropRepeats [] found) ↔ Clean found := by
  constructor
  · intro hc d hd herror
    obtain ⟨k, hk, same, _⟩ := dropRepeats_covers [] found hd
    rcases hk with hk | hk
    · exact List.not_mem_nil hk
    · apply hc k hk
      rw [h k (dropRepeats_subset _ _ hk), same, ← h d hd, herror]
  · intro hc d hd
    exact hc d (dropRepeats_subset _ _ hd)

end GrammarProfile.Validation
