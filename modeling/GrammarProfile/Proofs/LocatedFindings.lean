import GrammarProfile.Proofs.Unordered

/-!
Where findings stand. A path of a profile lies in others, the last of which is the profile itself,
whatever characters the names in it have. So every finding has a place if the profile has one.
-/
namespace GrammarProfile

/-! ## The last of some characters -/

namespace Text

variable {sep : Char} {cs a b : List Char}

theorem splitLast?_append_right (pre rest : List Char) : splitLast? sep (pre ++ rest) =
    match splitLast? sep rest with
    | some (a, b) => some (pre ++ a, b)
    | none => (splitLast? sep pre).map fun p => (p.1, p.2 ++ rest) := by
  induction pre with
  | nil => cases h : splitLast? sep rest <;> rw [List.nil_append, h] <;> rfl
  | cons c pre ih =>
      rw [List.cons_append, splitLast?, ih]
      cases splitLast? sep rest with
      | some p => rfl
      | none =>
          cases h : splitLast? sep pre with
          | some p => simp [splitLast?, h]
          | none => by_cases hc : c = sep <;> simp [splitLast?, h, hc]

theorem splitLast?_append_of_head (pre : List Char) (h : splitLast? sep cs = some ([], b)) :
    splitLast? sep (pre ++ cs) = some (pre, b) := by
  rw [splitLast?_append_right, h]
  simp only [List.append_nil]

theorem length_splitLast? (h : splitLast? sep cs = some (a, b)) : a.length < cs.length := by
  induction cs generalizing a with
  | nil => cases h
  | cons c cs ih =>
      rw [splitLast?] at h
      cases hrest : splitLast? sep cs with
      | some p =>
          rw [hrest] at h
          obtain ⟨rfl, rfl⟩ := Prod.mk.inj (Option.some.inj h)
          exact Nat.succ_lt_succ (ih hrest)
      | none =>
          rw [hrest] at h
          dsimp only at h
          split at h
          · obtain ⟨rfl, -⟩ := Prod.mk.inj (Option.some.inj h)
            exact Nat.zero_lt_succ _
          · cases h

end Text

namespace Profile

/-! ## Paths that lie in others -/

theorem length_parentPath? {path parent : String} (h : parentPath? path = some parent) :
    parent.length < path.length := by
  have hupTo : ∀ sep, (Text.splitLast? sep path.toList).map (fun p => String.ofList p.1) = some parent →
      parent.length < path.length := by
    intro sep hsplit
    obtain ⟨p, hp, rfl⟩ := Option.map_eq_some_iff.1 hsplit
    rw [String.length_ofList, ← String.length_toList]
    exact Text.length_splitLast? hp
  unfold parentPath? at h
  dsimp only at h
  split at h
  · split at h
    · next hparent => exact hupTo '[' (h ▸ hparent)
    · exact hupTo '.' h
  · exact hupTo '.' h

/-- A path and those in which it lies, innermost first. -/
def enclosing (path : String) : List String :=
  match _h : parentPath? path with
  | some parent => path :: enclosing parent
  | none => [path]
termination_by path.length
decreasing_by exact length_parentPath? _h

theorem enclosing_of_parent {path parent : String} (h : parentPath? path = some parent) :
    enclosing path = path :: enclosing parent := by
  rw [enclosing]
  split
  · next found hfound =>
    rw [h] at hfound
    rw [Option.some.inj hfound]
  · next hnone =>
    rw [h] at hnone
    cases hnone

theorem enclosing_of_outermost {path : String} (h : parentPath? path = none) :
    enclosing path = [path] := by
  rw [enclosing]
  split
  · next found hfound =>
    rw [h] at hfound
    cases hfound
  · rfl

theorem mem_enclosing_self (path : String) : path ∈ enclosing path := by
  rw [enclosing]
  split
  · exact List.mem_cons_self
  · exact List.mem_cons_self

/-- The place of a path is that of the first path around it that has one. -/
theorem locate_eq (index : LineIndex) (path : String) :
    index.locate path = (enclosing path).findSome? index.get? := by
  have hwithin : ∀ fuel path, path.length < fuel →
      index.locateWithin fuel path = (enclosing path).findSome? index.get? := by
    intro fuel
    induction fuel with
    | zero => exact fun path hfuel => absurd hfuel (Nat.not_lt_zero _)
    | succ fuel ih =>
        intro path hfuel
        rw [LineIndex.locateWithin]
        cases hparent : parentPath? path with
        | none =>
            rw [enclosing_of_outermost hparent, List.findSome?_cons, List.findSome?_nil]
            cases index.get? path <;> rfl
        | some parent =>
            have hlength := length_parentPath? hparent
            rw [enclosing_of_parent hparent, List.findSome?_cons, ← ih parent (by omega)]
            cases index.get? path <;> rfl
  exact hwithin _ path (Nat.lt_succ_self _)

theorem locate_of_parent (index : LineIndex) {path parent : String}
    (h : parentPath? path = some parent) :
    index.locate path = (index.get? path).or (index.locate parent) := by
  rw [locate_eq, locate_eq, enclosing_of_parent h, List.findSome?_cons]
  cases index.get? path <;> rfl

/-- A path that has a place is where it is said to be. -/
theorem locate_of_get? {index : LineIndex} {path : String} {l : Location}
    (h : index.get? path = some l) : index.locate path = some l := by
  rw [LineIndex.locate, LineIndex.locateWithin, h]

/-- The path names something inside the profile. -/
def InProfile (path : String) : Prop := ∃ rest, path = "profile." ++ rest

theorem InProfile.append {path : String} (h : InProfile path) (more : String) :
    InProfile (path ++ more) := by
  obtain ⟨rest, rfl⟩ := h
  exact ⟨rest ++ more, String.append_assoc⟩

/-- What a path in the profile lies in is the profile, or lies in it. Names may hold dots and
brackets, but none stands before the dot that follows the profile. -/
theorem InProfile.parent {path : String} (h : InProfile path) :
    ∃ parent, parentPath? path = some parent ∧ (parent = "profile" ∨ InProfile parent) := by
  obtain ⟨rest, rfl⟩ := h
  have hchars : ("profile." ++ rest).toList = "profile.".toList ++ rest.toList := String.toList_append
  have hinside : ∀ a, InProfile (String.ofList ("profile.".toList ++ a)) := fun a =>
    ⟨String.ofList a, by rw [String.ofList_append, String.ofList_toList]⟩
  have hprofile : Text.splitLast? '.' "profile.".toList = some ("profile".toList, []) := by decide
  have hnone : Text.splitLast? '[' "profile.".toList = none := by decide
  have hdot : ∃ parent, (Text.splitLast? '.' ("profile." ++ rest).toList).map
      (fun p => String.ofList p.1) = some parent ∧ (parent = "profile" ∨ InProfile parent) := by
    rw [hchars, Text.splitLast?_append_right]
    cases Text.splitLast? '.' rest.toList with
    | some p => exact ⟨_, rfl, .inr (hinside p.1)⟩
    | none =>
        rw [hprofile]
        exact ⟨_, rfl, .inl (String.ofList_toList ..)⟩
  unfold parentPath?
  dsimp only
  split
  · split
    · next parent hbracket =>
      rw [hchars, Text.splitLast?_append_right] at hbracket
      cases hsplit : Text.splitLast? '[' rest.toList with
      | some p =>
          rw [hsplit] at hbracket
          exact ⟨_, rfl, .inr (Option.some.inj hbracket ▸ hinside p.1)⟩
      | none =>
          rw [hsplit, hnone] at hbracket
          cases hbracket
    · exact hdot
  · exact hdot

/-- All paths in the profile end at the profile. -/
theorem InProfile.mem_enclosing {path : String} (h : InProfile path) : "profile" ∈ enclosing path := by
  obtain ⟨parent, hparent, rfl | hinside⟩ := h.parent
  · rw [enclosing_of_parent hparent]
    exact List.mem_cons_of_mem _ (mem_enclosing_self _)
  · rw [enclosing_of_parent hparent]
    exact List.mem_cons_of_mem _ hinside.mem_enclosing
termination_by path.length
decreasing_by exact length_parentPath? hparent

end Profile

namespace Validation

open GrammarProfile.Grammar (Attribute Child ChoiceGroup Element Occurs)
open GrammarProfile.Profile

/-! ## The paths of the rules -/

section Paths

variable (name other : String) (i : Nat)

theorem inProfile_elementPath : InProfile (elementPath name) := by
  have hprofile : InProfile "profile.elements." := ⟨"elements.", by decide⟩
  exact hprofile.append name

theorem inProfile_childPath : InProfile (childPath name other) :=
  ((inProfile_elementPath name).append _).append _

theorem inProfile_choicePath : InProfile (elementPath name ++ ".children." ++ choiceKey) :=
  ((inProfile_elementPath name).append _).append _

theorem inProfile_alternativePath : InProfile (alternativePath name other) :=
  ((inProfile_choicePath name).append _).append _

theorem inProfile_partPath : InProfile (partPath name i) :=
  (((inProfile_elementPath name).append _).append _).append _

theorem inProfile_attributePath : InProfile (attributePath name other) :=
  ((inProfile_elementPath name).append _).append _

theorem inProfile_valuePath : InProfile (Datatype.valuePath name other i) :=
  (((inProfile_attributePath name other).append _).append _).append _

theorem inProfile_documentTypePath : InProfile (documentTypePath i) := by
  have hprofile : InProfile "profile.documentTypes[" := ⟨"documentTypes[", by decide⟩
  exact (hprofile.append _).append _

theorem inProfile_references {rule : ElementRule} :
    ∀ r ∈ Vocabulary.references name rule, InProfile r.2 := by
  intro r hr
  obtain ⟨c, _, rfl⟩ | ⟨c, _, rfl⟩ | ⟨p, _, rfl⟩ := Vocabulary.mem_references.1 hr
  · exact inProfile_childPath name c
  · exact inProfile_alternativePath name c
  · exact inProfile_partPath name p.2

/-- The children of an entry lie in the entry, whatever it is called. -/
theorem parentPath?_children :
    parentPath? (elementPath name ++ ".children") = some (elementPath name) := by
  generalize elementPath name = path
  have hchars : (path ++ ".children").toList = path.toList ++ ".children".toList :=
    String.toList_append
  have hlast : ((path ++ ".children").toList.getLast? == some ']') = false := by
    rw [hchars, List.getLast?_append]
    rfl
  have hkey : Text.splitLast? '.' ".children".toList = some ([], "children".toList) := by decide
  have hsplit := Text.splitLast?_append_of_head path.toList hkey
  rw [← hchars] at hsplit
  simp only [parentPath?, hlast, hsplit, Bool.false_eq_true, if_false, Option.map_some,
    String.ofList_toList]

end Paths

/-! ## The places of findings -/

section Places

variable (s : Subject) (name : String) (rule : ElementRule)

/-- The finding is about something in the profile and has the place of what it is about. -/
def Placed (d : Diagnostic) : Prop := InProfile d.path ∧ d.located (s.index.locate d.path) = d

def AllPlaced (found : List Diagnostic) : Prop := ∀ d ∈ found, Placed s d

theorem located_located (d : Diagnostic) (place : Option Location) :
    (d.located place).located place = d.located place := by
  cases place <;> rfl

variable {s}

theorem placed_report {path : String} (h : InProfile path) (severity : Severity)
    (rule message : String) : Placed s (s.report severity rule path message) := by
  unfold Placed
  rw [report_path]
  exact ⟨h, located_located _ _⟩

theorem allPlaced_nil : AllPlaced s [] := fun _ hd => absurd hd List.not_mem_nil

theorem AllPlaced.append {a b : List Diagnostic} (ha : AllPlaced s a) (hb : AllPlaced s b) :
    AllPlaced s (a ++ b) := List.forall_mem_append.2 ⟨ha, hb⟩

theorem allPlaced_singleton {d : Diagnostic} (h : Placed s d) : AllPlaced s [d] := by
  intro x hx
  rwa [List.mem_singleton.1 hx]

theorem allPlaced_map {α : Type} {items : List α} {f : α → Diagnostic}
    (h : ∀ x ∈ items, Placed s (f x)) : AllPlaced s (items.map f) := List.forall_mem_map.2 h

theorem allPlaced_flatMap {α : Type} {items : List α} {f : α → List Diagnostic}
    (h : ∀ x ∈ items, AllPlaced s (f x)) : AllPlaced s (items.flatMap f) := by
  intro d hd
  obtain ⟨x, hx, hd⟩ := List.mem_flatMap.1 hd
  exact h x hx d hd

variable (s)

theorem Vocabulary.allPlaced_check : AllPlaced s (Vocabulary.check s) := by
  refine .append (allPlaced_map fun p _ => placed_report (inProfile_documentTypePath _) ..)
    (allPlaced_flatMap fun ⟨name, rule⟩ _ => ?_)
  dsimp only
  unfold entry
  split
  · exact allPlaced_singleton (placed_report (inProfile_elementPath _) ..)
  · refine .append (allPlaced_map fun a _ => placed_report (inProfile_attributePath _ _) ..)
      (allPlaced_map fun r hr => placed_report ?_ ..)
    exact inProfile_references _ r (List.mem_of_mem_filter hr)

theorem Containment.allPlaced_check : AllPlaced s (Containment.check s) := by
  refine allPlaced_flatMap fun p _ => .append (.append ?_ ?_) ?_
  · exact allPlaced_map fun c _ => placed_report (inProfile_childPath _ _) ..
  · exact allPlaced_map fun c _ => placed_report (inProfile_partPath _ _) ..
  · exact allPlaced_map fun c _ => placed_report (inProfile_partPath _ _) ..

theorem Datatype.allPlaced_enumeration (a : Attribute) (x : AttributeRule) :
    AllPlaced s (Datatype.enumeration s name a x) := by
  unfold Datatype.enumeration
  split
  · exact allPlaced_map fun v _ => placed_report (inProfile_valuePath _ _ _) ..
  · exact allPlaced_singleton (placed_report ((inProfile_attributePath _ _).append _) ..)

theorem Datatype.allPlaced_pattern (a : Attribute) (x : AttributeRule) :
    AllPlaced s (Datatype.pattern s name a x) := by
  unfold Datatype.pattern
  split
  · exact allPlaced_map fun v _ => placed_report (inProfile_valuePath _ _ _) ..
  · exact allPlaced_nil

theorem Datatype.allPlaced_check : AllPlaced s (Datatype.check s) := by
  refine allPlaced_flatMap fun p _ => allPlaced_flatMap fun q _ => ?_
  dsimp only
  split
  · split
    · exact allPlaced_nil
    · exact .append (allPlaced_enumeration s _ _ _) (allPlaced_pattern s _ _ _)
  · exact allPlaced_nil

theorem Identity.allPlaced_check : AllPlaced s (Identity.check s) := by
  refine .append (allPlaced_flatMap fun p _ d hd => ?_)
    (allPlaced_map fun p _ => placed_report (inProfile_documentTypePath _) ..)
  obtain ⟨x, _, hx⟩ := List.mem_filterMap.1 hd
  dsimp only at hx
  split at hx
  · cases hx
    exact placed_report (inProfile_partPath _ _) ..
  · cases hx

namespace Strictness

theorem allPlaced_loosenedBounds {path : String} (hpath : InProfile path) (c : Child)
    (own : Occurs) : AllPlaced s (loosenedBounds s name path c own) := by
  unfold loosenedBounds
  dsimp only
  refine .append ?_ ?_
  · split
    · exact allPlaced_singleton (placed_report hpath ..)
    · exact allPlaced_nil
  · split
    · exact allPlaced_nil
    · split
      · exact allPlaced_singleton (placed_report hpath ..)
      · exact allPlaced_nil

theorem allPlaced_bounds {path : String} (hpath : InProfile path) (e : Element) (child : String)
    (label : Option String) : AllPlaced s (bounds s name e path child label) := by
  unfold bounds
  split
  · split
    · exact allPlaced_singleton (placed_report hpath ..)
    · exact allPlaced_loosenedBounds s name hpath _ _
  · exact allPlaced_nil

theorem allPlaced_missingChildren : AllPlaced s (missingChildren s name rule) := by
  unfold missingChildren
  split
  · exact allPlaced_nil
  · exact allPlaced_map fun c _ => placed_report ((inProfile_elementPath _).append _) ..

theorem allPlaced_missingAttributes : AllPlaced s (missingAttributes s name rule) := by
  unfold missingAttributes
  split
  · exact allPlaced_nil
  · exact allPlaced_map fun c _ => placed_report ((inProfile_elementPath _).append _) ..

theorem allPlaced_undeclared : AllPlaced s (undeclared s name rule) := by
  refine allPlaced_map fun r hr => placed_report ?_ ..
  have hreference := List.mem_of_find?_eq_some (mem_distinctFirst_iff.1 hr)
  exact inProfile_references _ r (List.mem_of_mem_filter hreference)

theorem allPlaced_missingChain (documentType : String) :
    AllPlaced s (missingChain s documentType) := by
  unfold missingChain
  split
  · exact allPlaced_map fun n _ => placed_report ⟨"elements", by decide⟩ ..
  · exact allPlaced_nil

theorem allPlaced_check : AllPlaced s (check s) := by
  refine .append (allPlaced_flatMap fun p _ => ?_)
    (allPlaced_flatMap fun dt _ => allPlaced_missingChain s dt)
  dsimp only
  unfold entry
  split
  · exact allPlaced_nil
  · refine .append (.append (.append (.append (allPlaced_missingChildren s _ _)
      (allPlaced_missingAttributes s _ _)) (.append ?_ ?_)) ?_) (allPlaced_undeclared s _ _)
    · exact allPlaced_flatMap fun q _ => allPlaced_bounds s _ (inProfile_childPath _ _) _ _ _
    · exact allPlaced_flatMap fun q _ =>
        allPlaced_bounds s _ (inProfile_alternativePath _ _) _ _ _
    · exact allPlaced_map fun q _ => placed_report (inProfile_attributePath _ _) ..

end Strictness

namespace Alternatives

/-- The search from the path of the children comes to that of the entry next, so looking up these
two changes nothing. -/
theorem placed_children (severity : Severity) (id message : String) :
    Placed s ((s.report severity id (elementPath name ++ ".children") message).located
      ((s.index.get? (elementPath name ++ ".children")).or (s.index.get? (elementPath name)))) := by
  have hlocate := locate_of_parent s.index (parentPath?_children name)
  unfold Placed
  rw [located_path, report_path, hlocate]
  refine ⟨(inProfile_elementPath name).append _, ?_⟩
  cases hchildren : s.index.get? (elementPath name ++ ".children") with
  | some l => exact located_located ..
  | none =>
      cases helement : s.index.get? (elementPath name) with
      | some l => rw [locate_of_get? helement]; exact located_located ..
      | none =>
          rw [hchildren, Option.none_or] at hlocate
          rw [Option.none_or, ← hlocate]
          exact located_located ..

theorem allPlaced_emptyGroups : AllPlaced s (emptyGroups s name rule) :=
  allPlaced_map fun _ _ => placed_children s name ..

theorem allPlaced_incomplete : AllPlaced s (incomplete s name rule) := by
  unfold incomplete
  dsimp only
  split
  · exact allPlaced_nil
  · exact allPlaced_singleton (placed_report (inProfile_choicePath _) ..)

theorem allPlaced_groupConflicts (g : ChoiceGroup) :
    AllPlaced s (groupConflicts s name rule g) := by
  unfold groupConflicts
  split
  · exact allPlaced_nil
  · exact allPlaced_map fun p _ => placed_report (inProfile_childPath _ _) ..

/-- The rules about single members of a choice. -/
def memberRules : List String := ["choice.branch-invalid-child", "choice.branch-overlap"]

/-- The finding is about a member of the choice of an entry, and has the place of the choice. -/
def PlacedAtChoice (d : Diagnostic) : Prop :=
  ∃ p ∈ s.profile.elements.pairs, d ∈ entry s p.1 p.2 ∧ ∃ c ∈ p.2.alternatives.keys,
    d.path = alternativePath p.1 c ∧ d.located (choicePlace s p.1) = d

variable {name rule}

theorem placedAtChoice_of_mem (hp : (name, rule) ∈ s.profile.elements.pairs) {d : Diagnostic}
    (hentry : d ∈ entry s name rule) (hd : d ∈ invalidMembers s name rule ∨ d ∈ overlap s name rule) :
    PlacedAtChoice s d := by
  have hplaced : ∀ c ∈ rule.alternatives.keys, ∀ severity member message,
      (s.report severity member (alternativePath name c) message).located (choicePlace s name) = d →
        PlacedAtChoice s d := by
    rintro c hc severity member message rfl
    refine ⟨(name, rule), hp, hentry, c, hc, ?_, located_located ..⟩
    rw [located_path, report_path]
  rcases hd with hd | hd
  · obtain ⟨c, hc, hfinding⟩ := List.mem_map.1 hd
    exact hplaced c (List.mem_of_mem_filter hc) _ _ _ hfinding
  · obtain ⟨c, hc, hfinding⟩ := List.mem_map.1 hd
    exact hplaced c (List.mem_of_mem_filter hc) _ _ _ hfinding

end Alternatives

/-- Findings about members of choices have the place of the choice, all others their own. -/
def WellPlaced (d : Diagnostic) : Prop :=
  (d.ruleId ∉ Alternatives.memberRules ∧ Placed s d) ∨
    (d.ruleId ∈ Alternatives.memberRules ∧ Alternatives.PlacedAtChoice s d)

variable {s name rule} {found : List Diagnostic} {d : Diagnostic}

theorem Reports.wellPlaced {severity : Severity} {id : String} (h : Reports severity id found)
    (hid : id ∉ Alternatives.memberRules) (hplaced : AllPlaced s found) (hd : d ∈ found) :
    WellPlaced s d := by
  refine .inl ⟨?_, hplaced d hd⟩
  rwa [(h d hd).2]

theorem Listed.wellPlaced {rules : List (String × Severity)} (h : Listed rules found)
    (hrules : ∀ r ∈ rules, r.1 ∉ Alternatives.memberRules) (hplaced : AllPlaced s found)
    (hd : d ∈ found) : WellPlaced s d := .inl ⟨hrules _ (h d hd), hplaced d hd⟩

namespace Alternatives

theorem wellPlaced_of_mem_entry (hp : (name, rule) ∈ s.profile.elements.pairs)
    (hentry : d ∈ entry s name rule) : WellPlaced s d := by
  have hincomplete : d ∈ incomplete s name rule → WellPlaced s d :=
    (reports_incomplete s name rule).wellPlaced (by decide) (allPlaced_incomplete s name rule)
  have hoverlap : d ∈ overlap s name rule → WellPlaced s d := fun h =>
    .inr ⟨by rw [(reports_overlap s name rule d h).2]; decide,
      placedAtChoice_of_mem s hp hentry (.inr h)⟩
  have hcases := hentry
  unfold entry at hcases
  split at hcases
  · simp only [List.mem_append, or_assoc] at hcases
    rcases hcases with hgroups | h | hconflicts | hmembers | h
    · exact (reports_emptyGroups s name rule).wellPlaced (by decide)
        (allPlaced_emptyGroups s name rule) hgroups
    · exact hincomplete h
    · obtain ⟨g, _, hd⟩ := List.mem_flatMap.1 hconflicts
      exact (reports_groupConflicts s name rule g).wellPlaced (by decide)
        (allPlaced_groupConflicts s name rule g) hd
    · exact .inr ⟨by rw [(reports_invalidMembers s name rule d hmembers).2]; decide,
        placedAtChoice_of_mem s hp hentry (.inl hmembers)⟩
    · exact hoverlap h
  · rcases List.mem_append.1 hcases with h | h
    · exact hincomplete h
    · exact hoverlap h

theorem wellPlaced_of_mem (hd : d ∈ check s) : WellPlaced s d := by
  obtain ⟨⟨name, rule⟩, hp, hentry⟩ := List.mem_flatMap.1 hd
  exact wellPlaced_of_mem_entry hp hentry

end Alternatives

theorem Category.wellPlaced_of_mem {c : Category} (hd : d ∈ c.check s) : WellPlaced s d := by
  have hlisted := listed_check c s
  cases c with
  | vocabulary => exact hlisted.wellPlaced (by decide) (Vocabulary.allPlaced_check s) hd
  | containment => exact hlisted.wellPlaced (by decide) (Containment.allPlaced_check s) hd
  | datatype => exact hlisted.wellPlaced (by decide) (Datatype.allPlaced_check s) hd
  | identity => exact hlisted.wellPlaced (by decide) (Identity.allPlaced_check s) hd
  | choice => exact Alternatives.wellPlaced_of_mem hd
  | strictness => exact hlisted.wellPlaced (by decide) (Strictness.allPlaced_check s) hd

end Places

/-! ## Where findings stand -/

/-- The finding stands where the first does of a path and those in which it lies, outwards, that
has a place. -/
def StandsAt (index : LineIndex) (path : String) (d : Diagnostic) : Prop :=
  ∃ before q after l, enclosing path = before ++ q :: after ∧
    (∀ p ∈ before, index.get? p = none) ∧ index.get? q = some l ∧
      d.line = some l.line ∧ d.column = some l.column

theorem standsAt_of_located {index : LineIndex} {path : String} {d : Diagnostic}
    (hprofile : index.contains "profile" = true) (hpath : InProfile path)
    (h : d.located (index.locate path) = d) : StandsAt index path d := by
  have hsome : (index.locate path).isSome := by
    rw [locate_eq, List.findSome?_isSome_iff]
    exact ⟨"profile", hpath.mem_enclosing,
      OrderedMap.get?_isSome.2 (OrderedMap.contains_iff.1 hprofile)⟩
  obtain ⟨l, hl⟩ := Option.isSome_iff_exists.1 hsome
  rw [hl] at h
  rw [locate_eq, List.findSome?_eq_some_iff] at hl
  obtain ⟨before, q, after, henclosing, hq, hbefore⟩ := hl
  refine ⟨before, q, after, l, henclosing, hbefore, hq, ?_, ?_⟩
  · rw [← h]
    rfl
  · rw [← h]
    rfl

/-- If the profile has a place, every finding has one, whatever the names in the profile are. It is
that of what the finding is about, or of the nearest thing around this that has a place; only the
findings about members of a choice have the place of the choice, or of what is around it. -/
theorem every_finding_located {s : Subject} (hprofile : s.index.contains "profile" = true)
    {settings : Settings} {d : Diagnostic} (hd : d ∈ validate settings s) :
    (d.ruleId ∉ Alternatives.memberRules → StandsAt s.index d.path d) ∧
      (d.ruleId ∈ Alternatives.memberRules → ∃ p ∈ s.profile.elements.pairs,
        d ∈ Alternatives.entry s p.1 p.2 ∧ ∃ c ∈ p.2.alternatives.keys,
          d.path = alternativePath p.1 c ∧
            StandsAt s.index (elementPath p.1 ++ ".children." ++ choiceKey) d) := by
  obtain ⟨_, c, _, hfound⟩ := mem_validate hd
  rcases Category.wellPlaced_of_mem hfound with ⟨hrule, hpath, hplace⟩ | ⟨hrule, hchoice⟩
  · exact ⟨fun _ => standsAt_of_located hprofile hpath hplace, fun h => absurd h hrule⟩
  · obtain ⟨p, hp, hentry, c, hc, hpath, hplace⟩ := hchoice
    exact ⟨fun h => absurd hrule h, fun _ => ⟨p, hp, hentry, c, hc, hpath,
      standsAt_of_located hprofile (inProfile_choicePath p.1) hplace⟩⟩

/-- An entry whose name and member look like paths; no grammar knows either. Only the profile and
its entries have places. -/
def oddNames : Subject where
  grammar := ⟨∅, ∅, none⟩
  profile := { Restriction.empty with
    elements := ⟨[("a.b[0]", { ElementRule.empty with
      children := ⟨[("c].", none)], by decide⟩
      alternatives := ⟨[("c].", none), ("[d", none)], by decide⟩
      declaresChoice := true })], (by decide : ["a.b[0]"].Nodup)⟩ }
  index := ⟨[("profile", ⟨1, 0⟩), ("profile.elements", ⟨2, 2⟩)], by decide⟩

theorem oddNames_located : oddNames.index.contains "profile" = true ∧
    (∃ d ∈ validate .standard oddNames, d.ruleId = "vocabulary.unknown-element" ∧
      d.path = elementPath "a.b[0]" ∧ StandsAt oddNames.index (elementPath "a.b[0]") d) ∧
    ∃ d ∈ validate .standard oddNames, d.ruleId = "choice.branch-overlap" ∧
      d.path = alternativePath "a.b[0]" "c]." ∧
        StandsAt oddNames.index (elementPath "a.b[0]" ++ ".children." ++ choiceKey) d := by
  have hprofile : oddNames.index.contains "profile" = true := by decide
  have hunknown : Vocabulary.unknownElement oddNames "a.b[0]" (elementPath "a.b[0]") ∈
      Category.vocabulary.check oddNames := List.mem_cons_self
  have hoverlap : ∃ d ∈ Category.choice.check oddNames, d.ruleId = "choice.branch-overlap" ∧
      d.path = alternativePath "a.b[0]" "c]." :=
    ⟨_, List.mem_cons_self, (located_ruleId ..).trans (report_ruleId ..),
      (located_path ..).trans (report_path ..)⟩
  refine ⟨hprofile, ?_, ?_⟩
  · obtain ⟨d, hd, _, hrule, hpath, _⟩ := exists_mem_validate hunknown
    rw [Vocabulary.unknownElement, report_ruleId] at hrule
    rw [Vocabulary.unknownElement, report_path] at hpath
    have hplaced := (every_finding_located hprofile hd).1 (by rw [hrule]; decide)
    exact ⟨d, hd, hrule, hpath, hpath ▸ hplaced⟩
  · obtain ⟨k, hk, hid, hpath⟩ := hoverlap
    obtain ⟨d, hd, _, hrule, hsame, _⟩ := exists_mem_validate hk
    obtain ⟨p, hp, _, _, _, _, hplaced⟩ :=
      (every_finding_located hprofile hd).2 (by rw [hrule, hid]; decide)
    obtain rfl := List.mem_singleton.1 hp
    exact ⟨d, hd, hrule.trans hid, hsame.trans hpath, hplaced⟩

end Validation

end GrammarProfile
