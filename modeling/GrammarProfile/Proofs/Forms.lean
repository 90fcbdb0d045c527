import Mathlib.Data.List.Forall2
import GrammarProfile.Proofs.Accepted

/-!
The shape of a profile as a grammar of trees: what each part has to be, and the outermost parts of a
tree that are not so. A tree is accepted exactly if it has this shape, and otherwise each of these parts
is reported once, at its path.
-/
namespace GrammarProfile.Profile

open GrammarProfile.Yaml (Value Pairs)

/-- What a value is, without its parts. -/
inductive Kind where
  | null
  | bool
  | number
  | string
  | sequence
  | mapping
  | tagged
  deriving DecidableEq, Repr

/-- What a part of a tree has to be. Lists and mappings may also be null. -/
inductive Form where
  /-- A value of one of some kinds, whatever its parts are. -/
  | leaf (kinds : List Kind)
  | list (item : Form)
  /-- A mapping whose keys are strings; the form of a value depends on its key. -/
  | mapping (field : String → Form)

namespace Form

def kindOf : Value → Kind
  | .null => .null
  | .bool _ => .bool
  | .number _ => .number
  | .string _ => .string
  | .sequence _ => .sequence
  | .mapping _ => .mapping
  | .tagged _ _ => .tagged

/-- Whether a value has a form. -/
def Fits : Form → Value → Prop
  | leaf kinds, v => kindOf v ∈ kinds
  | list item, v => v = .null ∨ ∃ vs, v = .sequence vs ∧ ∀ w ∈ vs, item.Fits w
  | mapping field, v => v = .null ∨ ∃ pairs, v = .mapping pairs ∧
      ∀ p ∈ pairs, ∃ name, p.1 = .string name ∧ (field name).Fits p.2

/-- The paths of the outermost parts of a value that do not have their form, in the order in which they
stand there. A pair without a text for its key has the path of its mapping. -/
def misfits : Form → String → Value → List String
  | leaf kinds, path, v => if kindOf v ∈ kinds then [] else [path]
  | list item, path, v =>
    match v with
    | .null => []
    | .sequence vs => vs.zipIdx.flatMap fun p => item.misfits (path ++ "[" ++ toString p.2 ++ "]") p.1
    | _ => [path]
  | mapping field, path, v =>
    match v with
    | .null => []
    | .mapping pairs => pairs.flatMap fun p =>
        match p.1 with
        | .string name => (field name).misfits (path ++ "." ++ name) p.2
        | _ => [path]
    | _ => [path]

theorem misfits_eq_nil_iff (f : Form) (path : String) (v : Value) : f.misfits path v = [] ↔ f.Fits v := by
  induction f generalizing path v with
  | leaf kinds =>
      rw [misfits, Fits]
      split
      · next h => exact iff_of_true rfl h
      · next h => exact iff_of_false (List.cons_ne_nil _ _) h
  | list item ih =>
      cases v with
      | null => exact iff_of_true rfl (.inl rfl)
      | sequence vs =>
          simp only [misfits, Fits, List.flatMap_eq_nil_iff, ih, reduceCtorEq, false_or,
            Value.sequence.injEq, exists_eq_left']
          refine ⟨fun h w hw => ?_, fun h p hp => h p.1 (List.fst_mem_of_mem_zipIdx hp)⟩
          obtain ⟨i, hi⟩ := List.mem_iff_getElem?.1 hw
          exact h (w, i) (List.mk_mem_zipIdx_iff_getElem?.2 hi)
      | _ => exact iff_of_false (List.cons_ne_nil _ _) (by simp [Fits])
  | mapping field ih =>
      cases v with
      | null => exact iff_of_true rfl (.inl rfl)
      | mapping pairs =>
          simp only [misfits, Fits, List.flatMap_eq_nil_iff, reduceCtorEq, false_or,
            Value.mapping.injEq, exists_eq_left']
          refine forall₂_congr fun p hp => ?_
          split
          · next name hname => simp [hname, ih]
          · next hother =>
            refine iff_of_false (List.cons_ne_nil _ _) ?_
            rintro ⟨name, hname, -⟩
            exact hother name hname
      | _ => exact iff_of_false (List.cons_ne_nil _ _) (by simp [Fits])

/-! ## The shape of a profile -/

def word : Form := .leaf [.string]

/-- A text, or null. -/
def label : Form := .leaf [.null, .string]

def scalar : Form := .leaf [.bool, .number, .string]

/-- A scalar, or null. -/
def text : Form := .leaf [.null, .bool, .number, .string]

def flag : Form := .leaf [.null, .bool]

/-- What nothing has. -/
def unknown : Form := .leaf []

def anything : Form := .leaf [.null, .bool, .number, .string, .sequence, .mapping, .tagged]

def ofAttributeField : String → Form
  | "required" => flag
  | "values" => .list scalar
  | _ => unknown

def ofChild (name : String) : Form := if name == choiceKey then .mapping fun _ => label else label

def ofEntryField : String → Form
  | "profileNote" => text
  | "attributes" => .mapping fun _ => .mapping ofAttributeField
  | "children" => .mapping ofChild
  | "structure" => .list word
  | _ => unknown

def ofProfileField : String → Form
  | "name" => text
  | "version" => text
  | "description" => text
  | "documentTypes" => .list word
  | "elements" => .mapping fun _ => .mapping ofEntryField
  | _ => anything

/-- What the mapping below the key `profile` has to be. -/
def ofProfile : Form := .mapping ofProfileField

end Form

/-! ## What is reported of a part -/

namespace Shaped

variable {α β : Type}

/-- The paths of what does not fit. -/
def paths (x : Shaped α) : List String := x.flaws.map Flaw.path

@[simp] theorem paths_pure (a : α) : (pure a : Shaped α).paths = [] := rfl

@[simp] theorem paths_bind (x : Shaped α) (f : α → Shaped β) :
    (x >>= f).paths = x.paths ++ (f x.result).paths := List.map_append

@[simp] theorem paths_flawed (a : α) (path message : String) :
    (Shaped.flawed a path message).paths = [path] := rfl

end Shaped

namespace Shape

variable {α : Type} {path : String}

/-- If each step reports of the value of a key what has not its form, so does the fold, of all pairs. -/
theorem paths_foldMapping {step : α → String → Value → Shaped α} {field : String → Form}
    (hstep : ∀ acc name v, (step acc name v).paths = (field name).misfits (path ++ "." ++ name) v)
    (acc : α) (v : Value) :
    (foldMapping path step acc v).paths = (Form.mapping field).misfits path v := by
  have hpairs : ∀ pairs acc, (foldPairs path step acc pairs).paths = pairs.flatMap fun p =>
      match p.1 with
      | .string name => (field name).misfits (path ++ "." ++ name) p.2
      | _ => [path] := by
    intro pairs
    induction pairs with
    | nil => exact fun _ => rfl
    | cons p rest ih =>
        obtain ⟨key, w⟩ := p
        intro acc
        rw [List.flatMap_cons]
        cases key with
        | string name => rw [foldPairs, Shaped.paths_bind, hstep, ih]
        | _ =>
            rw [foldPairs, Shaped.paths_bind, Shaped.paths_flawed, ih]
            simp
  cases v with
  | mapping pairs =>
      rw [foldMapping, Shaped.paths_bind, Form.misfits]
      exact hpairs pairs acc
  | _ => rfl

theorem paths_list {convert : String → Value → Shaped (Option α)} {form : Form}
    (hconvert : ∀ here w, (convert here w).paths = form.misfits here w) (v : Value) :
    (list path convert v).paths = (Form.list form).misfits path v := by
  have hitems : ∀ vs i, (items path convert i vs).paths =
      (vs.zipIdx i).flatMap fun p => form.misfits (path ++ "[" ++ toString p.2 ++ "]") p.1 := by
    intro vs
    induction vs with
    | nil => exact fun _ => rfl
    | cons w rest ih =>
        intro i
        rw [items, Shaped.paths_bind, Shaped.paths_bind, Shaped.paths_pure, hconvert, ih,
          List.zipIdx_cons, List.flatMap_cons, List.append_nil]
  cases v with
  | sequence vs => exact hitems vs 0
  | _ => rfl

theorem paths_text (v : Value) : (text path v).paths = Form.text.misfits path v := by
  cases v <;> rfl

theorem paths_name (v : Value) : (name path v).paths = Form.word.misfits path v := by
  cases v <;> rfl

theorem paths_attributeValue (v : Value) :
    (attributeValue path v).paths = Form.scalar.misfits path v := by
  cases v <;> rfl

theorem paths_member (members : OrderedMap (Option String)) (child : String) (v : Value) :
    (member path members child v).paths = Form.label.misfits (path ++ "." ++ child) v := by
  cases v <;> rfl

theorem paths_attributeField (rule : AttributeRule) (field : String) (v : Value) :
    (attributeField path rule field v).paths =
      (Form.ofAttributeField field).misfits (path ++ "." ++ field) v := by
  unfold attributeField
  split
  · cases v <;> rfl
  · rw [Shaped.paths_bind, Shaped.paths_pure, List.append_nil]
    exact paths_list (fun _ => paths_attributeValue) v
  · rw [Form.ofAttributeField]
    · rfl
    all_goals assumption

theorem paths_attributeEntry (rules : OrderedMap AttributeRule) (name : String) (v : Value) :
    (attributeEntry path rules name v).paths =
      (Form.mapping Form.ofAttributeField).misfits (path ++ "." ++ name) v := by
  unfold attributeEntry
  rw [Shaped.paths_bind, Shaped.paths_pure, List.append_nil]
  exact paths_foldMapping paths_attributeField _ v

theorem paths_childEntry (rule : ElementRule) (name : String) (v : Value) :
    (childEntry path rule name v).paths = (Form.ofChild name).misfits (path ++ "." ++ name) v := by
  unfold childEntry Form.ofChild
  split
  · rw [Shaped.paths_bind, Shaped.paths_pure, List.append_nil]
    exact paths_foldMapping paths_member _ v
  · rw [Shaped.paths_bind, Shaped.paths_pure, List.append_nil]
    exact paths_member _ name v

theorem paths_elementField (rule : ElementRule) (field : String) (v : Value) :
    (elementField path rule field v).paths =
      (Form.ofEntryField field).misfits (path ++ "." ++ field) v := by
  unfold elementField
  split
  · rw [Shaped.paths_bind, Shaped.paths_pure, List.append_nil]
    exact paths_text v
  · rw [Shaped.paths_bind, Shaped.paths_pure, List.append_nil]
    exact paths_foldMapping paths_attributeEntry _ v
  · exact paths_foldMapping paths_childEntry _ v
  · rw [Shaped.paths_bind, Shaped.paths_pure, List.append_nil]
    exact paths_list (fun _ => paths_name) v
  · rw [Form.ofEntryField]
    · rfl
    all_goals assumption

theorem paths_elementEntry (rules : OrderedMap ElementRule) (name : String) (v : Value) :
    (elementEntry path rules name v).paths =
      (Form.mapping Form.ofEntryField).misfits (path ++ "." ++ name) v := by
  unfold elementEntry
  rw [Shaped.paths_bind, Shaped.paths_pure, List.append_nil]
  exact paths_foldMapping paths_elementField _ v

theorem paths_profileField (r : Restriction) (field : String) (v : Value) :
    (profileField path r field v).paths =
      (Form.ofProfileField field).misfits (path ++ "." ++ field) v := by
  unfold profileField
  split
  · rw [Shaped.paths_bind, Shaped.paths_pure, List.append_nil]
    exact paths_text v
  · rw [Shaped.paths_bind, Shaped.paths_pure, List.append_nil]
    exact paths_text v
  · rw [Shaped.paths_bind, Shaped.paths_pure, List.append_nil]
    exact paths_text v
  · rw [Shaped.paths_bind, Shaped.paths_pure, List.append_nil]
    exact paths_list (fun _ => paths_name) v
  · rw [Shaped.paths_bind, Shaped.paths_pure, List.append_nil]
    exact paths_foldMapping paths_elementEntry _ v
  · rw [Form.ofProfileField]
    · cases v <;> rfl
    all_goals assumption

theorem paths_ofTree (pairs : Pairs) :
    (Restriction.ofTree pairs).paths = Form.ofProfile.misfits "profile" (.mapping pairs) :=
  paths_foldMapping paths_profileField .empty (.mapping pairs)

end Shape

/-! ## Accepted trees -/

/-- The report of a part that has not its form. -/
structure Reported (index : LineIndex) (part : String) (d : Diagnostic) : Prop where
  severity : d.severity = .error
  rule : d.ruleId = "parse.invalid-shape"
  path : d.path = part
  line : d.line = (index.locate part).map Location.line
  column : d.column = (index.locate part).map Location.column

theorem reported_flawDiagnostic (index : LineIndex) (f : Flaw) :
    Reported index f.path (Reading.flawDiagnostic index f) := by
  unfold Reading.flawDiagnostic Diagnostic.located
  constructor <;> cases index.locate f.path <;> rfl

/-- A text with a part that has not its form is read without a profile. -/
theorem rejects_of_misfits {text : String} {root pairs : Pairs}
    (htext : Yaml.read text = .ok (.mapping root))
    (h : Pairs.get? root "profile" = some (.mapping pairs))
    (hmisfits : Form.ofProfile.misfits "profile" (.mapping pairs) ≠ []) :
    (read text).profile = none ∧ (read text).errors ≠ [] := by
  have hpairs : Reading.profilePairs (.ofText text) (.mapping root) = .ok pairs := by
    rw [Reading.profilePairs, h]
  unfold read
  rw [htext]
  dsimp only
  rw [Reading.ofValue, hpairs]
  dsimp only
  cases hflaws : (Restriction.ofTree pairs).flaws with
  | nil =>
      rw [← Shape.paths_ofTree, Shaped.paths, hflaws] at hmisfits
      exact absurd rfl hmisfits
  | cons f fs => exact ⟨rfl, List.cons_ne_nil _ _⟩

/-- A tree with a mapping below the key `profile` is read as a profile exactly if this mapping has the
shape of one. Otherwise there is no profile, and each of its outermost parts that have not their form is
reported once, at its path. -/
theorem reads_iff_fits {root pairs : Pairs} (h : Pairs.get? root "profile" = some (.mapping pairs)) :
    (∀ index,
      ((Reading.ofValue index (.mapping root)).profile.isSome ↔ Form.ofProfile.Fits (.mapping pairs)) ∧
        List.Forall₂ (Reported index) (Form.ofProfile.misfits "profile" (.mapping pairs))
          (Reading.ofValue index (.mapping root)).errors) ∧
      ∀ text, Yaml.read text = .ok (.mapping root) →
        read text = Reading.ofValue (.ofText text) (.mapping root) := by
  refine ⟨fun index => ?_, fun text htext => by unfold read; rw [htext]⟩
  have hpairs : Reading.profilePairs index (.mapping root) = .ok pairs := by
    rw [Reading.profilePairs, h]
  have hpaths := Shape.paths_ofTree pairs
  rw [← Form.misfits_eq_nil_iff _ "profile", ← hpaths, Shaped.paths, List.map_eq_nil_iff,
    Reading.ofValue, hpairs]
  dsimp only
  cases hflaws : (Restriction.ofTree pairs).flaws with
  | nil => exact ⟨iff_of_true rfl rfl, .nil⟩
  | cons f fs =>
      refine ⟨iff_of_false Bool.false_ne_true (List.cons_ne_nil _ _), ?_⟩
      rw [List.forall₂_map_left_iff, List.forall₂_map_right_iff, List.forall₂_same]
      exact fun f _ => reported_flawDiagnostic index f

/-- A profile with a list for its name, a number among its keys, and an entry with misfits among its
children, below them and beside them. -/
def crookedFields : Pairs :=
  [(.string "name", .sequence [.string "act"]),
    (.number (.int 2), .null),
    (.string "owner", .tagged "!person" .null),
    (.string "elements", .mapping
      [(.string "act", .mapping
        [(.string "children", .mapping
          [(.string "meta", .bool true),
            (.string "choice", .mapping [(.string "body", .tagged "!one" .null)])]),
          (.string "note", .null)])])]

def crookedRoot : Pairs := [(.string "profile", .mapping crookedFields)]

theorem reads_crooked : Pairs.get? crookedRoot "profile" = some (.mapping crookedFields) ∧
    ∀ index, (Reading.ofValue index (.mapping crookedRoot)).profile.isSome = false ∧
      List.Forall₂ (Reported index)
        ["profile.name", "profile", "profile.elements.act.children.meta",
          "profile.elements.act.children.choice.body", "profile.elements.act.note"]
        (Reading.ofValue index (.mapping crookedRoot)).errors := by
  have hprofile : Pairs.get? crookedRoot "profile" = some (.mapping crookedFields) := rfl
  have hmisfits : Form.ofProfile.misfits "profile" (.mapping crookedFields) =
      ["profile.name", "profile", "profile.elements.act.children.meta",
        "profile.elements.act.children.choice.body", "profile.elements.act.note"] := by
    decide +kernel
  refine ⟨hprofile, fun index => ?_⟩
  obtain ⟨hiff, herrors⟩ := (reads_iff_fits hprofile).1 index
  rw [← Form.misfits_eq_nil_iff _ "profile", hmisfits] at hiff
  exact ⟨Bool.eq_false_iff.2 fun h => List.cons_ne_nil _ _ (hiff.1 h), hmisfits ▸ herrors⟩

end GrammarProfile.Profile
