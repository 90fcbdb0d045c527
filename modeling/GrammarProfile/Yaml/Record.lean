import GrammarProfile.Yaml.Reader

/-!
Records: mappings whose keys name fields. A field is kept as the events that its value begins
with, so that whoever asks for it decides what it may be, and what nobody asks for stays unread.
-/
namespace GrammarProfile.Yaml

/-- A scalar as it is written. -/
structure WrittenScalar where
  tag : Option String
  text : String
  isPlain : Bool
  deriving DecidableEq, Repr

namespace WrittenScalar

def isNullWord (s : WrittenScalar) : Bool :=
  s.isPlain && (s.text.isEmpty || Scalar.isNull s.text.toList)

/-- The boolean that a plain scalar writes. -/
def bool? (s : WrittenScalar) : Option Bool :=
  if s.isPlain then Scalar.bool? s.text.toList else none

/-- The word for one of several choices: a tag of the document's own on nothing, or the text. -/
def choice? (s : WrittenScalar) : Option String :=
  match s.tag.filter isOwnTag with
  | some tag => if s.isNullWord then some (bareTag tag) else none
  | none => some s.text

end WrittenScalar

namespace Document

/-- The events of a node, which for an alias stand where its anchor is. -/
def resolve (d : Document) (events : List Event) : List Event :=
  match events with
  | ⟨.alias id, _, _, _⟩ :: _ => (anchored id d.events).getD []
  | _ => events

/-- The events after a node of which `depth` collections are open. -/
def afterNode (depth : Nat) : List Event → List Event
  | [] => []
  | e :: rest =>
    match e.kind with
    | .sequence => afterNode (depth + 1) rest
    | .mapping => afterNode (depth + 1) rest
    | .sequenceEnd => if depth ≤ 1 then rest else afterNode (depth - 1) rest
    | .mappingEnd => if depth ≤ 1 then rest else afterNode (depth - 1) rest
    | .scalar _ _ => if depth = 0 then rest else afterNode depth rest
    | .alias _ => if depth = 0 then rest else afterNode depth rest

/-- The scalar that a node is. -/
def scalar? (d : Document) (node : List Event) : Option WrittenScalar :=
  match d.resolve node with
  | ⟨.scalar text isPlain, tag, _, _⟩ :: _ => some ⟨tag, text, isPlain⟩
  | _ => none

/-- The fields of a mapping to its end. -/
def fieldsFrom (d : Document) : Nat → List Event → Option (List (String × List Event))
  | 0, _ => none
  | fuel + 1, events =>
    match events with
    | [] => none
    | e :: _ =>
      if e.kind == .mappingEnd then some []
      else
        let value := afterNode 0 events
        match d.scalar? events, d.fieldsFrom fuel (afterNode 0 value) with
        | some key, some fields => some ((key.text, value) :: fields)
        | _, _ => none

/-- The fields of a node that is a mapping, or that says nothing. -/
def fields? (d : Document) (node : List Event) : Option (List (String × List Event)) :=
  match d.resolve node with
  | [] => some []
  | ⟨.scalar "" true, _, _, _⟩ :: _ => some []
  | ⟨.mapping, _, _, _⟩ :: rest => d.fieldsFrom (rest.length + 1) rest
  | _ => none

/-- A record that gives each of the names at most once. -/
def record? (d : Document) (names : List String) (node : List Event) :
    Option (List (String × List Event)) :=
  (d.fields? node).filter fun fields =>
    names.all fun name => (fields.filter fun f => f.1 == name).length ≤ 1

/-- A record that gives nothing but the names. -/
def closedRecord? (d : Document) (names : List String) (node : List Event) :
    Option (List (String × List Event)) :=
  (d.record? names node).filter fun fields => fields.all fun f => names.contains f.1

/-- Reads a field as `value?` says. A missing one has the standard value. -/
def field? {α : Type} (fields : List (String × List Event)) (name : String) (standard : α)
    (value? : List Event → Option α) : Option α :=
  match fields.lookup name with
  | some node => value? node
  | none => some standard

/-- Reads a scalar that may also be null. -/
def optional? {α : Type} (d : Document) (value? : WrittenScalar → Option α)
    (node : List Event) : Option (Option α) :=
  match d.scalar? node with
  | none => none
  | some s =>
    if s.tag.isNone && s.isNullWord then some none
    else if s.isPlain && s.tag == some "tag:yaml.org,2002:null" then
      if s.isNullWord then some none else none
    else (value? s).map some

end Document

end GrammarProfile.Yaml
