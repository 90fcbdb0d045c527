import GrammarProfile.Yaml.Event
import GrammarProfile.Yaml.Scalar

/-!
Reading a YAML text as a value: scalars get their meaning, aliases are expanded, and the keys of
a mapping have to be different.
-/
namespace GrammarProfile.Yaml

/-- How deep collections may lie inside each other. -/
def depthLimit : Nat := 128

/-- A tag of the document's own, which is kept. -/
def isOwnTag (tag : String) : Bool := tag.toList.head? == some '!'

/-- The value of a plain scalar without a tag. -/
def plainValue (text : String) (mark : Mark) : Except Error Value :=
  match Scalar.meaning text.toList with
  | .null => .ok .null
  | .bool b => .ok (.bool b)
  | .number n => .ok (.number n)
  | .outOfRange => .error ⟨.outOfRange, some mark⟩
  | .text => .ok (.string text)

/-- The value of a scalar. Some tags ask for a type; with any other it is text. -/
def scalarValue (tag : Option String) (text : String) (isPlain : Bool) (mark : Mark) :
    Except Error Value :=
  let cs := text.toList
  let wrong : Except Error Value := .error ⟨.notOfTag, some mark⟩
  match tag with
  | none => if isPlain then plainValue text mark else .ok (.string text)
  | some "tag:yaml.org,2002:bool" =>
    match Scalar.bool? cs with
    | some b => .ok (.bool b)
    | none => wrong
  | some "tag:yaml.org,2002:int" =>
    match Scalar.whole? cs with
    | some (.number n) => .ok (.number n)
    | _ => wrong
  | some "tag:yaml.org,2002:float" =>
    match Scalar.float? cs with
    | some x => .ok (.number (.float x))
    | none => wrong
  | some "tag:yaml.org,2002:null" => if Scalar.isNull cs then .ok .null else wrong
  | some _ => .ok (.string text)

namespace Document

/-- The events from the node on that an anchor marks; of nodes with one number the last counts. -/
def anchored (id : Nat) : List Event → Option (List Event)
  | [] => none
  | e :: rest =>
    match anchored id rest with
    | some found => some found
    | none => if e.anchor == some id then some (e :: rest) else none

/-- A value that was read, the events after it, and the number of aliases followed so far. -/
structure Reading (α : Type) where
  part : α
  rest : List Event
  jumps : Nat

/-- The error where the events of a document end too early. -/
def cut (d : Document) : Error := d.error.getD ⟨.noContent, none⟩

mutual

/-- Reads the value that begins the events. `depth` collections may still be opened, and
`inTag` tells that the tag on the value is read already. -/
def readValue (d : Document) : Nat → Nat → Bool → List Event → Nat → Except Error (Reading Value)
  | 0, _, _, _, _ => .error d.cut
  | fuel + 1, depth, inTag, events, jumps =>
    match events with
    | [] => .error d.cut
    | e :: rest =>
      let ownTag := if inTag then none else e.tag.filter isOwnTag
      match ownTag, e.kind with
      | some tag, _ =>
        match d.readValue fuel depth true events jumps with
        | .ok r => .ok ⟨.tagged tag r.part, r.rest, r.jumps⟩
        | .error err => .error err
      | none, .alias id =>
        if d.events.length * 100 < jumps + 1 then .error ⟨.tooManyAliases, none⟩
        else
          match anchored id d.events with
          | none => .error d.cut
          | some there =>
            match d.readValue fuel depth false there (jumps + 1) with
            | .ok r => .ok ⟨r.part, rest, r.jumps⟩
            | .error err => .error err
      | none, .scalar text isPlain =>
        let tag := if inTag then none else e.tag
        match scalarValue tag text isPlain e.mark with
        | .ok v => .ok ⟨v, rest, jumps⟩
        | .error err => .error err
      | none, .sequence =>
        if depth == 0 then .error ⟨.tooDeep, some e.mark⟩
        else
          match d.readItems fuel (depth - 1) rest jumps with
          | .ok r => .ok ⟨.sequence r.part, r.rest, r.jumps⟩
          | .error err => .error err
      | none, .mapping =>
        if depth == 0 then .error ⟨.tooDeep, some e.mark⟩
        else
          match d.readPairs fuel (depth - 1) e.mark [] rest jumps with
          | .ok r => .ok ⟨.mapping r.part, r.rest, r.jumps⟩
          | .error err => .error err
      | none, .sequenceEnd => .error d.cut
      | none, .mappingEnd => .error d.cut

/-- Reads the items of a list to its end. -/
def readItems (d : Document) : Nat → Nat → List Event → Nat → Except Error (Reading (List Value))
  | 0, _, _, _ => .error d.cut
  | fuel + 1, depth, events, jumps =>
    match events with
    | [] => .error d.cut
    | e :: rest =>
      if e.kind == .sequenceEnd then .ok ⟨[], rest, jumps⟩
      else
        match d.readValue fuel depth false events jumps with
        | .error err => .error err
        | .ok v =>
          match d.readItems fuel depth v.rest v.jumps with
          | .error err => .error err
          | .ok r => .ok ⟨v.part :: r.part, r.rest, r.jumps⟩

/-- Reads the pairs of a mapping that begins at `mark` to its end; `done` are the pairs before,
in reverse. -/
def readPairs (d : Document) : Nat → Nat → Mark → Pairs → List Event → Nat →
    Except Error (Reading Pairs)
  | 0, _, _, _, _, _ => .error d.cut
  | fuel + 1, depth, mark, done, events, jumps =>
    match events with
    | [] => .error d.cut
    | e :: rest =>
      if e.kind == .mappingEnd then .ok ⟨done.reverse, rest, jumps⟩
      else
        match d.readValue fuel depth false events jumps with
        | .error err => .error err
        | .ok k =>
          if done.any fun p => k.part.same p.1 then .error ⟨.repeatedKey, some mark⟩
          else
            match d.readValue fuel depth false k.rest k.jumps with
            | .error err => .error err
            | .ok v => d.readPairs fuel depth mark ((k.part, v.part) :: done) v.rest v.jumps

end

/-- The value of a document; one without events stands for null. -/
def value (d : Document) : Except Error Value :=
  if d.events.isEmpty then
    match d.error with
    | some e => .error e
    | none => .ok .null
  else
    match d.readValue ((depthLimit + 2) * (d.events.length + 2)) depthLimit false d.events 0 with
    | .error e => .error e
    | .ok r =>
      match d.error with
      | some e => .error e
      | none => .ok r.part

/-- Whether a document says nothing at all. -/
def isBlank (d : Document) : Bool :=
  match d.events with
  | [] => true
  | e :: _ => e.kind == .scalar "" true

end Document

/-- The value of a text that holds at most one document. -/
def read (text : String) : Except Error Value :=
  let d := Document.ofText text
  match d.value with
  | .error e => .error e
  | .ok v => if d.isFollowed then .error ⟨.manyDocuments, none⟩ else .ok v

/-- The pairs of a text that is a mapping; one that says nothing stands for no pairs. -/
def readPairs? (text : String) : Option Pairs :=
  let d := Document.ofText text
  if d.isBlank then if d.error.isNone && !d.isFollowed then some [] else none
  else
    match read text with
    | .ok v => v.pairs?
    | .error _ => none

end GrammarProfile.Yaml
