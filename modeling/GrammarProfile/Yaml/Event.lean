import GrammarProfile.Yaml.Token.Lexer

/-!
The events of a YAML document: its scalars and aliases, and where its lists and mappings begin
and end, found by reading its tokens by the rules of the grammar.
-/
namespace GrammarProfile.Yaml

inductive EventKind where
  | alias (id : Nat)
  | scalar (text : String) (isPlain : Bool)
  | sequence
  | sequenceEnd
  | mapping
  | mappingEnd
  deriving DecidableEq, Repr, Inhabited

structure Event where
  kind : EventKind
  tag : Option String
  /-- The number of the anchor on it. -/
  anchor : Option Nat
  mark : Mark
  deriving DecidableEq, Repr, Inhabited

/-- The tokens that are still to be read, and what is known from those before. -/
structure Source where
  tokens : List Token
  /-- Why there are no more tokens. -/
  failure : Error
  /-- What the handles of tags stand for. -/
  handles : List (String × String)
  /-- The names of anchors with their numbers. -/
  anchors : List (String × Nat)
  /-- The events so far, the last one first. -/
  events : List Event
  deriving Inhabited

/-- Reading tokens; the events before an error are kept. -/
abbrev Parse := ExceptT Error (StateM Source)

namespace Parse

def peek : Parse Token := do
  let s ← get
  match s.tokens with
  | t :: _ => pure t
  | [] => throw s.failure

def advance : Parse Unit := modify fun s => { s with tokens := s.tokens.drop 1 }

def failAt {α : Type} (mark : Mark) (p : Problem) : Parse α := throw ⟨p, some mark⟩

def emit (kind : EventKind) (mark : Mark) : Parse Unit :=
  modify fun s => { s with events := ⟨kind, none, none, mark⟩ :: s.events }

/-- A scalar without text, where none is written. -/
def emitEmpty (mark : Mark) : Parse Unit := emit (.scalar "" true) mark

/-- The anchor and the tag before a node. -/
structure Properties where
  anchor : Option String
  hasTag : Bool
  tag : Option String
  /-- Where they begin, and where the tag does. -/
  mark : Option Mark
  tagMark : Option Mark

/-- Adds an event with its properties. An anchor gets the number of different names before it. -/
def emitNode (kind : EventKind) (p : Properties) (mark : Mark) : Parse Unit :=
  modify fun s =>
    match p.anchor with
    | none => { s with events := ⟨kind, p.tag, none, mark⟩ :: s.events }
    | some name =>
      let id := s.anchors.length
      { s with
        anchors := (name, id) :: s.anchors.filter fun a => a.1 != name
        events := ⟨kind, p.tag, some id, mark⟩ :: s.events }

/-- The tag that a handle and a suffix write. -/
def resolveTag (handle : String) (suffix : Option String) (mark : Mark) :
    Parse (Option String) := do
  if handle == "" then pure suffix
  else
    let s ← get
    match s.handles.lookup handle with
    | some start => pure (suffix.map (start ++ ·))
    | none => failAt mark .unknownHandle

/-- Reads an anchor and a tag, in either order. -/
def properties : Parse Properties := do
  let first ← peek
  match first.kind with
  | .anchor name =>
    advance
    let second ← peek
    match second.kind with
    | .tag handle suffix =>
      advance
      let _ ← peek
      let tag ← resolveTag handle suffix second.mark
      pure ⟨some name, true, tag, some first.mark, some second.mark⟩
    | _ => pure ⟨some name, false, none, some first.mark, none⟩
  | .tag handle suffix =>
    advance
    let second ← peek
    match second.kind with
    | .anchor name =>
      advance
      let _ ← peek
      let tag ← resolveTag handle suffix first.mark
      pure ⟨some name, true, tag, some first.mark, some first.mark⟩
    | _ =>
      let tag ← resolveTag handle suffix first.mark
      pure ⟨none, true, tag, some first.mark, some first.mark⟩
  | _ => pure ⟨none, false, none, none, none⟩

/-- Tokens before which nothing of a block mapping is written. -/
def endsPair (k : TokenKind) : Bool := k == .key || k == .value || k == .blockEnd

/-- Tokens before which nothing of an entry at the indentation of its mapping is written. -/
def endsEntry (k : TokenKind) : Bool := k == .entry || endsPair k

def endsFlowKey (closing k : TokenKind) : Bool := k == .value || k == .flowEntry || k == closing

mutual

/-- Reads a node. Block collections may begin only where `block` is set, and a list without an
indentation of its own only where `indentless` is. -/
def node : Nat → Bool → Bool → Parse Unit
  | 0, _, _ => pure ()
  | fuel + 1, block, indentless => do
    let first ← peek
    match first.kind with
    | .alias name =>
      let s ← get
      match s.anchors.lookup name with
      | some id =>
        emit (.alias id) first.mark
        advance
      | none => failAt first.mark .unknownAnchor
    | _ =>
      let p ← properties
      let t ← peek
      let mark := p.mark.getD t.mark
      let isBare := p.anchor.isNone && !p.hasTag
      match t.kind, block with
      | .scalar text isPlain, _ =>
        emitNode (.scalar text isPlain) p mark
        advance
      | .flowSequence, _ =>
        emitNode .sequence p mark
        advance
        flowItems fuel true
      | .flowMapping, _ =>
        emitNode .mapping p mark
        advance
        flowPairs fuel true
      | .blockSequence, true =>
        emitNode .sequence p mark
        advance
        blockEntries fuel
      | .blockMapping, true =>
        emitNode .mapping p mark
        advance
        blockPairs fuel
      | kind, _ =>
        if indentless && kind == .entry then
          emitNode .sequence p mark
          indentlessEntries fuel
        else if isBare then failAt t.mark .noContent
        else emitNode (.scalar "" true) p mark

/-- Reads the entries of a block list to its end. -/
def blockEntries : Nat → Parse Unit
  | 0 => pure ()
  | fuel + 1 => do
    let t ← peek
    match t.kind with
    | .entry =>
      advance
      let next ← peek
      if next.kind == .entry || next.kind == .blockEnd then emitEmpty next.mark
      else node fuel true false
      blockEntries fuel
    | .blockEnd =>
      emit .sequenceEnd t.mark
      advance
    | _ => failAt t.mark .noEntry

/-- Reads entries that stand at the indentation of the mapping around them. -/
def indentlessEntries : Nat → Parse Unit
  | 0 => pure ()
  | fuel + 1 => do
    let t ← peek
    if t.kind == .entry then
      advance
      let next ← peek
      if endsEntry next.kind then emitEmpty next.mark else node fuel true false
      indentlessEntries fuel
    else emit .sequenceEnd t.mark

/-- Reads what follows the mark of a key or value in a block mapping. -/
def blockPart : Nat → Parse Unit
  | 0 => pure ()
  | fuel + 1 => do
    advance
    let next ← peek
    if endsPair next.kind then emitEmpty next.mark else node fuel true true

/-- Reads the pairs of a block mapping to its end. -/
def blockPairs : Nat → Parse Unit
  | 0 => pure ()
  | fuel + 1 => do
    let t ← peek
    match t.kind with
    | .key =>
      blockPart fuel
      let next ← peek
      if next.kind == .value then blockPart fuel else emitEmpty next.mark
      blockPairs fuel
    | .blockEnd =>
      emit .mappingEnd t.mark
      advance
    | _ => failAt t.mark .noKey

/-- Reads a value in a flow collection, if its mark comes next. -/
def flowValue : Nat → TokenKind → Parse Unit
  | 0, _ => pure ()
  | fuel + 1, closing => do
    let t ← peek
    if t.kind == .value then
      advance
      let next ← peek
      if next.kind == .flowEntry || next.kind == closing then emitEmpty next.mark
      else node fuel false false
    else emitEmpty t.mark

/-- Reads the items of a flow list to its end. -/
def flowItems : Nat → Bool → Parse Unit
  | 0, _ => pure ()
  | fuel + 1, isFirst => do
    let t ← peek
    if t.kind != .flowSequenceEnd && !isFirst then
      if t.kind == .flowEntry then advance else failAt t.mark .sequenceEnd
    let t ← peek
    match t.kind with
    | .flowSequenceEnd =>
      emit .sequenceEnd t.mark
      advance
    | .key =>
      emit .mapping t.mark
      advance
      let next ← peek
      if endsFlowKey .flowSequenceEnd next.kind then
        advance
        emitEmpty next.mark
      else node fuel false false
      flowValue fuel .flowSequenceEnd
      emit .mappingEnd t.mark
      flowItems fuel false
    | _ =>
      node fuel false false
      flowItems fuel false

/-- Reads the pairs of a flow mapping to its end. -/
def flowPairs : Nat → Bool → Parse Unit
  | 0, _ => pure ()
  | fuel + 1, isFirst => do
    let t ← peek
    if t.kind != .flowMappingEnd && !isFirst then
      if t.kind == .flowEntry then advance else failAt t.mark .mappingEnd
    let t ← peek
    match t.kind with
    | .flowMappingEnd =>
      emit .mappingEnd t.mark
      advance
    | .key =>
      advance
      let next ← peek
      if endsFlowKey .flowMappingEnd next.kind then emitEmpty next.mark
      else node fuel false false
      flowValue fuel .flowMappingEnd
      flowPairs fuel false
    | _ =>
      node fuel false false
      let next ← peek
      emitEmpty next.mark
      flowPairs fuel false

end

def defaultHandles : List (String × String) := [("!", "!"), ("!!", "tag:yaml.org,2002:")]

/-- Reads the directives before a document. -/
def directives : Nat → Bool → Parse Unit
  | 0, _ => pure ()
  | fuel + 1, hasVersion => do
    let t ← peek
    match t.kind with
    | .version major minor =>
      if hasVersion then failAt t.mark .repeatedVersion
      else if major != 1 || (minor != 1 && minor != 2) then failAt t.mark .foreignVersion
      else
        advance
        directives fuel true
    | .tagDirective handle start =>
      let s ← get
      if (s.handles.lookup handle).isSome then failAt t.mark .repeatedHandle
      else
        set { s with handles := (handle, start) :: s.handles }
        advance
        directives fuel hasVersion
    | _ => modify fun s => { s with handles := s.handles ++ defaultHandles }

def isDirective (k : TokenKind) : Bool :=
  match k with
  | .version _ _ => true
  | .tagDirective _ _ => true
  | _ => false

/-- Whether a document, once begun, holds nothing before this token. -/
def endsDocument (k : TokenKind) : Bool :=
  isDirective k || k == .documentStart || k == .documentEnd || k == .streamEnd

/-- Reads the first document, up to the mark that may end it. -/
def document (fuel : Nat) : Parse Unit := do
  let t ← peek
  if t.kind == .streamEnd then pure ()
  else
    directives fuel false
    if !isDirective t.kind && t.kind != .documentStart then node fuel true false
    else
      let next ← peek
      if next.kind != .documentStart then failAt next.mark .documentStart
      advance
      let content ← peek
      if endsDocument content.kind then emitEmpty content.mark else node fuel true false
    let last ← peek
    if last.kind == .documentEnd then advance

end Parse

/-- The first document of a text. -/
structure Document where
  events : List Event
  /-- The error that cuts it off, if there is one. -/
  error : Option Error
  /-- Whether something follows it. -/
  isFollowed : Bool

/-- Reads the first document of a text. -/
def Document.ofText (text : String) : Document :=
  let (tokens, failure) := tokens text
  let failure := failure.getD ⟨.noContent, none⟩
  let (result, source) :=
    (Parse.document (4 * tokens.length + 8)).run ⟨tokens, failure, [], [], []⟩
  let rest := source.tokens.dropWhile fun t => t.kind == .documentEnd
  let isFollowed :=
    match rest with
    | t :: _ => t.kind != .streamEnd
    | [] => true
  match result with
  | .ok _ => ⟨source.events.reverse, none, isFollowed⟩
  | .error e => ⟨source.events.reverse, some e, isFollowed⟩

end GrammarProfile.Yaml
