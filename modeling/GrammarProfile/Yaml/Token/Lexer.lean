import GrammarProfile.Yaml.Token.Name

/-!
Cutting a YAML text into tokens. A key is known for one only at its colon, so that the token for
it, and for the mapping that it may begin, is put in later, before what was read as a key.
-/
namespace GrammarProfile.Yaml

/-- A token that is a key if a colon follows it. -/
structure PendingKey where
  /-- Whether only a key may stand here. -/
  required : Bool
  /-- The number of tokens before it. -/
  position : Nat
  mark : Mark
  deriving DecidableEq, Repr, Inhabited

/-- A text that is being cut into tokens. -/
structure Lexer where
  cursor : Cursor
  /-- The tokens so far, the last one first. -/
  tokens : List Token
  /-- Their number. -/
  count : Nat
  /-- The columns of the block collections that are open, innermost first. -/
  indents : List Nat
  keyAllowed : Bool
  /-- The key that may be pending inside the innermost flow collection. -/
  pending : Option PendingKey
  /-- Those that may be pending around each open flow collection, innermost first. -/
  outer : List (Option PendingKey)
  deriving Repr

namespace Lexer

def start (text : List Char) : Lexer := ⟨.start text, [], 0, [], true, none, []⟩

def inFlow (lx : Lexer) : Bool := !lx.outer.isEmpty

def fail {α : Type} (lx : Lexer) (p : Problem) : Except Error α := lx.cursor.fail p

/-- Adds a token that begins at a place. -/
def emitAt (lx : Lexer) (kind : TokenKind) (mark : Mark) : Lexer :=
  { lx with tokens := ⟨kind, mark⟩ :: lx.tokens, count := lx.count + 1 }

/-- Adds a token that begins here. -/
def emit (lx : Lexer) (kind : TokenKind) : Lexer := lx.emitAt kind lx.cursor.mark

/-- Adds a token that begins here and is `n` characters long. -/
def emitSkip (lx : Lexer) (kind : TokenKind) (n : Nat) : Lexer :=
  { lx.emit kind with cursor := lx.cursor.skip n }

/-- Puts a token in after the first `position` ones. -/
def insert (lx : Lexer) (position : Nat) (token : Token) : Lexer :=
  let later := lx.count - position
  { lx with
    tokens := lx.tokens.take later ++ token :: lx.tokens.drop later
    count := lx.count + 1 }

/-- Whether a key has to have ended, because its line has or because it is too long. -/
def isStale (here : Mark) (k : PendingKey) : Bool :=
  k.mark.line < here.line || k.mark.index + 1024 < here.index

def keepFresh (here : Mark) (k : Option PendingKey) : Option PendingKey :=
  k.filter fun k => !isStale here k

/-- Gives up pending keys that have to have ended; one that is required must not. -/
def dropStale (lx : Lexer) : Except Error Lexer :=
  let here := lx.cursor.mark
  let keys := lx.pending :: lx.outer
  if keys.any fun k => k.any fun k => isStale here k && k.required then lx.fail .unfinishedKey
  else
    .ok { lx with pending := keepFresh here lx.pending, outer := lx.outer.map (keepFresh here) }

/-- Gives up the pending key, which must not be required. -/
def dropKey (lx : Lexer) : Except Error Lexer :=
  if lx.pending.any (·.required) then lx.fail .unfinishedKey else .ok { lx with pending := none }

/-- Takes what begins here for a possible key, if one is allowed. -/
def saveKey (lx : Lexer) : Except Error Lexer :=
  if lx.keyAllowed then
    match lx.dropKey with
    | .error e => .error e
    | .ok lx =>
      let here := lx.cursor.mark
      let required := !lx.inFlow && lx.indents.head? == some here.column
      .ok { lx with pending := some ⟨required, lx.count, here⟩ }
  else .ok lx

/-- Ends the block collections that lie right of the column `column`. -/
def unroll (column : Nat) : List Nat → Lexer → Lexer
  | [], lx => { lx with indents := [] }
  | n :: outer, lx =>
    if column < n then unroll column outer (lx.emit .blockEnd) else { lx with indents := n :: outer }

/-- Ends all block collections, unless a flow collection is open. -/
def unrollAll (lx : Lexer) : Lexer :=
  if lx.inFlow then lx
  else lx.indents.foldl (fun lx _ => lx.emit .blockEnd) { lx with indents := [] }

/-- Whether a block collection would begin in a column. -/
def isDeeper (lx : Lexer) (column : Nat) : Bool := !lx.inFlow && lx.indents.head?.all (· < column)

/-- Begins a block collection here, unless one is open in this column. -/
def roll (lx : Lexer) (kind : TokenKind) : Lexer :=
  let column := lx.cursor.mark.column
  if lx.isDeeper column then { lx.emit kind with indents := column :: lx.indents } else lx

/-- Moves over blanks, comments and line breaks. A tab does not count as a blank where a key may
begin. -/
def skipGaps : Nat → Lexer → Lexer
  | 0, lx => lx
  | fuel + 1, lx =>
    let c := lx.cursor
    let c := if c.mark.column == 0 && c.next? == some '\ufeff' then c.skip 1 else c
    let tabs := lx.inFlow || !lx.keyAllowed
    let c := c.skipWhile fun ch => ch == ' ' || (tabs && ch == '\t')
    let c := if c.next? == some '#' then c.skipWhile (!isBreak ·) else c
    match c.lineBreak? with
    | some (_, after) =>
      skipGaps fuel { lx with cursor := after, keyAllowed := lx.keyAllowed || !lx.inFlow }
    | none => { lx with cursor := c }

/-- A token that no key may be before: it ends the pending key. -/
def plainToken (lx : Lexer) (kind : TokenKind) (keyAllowed : Bool) (n : Nat) :
    Except Error Lexer :=
  match lx.dropKey with
  | .ok lx => .ok { lx.emitSkip kind n with keyAllowed := keyAllowed }
  | .error e => .error e

def streamEnd (lx : Lexer) : Except Error Lexer :=
  let m := lx.cursor.mark
  let m : Mark := if m.column == 0 then m else ⟨m.index, m.line + 1, 0⟩
  (unrollAll { lx with cursor := ⟨lx.cursor.rest, m⟩ }).plainToken .streamEnd false 0

def directive (lx : Lexer) : Except Error Lexer :=
  match lx.unrollAll.dropKey with
  | .error e => .error e
  | .ok lx =>
    match Directive.scan lx.cursor with
    | .error e => .error e
    | .ok (kind, after) => .ok { lx.emit kind with cursor := after, keyAllowed := false }

def documentMarker (lx : Lexer) (kind : TokenKind) : Except Error Lexer :=
  lx.unrollAll.plainToken kind false 3

def openFlow (lx : Lexer) (kind : TokenKind) : Except Error Lexer :=
  match lx.saveKey with
  | .error e => .error e
  | .ok lx =>
    .ok { lx.emitSkip kind 1 with
      keyAllowed := true
      pending := none
      outer := lx.pending :: lx.outer }

def closeFlow (lx : Lexer) (kind : TokenKind) : Except Error Lexer :=
  match lx.plainToken kind false 1 with
  | .error e => .error e
  | .ok lx =>
    match lx.outer with
    | [] => .ok lx
    | pending :: outer => .ok { lx with pending := pending, outer := outer }

/-- The dash of an entry; in a flow collection it is left to who reads the tokens. -/
def blockEntry (lx : Lexer) : Except Error Lexer :=
  if !lx.inFlow && !lx.keyAllowed then lx.fail .entryNotAllowed
  else (lx.roll .blockSequence).plainToken .entry true 1

/-- The mark of a key that stands on its own. -/
def explicitKey (lx : Lexer) : Except Error Lexer :=
  if !lx.inFlow && !lx.keyAllowed then lx.fail .keyNotAllowed
  else (lx.roll .blockMapping).plainToken .key (!lx.inFlow) 1

/-- A colon: what was pending is a key. -/
def colon (lx : Lexer) : Except Error Lexer :=
  match lx.pending with
  | some k =>
    let lx := lx.insert k.position ⟨.key, k.mark⟩
    let lx :=
      if lx.isDeeper k.mark.column then
        { lx.insert k.position ⟨.blockMapping, k.mark⟩ with
          indents := k.mark.column :: lx.indents }
      else lx
    .ok { lx.emitSkip .value 1 with pending := none, keyAllowed := false }
  | none =>
    if !lx.inFlow && !lx.keyAllowed then lx.fail .valueNotAllowed
    else .ok { (lx.roll .blockMapping).emitSkip .value 1 with keyAllowed := !lx.inFlow }

/-- A token that may begin a key, read by `scan`. -/
def keyToken (lx : Lexer) (scan : Cursor → Except Error (TokenKind × Cursor)) :
    Except Error Lexer :=
  match lx.saveKey with
  | .error e => .error e
  | .ok lx =>
    match scan lx.cursor with
    | .error e => .error e
    | .ok (kind, after) => .ok { lx.emit kind with cursor := after, keyAllowed := false }

def anchorToken (lx : Lexer) (kind : String → TokenKind) : Except Error Lexer :=
  lx.keyToken fun c =>
    match scanAnchor c with
    | .ok (name, after) => .ok (kind name, after)
    | .error e => .error e

def quotedScalar (lx : Lexer) (single : Bool) : Except Error Lexer :=
  lx.keyToken fun c =>
    match Quoted.scan single c with
    | .ok (text, after) => .ok (.scalar (String.ofList text) false, after)
    | .error e => .error e

/-- The smallest column in which the further lines of a scalar may begin. -/
def leastColumn (lx : Lexer) : Nat :=
  match lx.indents with
  | [] => 0
  | n :: _ => n + 1

def blockScalar (lx : Lexer) (isLiteral : Bool) : Except Error Lexer :=
  match lx.dropKey with
  | .error e => .error e
  | .ok lx =>
    match Block.scan isLiteral lx.leastColumn lx.cursor with
    | .error e => .error e
    | .ok (text, after) =>
      .ok { lx.emit (.scalar (String.ofList text) false) with cursor := after, keyAllowed := true }

def plainScalar (lx : Lexer) : Except Error Lexer :=
  match lx.saveKey with
  | .error e => .error e
  | .ok lx =>
    match Plain.scan lx.inFlow lx.leastColumn lx.cursor with
    | .error e => .error e
    | .ok r =>
      .ok { lx.emit (.scalar (String.ofList r.text) true) with
        cursor := r.after
        keyAllowed := r.lineEnded }

/-- Characters that cannot begin a plain scalar. -/
def indicators : List Char := "-?:,[]\x7b\x7d#&*!|>'\"%@`".toList

/-- Whether a plain scalar begins here. -/
def beginsPlain (lx : Lexer) (ch : Char) : Bool :=
  let c := lx.cursor
  if ch == '-' then !((c.rest.drop 1).head?.any isSpacing)
  else if ch == '?' || ch == ':' then !lx.inFlow && !c.gapAfter 1
  else !isGap ch && !indicators.contains ch

/-- Reads the token that begins here. -/
def token (lx : Lexer) : Except Error Lexer :=
  let c := lx.cursor
  match c.next? with
  | none => lx.streamEnd
  | some ch =>
    if ch == '%' && c.mark.column == 0 then lx.directive
    else if c.atMarker "---" then lx.documentMarker .documentStart
    else if c.atMarker "..." then lx.documentMarker .documentEnd
    else if ch == '[' then lx.openFlow .flowSequence
    else if ch == '\x7b' then lx.openFlow .flowMapping
    else if ch == ']' then lx.closeFlow .flowSequenceEnd
    else if ch == '\x7d' then lx.closeFlow .flowMappingEnd
    else if ch == ',' then lx.plainToken .flowEntry true 1
    else if ch == '-' && c.gapAfter 1 then lx.blockEntry
    else if ch == '?' && (lx.inFlow || c.gapAfter 1) then lx.explicitKey
    else if ch == ':' && (lx.inFlow || c.gapAfter 1) then lx.colon
    else if ch == '*' then lx.anchorToken .alias
    else if ch == '&' then lx.anchorToken .anchor
    else if ch == '!' then lx.keyToken (Tag.scan lx.inFlow)
    else if ch == '|' && !lx.inFlow then lx.blockScalar true
    else if ch == '>' && !lx.inFlow then lx.blockScalar false
    else if ch == '\'' then lx.quotedScalar true
    else if ch == '"' then lx.quotedScalar false
    else if lx.beginsPlain ch then lx.plainScalar
    else lx.fail .noToken

/-- Reads one more token, with the ends of block collections that come before it. -/
def advance (lx : Lexer) : Except Error Lexer :=
  match (skipGaps (lx.cursor.rest.length + 1) lx).dropStale with
  | .error e => .error e
  | .ok lx =>
    let lx := if lx.inFlow then lx else unroll lx.cursor.mark.column lx.indents lx
    match lx.token with
    | .error e => .error e
    | .ok lx => lx.dropStale

/-- The tokens before all that may still be put in. -/
def settled (lx : Lexer) : List Token :=
  let position := (lx.pending :: lx.outer).foldl
    (fun n k =>
      match k with
      | some k => min n k.position
      | none => n)
    lx.count
  (lx.tokens.drop (lx.count - position)).reverse

/-- The tokens up to the end of the text, or up to an error. -/
def run : Nat → Lexer → List Token × Option Error
  | 0, lx => (lx.settled, none)
  | fuel + 1, lx =>
    match lx.advance with
    | .error e => (lx.settled, some e)
    | .ok after =>
      match after.tokens with
      | ⟨.streamEnd, _⟩ :: _ => (after.tokens.reverse, none)
      | _ => run fuel after

end Lexer

/-- A character that a YAML text may hold. -/
def isAllowed (c : Char) : Bool :=
  let n := c.toNat
  n == 9 || n == 0xA || n == 0xD || (0x20 ≤ n && n ≤ 0x7E) || n == 0x85 ||
    (0xA0 ≤ n && n ≤ 0xFFFD) || 0x10000 ≤ n

/-- The tokens of a text, and the error after which no more could be read, if there is one. A
mark at the beginning that tells the encoding is not part of the text. -/
def tokens (text : String) : List Token × Option Error :=
  let cs :=
    match text.toList with
    | '\ufeff' :: rest => rest
    | cs => cs
  if !cs.all isAllowed then ([], some ⟨.controlCharacter, some ⟨0, 0, 0⟩⟩)
  else Lexer.run (cs.length + 1) (.start cs)

end GrammarProfile.Yaml
