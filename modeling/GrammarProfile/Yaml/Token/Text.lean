import GrammarProfile.Yaml.Cursor

/-!
Reading the text of plain, quoted and block scalars, with its lines folded.
-/
namespace GrammarProfile.Yaml

/-- Blanks and line breaks between two parts of a scalar. -/
structure Gap where
  /-- Whether a line has ended, so that blanks do not count. -/
  ended : Bool
  blanks : List Char
  breaks : List Char
  deriving DecidableEq, Repr, Inhabited

namespace Gap

def start : Gap := ⟨false, [], []⟩

/-- What a gap adds to the text: a single line feed becomes a space, and the first of several
disappears. -/
def text (g : Gap) : List Char :=
  if !g.ended then g.blanks
  else
    match g.breaks with
    | ['\n'] => [' ']
    | '\n' :: more => more
    | breaks => breaks

/-- Moves over a gap. After a line break no tab may stand left of the column `tabLimit`. -/
def scan (tabLimit : Nat) : Nat → Gap → Cursor → Except Error (Gap × Cursor)
  | 0, g, c => .ok (g, c)
  | fuel + 1, g, c =>
    match c.lineBreak? with
    | some (b, after) => scan tabLimit fuel ⟨true, [], g.breaks ++ [b]⟩ after
    | none =>
      match c.next? with
      | some ch =>
        if !isSpacing ch then .ok (g, c)
        else if !g.ended then scan tabLimit fuel { g with blanks := g.blanks ++ [ch] } (c.skip 1)
        else if ch == '\t' && c.mark.column < tabLimit then c.fail .plainTab
        else scan tabLimit fuel g (c.skip 1)
      | none => .ok (g, c)

end Gap

/-- The number that hexadecimal digits write. -/
def hexValue? (cs : List Char) : Option Nat :=
  cs.foldl
    (fun acc c =>
      match acc with
      | none => none
      | some n =>
        if c.isDigit then some (n * 16 + (c.toNat - 48))
        else if 'a' ≤ c && c ≤ 'f' then some (n * 16 + (c.toNat - 87))
        else if 'A' ≤ c && c ≤ 'F' then some (n * 16 + (c.toNat - 55))
        else none)
    (some 0)

/-- What an escape stands for: a character, or a number of hexadecimal digits that give one. -/
def escapeMeaning? (c : Char) : Option (Char ⊕ Nat) :=
  match c with
  | '0' => some (.inl '\x00')
  | 'a' => some (.inl '\x07')
  | 'b' => some (.inl '\x08')
  | 't' => some (.inl '\t')
  | '\t' => some (.inl '\t')
  | 'n' => some (.inl '\n')
  | 'v' => some (.inl '\x0b')
  | 'f' => some (.inl '\x0c')
  | 'r' => some (.inl '\r')
  | 'e' => some (.inl '\x1b')
  | ' ' => some (.inl ' ')
  | '"' => some (.inl '"')
  | '/' => some (.inl '/')
  | '\\' => some (.inl '\\')
  | 'N' => some (.inl '\x85')
  | '_' => some (.inl '\xa0')
  | 'L' => some (.inl '\u2028')
  | 'P' => some (.inl '\u2029')
  | 'x' => some (.inr 2)
  | 'u' => some (.inr 4)
  | 'U' => some (.inr 8)
  | _ => none

/-- Reads an escape from its backslash on. -/
def scanEscape (c : Cursor) : Except Error (Char × Cursor) :=
  match (c.rest.drop 1).head?.bind escapeMeaning? with
  | none => c.fail .unknownEscape
  | some (.inl ch) => .ok (ch, c.skip 2)
  | some (.inr width) =>
    let digits := c.skip 2
    let written := digits.rest.take width
    match (if written.length < width then none else hexValue? written) with
    | none => digits.fail .escapeDigits
    | some n =>
      if (0xD800 ≤ n && n ≤ 0xDFFF) || 0x10FFFF < n then digits.fail .escapeCode
      else .ok (Char.ofNat n, digits.skip width)

namespace Quoted

/-- Reads up to a gap, the closing quote or the end; `done` is in reverse. The flag tells whether
an escaped line break was met. -/
def scanRun (single : Bool) : Nat → List Char → Cursor → Except Error (List Char × Bool × Cursor)
  | 0, done, c => .ok (done, false, c)
  | fuel + 1, done, c =>
    match c.rest with
    | [] => .ok (done, false, c)
    | ch :: rest =>
      if isGap ch then .ok (done, false, c)
      else if single then
        if ch != '\'' then scanRun single fuel (ch :: done) (c.skip 1)
        else if rest.head? == some '\'' then scanRun single fuel ('\'' :: done) (c.skip 2)
        else .ok (done, false, c)
      else if ch == '"' then .ok (done, false, c)
      else if ch == '\\' then
        match (c.skip 1).lineBreak? with
        | some (_, after) => .ok (done, true, after)
        | none =>
          match scanEscape c with
          | .ok (e, after) => scanRun single fuel (e :: done) after
          | .error e => .error e
      else scanRun single fuel (ch :: done) (c.skip 1)

/-- Reads the rest of a scalar from inside its quotes to after the closing one. -/
def scanBody (single : Bool) : Nat → List Char → Cursor → Except Error (List Char × Cursor)
  | 0, done, c => .ok (done.reverse, c)
  | fuel + 1, done, c =>
    if c.atDocumentMarker then c.fail .markInQuotes
    else if c.atEnd then c.fail .openQuote
    else
      match scanRun single (fuel + 1) done c with
      | .error e => .error e
      | .ok (done, escapedBreak, c) =>
        if c.next? == some (if single then '\'' else '"') then .ok (done.reverse, c.skip 1)
        else
          match Gap.scan 0 (fuel + 1) ⟨escapedBreak, [], []⟩ c with
          | .error e => .error e
          | .ok (gap, c) =>
            let text := if escapedBreak then gap.breaks else gap.text
            scanBody single fuel (text.reverse ++ done) c

/-- Reads a quoted scalar from its opening quote on. -/
def scan (single : Bool) (c : Cursor) : Except Error (List Char × Cursor) :=
  scanBody single (c.rest.length + 1) [] (c.skip 1)

end Quoted

namespace Plain

/-- Whether a plain scalar ends before these characters. -/
def endsBefore (inFlow : Bool) : List Char → Bool
  | [] => true
  | c :: rest =>
    isGap c || (c == ':' && rest.head?.all isGap) ||
      (inFlow && ",[]\x7b\x7d".toList.contains c)

/-- Whether a colon stands before an indicator that cannot follow it in a flow collection. -/
def hasWrongColon (inFlow : Bool) (cs : List Char) : Bool :=
  match cs with
  | ':' :: d :: _ => inFlow && ",?[]\x7b\x7d".toList.contains d
  | _ => false

/-- Reads up to a gap or the end of the scalar; `done` is in reverse. -/
def scanRun (inFlow : Bool) : Nat → List Char → Cursor → Except Error (List Char × Cursor)
  | 0, done, c => .ok (done, c)
  | fuel + 1, done, c =>
    if hasWrongColon inFlow c.rest then c.fail .colonInFlow
    else if endsBefore inFlow c.rest then .ok (done, c)
    else scanRun inFlow fuel (c.rest.take 1 ++ done) (c.skip 1)

/-- A plain scalar that was read. -/
structure Result where
  text : List Char
  /-- Whether a line ended after it. -/
  lineEnded : Bool
  after : Cursor

/-- Reads the rest of a plain scalar, of which `done` is read, in reverse, and then `gap`. In
block context it ends where a line begins left of the column `indent`. -/
def scanBody (inFlow : Bool) (indent : Nat) : Nat → List Char → Gap → Cursor → Except Error Result
  | 0, done, gap, c => .ok ⟨done.reverse, gap.ended, c⟩
  | fuel + 1, done, gap, c =>
    let finished : Except Error Result := .ok ⟨done.reverse, gap.ended, c⟩
    if c.atDocumentMarker || c.next? == some '#' then finished
    else
      match scanRun inFlow (fuel + 1) [] c with
      | .error e => .error e
      | .ok ([], _) => finished
      | .ok (run, c) =>
        let done := run ++ (gap.text.reverse ++ done)
        if !c.sees (fun ch => isSpacing ch || isBreak ch) then .ok ⟨done.reverse, false, c⟩
        else
          match Gap.scan indent (fuel + 1) Gap.start c with
          | .error e => .error e
          | .ok (gap, c) =>
            if !inFlow && c.mark.column < indent then .ok ⟨done.reverse, gap.ended, c⟩
            else scanBody inFlow indent fuel done gap c

def scan (inFlow : Bool) (indent : Nat) (c : Cursor) : Except Error Result :=
  scanBody inFlow indent (c.rest.length + 1) [] Gap.start c

end Plain

namespace Block

/-- What the line breaks at the end of a block scalar do. -/
inductive Chomping where
  | strip
  | clip
  | keep
  deriving DecidableEq, Repr

def chomping? (c : Cursor) : Option Chomping :=
  match c.next? with
  | some '+' => some .keep
  | some '-' => some .strip
  | _ => none

/-- The indentation that a header gives, if any, and the place after it. -/
def scanIncrement (c : Cursor) : Except Error (Option Nat × Cursor) :=
  match c.next? with
  | some d =>
    if d == '0' then c.fail .zeroIndentation
    else if d.isDigit then .ok (some (d.toNat - 48), c.skip 1)
    else .ok (none, c)
  | none => .ok (none, c)

/-- Reads a header after its indicator: chomping and indentation in either order. -/
def scanHeader (c : Cursor) : Except Error (Chomping × Option Nat × Cursor) :=
  match chomping? c with
  | some chomping =>
    match scanIncrement (c.skip 1) with
    | .ok (increment, c) => .ok (chomping, increment, c)
    | .error e => .error e
  | none =>
    match scanIncrement c with
    | .error e => .error e
    | .ok (none, c) => .ok (.clip, none, c)
    | .ok (some n, c) =>
      match chomping? c with
      | some chomping => .ok (chomping, some n, c.skip 1)
      | none => .ok (.clip, some n, c)

/-- Moves over indentation, to the column `indent` if it is known, and over empty lines; gives
their line breaks and the widest indentation that was met. -/
def scanBreaks (indent : Option Nat) : Nat → List Char → Nat → Cursor →
    Except Error (List Char × Nat × Cursor)
  | 0, breaks, widest, c => .ok (breaks, widest, c)
  | fuel + 1, breaks, widest, c =>
    let blanks := (c.rest.takeWhile (· == ' ')).length
    let c :=
      match indent with
      | none => c.skip blanks
      | some n => c.skip (min blanks (n - c.mark.column))
    let widest := max widest c.mark.column
    if c.next? == some '\t' && indent.all (c.mark.column < ·) then c.fail .blockTab
    else
      match c.lineBreak? with
      | some (b, after) => scanBreaks indent fuel (breaks ++ [b]) widest after
      | none => .ok (breaks, widest, c)

/-- The lines of a block scalar so far. -/
structure Lines where
  /-- What is read, in reverse. -/
  done : List Char
  /-- The line break after it, and those of the empty lines that follow. -/
  lead : List Char
  trailing : List Char
  /-- Whether the last line began with a blank, so that it is not folded. -/
  blankLed : Bool

/-- Reads the lines that begin at the column `indent`. -/
def scanLines (isLiteral : Bool) (indent : Nat) : Nat → Lines → Cursor →
    Except Error (Lines × Cursor)
  | 0, l, c => .ok (l, c)
  | fuel + 1, l, c =>
    if c.mark.column != indent || c.atEnd then .ok (l, c)
    else
      let blankLed := c.sees isSpacing
      let joint :=
        if !isLiteral && l.lead == ['\n'] && !l.blankLed && !blankLed then
          if l.trailing.isEmpty then [' '] else []
        else l.lead
      let (line, c) := c.takeWhile (!isBreak ·)
      let (lead, c) :=
        match c.lineBreak? with
        | some (b, after) => ([b], after)
        | none => ([], c)
      match scanBreaks (some indent) (fuel + 1) [] 0 c with
      | .error e => .error e
      | .ok (trailing, _, c) =>
        let done := line.reverse ++ (l.trailing.reverse ++ (joint.reverse ++ l.done))
        scanLines isLiteral indent fuel ⟨done, lead, trailing, blankLed⟩ c

/-- Reads a block scalar from its indicator on; `least` is the smallest indentation that its
lines may have. -/
def scan (isLiteral : Bool) (least : Nat) (c : Cursor) : Except Error (List Char × Cursor) :=
  let fuel := c.rest.length + 1
  match scanHeader (c.skip 1) with
  | .error e => .error e
  | .ok (chomping, increment, c) =>
    let c := c.skipComment
    if !c.atLineEnd then c.fail .blockHeader
    else
      let c :=
        match c.lineBreak? with
        | some (_, after) => after
        | none => c
      let known := increment.map fun n => least - 1 + n
      match scanBreaks known fuel [] 0 c with
      | .error e => .error e
      | .ok (breaks, widest, c) =>
        let indent := known.getD (max widest (max least 1))
        match scanLines isLiteral indent fuel ⟨[], [], breaks, false⟩ c with
        | .error e => .error e
        | .ok (l, c) =>
          let ending :=
            match chomping with
            | .strip => []
            | .clip => l.lead
            | .keep => l.lead ++ l.trailing
          .ok (l.done.reverse ++ ending, c)

end Block

end GrammarProfile.Yaml
