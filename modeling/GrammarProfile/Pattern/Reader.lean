import GrammarProfile.Pattern.Expr
import GrammarProfile.Text.Lines

/-!
Reading a regular expression. Flags hold from where they are set to the end of the group; every
construct that a matcher without backtracking cannot support is refused.
-/
namespace GrammarProfile.Pattern

/-- Why a text is not a regular expression. -/
inductive Error where
  | missingOperand
  | unclosedGroup
  | unopenedGroup
  | unclosedClass
  | unclosedCount
  | invalidCount
  | invalidRange
  | invalidEscape
  | invalidClassItem
  | invalidFlags
  | invalidGroupName
  | unknownProperty
  | lookAround
  /-- Something that could match in the middle of a character. -/
  | notText
  | tooDeep
  | tooLarge
  deriving DecidableEq, Repr

structure Flags where
  caseless : Bool
  manyLines : Bool
  dotAll : Bool
  anyLineBreak : Bool
  swapGreed : Bool
  unicode : Bool
  verbose : Bool
  deriving DecidableEq

def Flags.start : Flags := ⟨false, false, false, false, false, true, false⟩

/-- Skips blanks and comments; `comment` tells whether a comment is under way. -/
def skipRemarks (comment : Bool) : List Char → List Char
  | [] => []
  | c :: rest =>
    if comment then skipRemarks (c != '\n') rest
    else if Text.isBlank c then skipRemarks false rest
    else if c == '#' then skipRemarks true rest
    else c :: rest

/-- In verbose patterns blanks and comments mean nothing. -/
def settle (f : Flags) (cs : List Char) : List Char :=
  if f.verbose then skipRemarks false cs else cs

/-- A piece that is not composed of others. -/
inductive Atom where
  /-- A character; `byte` if it is written as two hexadecimal digits. -/
  | literal (c : Char) (byte : Bool)
  | look (l : Look)
  | set (s : CharSet)
  | dot

def isMeta (c : Char) : Bool := "\\.+*?()|[]\x7b\x7d^$#&-~".toList.contains c

def isHex (c : Char) : Bool :=
  c.isDigit || ('a' ≤ c && c ≤ 'f') || ('A' ≤ c && c ≤ 'F')

def hexValue (c : Char) : Nat :=
  if c.isDigit then c.toNat - 48 else if 'a' ≤ c then c.toNat - 87 else c.toNat - 55

/-- The character with a number, unless the number is out of range or that of half a pair. -/
def scalar? (n : Nat) : Option Char :=
  if h : n.isValidChar then some (Char.ofNatAux n h) else none

def hexNumber (digits : List Char) : Nat := digits.foldl (fun n c => n * 16 + hexValue c) 0

/-- A fixed number of hexadecimal digits. -/
def readHexDigits (f : Flags) : Nat → List Char → Except Error (List Char × List Char)
  | 0, cs => .ok ([], cs)
  | n + 1, cs =>
    match cs with
    | c :: rest =>
      if isHex c then do
        let (digits, left) ← readHexDigits f n (settle f rest)
        .ok (c :: digits, left)
      else .error .invalidEscape
    | [] => .error .invalidEscape

/-- The characters up to a closing brace, which is skipped. -/
def readBraced (f : Flags) : List Char → Nat → Except Error (List Char × List Char)
  | _, 0 => .error .invalidEscape
  | cs, fuel + 1 =>
    match settle f cs with
    | [] => .error .invalidEscape
    | c :: rest =>
      if c == '\x7d' then .ok ([], rest)
      else do
        let (more, left) ← readBraced f rest fuel
        .ok (c :: more, left)

/-- The character written by a hexadecimal escape of `width` digits, or of any in braces. -/
def readHex (f : Flags) (width : Nat) (cs : List Char) : Except Error (Atom × List Char) :=
  match settle f cs with
  | [] => .error .invalidEscape
  | c :: rest => do
    if c == '\x7b' then
      let (digits, left) ← readBraced f rest (rest.length + 1)
      if digits.isEmpty || !digits.all isHex then .error .invalidEscape
      else
        match scalar? (hexNumber digits) with
        | some c => .ok (.literal c false, settle f left)
        | none => .error .invalidEscape
    else
      let (digits, left) ← readHexDigits f width (c :: rest)
      match scalar? (hexNumber digits) with
      | some c => .ok (.literal c (width == 2), left)
      | none => .error .invalidEscape

/-- The part before the first occurrence of `sep`, and the part after it. -/
def splitAt? (sep : List Char) : List Char → Option (List Char × List Char)
  | [] => none
  | c :: rest =>
    match Text.dropStart? (c :: rest) sep with
    | some after => some ([], after)
    | none => (splitAt? sep rest).map fun (a, b) => (c :: a, b)

/-- The property that the text between braces stands for. -/
def propertyOf? (name : List Char) : Option Property :=
  let pair (p : List Char × List Char) : Option Property :=
    Property.ofNameAndValue? (Property.normalName p.1) (Property.normalName p.2)
  match splitAt? "!=".toList name with
  | some p => pair p
  | none =>
    match splitAt? [':'] name with
    | some p => pair p
    | none =>
      match splitAt? ['='] name with
      | some p => pair p
      | none => Property.ofName? (Property.normalName name)

/-- The set with other cases added where the flags ask for it. -/
def foldCase (f : Flags) (s : CharSet) : CharSet :=
  if f.caseless then if f.unicode then .caseless s else .caselessAscii s else s

/-- The set, or its complement. Without Unicode a complement would hold parts of characters. -/
def complement (f : Flags) (negated : Bool) (s : CharSet) : Except Error CharSet :=
  if negated then if f.unicode then .ok (.not s) else .error .notText else .ok s

/-- The name of a property: a single character, or a text in braces. -/
def readPropertyName (f : Flags) (cs : List Char) : Except Error (List Char × List Char) :=
  match settle f cs with
  | [] => .error .invalidEscape
  | c :: rest =>
    if c == '\x7b' then readBraced f rest (rest.length + 1)
    else if c == '\\' then .error .unknownProperty
    else .ok ([c], settle f rest)

/-- The set that the name of a property stands for. -/
def propertySet (f : Flags) (negated : Bool) (name : List Char) : Except Error CharSet :=
  if f.unicode then
    match propertyOf? name with
    | some p => complement f negated (foldCase f (.having p))
    | none => .error .unknownProperty
  else .error .notText

def readProperty (f : Flags) (negated : Bool) (cs : List Char) :
    Except Error (Atom × List Char) := do
  let (name, left) ← readPropertyName f cs
  .ok (.set (← propertySet f negated name), left)

/-- One of the three classes that have a letter of their own. -/
def letterClass (f : Flags) (letter : Char) : Except Error CharSet :=
  match letter with
  | 'd' => .ok (if f.unicode then .digits else .asciiDigits)
  | 's' => .ok (if f.unicode then .blanks else .asciiBlanks)
  | 'w' => .ok (if f.unicode then .wordChars else .asciiWordChars)
  | 'D' => complement f true (if f.unicode then .digits else .asciiDigits)
  | 'S' => complement f true (if f.unicode then .blanks else .asciiBlanks)
  | _ => complement f true (if f.unicode then .wordChars else .asciiWordChars)

/-- The kind of word boundary that is named in braces after `\b`, if there is a name. -/
def readBoundary (f : Flags) (cs : List Char) : Except Error (Atom × List Char) :=
  let plain := Atom.look (.boundary !f.unicode)
  match cs with
  | [] => .ok (plain, [])
  | brace :: rest =>
    if brace == '\x7b' then
      match settle f rest with
      | [] => .error .invalidEscape
      | c :: _ =>
        if c.isAlpha || c == '-' then do
          let (name, left) ← readBraced f rest (rest.length + 1)
          match String.ofList name with
          | "start" => .ok (.look (.wordStart !f.unicode), left)
          | "end" => .ok (.look (.wordEnd !f.unicode), left)
          | "start-half" => .ok (.look (.wordStartHalf !f.unicode), left)
          | "end-half" => .ok (.look (.wordEndHalf !f.unicode), left)
          | _ => .error .invalidEscape
        else .ok (plain, brace :: rest)
    else .ok (plain, brace :: rest)

/-- What a character that is no part of the syntax stands for after a backslash. -/
def charEscape? (f : Flags) (c : Char) : Option Atom :=
  match c with
  | 'a' => some (.literal '\x07' false)
  | 'f' => some (.literal '\x0c' false)
  | 't' => some (.literal '\t' false)
  | 'n' => some (.literal '\n' false)
  | 'r' => some (.literal '\r' false)
  | 'v' => some (.literal '\x0b' false)
  | 'A' => some (.look .textStart)
  | 'z' => some (.look .textEnd)
  | 'B' => some (.look (.noBoundary !f.unicode))
  | '<' => some (.look (.wordStart !f.unicode))
  | '>' => some (.look (.wordEnd !f.unicode))
  | _ => if c.toNat < 128 && !c.isAlphanum then some (.literal c false) else none

/-- What follows a backslash. -/
def readEscape (f : Flags) (cs : List Char) : Except Error (Atom × List Char) :=
  match cs with
  | [] => .error .invalidEscape
  | c :: rest =>
    if c.isDigit then .error .invalidEscape
    else if c == 'x' then readHex f 2 rest
    else if c == 'u' then readHex f 4 rest
    else if c == 'U' then readHex f 8 rest
    else if c == 'p' || c == 'P' then readProperty f (c == 'P') rest
    else if "dswDSW".toList.contains c then do .ok (.set (← letterClass f c), rest)
    else if isMeta c then .ok (.literal c false, rest)
    else if c == 'b' then readBoundary f rest
    else
      match charEscape? f c with
      | some a => .ok (a, rest)
      | none => .error .invalidEscape

/-- A set together with how deeply its brackets nest. -/
structure Nested (α : Type) where
  value : α
  depth : Nat

inductive SetOp where
  | both
  | butNot
  | oneOf

/-- A character as a member of a set. -/
def literalMember (f : Flags) (c : Char) (byte : Bool) : Except Error Char :=
  if f.unicode || c.toNat < 128 then .ok c else if byte then .error .notText else .error .notText

/-- A piece as an item between brackets. -/
def classItem (f : Flags) (a : Atom) : Except Error (Nested CharSet) :=
  match a with
  | .literal c byte => do .ok ⟨.single (← literalMember f c byte), 0⟩
  | .set s => .ok ⟨s, 0⟩
  | .look _ => .error .invalidClassItem
  | .dot => .error .invalidClassItem

def readClassAtom (f : Flags) (cs : List Char) : Except Error (Atom × List Char) :=
  match cs with
  | [] => .error .unclosedClass
  | c :: rest => if c == '\\' then readEscape f rest else .ok (.literal c false, rest)

/-- The characters from one piece to another. -/
def rangeBetween (f : Flags) (first second : Atom) : Except Error (Nested CharSet) :=
  match first, second with
  | .literal a aByte, .literal b bByte => do
    let low ← literalMember f a aByte
    let high ← literalMember f b bByte
    if high < low then .error .invalidRange else .ok ⟨.range low high, 0⟩
  | _, _ => .error .invalidClassItem

/-- The item that begins with a piece. It is a range if a dash follows that is neither the last
character of the class nor the first of two dashes. -/
def readRangeEnd (f : Flags) (first : Atom) (cs : List Char) :
    Except Error (Nested CharSet × List Char) :=
  match settle f cs with
  | [] => .error .unclosedClass
  | c :: after =>
    if c == '-' then
      match settle f after with
      | [] => .error .unclosedClass
      | next :: more =>
        if next == ']' || next == '-' then do .ok (← classItem f first, c :: after)
        else do
          let (second, left) ← readClassAtom f (next :: more)
          .ok (← rangeBetween f first second, left)
    else do .ok (← classItem f first, c :: after)

/-- A single item between brackets, or a range of characters. -/
def readClassRange (f : Flags) (cs : List Char) :
    Except Error (Nested CharSet × List Char) := do
  let (first, rest) ← readClassAtom f cs
  readRangeEnd f first rest

/-- A text up to a colon with a bracket behind it, and what follows the bracket. -/
def asciiName? (cs : List Char) : Option (List Char × List Char) :=
  match cs.dropWhile (· != ':') with
  | ':' :: ']' :: left => some (cs.takeWhile (· != ':'), left)
  | _ => none

/-- The class whose name ends with a colon and a bracket. -/
def namedClass? (f : Flags) (negated : Bool) (cs : List Char) :
    Option (Except Error (Nested CharSet) × List Char) := do
  let (name, left) ← asciiName? cs
  let s ← CharSet.ofAsciiName? (String.ofList name)
  some ((complement f negated (foldCase f s)).map (⟨·, 0⟩), left)

/-- A named class such as `[:alpha:]`, of which the bracket has been read. -/
def readAsciiClass? (f : Flags) (cs : List Char) :
    Option (Except Error (Nested CharSet) × List Char) :=
  match cs with
  | [] => none
  | c :: rest =>
    if c == ':' then
      match rest with
      | [] => none
      | d :: more => if d == '^' then namedClass? f true more else namedClass? f false rest
    else none

/-- The union of items in the order in which they were read. -/
def unite (items : List (Nested CharSet)) : Nested CharSet :=
  match items with
  | [] => ⟨.nothing, 0⟩
  | [item] => item
  | _ => ⟨CharSet.ofList (items.map (·.value)),
      1 + (items.map (·.depth)).foldl max 0⟩

/-- Applies the operation that waits for its right side. -/
def settleOp (f : Flags) (pending : Option (SetOp × Nested CharSet)) (right : Nested CharSet) :
    Nested CharSet :=
  match pending with
  | none => right
  | some (op, left) =>
    let a := foldCase f left.value
    let b := foldCase f right.value
    ⟨match op with
      | .both => .both a b
      | .butNot => .butNot a b
      | .oneOf => .oneOf a b, 1 + max left.depth right.depth⟩

/-- Whether a caret begins the class, which negates it. -/
def readCaret (f : Flags) (cs : List Char) : Bool × List Char :=
  match cs with
  | [] => (false, [])
  | c :: rest => if c == '^' then (true, settle f rest) else (false, c :: rest)

/-- The dashes at the start of a class, which stand for themselves. -/
def readDashes (f : Flags) : Nat → List (Nested CharSet) → List Char →
    List (Nested CharSet) × List Char
  | 0, items, cs => (items, cs)
  | _ + 1, items, [] => (items, [])
  | n + 1, items, c :: rest =>
    if c == '-' then readDashes f n (⟨.single '-', 0⟩ :: items) (settle f rest)
    else (items, c :: rest)

/-- The literal items at the start of a class: dashes, or a bracket if there are none. -/
def leadingItems (f : Flags) (dashes : List (Nested CharSet)) (cs : List Char) :
    Except Error (List (Nested CharSet) × List Char) :=
  match cs with
  | [] => .error .unclosedClass
  | c :: rest =>
    if dashes.isEmpty && c == ']' then
      match settle f rest with
      | [] => .error .unclosedClass
      | next :: more => .ok ([⟨.single ']', 0⟩], next :: more)
    else .ok (dashes, c :: rest)

/-- What follows an opening bracket and a caret, up to where items are read. -/
def readLeading (f : Flags) (cs : List Char) :
    Except Error (List (Nested CharSet) × List Char) :=
  let dashes := readDashes f cs.length [] cs
  leadingItems f dashes.1 dashes.2

/-- What follows an opening bracket: whether the class is negated, its leading literal items, and
the rest. -/
def readClassStart (f : Flags) (cs : List Char) :
    Except Error ((Bool × List (Nested CharSet)) × List Char) := do
  let caret := readCaret f (settle f cs)
  let (items, left) ← readLeading f caret.2
  .ok ((caret.1, items), left)

/-- The operation on sets that a character stands for if it is written twice. -/
def setOp? (c : Char) : Option SetOp :=
  match c with
  | '&' => some .both
  | '-' => some .butNot
  | '~' => some .oneOf
  | _ => none

/-- An operation on sets, and what follows it. -/
def readSetOp? (cs : List Char) : Option (SetOp × List Char) :=
  match cs with
  | c :: d :: rest => if c == d then (setOp? c).map (·, rest) else none
  | _ => none

/-- The rest of a bracketed class after its start; `items` are in reverse. -/
def readClassBody (f : Flags) : Nat → Bool → Option (SetOp × Nested CharSet) →
    List (Nested CharSet) → List Char → Except Error (Nested CharSet × List Char)
  | 0, _, _, _, _ => .error .unclosedClass
  | fuel + 1, negated, pending, items, cs =>
    match settle f cs with
    | [] => .error .unclosedClass
    | c :: rest =>
      match c with
      | ']' => do
        let all := settleOp f pending (unite items.reverse)
        let s ← complement f negated (foldCase f all.value)
        .ok (⟨s, 1 + all.depth⟩, rest)
      | '[' =>
        match readAsciiClass? f rest with
        | some (item, left) => do readClassBody f fuel negated pending ((← item) :: items) left
        | none => do
          let ((innerNegated, innerItems), inner) ← readClassStart f rest
          let (item, left) ← readClassBody f fuel innerNegated none innerItems inner
          readClassBody f fuel negated pending (item :: items) left
      | _ =>
        match readSetOp? (c :: rest) with
        | some (op, left) =>
          readClassBody f fuel negated (some (op, settleOp f pending (unite items.reverse))) [] left
        | none => do
          let (item, left) ← readClassRange f (c :: rest)
          readClassBody f fuel negated pending (item :: items) left

/-- A bracketed class, of which the bracket has been read. -/
def readClass (f : Flags) (cs : List Char) : Except Error (Nested CharSet × List Char) := do
  let ((negated, items), rest) ← readClassStart f cs
  readClassBody f (cs.length + 1) negated none items rest

/-- The decimal digits that come next. -/
def readDigits (f : Flags) : Nat → List Char → List Char × List Char
  | 0, cs => ([], cs)
  | _ + 1, [] => ([], [])
  | n + 1, c :: rest =>
    if c.isDigit then
      let (more, left) := readDigits f n (settle f rest)
      (c :: more, left)
    else ([], c :: rest)

/-- The number that digits write, if there are any. -/
def countOf (digits : List Char) : Except Error (Option Nat) :=
  if digits.isEmpty then .ok none
  else
    let n := digits.foldl (fun n c => n * 10 + (c.toNat - 48)) 0
    if 4294967295 < n then .error .invalidCount else .ok (some n)

/-- A decimal number with blanks around it. -/
def readCount (f : Flags) (cs : List Char) : Except Error (Option Nat × List Char) := do
  let cs := cs.dropWhile Text.isBlank
  let digits := readDigits f cs.length cs
  .ok (← countOf digits.1, settle f (digits.2.dropWhile Text.isBlank))

/-- The bounds that end here with a closing brace, if both are numbers. -/
def boundsOf (low high : Option Nat) (cs : List Char) :
    Except Error ((Nat × Option Nat) × List Char) :=
  match low, high with
  | some n, some m =>
    match cs with
    | [] => .error .unclosedCount
    | c :: left =>
      if c == '\x7d' then if m < n then .error .invalidCount else .ok ((n, some m), left)
      else .error .unclosedCount
  | _, _ => .error .invalidCount

/-- The upper bound, and the brace after it. -/
def readHigh (f : Flags) (low : Option Nat) (cs : List Char) :
    Except Error ((Nat × Option Nat) × List Char) := do
  let (high, left) ← readCount f cs
  boundsOf low high left

/-- What follows the comma between bounds: the upper bound, unless the brace closes at once. -/
def readUpper (f : Flags) (low : Option Nat) (cs : List Char) :
    Except Error ((Nat × Option Nat) × List Char) :=
  match cs with
  | [] => readHigh f low []
  | c :: rest =>
    if c == '\x7d' then
      match low with
      | some n => .ok ((n, none), rest)
      | none => .error .invalidCount
    else readHigh f low (c :: rest)

/-- What follows the lower bound. -/
def readBoundsEnd (f : Flags) (low : Option Nat) (cs : List Char) :
    Except Error ((Nat × Option Nat) × List Char) :=
  match cs with
  | [] => .error .unclosedCount
  | c :: rest =>
    match c with
    | ',' => readUpper f low (settle f rest)
    | '\x7d' =>
      match low with
      | some n => .ok ((n, some n), rest)
      | none => .error .invalidCount
    | _ => .error .unclosedCount

/-- The bounds in braces, of which the opening brace has been read. -/
def readBounds (f : Flags) (cs : List Char) :
    Except Error ((Nat × Option Nat) × List Char) := do
  let (low, rest) ← readCount f (settle f cs)
  readBoundsEnd f low rest

/-- The flags with the one that a letter names set or cleared. -/
def Flags.set? (f : Flags) (on : Bool) (c : Char) : Option Flags :=
  match c with
  | 'i' => some { f with caseless := on }
  | 'm' => some { f with manyLines := on }
  | 's' => some { f with dotAll := on }
  | 'U' => some { f with swapGreed := on }
  | 'u' => some { f with unicode := on }
  | 'R' => some { f with anyLineBreak := on }
  | 'x' => some { f with verbose := on }
  | _ => none

/-- Sets the flags that letters name; after a dash they are cleared. -/
def readFlags (seen : List Char) (on : Bool) (f : Flags) :
    List Char → Except Error (Flags × List Char)
  | [] => .error .invalidFlags
  | c :: rest =>
    if c == ')' || c == ':' then
      if seen.head? == some '-' then .error .invalidFlags else .ok (f, c :: rest)
    else if seen.contains c then .error .invalidFlags
    else if c == '-' then readFlags (c :: seen) false f rest
    else
      match f.set? on c with
      | some f => readFlags (c :: seen) on f rest
      | none => .error .invalidFlags

def isNameStart (c : Char) : Bool := c == '_' || Text.hasProperty Text.alphabeticRuns c

def isNameChar (c : Char) : Bool :=
  isNameStart c || c == '.' || c == '[' || c == ']' ||
    ["Nd", "Nl", "No"].contains (Text.category c)

def isGroupName (name : List Char) : Bool :=
  match name with
  | [] => false
  | c :: more => isNameStart c && more.all isNameChar

/-- A group name up to its closing angle. -/
def readGroupName (cs : List Char) : Except Error (String × List Char) :=
  let name := cs.takeWhile (· != '>')
  match cs.dropWhile (· != '>') with
  | [] => .error .invalidGroupName
  | _ :: left => if isGroupName name then .ok (String.ofList name, left) else .error .invalidGroupName

/-- A part of a pattern with the depth of its nesting; `operand` if it can be repeated. -/
structure Part where
  expr : Expr
  depth : Nat
  operand : Bool

def deepest (parts : List Part) : Nat := (parts.map (·.depth)).foldl max 0

/-- Parts in reverse, one after the other. -/
def sequence (parts : List Part) : Part :=
  match parts with
  | [] => ⟨.empty, 0, false⟩
  | [p] => p
  | p :: rest =>
    ⟨rest.foldl (fun e q => .concat q.expr e) p.expr, 1 + deepest parts, true⟩

/-- Parts in reverse, one of which is taken. -/
def alternation (parts : List Part) : Part :=
  match parts with
  | [] => ⟨.empty, 0, false⟩
  | [p] => p
  | p :: rest =>
    ⟨rest.foldl (fun e q => .either q.expr e) p.expr, 1 + deepest parts, true⟩

def lookOfAnchor (f : Flags) (start : Bool) : Look :=
  match f.manyLines, f.anyLineBreak, start with
  | false, _, true => .textStart
  | false, _, false => .textEnd
  | true, false, true => .lineStart
  | true, false, false => .lineEnd
  | true, true, true => .anyLineStart
  | true, true, false => .anyLineEnd

/-- A piece outside brackets. -/
def atomExpr (f : Flags) (a : Atom) : Except Error Expr :=
  match a with
  | .literal c byte =>
    if byte && !f.unicode && 128 ≤ c.toNat then .error .notText
    else .ok (.one (if c.toNat < 128 && !c.isAlpha then .single c else foldCase f (.single c)))
  | .look l => .ok (.look l)
  | .set s => .ok (.one s)
  | .dot =>
    if !f.unicode then .error .notText
    else if f.dotAll then .ok (.one (.having .any))
    else if f.anyLineBreak then .ok (.one (.not (.either (.single '\n') (.single '\r'))))
    else .ok (.one (.not (.single '\n')))

/-- What the reader carries along: the flags in force and the group names used so far. -/
structure Context where
  flags : Flags
  names : List String

/-- What opens a group: flags for the rest of the group around it, or a group of its own. -/
inductive Opening where
  | flags (f : Flags)
  | group (c : Context)

def isLookMark (c : Char) : Bool := c == '=' || c == '!'

/-- Whether a group looks ahead or behind, which is not supported. -/
def marksLook (cs : List Char) : Bool :=
  match cs with
  | [] => false
  | c :: rest => isLookMark c || c == '<' && rest.head?.any isLookMark

/-- What follows the mark of a group with a name. -/
def nameAfter? (cs : List Char) : Option (List Char) :=
  match cs with
  | [] => none
  | c :: rest =>
    if c == '<' then some rest
    else if c == 'P' then
      match rest with
      | [] => none
      | d :: more => if d == '<' then some more else none
    else none

/-- A group with a name that no group has had before. -/
def readNamed (c : Context) (cs : List Char) : Except Error (Opening × List Char) := do
  let (name, left) ← readGroupName cs
  if c.names.contains name then .error .invalidGroupName
  else .ok (.group { c with names := name :: c.names }, left)

/-- What flags open: a group for which they hold if there is a colon, else the rest of the group
around them; `bare` if no flag is named. -/
def openFlags (c : Context) (bare : Bool) (f : Flags) (cs : List Char) :
    Except Error (Opening × List Char) :=
  match cs with
  | [] => .error .unclosedGroup
  | mark :: left =>
    if mark == ':' then .ok (.group { c with flags := f }, left)
    else if bare then .error .missingOperand
    else .ok (.flags f, left)

def readFlagged (c : Context) (cs : List Char) : Except Error (Opening × List Char) := do
  let (f, rest) ← readFlags [] true c.flags cs
  openFlags c (cs.head? == some ')') f rest

/-- What follows an opening parenthesis and a question mark. -/
def readGroupKind (c : Context) (cs : List Char) : Except Error (Opening × List Char) :=
  if marksLook cs then .error .lookAround
  else
    match nameAfter? cs with
    | some rest => readNamed c rest
    | none => readFlagged c cs

/-- What follows an opening parenthesis. -/
def readOpening (c : Context) (cs : List Char) : Except Error (Opening × List Char) :=
  match settle c.flags cs with
  | [] => .ok (.group c, [])
  | mark :: rest => if mark == '?' then readGroupKind c rest else .ok (.group c, mark :: rest)

/-- Skips the mark of a lazy repetition. -/
def skipLazy (cs : List Char) : List Char :=
  match cs with
  | [] => []
  | c :: rest => if c == '?' then rest else c :: rest

/-- The parts so far, in reverse, with the last one repeated. -/
def repeatLast (min : Nat) (max : Option Nat) (parts : List Part) : Except Error (List Part) :=
  match parts with
  | p :: before =>
    if p.operand then .ok (⟨.repeat min max p.expr, 1 + p.depth, true⟩ :: before)
    else .error .missingOperand
  | [] => .error .missingOperand

/-- The parenthesis that ends a group. -/
def readGroupEnd (cs : List Char) : Except Error (Unit × List Char) :=
  match cs with
  | [] => .error .unclosedGroup
  | c :: rest => if c == ')' then .ok ((), rest) else .error .unclosedGroup

/-- Reads alternatives up to the end of the group; the parts so far are in reverse. -/
def readAlternatives : Nat → Context → List Part → List Part → List Char →
    Except Error ((Part × Context) × List Char)
  | 0, _, _, _, _ => .error .tooDeep
  | fuel + 1, c, done, parts, cs =>
    match settle c.flags cs with
    | [] => .ok ((alternation (sequence parts :: done), c), [])
    | next :: rest =>
      match next with
      | ')' => .ok ((alternation (sequence parts :: done), c), next :: rest)
      | '|' => readAlternatives fuel c (sequence parts :: done) [] rest
      | '(' => do
        let (opening, inside) ← readOpening c rest
        match opening with
        | .flags f =>
          readAlternatives fuel { c with flags := f } done (⟨.empty, 0, false⟩ :: parts) inside
        | .group inner =>
          let ((p, inner), left) ← readAlternatives fuel inner [] [] inside
          let (_, left) ← readGroupEnd left
          readAlternatives fuel { inner with flags := c.flags } done
            (⟨p.expr, 1 + p.depth, true⟩ :: parts) left
      | '[' => do
        let (s, left) ← readClass c.flags rest
        readAlternatives fuel c done (⟨.one s.value, s.depth, true⟩ :: parts) left
      | '?' => do readAlternatives fuel c done (← repeatLast 0 (some 1) parts) (skipLazy rest)
      | '*' => do readAlternatives fuel c done (← repeatLast 0 none parts) (skipLazy rest)
      | '+' => do readAlternatives fuel c done (← repeatLast 1 none parts) (skipLazy rest)
      | '\x7b' =>
        if parts.head?.any (·.operand) then do
          let ((min, max), left) ← readBounds c.flags rest
          readAlternatives fuel c done (← repeatLast min max parts)
            (skipLazy (settle c.flags left))
        else .error .missingOperand
      | '.' => do
        readAlternatives fuel c done (⟨← atomExpr c.flags .dot, 0, true⟩ :: parts) rest
      | '^' =>
        readAlternatives fuel c done (⟨.look (lookOfAnchor c.flags true), 0, true⟩ :: parts) rest
      | '$' =>
        readAlternatives fuel c done (⟨.look (lookOfAnchor c.flags false), 0, true⟩ :: parts) rest
      | '\\' => do
        let (a, left) ← readEscape c.flags rest
        readAlternatives fuel c done (⟨← atomExpr c.flags a, 0, true⟩ :: parts) left
      | _ => do
        readAlternatives fuel c done (⟨← atomExpr c.flags (.literal next false), 0, true⟩ :: parts)
          rest

/-- Nesting beyond this depth is refused. -/
def depthLimit : Nat := 250

/-- Expressions that take more states than this are refused. -/
def sizeLimit : Nat := 320000

/-- The expression that a whole text writes. -/
def readExpr (text : List Char) : Except Error Expr := do
  let ((p, _), left) ← readAlternatives (text.length + 1) ⟨.start, []⟩ [] [] text
  if !left.isEmpty then .error .unopenedGroup
  else if depthLimit < p.depth then .error .tooDeep
  else if sizeLimit < p.expr.size then .error .tooLarge
  else .ok p.expr

end GrammarProfile.Pattern
