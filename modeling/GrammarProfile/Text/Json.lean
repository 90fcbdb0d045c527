import GrammarProfile.Text.Lines

/-!
JSON text: strings in quotes, and values laid out on indented lines.
-/
namespace GrammarProfile.Text

/-- A lower-case hexadecimal digit. -/
def hexDigit (n : Nat) : Char := Nat.digitChar (n % 16)

/-- How a character stands in a JSON string. -/
def jsonChar (c : Char) : List Char :=
  match c with
  | '"' => ['\\', '"']
  | '\\' => ['\\', '\\']
  | '\x08' => ['\\', 'b']
  | '\x0c' => ['\\', 'f']
  | '\n' => ['\\', 'n']
  | '\r' => ['\\', 'r']
  | '\t' => ['\\', 't']
  | _ =>
    if c.toNat < 0x20 then ['\\', 'u', '0', '0', hexDigit (c.toNat / 16), hexDigit c.toNat]
    else [c]

/-- A text as a JSON string. -/
def jsonString (s : String) : String :=
  String.ofList ('"' :: (s.toList.flatMap jsonChar ++ ['"']))

inductive Json where
  | number (n : Nat)
  | string (s : String)
  | list (items : List Json)
  | object (fields : List (String × Json))
  deriving Inhabited

namespace Json

/-- Parts between brackets, each on lines of its own; without parts the brackets stand alone. -/
def bracketed (opening closing : String) (indent : Nat) (parts : List String) : String :=
  if parts.isEmpty then opening ++ closing
  else
    let pad := "\n" ++ String.ofList (List.replicate (indent + 2) ' ')
    opening ++ pad ++ String.intercalate ("," ++ pad) parts ++ "\n" ++
      String.ofList (List.replicate indent ' ') ++ closing

mutual

/-- A value laid out on lines, of which the further ones are indented. -/
def layOut (indent : Nat) : Json → String
  | number n => toString n
  | string s => jsonString s
  | list items => bracketed "[" "]" indent (layItems (indent + 2) items)
  | object fields => bracketed "\x7b" "\x7d" indent (layFields (indent + 2) fields)

def layItems (indent : Nat) : List Json → List String
  | [] => []
  | v :: rest => layOut indent v :: layItems indent rest

def layFields (indent : Nat) : List (String × Json) → List String
  | [] => []
  | (name, v) :: rest => (jsonString name ++ ": " ++ layOut indent v) :: layFields indent rest

end

end Json

end GrammarProfile.Text
