import GrammarProfile.Proofs.FlowLists

/-!
The keys and items for which places are recorded. The outline records paths; here each of its places
comes with the key or the item that it was recorded for, and the paths are those of these.
-/
namespace GrammarProfile.Profile

open Printed (itemPath)

/-- What a place is recorded for: a key and the path in which it lies, or an item and its number,
after a dash or between brackets. -/
inductive Landmark where
  | key (outer : Option String) (name : List Char)
  | dashed (list : String) (number : ℕ)
  | listed (list : String) (number : ℕ)

namespace Landmark

def path : Landmark → String
  | key none name => String.ofList name
  | key (some outer) name => outer ++ "." ++ String.ofList name
  | dashed list number => itemPath list number
  | listed list number => itemPath list number

end Landmark

/-- A key or an item that was found, and its place. -/
structure Finding where
  landmark : Landmark
  place : Location

def Finding.entry (f : Finding) : Entry := (f.landmark.path, f.place)

/-! ## Flow lists and mappings -/

/-- The items of a list from a place inside it; `seen` tells whether the item there has begun. -/
def itemFindings (list : String) (line : ℕ) : ℕ → ℕ → Bool → List Char → List Finding
  | _, _, _, [] => []
  | column, i, seen, c :: rest =>
    if c = ',' then itemFindings list line (column + 1) (i + 1) false rest
    else if seen || Text.isBlank c then itemFindings list line (column + c.utf8Size) i seen rest
    else ⟨.listed list i, ⟨line, column⟩⟩ :: itemFindings list line (column + c.utf8Size) i true rest

/-- The items of a list in brackets. -/
def listFindings (list : String) (line column : ℕ) (value : List Char) : List Finding :=
  match enclosed? '[' ']' value with
  | some inner => itemFindings list line (column + 1) 0 false inner
  | none => []

/-- The keys of a mapping in braces, and what their own values hold. -/
def mappingFindings : ℕ → String → ℕ → ℕ → List Char → List Finding
  | 0, _, _, _, _ => []
  | fuel + 1, outer, line, column, value =>
    match enclosed? '\x7b' '\x7d' value with
    | none => []
    | some inner =>
      (withOffsets (column + 1) (splitFlow none 0 [] inner)).flatMap fun (start, piece) =>
        let content := Text.trim piece
        let place := start + bytesBefore piece (Text.trimStart piece)
        match splitKey? content with
        | none => []
        | some (name, rest) =>
          let key : Landmark := .key (some outer) name
          let valuePlace := place + bytesBefore content rest
          ⟨key, ⟨line, place⟩⟩ ::
            match rest with
            | '[' :: _ => listFindings key.path line valuePlace rest
            | '\x7b' :: _ => mappingFindings fuel key.path line valuePlace rest
            | _ => []

/-- What the value of a key holds on the line of the key. -/
def valueFindings (outer : String) (line column : ℕ) (value : List Char) : List Finding :=
  match value with
  | '[' :: _ => listFindings outer line column value
  | '\x7b' :: _ => mappingFindings value.length outer line column value
  | _ => []

section Flow

variable {list path : String} {line : ℕ}

theorem entry_itemFindings (cs : List Char) (column i : ℕ) (seen : Bool) :
    (itemFindings list line column i seen cs).map Finding.entry =
      listEntries list line column i seen cs := by
  induction cs generalizing column i seen with
  | nil => rfl
  | cons c rest ih =>
      rw [itemFindings, listEntries]
      split
      · exact ih _ _ _
      · split
        · exact ih _ _ _
        · exact congrArg (_ :: ·) (ih _ _ _)

theorem entry_listFindings (column : ℕ) (value : List Char) :
    (listFindings list line column value).map Finding.entry = flowItems list line column value := by
  rw [listFindings, flowItems]
  cases enclosed? '[' ']' value with
  | none => rfl
  | some inner => exact (entry_itemFindings inner _ _ _).trans (itemEntries_splitAll ..).symm

theorem entry_mappingFindings (fuel : ℕ) (path : String) (column : ℕ) (value : List Char) :
    (mappingFindings fuel path line column value).map Finding.entry =
      flowKeys fuel path line column value := by
  induction fuel generalizing path column value with
  | zero => rfl
  | succ fuel ih =>
      rw [mappingFindings, flowKeys]
      cases enclosed? '\x7b' '\x7d' value with
      | none => rfl
      | some inner =>
          dsimp only
          rw [List.map_flatMap]
          refine List.flatMap_congr fun p _ => ?_
          obtain ⟨start, piece⟩ := p
          dsimp only
          cases splitKey? (Text.trim piece) with
          | none => rfl
          | some parts =>
              obtain ⟨name, rest⟩ := parts
              dsimp only
              refine congrArg (_ :: ·) ?_
              generalize start + bytesBefore piece (Text.trimStart piece) +
                bytesBefore (Text.trim piece) rest = place
              split
              · exact entry_listFindings _ _
              · exact ih _ _ _
              · next hlist hmapping =>
                split
                · exact absurd rfl (hmapping _)
                · exact absurd rfl (hlist _)
                · rfl

/-- A value that opens a block scalar holds nothing else. -/
theorem entry_valueFindings (column : ℕ) (value : List Char) (opened closed : Option ℕ) :
    (valueFindings path line column value).map Finding.entry =
      (match value with
        | '|' :: _ => (opened, [])
        | '>' :: _ => (opened, [])
        | '[' :: _ => (closed, flowItems path line column value)
        | '\x7b' :: _ => (closed, flowKeys value.length path line column value)
        | _ => (closed, [])).2 := by
  unfold valueFindings
  split
  · exact entry_listFindings _ _
  · exact entry_mappingFindings _ _ _ _
  · next hlist hmapping =>
    split
    · rfl
    · rfl
    · exact absurd rfl (hlist _)
    · exact absurd rfl (hmapping _)
    · rfl

end Flow

/-! ## Lines -/

namespace Outline

/-- The key of a line, and what its value holds on the line. -/
def keyFindings (o : Outline) (line indent : ℕ) (content : List Char) : List Finding :=
  match splitKey? content with
  | none => []
  | some (name, value) =>
    let frames := o.frames.dropWhile fun f => indent ≤ f.indent
    let key : Landmark := .key (frames.head?.map Frame.path) name
    let place := indent + bytesBefore content value
    ⟨key, ⟨line, indent⟩⟩ :: valueFindings key.path line place (stripComment value)

/-- The item of a line, and what its content holds on the line. -/
def dashFindings (o : Outline) (line indent : ℕ) (content : List Char) : List Finding :=
  match o.frames.dropWhile fun f => indent < f.indent || (f.indent == indent && f.isItem) with
  | [] => []
  | parent :: outer =>
    let rest := Text.trimStart (content.drop 1)
    let place := indent + bytesBefore content rest
    let found : Finding := ⟨.dashed parent.path parent.nextItem, ⟨line, place⟩⟩
    match rest with
    | '>' :: _ => [found]
    | '|' :: _ => [found]
    | _ =>
      if rest.isEmpty || Profile.isItem rest || (splitKey? rest).isNone then [found]
      else found :: keyFindings ⟨inside indent parent outer, o.blockScalar⟩ line place rest

/-- What is found on a line outside block scalars. -/
def contentFindings (o : Outline) (number indent : ℕ) (content : List Char) : List Finding :=
  if Text.startsWith content ['#'] then []
  else if indent == 0 && (Text.startsWith content "---".toList ||
      Text.startsWith content "...".toList) then []
  else if Profile.isItem content then o.dashFindings number indent content
  else o.keyFindings number indent content

/-- What is found on a line. -/
def lineFindings (o : Outline) (number : ℕ) (raw : List Char) : List Finding :=
  let indent := (raw.takeWhile (· == ' ')).length
  let content := Text.trimEnd (raw.drop indent)
  if content.isEmpty then []
  else
    let inScalar : Bool :=
      match o.blockScalar with
      | some outer => decide (outer < indent)
      | none => false
    if inScalar then [] else contentFindings ⟨o.frames, none⟩ number indent content

/-- What is found on lines, the first of which has the number `n`. -/
def findings (o : Outline) (n : ℕ) : List (List Char) → List Finding
  | [] => []
  | raw :: rest => o.lineFindings n raw ++ (o.line n raw).1.findings (n + 1) rest

variable (o : Outline) (line indent : ℕ) (content : List Char)

theorem entry_keyFindings :
    (o.keyFindings line indent content).map Finding.entry = (o.key line indent content).2 := by
  rw [keyFindings, key]
  cases splitKey? content with
  | none => rfl
  | some parts =>
      obtain ⟨name, value⟩ := parts
      dsimp only
      cases o.frames.dropWhile fun f => decide (indent ≤ f.indent) with
      | nil => exact congrArg (_ :: ·) (entry_valueFindings _ _ _ _)
      | cons f outer => exact congrArg (_ :: ·) (entry_valueFindings _ _ _ _)

theorem entry_dashFindings :
    (o.dashFindings line indent content).map Finding.entry = (o.item line indent content).2 := by
  rw [dashFindings, item]
  dsimp only
  cases o.frames.dropWhile fun f => decide (indent < f.indent) || f.indent == indent && f.isItem with
  | nil => rfl
  | cons parent outer =>
      dsimp only
      generalize indent + bytesBefore content (Text.trimStart (content.drop 1)) = place
      generalize Text.trimStart (content.drop 1) = rest
      split
      · rfl
      · rfl
      · next hangle hbar =>
        split
        · split
          · exact absurd rfl (hbar _)
          · exact absurd rfl (hangle _)
          · rfl
        · split
          · exact absurd rfl (hbar _)
          · exact absurd rfl (hangle _)
          · exact congrArg (_ :: ·) (entry_keyFindings _ _ _ _)

theorem entry_lineFindings (raw : List Char) :
    (o.lineFindings line raw).map Finding.entry = (o.line line raw).2 := by
  have houtside : ∀ (frames : List Frame) (indent : ℕ) (content : List Char),
      (contentFindings ⟨frames, none⟩ line indent content).map Finding.entry =
      (if Text.startsWith content ['#'] then (⟨frames, none⟩, [])
        else if indent == 0 && (Text.startsWith content "---".toList ||
          Text.startsWith content "...".toList) then (⟨[], none⟩, [])
        else if Profile.isItem content then item ⟨frames, none⟩ line indent content
        else key ⟨frames, none⟩ line indent content : Outline × List Entry).2 := by
    intro frames indent content
    unfold contentFindings
    split
    · rfl
    · split
      · rfl
      · split
        · exact entry_dashFindings _ _ _ _
        · exact entry_keyFindings _ _ _ _
  obtain ⟨frames, opened⟩ := o
  rw [lineFindings, Outline.line]
  split
  · rfl
  · cases opened with
    | none => exact houtside _ _ _
    | some outer =>
        dsimp only
        split
        · rfl
        · exact houtside _ _ _

theorem entry_findings (n : ℕ) (lines : List (List Char)) :
    (o.findings n lines).map Finding.entry = o.entries n lines := by
  induction lines generalizing o n with
  | nil => rfl
  | cons raw rest ih =>
      rw [findings, List.map_append, entry_lineFindings, ih, entries]

end Outline

/-- All keys and items that are found in a text. -/
def findings (text : String) : List Finding := Outline.start.findings 1 (Text.lines text.toList)

theorem LineIndex.ofText_eq (text : String) :
    LineIndex.ofText text = .ofList ((findings text).map Finding.entry) := by
  rw [findings, Outline.entry_findings, LineIndex.ofText]

end GrammarProfile.Profile
