import GrammarProfile.Profile.Reader

/-!
Reading a text from its characters. A literal is by definition the text of its characters, but
takes long to be taken apart into them again, so what is read of a fixed text is evaluated on its
characters.
-/
namespace GrammarProfile.Yaml

/-- The tokens of a text with these characters. -/
def tokensOf (cs : List Char) : List Token × Option Error :=
  let cs :=
    match cs with
    | '\ufeff' :: rest => rest
    | cs => cs
  if !cs.all isAllowed then ([], some ⟨.controlCharacter, some ⟨0, 0, 0⟩⟩)
  else Lexer.run (cs.length + 1) (.start cs)

/-- The document that tokens make up, where `found.2` is met after the last of them. -/
def Document.ofTokens (found : List Token × Option Error) : Document :=
  let (tokens, failure) := found
  let failure := failure.getD ⟨.noContent, none⟩
  let (result, source) :=
    (Parse.document (4 * tokens.length + 8)).run ⟨tokens, failure, [], [], []⟩
  let rest := source.tokens.dropWhile fun t => t.kind == .documentEnd
  let isFollowed :=
    match rest with
    | t :: _ => t.kind != .streamEnd
    | [] => true
  match result with
  | .ok _ => ⟨source.events.reverse, none, isFollowed⟩
  | .error e => ⟨source.events.reverse, some e, isFollowed⟩

/-- The value of a document, if no other one follows. -/
def Document.soleValue (d : Document) : Except Error Value :=
  match d.value with
  | .error e => .error e
  | .ok v => if d.isFollowed then .error ⟨.manyDocuments, none⟩ else .ok v

/-- The value of a text with these characters. -/
def readChars (cs : List Char) : Except Error Value := (Document.ofTokens (tokensOf cs)).soleValue

theorem tokens_eq_tokensOf (text : String) : tokens text = tokensOf text.toList := rfl

theorem Document.ofText_eq (text : String) : ofText text = ofTokens (tokens text) := rfl

theorem read_eq_soleValue (text : String) : read text = (Document.ofText text).soleValue := rfl

theorem read_eq_readChars (text : String) : read text = readChars text.toList := by
  rw [read_eq_soleValue, Document.ofText_eq, tokens_eq_tokensOf, readChars]

theorem read_ofList (cs : List Char) : read (String.ofList cs) = readChars cs := by
  rw [read_eq_readChars, String.toList_ofList]

end GrammarProfile.Yaml

namespace GrammarProfile.Profile

open GrammarProfile.Yaml (Pairs readChars read_ofList)

/-- The places in a text have no part in the profile that is read. -/
theorem Reading.profile_ofValue (index index' : LineIndex) (v : Yaml.Value) :
    (ofValue index v).profile = (ofValue index' v).profile := by
  cases v with
  | mapping root =>
      unfold ofValue profilePairs
      dsimp only
      cases Pairs.get? root "profile" with
      | none => rfl
      | some p =>
          cases p with
          | mapping pairs =>
              dsimp only
              cases (Restriction.ofTree pairs).flaws <;> rfl
          | _ => rfl
  | _ => rfl

theorem exists_profile {text : String} {cs : List Char} {p : Restriction → Bool}
    (htext : text = String.ofList cs)
    (h : ((readChars cs).toOption.bind fun v => (Reading.ofValue .empty v).profile).any p = true) :
    ∃ r, (read text).profile = some r ∧ p r = true := by
  obtain ⟨r, hr, hp⟩ := (Option.any_eq_true _ _).1 h
  obtain ⟨v, hv, hr⟩ := Option.bind_eq_some_iff.1 hr
  have hread : Yaml.read text = .ok v := by
    rw [htext, read_ofList]
    cases hchars : readChars cs with
    | error e =>
        rw [hchars] at hv
        cases hv
    | ok w =>
        rw [hchars] at hv
        exact congrArg Except.ok (Option.some.inj hv)
  refine ⟨r, ?_, hp⟩
  unfold read
  rw [hread]
  exact (Reading.profile_ofValue _ _ v).trans hr

end GrammarProfile.Profile
