import GrammarProfile.Validation.Subject

/-!
Choices of the grammar and of the profile. Members of two branches of an exclusive choice must not
both be always present, and of a choice that the grammar requires some member has to be declared.
-/
namespace GrammarProfile.Validation.Alternatives

open GrammarProfile.Grammar (Branch ChoiceGroup)
open GrammarProfile.Profile

def branchName (b : Branch) : String := b.label.getD b.branchId

/-- How many members of a branch are shown. -/
def shownMembers : Nat := 5

def shownBranch (b : Branch) : String :=
  let more := b.elements.length - shownMembers
  branchName b ++ ": " ++ Text.commaSeparated (b.elements.take shownMembers) ++
    if more = 0 then "" else " (+" ++ toString more ++ " more)"

/-- Choices that are required and of which no member is declared. -/
def emptyGroups (s : Subject) (name : String) (rule : ElementRule) : List Diagnostic :=
  let childrenPath := elementPath name ++ ".children"
  let place := (s.index.get? childrenPath).or (s.index.get? (elementPath name))
  ((s.grammar.choiceGroups name).filter fun g =>
    g.required && !rule.childNames.any g.contains).map fun g =>
      (s.report .error "choice.required-group-empty" childrenPath
        ("<" ++ name ++ "> requires at least one child from a choice group but none are declared. "
          ++ "Available: [" ++ String.intercalate "; " (g.branches.map shownBranch) ++ "]")).located
        place

/-- A choice of the profile with fewer than two members. -/
def incomplete (s : Subject) (name : String) (rule : ElementRule) : List Diagnostic :=
  let count := rule.alternatives.size
  if !rule.declaresChoice || 2 ≤ count then []
  else
    let message :=
      if count = 0 then
        "> has a 'choice:' with no children. Add at least 2 exclusive child elements."
      else
        "> has a 'choice:' with only 1 child. A choice requires at least 2 exclusive children."
    [s.report .error "choice.incomplete-branches" (elementPath name ++ ".children." ++ choiceKey)
      ("<" ++ name ++ message)]

/-- The branches of a group that hold always-present children, with these in code point order. -/
def activeBranches (g : ChoiceGroup) (rule : ElementRule) : List (Branch × List String) :=
  g.branches.filterMap fun b =>
    match Text.nameSet (rule.children.keys.filter b.elements.contains) with
    | [] => none
    | present => some (b, present)

/-- Every active branch of an exclusive group after the first conflicts with the first. -/
def groupConflicts (s : Subject) (name : String) (rule : ElementRule) (g : ChoiceGroup) :
    List Diagnostic :=
  match activeBranches g rule with
  | [] => []
  | (first, _) :: rest =>
    rest.map fun (other, present) =>
      s.report .error "choice.exclusive-branch-conflict" (childPath name (present.headD ""))
        ("<" ++ name ++ "> has an exclusive choice group: '" ++ branchName first ++ "' and '" ++
          branchName other ++ "' cannot both appear in children. " ++
          "Use 'choice:' to express exclusive branches. Conflicting: " ++
          Text.commaSeparated present)

def conflicts (s : Subject) (name : String) (rule : ElementRule) : List Diagnostic :=
  ((s.grammar.choiceGroups name).filter (·.exclusive)).flatMap (groupConflicts s name rule)

/-- Where the choice of an entry is. -/
def choicePlace (s : Subject) (name : String) : Option Location :=
  s.index.locate (elementPath name ++ ".children." ++ choiceKey)

/-- Members of the choice that are no children of the element. -/
def invalidMembers (s : Subject) (name : String) (rule : ElementRule) : List Diagnostic :=
  (rule.alternatives.keys.filter fun c => !(s.grammar.childNames name).contains c).map fun c =>
    (s.report .error "choice.branch-invalid-child" (alternativePath name c)
      ("<" ++ c ++ "> is not a valid child of <" ++ name ++ "> per the XSD.")).located
      (choicePlace s name)

/-- Members of the choice that are also always present. -/
def overlap (s : Subject) (name : String) (rule : ElementRule) : List Diagnostic :=
  (rule.alternatives.keys.filter rule.children.contains).map fun c =>
    (s.report .error "choice.branch-overlap" (alternativePath name c)
      ("<" ++ c ++ "> appears in both 'children:' and 'choice:' of <" ++ name ++
        ">. An element cannot be both always-present and exclusive.")).located
      (choicePlace s name)

def entry (s : Subject) (name : String) (rule : ElementRule) : List Diagnostic :=
  if s.grammar.hasElement name then
    emptyGroups s name rule ++ incomplete s name rule ++ conflicts s name rule ++
      invalidMembers s name rule ++ overlap s name rule
  else incomplete s name rule ++ overlap s name rule

def check (s : Subject) : List Diagnostic :=
  s.profile.elements.pairs.flatMap fun (name, rule) => entry s name rule

end GrammarProfile.Validation.Alternatives
