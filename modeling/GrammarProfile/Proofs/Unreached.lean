import GrammarProfile.Proofs.Collapse
import GrammarProfile.Proofs.Readings

/-!
What a collapse removes besides the element and what the element reaches: the entries that no root
reached in the first place, such as those that list only each other.
-/
namespace GrammarProfile.Cascade

open GrammarProfile.Grammar (Model)
open GrammarProfile.Profile (Accepted IsEntries Restriction choiceKey)
open GrammarProfile.Yaml (Value Pairs)
open Relation (ReflTransGen)

section Paths

variable {grammar : Model} {documentTypes : List String} {element n s : String} {elements : Pairs}

/-- A path to what the element does not reach never meets the element. -/
theorem path_past (hn : ¬ReflTransGen (Links elements) element n)
    (path : ReflTransGen (Links elements) s n) :
    s ≠ element ∧ ReflTransGen (LinksPast element elements) s n := by
  induction path using ReflTransGen.head_induction_on with
  | refl => exact ⟨fun e => hn (e ▸ .refl), .refl⟩
  | head step rest ih =>
      refine ⟨fun e => hn (e ▸ .head step rest), ?_⟩
      exact .head ⟨ih.1, step⟩ ih.2

theorem Collapsed.removed_iff {after : Pairs}
    (h : Collapsed grammar documentTypes element elements after) (hn : n ∈ Pairs.names elements)
    (hreach : ¬ReflTransGen (Links elements) element n) :
    n ∉ Pairs.names after ↔ ∀ s, Rooted grammar documentTypes elements s →
      ¬ReflTransGen (Links elements) s n := by
  rw [h.kept, and_iff_right hn]
  constructor
  · intro hgone s hs path
    exact hgone ⟨s, hs, path_past hreach path⟩
  · rintro hunrooted ⟨s, hs, _, path⟩
    exact hunrooted s hs (ReflTransGen.mono (fun _ _ step => step.2) _ _ path)

theorem collapse_eq_ok {text : String} {r : Restriction} {root fields : Pairs}
    (h : Accepted text r root fields elements) (hknown : grammar.hasElement element = true)
    (hentry : element ∈ r.elements.keys) :
    collapse grammar element text = .ok (Tree.render (.mapping (Pairs.set "profile"
      (.mapping (Pairs.set "elements" (.mapping
        (collapseElements grammar element r.documentTypes elements)) fields)) root))) := by
  have hin := (h.keys element).1 hentry
  have hcontains : ((Tree.elements? (.mapping root)).any fun e => Pairs.contains e element) =
      true := by
    rw [h.elements?_eq hin, Option.any_some]
    exact h.entries.keyed.contains_iff.2 hin
  have hedit : collapseTree grammar element (.mapping root) = some (.mapping (Pairs.set "profile"
      (.mapping (Pairs.set "elements" (.mapping
        (collapseElements grammar element r.documentTypes elements)) fields)) root)) := by
    unfold collapseTree
    rw [if_pos hcontains, h.editElements, h.documentTypes]
  unfold collapse
  rw [hknown, Bool.not_true, if_neg Bool.false_ne_true, h.editText_eq_ok hedit]

end Paths

/-- Of the entries that the element does not reach, a collapse removes exactly those that no
document type, no root and no entry without a parent reached before. -/
theorem collapse_removes_unreached_iff {grammar : Model} {element text : String} {r : Restriction}
    (hknown : grammar.hasElement element = true) (hname : element ≠ choiceKey)
    (haccepted : (Profile.read text).profile = some r) (hentry : element ∈ r.elements.keys) :
    ∃ root fields elements after, Accepted text r root fields elements ∧
      collapse grammar element text = .ok (Tree.render (.mapping (Pairs.set "profile"
        (.mapping (Pairs.set "elements" (.mapping after) fields)) root))) ∧
      ∀ n ∈ r.elements.keys, ¬ReflTransGen (Links elements) element n →
        (n ∉ Pairs.names after ↔ ∀ s, Rooted grammar r.documentTypes elements s →
          ¬ReflTransGen (Links elements) s n) := by
  obtain ⟨root, fields, elements, h⟩ := Profile.accepted_of_read haccepted
  have hafter : Collapsed grammar r.documentTypes element elements _ :=
    collapsed_collapseElements h.entries hname
  exact ⟨root, fields, elements, _, h, collapse_eq_ok h hknown hentry,
    fun n hn hreach => hafter.removed_iff ((h.keys n).1 hn) hreach⟩

theorem collapse_bold_unreached : ∃ r root fields elements after,
    (Profile.read boldProfile).profile = some r ∧ "b" ∈ r.elements.keys ∧
      Accepted boldProfile r root fields elements ∧
      collapse boldGrammar "b" boldProfile = .ok (Tree.render (.mapping (Pairs.set "profile"
        (.mapping (Pairs.set "elements" (.mapping after) fields)) root))) ∧
      ∀ n ∈ r.elements.keys, ¬ReflTransGen (Links elements) "b" n →
        (n ∉ Pairs.names after ↔ ∀ s, Rooted boldGrammar r.documentTypes elements s →
          ¬ReflTransGen (Links elements) s n) := by
  obtain ⟨r, hr, hentry, _⟩ := read_boldProfile
  have hknown : boldGrammar.hasElement "b" = true := by decide
  obtain ⟨root, fields, elements, after, hafter⟩ :=
    collapse_removes_unreached_iff hknown (by decide) hr hentry
  exact ⟨r, root, fields, elements, after, hr, hentry, hafter⟩

/-- Bold text beside two entries that list only each other. -/
def loopProfile : String :=
  "profile: \x7belements: \x7bb: , x: \x7bchildren: \x7by: \x7d\x7d, " ++
    "y: \x7bchildren: \x7bx: \x7d\x7d\x7d\x7d"

def loopEntries : Pairs :=
  [(.string "b", .null),
    (.string "x", .mapping [(.string "children", .mapping [(.string "y", .null)])]),
    (.string "y", .mapping [(.string "children", .mapping [(.string "x", .null)])])]

theorem read_loopProfile : Yaml.read loopProfile = .ok (entriesTree loopEntries) :=
  Value.read_eq_ok String.ofList_append.symm (by decide +kernel)

theorem links_loopEntries (h : IsEntries loopEntries) (a c : String) :
    Links loopEntries a c ↔ a = "x" ∧ c = "y" ∨ a = "y" ∧ c = "x" := by
  have hedges : Tree.references loopEntries = [("b", []), ("x", ["y"]), ("y", ["x"])] := by
    decide +kernel
  rw [← exists_mem_references_iff h, hedges]
  simp [or_and_right, exists_or, and_assoc]

/-- What is written about bold text reaches neither of the two, and yet they are removed with it. -/
theorem collapse_removes_loop : ∃ r root fields elements after,
    (Profile.read loopProfile).profile = some r ∧ "b" ∈ r.elements.keys ∧
      Accepted loopProfile r root fields elements ∧
      collapse boldGrammar "b" loopProfile = .ok (Tree.render (.mapping (Pairs.set "profile"
        (.mapping (Pairs.set "elements" (.mapping after) fields)) root))) ∧
      "x" ∈ r.elements.keys ∧ "x" ≠ "b" ∧ "x" ∉ Pairs.names after ∧
      ¬ReflTransGen (Links elements) "b" "x" := by
  obtain ⟨r, root, fields, hr, h, hresult⟩ := accepted_entriesTree read_loopProfile rfl
  have hb := (h.keys "b").2 (by decide)
  have hx := (h.keys "x").2 (by decide)
  have htypes : r.documentTypes = [] := by
    rw [hresult]
    rfl
  have hlinks := links_loopEntries h.entries
  have hreach : ¬ReflTransGen (Links loopEntries) "b" "x" := by
    intro path
    rcases path.cases_head with e | ⟨c, step, _⟩
    · exact absurd e (by decide)
    · simp [hlinks] at step
  have hafter : Collapsed boldGrammar r.documentTypes "b" loopEntries _ :=
    collapsed_collapseElements h.entries (by decide)
  refine ⟨r, root, fields, loopEntries, _, hr, hb, h, collapse_eq_ok h (by decide) hb, hx, by decide,
    (hafter.removed_iff ((h.keys "x").1 hx) hreach).2 fun s hs path => ?_, hreach⟩
  have hloop : s = "x" ∨ s = "y" := by
    rcases path.cases_head with e | ⟨c, step, _⟩
    · exact .inl e
    · exact ((hlinks s c).1 step).imp And.left And.left
  -- Each of the two is listed by the other one, so neither is without a parent.
  rcases hs with hs | hs | ⟨_, hparentless⟩
  · rw [htypes] at hs
    exact absurd hs List.not_mem_nil
  · cases hs
  · rcases hloop with rfl | rfl
    · exact hparentless "y" (by decide) ((hlinks _ _).2 (.inr ⟨rfl, rfl⟩))
    · exact hparentless "x" (by decide) ((hlinks _ _).2 (.inl ⟨rfl, rfl⟩))

end GrammarProfile.Cascade
