import GrammarProfile.Proofs.FixedTexts
import GrammarProfile.Proofs.Reachable
import GrammarProfile.Proofs.Strip

/-!
Collapsing removes an element, what only it kept reachable, and nothing else.
-/
namespace GrammarProfile.Cascade

open GrammarProfile.Grammar (Model)
open GrammarProfile.Profile (Accepted IsEntries Restriction choiceKey)
open GrammarProfile.Yaml (Value Pairs)
open Relation (ReflTransGen)

/-- The names from which entries are kept: the document types, the root, and the entries that no
other entry lists. -/
def Rooted (grammar : Model) (documentTypes : List String) (elements : Pairs) (n : String) : Prop :=
  n ∈ documentTypes ∨ grammar.root = some n ∨
    (n ∈ Pairs.names elements ∧ ∀ m, m ≠ n → ¬Links elements m n)

/-- An edge of the graph of the entries that does not lead to `element`. -/
def LinksPast (element : String) (elements : Pairs) (a b : String) : Prop :=
  b ≠ element ∧ Links elements a b

/-- What is left of some entries when an element is collapsed. -/
structure Collapsed (grammar : Model) (documentTypes : List String) (element : String)
    (elements after : Pairs) : Prop where
  keyed : after.Keyed
  order : (Pairs.names after).Sublist (Pairs.names elements)
  kept : ∀ n, n ∈ Pairs.names after ↔ n ∈ Pairs.names elements ∧
    ∃ r, Rooted grammar documentTypes elements r ∧ r ≠ element ∧
      ReflTransGen (LinksPast element elements) r n
  entries : ∀ n v, Pairs.get? after n = some v →
    ∃ before, Pairs.get? elements n = some before ∧ v = stripReference element before
  links : ∀ a b, Links after a b ↔
    a ∈ Pairs.names after ∧ b ≠ element ∧ Links elements a b
  listed : ∀ a b, Links after a b →
    b ≠ element ∧ (b ∈ Pairs.names elements → b ∈ Pairs.names after)
  fixpoint : ∀ starts : List String, (∀ n, Rooted grammar documentTypes elements n → n ∈ starts) →
    sweep starts after = after

/-- The entries other than `element`, which they do not list any more. -/
def withoutElement (element : String) (elements : Pairs) : Pairs :=
  (Pairs.erase elements element).map fun p => (p.1, stripReference element p.2)

section Without

variable {grammar : Model} {documentTypes : List String} {element a b n s : String}
  {elements : Pairs} (h : IsEntries elements) (hname : element ≠ choiceKey)

theorem get?_withoutElement (element : String) (elements : Pairs) (n : String) :
    Pairs.get? (withoutElement element elements) n =
      if n = element then none else (Pairs.get? elements n).map (stripReference element) := by
  unfold withoutElement
  rw [Pairs.get?_map fun p => stripReference element p.2, Pairs.get?_erase]
  split <;> rfl

theorem names_withoutElement_sublist (element : String) (elements : Pairs) :
    (Pairs.names (withoutElement element elements)).Sublist (Pairs.names elements) := by
  unfold withoutElement
  rw [Pairs.names_map fun p => stripReference element p.2]
  exact List.filter_sublist.filterMap _

include h hname

theorem isEntries_withoutElement : IsEntries (withoutElement element elements) where
  keyed := (h.keyed.erase element).map fun p => stripReference element p.2
  entry n v hv := by
    rw [get?_withoutElement] at hv
    split at hv
    · cases hv
    · obtain ⟨before, hbefore, rfl⟩ := Option.map_eq_some_iff.1 hv
      obtain ⟨fields, children, hentry⟩ := h.entry n before hbefore
      exact isEntry_stripReference hname hentry

theorem mem_names_withoutElement_iff : n ∈ Pairs.names (withoutElement element elements) ↔
    n ≠ element ∧ n ∈ Pairs.names elements := by
  rw [(isEntries_withoutElement h hname).keyed.mem_names_iff, h.keyed.mem_names_iff]
  by_cases hn : n = element <;> simp [get?_withoutElement, hn]

theorem links_withoutElement_iff : Links (withoutElement element elements) a b ↔
    a ≠ element ∧ b ≠ element ∧ Links elements a b := by
  constructor
  · rintro ⟨v, hv, hlists⟩
    rw [get?_withoutElement] at hv
    split at hv
    · cases hv
    · next ha =>
        obtain ⟨before, hbefore, rfl⟩ := Option.map_eq_some_iff.1 hv
        obtain ⟨fields, children, hentry⟩ := h.entry a before hbefore
        obtain ⟨hlists, hb⟩ := (lists_stripReference hname hentry).1 hlists
        exact ⟨ha, hb, before, hbefore, hlists⟩
  · rintro ⟨ha, hb, v, hv, hlists⟩
    obtain ⟨fields, children, hentry⟩ := h.entry a v hv
    refine ⟨stripReference element v, ?_, (lists_stripReference hname hentry).2 ⟨hlists, hb⟩⟩
    rw [get?_withoutElement, if_neg ha, hv, Option.map_some]

theorem path_withoutElement_iff (hs : s ≠ element) :
    ReflTransGen (Links (withoutElement element elements)) s n ↔
      ReflTransGen (LinksPast element elements) s n := by
  constructor
  · exact ReflTransGen.mono (fun _ _ step => ((links_withoutElement_iff h hname).1 step).2) _ _
  · intro path
    have hboth : n ≠ element ∧ ReflTransGen (Links (withoutElement element elements)) s n := by
      induction path with
      | refl => exact ⟨hs, .refl⟩
      | tail _ step ih =>
          exact ⟨step.1, .tail ih.2 ((links_withoutElement_iff h hname).2 ⟨ih.1, step⟩)⟩
    exact hboth.2

omit hname in
theorem mem_referencedNames_iff :
    n ∈ referencedNames elements ↔ ∃ m, m ≠ n ∧ Links elements m n := by
  unfold referencedNames
  rw [List.mem_flatMap]
  constructor
  · rintro ⟨⟨key, v⟩, hp, hn⟩
    obtain ⟨m, rfl⟩ := h.keyed.textual _ hp
    have hv := h.keyed.get?_eq_some_iff.2 hp
    obtain ⟨fields, children, hentry⟩ := h.entry m v hv
    obtain ⟨hn, hne⟩ := List.mem_filter.1 hn
    have hne : m ≠ n := by simpa [Value.scalarText?] using hne
    exact ⟨m, hne, v, hv, (mem_childReferences_iff hentry).1 hn⟩
  · rintro ⟨m, hne, v, hv, hlists⟩
    obtain ⟨fields, children, hentry⟩ := h.entry m v hv
    have hn := (mem_childReferences_iff hentry).2 hlists
    refine ⟨_, Pairs.mem_of_get? hv, List.mem_filter.2 ⟨hn, ?_⟩⟩
    simpa [Value.scalarText?] using hne

/-- The names from which a collapse sweeps. -/
def startsOf (grammar : Model) (documentTypes : List String) (element : String)
    (elements : Pairs) : List String :=
  documentTypes ++ grammar.root.toList ++
    (Pairs.names (withoutElement element elements)).filter fun name =>
      !(referencedNames elements).contains name

theorem mem_startsOf_iff (hs : s ≠ element) :
    s ∈ startsOf grammar documentTypes element elements ↔
      Rooted grammar documentTypes elements s := by
  have hnames := (mem_names_withoutElement_iff h hname).trans (and_iff_right hs)
  have horphan : s ∈ (Pairs.names (withoutElement element elements)).filter
      (fun name => !(referencedNames elements).contains name) ↔
        s ∈ Pairs.names elements ∧ ∀ m, m ≠ s → ¬Links elements m s := by
    rw [List.mem_filter, hnames]
    refine and_congr_right fun _ => ?_
    have href := mem_referencedNames_iff (n := s) h
    rw [Bool.not_eq_true', Bool.eq_false_iff, Ne, List.contains_iff_mem, href, not_exists]
    exact forall_congr' fun m => not_and
  rw [startsOf, List.append_assoc, List.mem_append, List.mem_append, horphan, Rooted,
    Option.mem_toList]

/-- What is swept from the starts keeps the entries that can be reached past the element. -/
theorem mem_names_sweep_startsOf_iff :
    n ∈ Pairs.names (sweep (startsOf grammar documentTypes element elements)
        (withoutElement element elements)) ↔
      n ∈ Pairs.names elements ∧ ∃ r, Rooted grammar documentTypes elements r ∧ r ≠ element ∧
        ReflTransGen (LinksPast element elements) r n := by
  have hentries := isEntries_withoutElement h hname
  rw [(isEntries_sweep hentries _).keyed.mem_names_iff]
  constructor
  · rintro ⟨v, hv⟩
    obtain ⟨hin, s, hs, path⟩ := (get?_sweep_iff hentries).1 hv
    have hn := Pairs.mem_names_of_get? hin
    have hne := ((mem_names_withoutElement_iff h hname).1 (path_within hn path).1).1
    exact ⟨((mem_names_withoutElement_iff h hname).1 hn).2, s,
      (mem_startsOf_iff h hname hne).1 hs, hne, (path_withoutElement_iff h hname hne).1 path⟩
  · rintro ⟨hn, r, hr, hne, path⟩
    have hnot : n ≠ element := by
      cases path with
      | refl => exact hne
      | tail _ step => exact step.1
    obtain ⟨v, hv⟩ := hentries.keyed.mem_names_iff.1
      ((mem_names_withoutElement_iff h hname).2 ⟨hnot, hn⟩)
    exact ⟨v, (get?_sweep_iff hentries).2 ⟨hv, r, (mem_startsOf_iff h hname hne).2 hr,
      (path_withoutElement_iff h hname hne).2 path⟩⟩

/-- Collapsing keeps what can be reached past the element, and nothing of what it keeps lists
what is gone. -/
theorem collapsed_collapseElements : Collapsed grammar documentTypes element elements
    (collapseElements grammar element documentTypes elements) := by
  have hentries := isEntries_withoutElement h hname
  have hafter : collapseElements grammar element documentTypes elements =
      sweep (startsOf grammar documentTypes element elements)
        (withoutElement element elements) := rfl
  have hswept := isEntries_sweep hentries (startsOf grammar documentTypes element elements)
  rw [hafter]
  refine ⟨hswept.keyed, ?_, fun n => ?_, fun n v hv => ?_, fun a b => ?_, fun a b hlinks => ?_,
    fun starts hstarts => ?_⟩
  · exact ((sweep_sublist _ _).filterMap _).trans (names_withoutElement_sublist element elements)
  · exact mem_names_sweep_startsOf_iff h hname
  · have hin := ((get?_sweep_iff hentries).1 hv).1
    rw [get?_withoutElement] at hin
    split at hin
    · cases hin
    · obtain ⟨before, hbefore, rfl⟩ := Option.map_eq_some_iff.1 hin
      exact ⟨before, hbefore, rfl⟩
  · rw [links_sweep_iff hentries, links_withoutElement_iff h hname]
    refine and_congr_right fun ha => and_iff_right ?_
    have hin := ((sweep_sublist _ _).filterMap _).subset ha
    exact ((mem_names_withoutElement_iff h hname).1 hin).1
  · obtain ⟨ha, hwithout⟩ := (links_sweep_iff hentries).1 hlinks
    have hne := ((links_withoutElement_iff h hname).1 hwithout).2.1
    exact ⟨hne, fun hb => mem_names_sweep_of_links hentries hlinks
      ((mem_names_withoutElement_iff h hname).2 ⟨hne, hb⟩)⟩
  · refine sweep_sweep hentries fun s hs hknown => hstarts s ?_
    have hne := ((mem_names_withoutElement_iff h hname).1 hknown).1
    exact (mem_startsOf_iff h hname hne).1 hs

end Without

/-- Collapsing an element of an accepted profile changes its entries only. Those that are left are
the entries that can be reached from the document types, the root and the entries without a
parent, on paths that avoid the element. -/
theorem collapse_keeps_reachable {grammar : Model} {element text : String} {r : Restriction}
    (hknown : grammar.hasElement element = true) (hname : element ≠ choiceKey)
    (haccepted : (Profile.read text).profile = some r) (hentry : element ∈ r.elements.keys) :
    ∃ root fields elements after, Accepted text r root fields elements ∧
      collapse grammar element text = .ok (Tree.render (.mapping (Pairs.set "profile"
        (.mapping (Pairs.set "elements" (.mapping after) fields)) root))) ∧
      Collapsed grammar r.documentTypes element elements after := by
  obtain ⟨root, fields, elements, h⟩ := Profile.accepted_of_read haccepted
  refine ⟨root, fields, elements, _, h, ?_, collapsed_collapseElements h.entries hname⟩
  have hin := (h.keys element).1 hentry
  have hcontains : ((Tree.elements? (.mapping root)).any fun e => Pairs.contains e element) =
      true := by
    rw [h.elements?_eq hin, Option.any_some]
    exact h.entries.keyed.contains_iff.2 hin
  have hedit : collapseTree grammar element (.mapping root) = some (.mapping (Pairs.set "profile"
      (.mapping (Pairs.set "elements" (.mapping
        (collapseElements grammar element r.documentTypes elements)) fields)) root)) := by
    unfold collapseTree
    rw [if_pos hcontains, h.editElements, h.documentTypes]
  unfold collapse
  rw [hknown, Bool.not_true, if_neg Bool.false_ne_true, h.editText_eq_ok hedit]

/-- A grammar of bold text. -/
def boldGrammar : Model :=
  ⟨.ofList [("b", ⟨"b", "bold", none, [], [], [], [], ""⟩)], ∅, none⟩

/-- Paragraphs that may hold bold text. -/
def boldProfile : String :=
  "profile: \x7belements: \x7bp: \x7bchildren: \x7bb: \x7d\x7d, b: \x7d\x7d"

theorem read_boldProfile : ∃ r, (Profile.read boldProfile).profile = some r ∧
    "b" ∈ r.elements.keys ∧ "p" ∈ r.elements.keys := by
  obtain ⟨r, hr, hkeys⟩ : ∃ r, (Profile.read boldProfile).profile = some r ∧
      (r.elements.contains "b" && r.elements.contains "p") = true :=
    Profile.exists_profile rfl (by decide +kernel)
  obtain ⟨hb, hp⟩ := Bool.and_eq_true_iff.1 hkeys
  exact ⟨r, hr, OrderedMap.contains_iff.1 hb, OrderedMap.contains_iff.1 hp⟩

theorem collapse_bold : ∃ r root fields elements after,
    (Profile.read boldProfile).profile = some r ∧ "b" ∈ r.elements.keys ∧
      Accepted boldProfile r root fields elements ∧
      collapse boldGrammar "b" boldProfile = .ok (Tree.render (.mapping (Pairs.set "profile"
        (.mapping (Pairs.set "elements" (.mapping after) fields)) root))) ∧
      Collapsed boldGrammar r.documentTypes "b" elements after := by
  obtain ⟨r, hr, hentry, _⟩ := read_boldProfile
  have hknown : boldGrammar.hasElement "b" = true := by decide
  obtain ⟨root, fields, elements, after, hafter⟩ :=
    collapse_keeps_reachable hknown (by decide) hr hentry
  exact ⟨r, root, fields, elements, after, hr, hentry, hafter⟩

end GrammarProfile.Cascade
