import GrammarProfile.Proofs.Declared
import GrammarProfile.Proofs.Loaded

/-!
The elements that content models declare in passing are declarations inside those at the top of the
document, and the declarations at the top are found by kind and name, in whatever order they stand.
-/
namespace GrammarProfile

namespace Xml.Node

mutual

def decideEq : (a b : Node) → Decidable (a = b)
  | .element tag content, .element tag' content' =>
    if htag : tag = tag' then
      match decideEqs content content' with
      | isTrue h => isTrue (by rw [htag, h])
      | isFalse h => isFalse fun heq => h (Node.element.inj heq).2
    else isFalse fun heq => htag (Node.element.inj heq).1
  | .text s, .text s' => decidable_of_iff (s = s') ⟨congrArg Node.text, Node.text.inj⟩
  | .remark, .remark => isTrue rfl
  | .element _ _, .text _ => isFalse Node.noConfusion
  | .element _ _, .remark => isFalse Node.noConfusion
  | .text _, .element _ _ => isFalse Node.noConfusion
  | .text _, .remark => isFalse Node.noConfusion
  | .remark, .element _ _ => isFalse Node.noConfusion
  | .remark, .text _ => isFalse Node.noConfusion

def decideEqs : (as bs : List Node) → Decidable (as = bs)
  | [], [] => isTrue rfl
  | a :: as, b :: bs =>
    match decideEq a b, decideEqs as bs with
    | isTrue h, isTrue h' => isTrue (by rw [h, h'])
    | isFalse h, _ => isFalse fun heq => h (List.cons.inj heq).1
    | _, isFalse h => isFalse fun heq => h (List.cons.inj heq).2
  | [], _ :: _ => isFalse (List.cons_ne_nil _ _).symm
  | _ :: _, [] => isFalse (List.cons_ne_nil _ _)

end

instance : DecidableEq Node := decideEq

mutual

/-- Every element of a tree with its content, the node itself included, in document order. -/
def subelements : Node → List Element
  | .element tag content => ⟨tag, content⟩ :: subelementsOf content
  | .text _ => []
  | .remark => []

def subelementsOf : List Node → List Element
  | [] => []
  | n :: rest => subelements n ++ subelementsOf rest

end

mutual

theorem tags_eq_map : ∀ n : Node, tags n = (subelements n).map Element.tag
  | .element _ content => by
      rw [tags, subelements, List.map_cons, tagsOf_eq_map content]
  | .text _ => by rw [tags, subelements, List.map_nil]
  | .remark => by rw [tags, subelements, List.map_nil]

theorem tagsOf_eq_map : ∀ nodes : List Node, tagsOf nodes = (subelementsOf nodes).map Element.tag
  | [] => by rw [tagsOf, subelementsOf, List.map_nil]
  | n :: rest => by
      rw [tagsOf, subelementsOf, List.map_append, tags_eq_map n, tagsOf_eq_map rest]

end

theorem mem_subelementsOf_of_mem_elements {nodes : List Node} {e : Element} (h : e ∈ elements nodes) :
    e ∈ subelementsOf nodes := by
  induction nodes with
  | nil => exact absurd h List.not_mem_nil
  | cons n rest ih =>
      refine List.mem_append.2 ?_
      cases n with
      | element tag content =>
          obtain rfl | h := List.mem_cons.1 h
          · exact .inl List.mem_cons_self
          · exact .inr (ih h)
      | text s => exact .inr (ih h)
      | remark => exact .inr (ih h)

mutual

theorem inside_of_mem_subelements {document : List Node} {e : Element} :
    ∀ n : Node, tags n ⊆ tagsOf document → e ∈ subelements n → e.Inside document
  | .element _ content, hn, h => by
      obtain rfl | h := List.mem_cons.1 h
      · exact inside_of_tags hn
      · exact inside_of_mem_subelementsOf content (inside_of_tags hn).2 h
  | .text _, _, h => absurd h List.not_mem_nil
  | .remark, _, h => absurd h List.not_mem_nil

theorem inside_of_mem_subelementsOf {document : List Node} {e : Element} :
    ∀ nodes : List Node, tagsOf nodes ⊆ tagsOf document → e ∈ subelementsOf nodes →
      e.Inside document
  | [], _, h => absurd h List.not_mem_nil
  | n :: rest, hnodes, h => by
      obtain ⟨hnode, hrest⟩ := tagsOf_subset_of_cons hnodes
      obtain h | h := List.mem_append.1 h
      · exact inside_of_mem_subelements n hnode h
      · exact inside_of_mem_subelementsOf rest hrest h

end

mutual

/-- What is inside an element of a tree is inside the tree. -/
theorem subelements_subset {e : Element} :
    ∀ n : Node, e ∈ subelements n → subelementsOf e.content ⊆ subelements n
  | .element tag content, h => by
      obtain rfl | h := List.mem_cons.1 h
      · exact List.subset_cons_self _ _
      · exact List.Subset.trans (subelementsOf_subset content h) (List.subset_cons_self _ _)
  | .text _, h => absurd h List.not_mem_nil
  | .remark, h => absurd h List.not_mem_nil

theorem subelementsOf_subset {e : Element} :
    ∀ nodes : List Node, e ∈ subelementsOf nodes → subelementsOf e.content ⊆ subelementsOf nodes
  | [], h => absurd h List.not_mem_nil
  | n :: rest, h => by
      obtain h | h := List.mem_append.1 h
      · exact List.Subset.trans (subelements_subset n h) (List.subset_append_left _ _)
      · exact List.Subset.trans (subelementsOf_subset rest h) (List.subset_append_right _ _)

end

end Xml.Node

namespace Grammar

open GrammarProfile.Xml (Tag Node)

variable {document content : List Node} {d : Declarations}

/-! ## Inside the declarations of a document -/

/-- All elements inside the declarations at the top of a document. -/
def inner (document : List Node) : List Xml.Element :=
  (schemaElements document).flatMap fun top => Node.subelementsOf top.content

/-- A content that stands inside a declaration at the top of a document. -/
def Within (document content : List Node) : Prop := Node.subelementsOf content ⊆ inner document

theorem Within.of_top {e : Xml.Element} (he : e ∈ schemaElements document) :
    Within document e.content :=
  fun _ h => List.mem_flatMap.2 ⟨e, he, h⟩

theorem Within.of_inner {e : Xml.Element} (he : e ∈ inner document) : Within document e.content := by
  obtain ⟨top, htop, h⟩ := List.mem_flatMap.1 he
  exact List.Subset.trans (Node.subelementsOf_subset _ h) (Within.of_top htop)

theorem Within.mem_inner (h : Within document content) {e : Xml.Element}
    (he : e ∈ schemaElements content) : e ∈ inner document :=
  h (Node.mem_subelementsOf_of_mem_elements (List.mem_of_mem_filter he))

theorem Within.of_mem (h : Within document content) {e : Xml.Element}
    (he : e ∈ schemaElements content) : Within document e.content :=
  .of_inner (h.mem_inner he)

theorem Within.schemaElement? (h : Within document content) {name : String} {e : Xml.Element}
    (he : schemaElement? content name = some e) : Within document e.content :=
  h.of_mem (List.mem_of_find?_eq_some he)

theorem inside_of_mem_inner {e : Xml.Element} (he : e ∈ inner document) : e.Inside document := by
  obtain ⟨top, htop, h⟩ := List.mem_flatMap.1 he
  have hinside := inside_of_mem_schemaElements (List.Subset.refl _) htop
  exact Node.inside_of_mem_subelementsOf _ hinside.2 h

theorem Within.tags (h : Within document content) :
    Node.tagsOf content ⊆ Node.tagsOf document := by
  rw [Node.tagsOf_eq_map content]
  intro t ht
  obtain ⟨e, he, rfl⟩ := List.mem_map.1 ht
  exact (inside_of_mem_inner (h he)).1

/-- An element that is declared by a name inside a declaration at the top of a document. -/
structure DeclaredInside (document : List Node) (name : String) (e : Xml.Element) : Prop where
  inner : e ∈ inner document
  schema : isSchema e.tag "element" = true
  reference : e.tag.attribute? "ref" = none
  name : e.tag.attribute? "name" = some name

theorem DeclaredInside.declaredAs {name : String} {e : Xml.Element}
    (h : DeclaredInside document name e) : DeclaredAs document name e :=
  ⟨inside_of_mem_inner h.inner, h.name⟩

section Nodes

variable {declared : String → List (String × Xml.Element)}

mutual

theorem declaredInside_localElements
    (hgroup : ∀ g, ∀ p ∈ declared g, DeclaredInside document p.1 p.2) :
    ∀ (node : Node), Node.subelements node ⊆ inner document →
      ∀ p ∈ localElements declared node, DeclaredInside document p.1 p.2
  | .text _, _, p, hp => absurd hp List.not_mem_nil
  | .remark, _, p, hp => absurd hp List.not_mem_nil
  | .element tag content, hinner, p, hp => by
      obtain ⟨htag, hcontent⟩ := List.cons_subset.1 hinner
      have hitems := declaredInside_localElementsOf hgroup content hcontent p
      unfold localElements at hp
      split at hp
      · exact absurd hp List.not_mem_nil
      · next hschema =>
        split at hp
        · next helement =>
          split at hp
          · next hreference hname =>
            obtain rfl := List.mem_singleton.1 hp
            exact ⟨htag, by simpa [isSchema, helement] using hschema, hreference, hname⟩
          · exact absurd hp List.not_mem_nil
        · exact hitems hp
        · exact hitems hp
        · exact hitems hp
        · split at hp
          · exact hgroup _ p hp
          · exact absurd hp List.not_mem_nil
        · exact absurd hp List.not_mem_nil

theorem declaredInside_localElementsOf
    (hgroup : ∀ g, ∀ p ∈ declared g, DeclaredInside document p.1 p.2) :
    ∀ (nodes : List Node), Node.subelementsOf nodes ⊆ inner document →
      ∀ p ∈ localElementsOf declared nodes, DeclaredInside document p.1 p.2
  | [], _, p, hp => absurd hp List.not_mem_nil
  | node :: rest, hinner, p, hp => by
      obtain ⟨hnode, hrest⟩ := List.append_subset.1 hinner
      rw [localElementsOf, List.mem_append] at hp
      rcases hp with hp | hp
      · exact declaredInside_localElements hgroup node hnode p hp
      · exact declaredInside_localElementsOf hgroup rest hrest p hp

end

end Nodes

theorem Within.compositor? (h : Within document content) {node : Node}
    (hnode : compositor? content = some node) : Node.subelements node ⊆ inner document := by
  obtain ⟨e, he, rfl⟩ := Option.map_eq_some_iff.1 hnode
  have hmem := List.mem_of_find?_eq_some he
  exact List.cons_subset.2 ⟨h.mem_inner hmem, h.of_mem hmem⟩

/-! ## Declarations by kind -/

/-- The kinds of declarations at the top of a document. -/
inductive Kind where
  | complexType
  | simpleType
  | group
  | attributeGroup
  | element
  | attribute

def Kind.text : Kind → String
  | .complexType => "complexType"
  | .simpleType => "simpleType"
  | .group => "group"
  | .attributeGroup => "attributeGroup"
  | .element => "element"
  | .attribute => "attribute"

/-- A declaration at the top of a document. -/
structure DeclaredAtTop (document : List Node) (kind : Kind) (name : String) (e : Xml.Element) :
    Prop where
  top : e ∈ schemaElements document
  kind : e.tag.name = kind.text
  name : e.tag.attribute? "name" = some name

namespace Declarations

/-- The declarations of a kind. -/
def ofKind (d : Declarations) : Kind → OrderedMap Xml.Element
  | .complexType => d.complexTypes
  | .simpleType => d.simpleTypes
  | .group => d.groups
  | .attributeGroup => d.attributeGroups
  | .element => d.elements
  | .attribute => d.attributes

theorem ofKind_add (d : Declarations) (e : Xml.Element) (kind : Kind) :
    (d.add e).ofKind kind =
      match e.tag.attribute? "name" with
      | none => d.ofKind kind
      | some name => if e.tag.name = kind.text then (d.ofKind kind).insert name e else d.ofKind kind := by
  unfold add
  cases e.tag.attribute? "name" with
  | none => rfl
  | some name =>
      dsimp only
      cases kind <;> split <;> simp_all [ofKind, Kind.text]

/-- Among declarations with different kinds or names each one is found. -/
theorem get?_foldl_add {kind : Kind} {es : List Xml.Element}
    (h : ∀ n, ∀ e ∈ es, ∀ f ∈ es, e.tag.name = kind.text → f.tag.name = kind.text →
      e.tag.attribute? "name" = some n → f.tag.attribute? "name" = some n → e = f)
    (name : String) (e : Xml.Element) :
    ((es.foldl add empty).ofKind kind).get? name = some e ↔
      e ∈ es ∧ e.tag.name = kind.text ∧ e.tag.attribute? "name" = some name := by
  induction es using List.reverseRecOn with
  | nil =>
      have hnone : (empty.ofKind kind).get? name = none := by cases kind <;> rfl
      rw [List.foldl_nil, hnone]
      exact iff_of_false (Option.some_ne_none e).symm fun h => List.not_mem_nil h.1
  | append_singleton es f ih =>
      have hes := ih fun n a ha b hb =>
        h n a (List.mem_append_left _ ha) b (List.mem_append_left _ hb)
      have hskip : (¬(f.tag.name = kind.text ∧ f.tag.attribute? "name" = some name)) →
          ((e ∈ es ++ [f] ∧ e.tag.name = kind.text ∧ e.tag.attribute? "name" = some name) ↔
            e ∈ es ∧ e.tag.name = kind.text ∧ e.tag.attribute? "name" = some name) := by
        intro hf
        rw [List.mem_append, List.mem_singleton]
        refine ⟨fun he => ⟨he.1.resolve_right ?_, he.2⟩, fun he => ⟨.inl he.1, he.2⟩⟩
        rintro rfl
        exact hf he.2
      rw [List.foldl_append, List.foldl_cons, List.foldl_nil, ofKind_add]
      cases hname : f.tag.attribute? "name" with
      | none =>
          rw [hskip fun hf => Option.some_ne_none name (hf.2.symm.trans hname)]
          exact hes
      | some n =>
          dsimp only
          split
          · next hkind =>
            rw [OrderedMap.get?_insert]
            split
            · next hn =>
              subst hn
              rw [Option.some.injEq]
              refine ⟨?_, fun he => ?_⟩
              · rintro rfl
                exact ⟨List.mem_append_right _ (List.mem_singleton_self _), hkind, hname⟩
              · exact h name f (List.mem_append_right _ (List.mem_singleton_self _)) e he.1 hkind
                  he.2.1 hname he.2.2
            · next hn =>
              rw [hskip fun hf => hn (Option.some.inj (hf.2.symm.trans hname))]
              exact hes
          · next hkind =>
            rw [hskip fun hf => hkind hf.1]
            exact hes

end Declarations

/-- No two declarations of one kind at the top of a document share a name. -/
def DistinctTop (document : List Node) : Prop :=
  ∀ kind name e f, DeclaredAtTop document kind name e → DeclaredAtTop document kind name f → e = f

namespace Declarations

theorem get?_ofContent (h : DistinctTop document) (kind : Kind) (name : String) (e : Xml.Element) :
    ((ofContent document).ofKind kind).get? name = some e ↔ DeclaredAtTop document kind name e := by
  have hdistinct : ∀ n, ∀ a ∈ schemaElements document, ∀ b ∈ schemaElements document,
      a.tag.name = kind.text → b.tag.name = kind.text →
      a.tag.attribute? "name" = some n → b.tag.attribute? "name" = some n → a = b :=
    fun n a ha b hb hka hkb hna hnb => h kind n a b ⟨ha, hka, hna⟩ ⟨hb, hkb, hnb⟩
  rw [ofContent, get?_foldl_add hdistinct]
  exact ⟨fun he => ⟨he.1, he.2.1, he.2.2⟩, fun he => ⟨he.top, he.kind, he.name⟩⟩

/-- The declarations that content models are read from have their contents inside a document. -/
structure Grounded (document : List Node) (d : Declarations) : Prop where
  complexTypes : ∀ name e, d.complexTypes.get? name = some e → Within document e.content
  groups : ∀ name e, d.groups.get? name = some e → Within document e.content
  elements : ∀ name e, d.elements.get? name = some e → Within document e.content

theorem mem_of_get?_foldl_add {kind : Kind} {es : List Xml.Element} {name : String} {e : Xml.Element}
    (h : ((es.foldl add empty).ofKind kind).get? name = some e) : e ∈ es := by
  induction es using List.reverseRecOn with
  | nil => cases kind <;> exact absurd h (Option.some_ne_none e).symm
  | append_singleton es f ih =>
      rw [List.foldl_append, List.foldl_cons, List.foldl_nil, ofKind_add] at h
      split at h
      · exact List.mem_append_left _ (ih h)
      · split at h
        · rw [OrderedMap.get?_insert] at h
          split at h
          · exact List.mem_append_right _ (List.mem_singleton.2 (Option.some.inj h).symm)
          · exact List.mem_append_left _ (ih h)
        · exact List.mem_append_left _ (ih h)

theorem grounded_ofContent (document : List Node) : (ofContent document).Grounded document := by
  have htop : ∀ kind name e, ((ofContent document).ofKind kind).get? name = some e →
      Within document e.content := fun kind name e he => .of_top (mem_of_get?_foldl_add he)
  exact ⟨htop .complexType, htop .group, htop .element⟩

theorem declaredInside_groupElements (hd : d.Grounded document) (fuel : Nat) :
    ∀ (opened : List String) (g : String), ∀ p ∈ d.groupElements fuel opened g,
      DeclaredInside document p.1 p.2 := by
  induction fuel with
  | zero => exact fun _ _ p hp => absurd hp List.not_mem_nil
  | succ fuel ih =>
      intro opened g p hp
      unfold groupElements at hp
      split at hp
      · exact absurd hp List.not_mem_nil
      · next e he =>
        have hinner := hd.groups g e he
        split at hp
        · exact absurd hp List.not_mem_nil
        · split at hp
          · next node hnode =>
            exact declaredInside_localElements (ih (g :: opened)) node (hinner.compositor? hnode) p hp
          · exact absurd hp List.not_mem_nil

/-- What a content model declares in passing is declared inside a declaration at the top. -/
theorem declaredInside_contentElements (hd : d.Grounded document) (h : Within document content)
    {p : String × Xml.Element} (hp : p ∈ d.contentElements content) :
    DeclaredInside document p.1 p.2 := by
  unfold contentElements at hp
  split at hp
  · next node hnode =>
    exact declaredInside_localElements (declaredInside_groupElements hd _ []) node
      (h.compositor? hnode) p hp
  · exact absurd hp List.not_mem_nil

end Declarations

end Grammar

end GrammarProfile
