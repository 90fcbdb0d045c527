import GrammarProfile.Grammar.Loader
import GrammarProfile.Proofs.OrderedMap
import GrammarProfile.Proofs.Placements

/-!
Where the names in a content model come from: an element that is declared in passing, or a
reference, both of which stand in the document that declares the content model.
-/
namespace GrammarProfile

namespace Xml

/-- An element of a document together with all that is inside it. -/
def Element.Inside (document : List Node) (e : Element) : Prop :=
  e.tag ∈ Node.tagsOf document ∧ Node.tagsOf e.content ⊆ Node.tagsOf document

namespace Node

variable {document nodes : List Node}

theorem tagsOf_subset_of_cons {n : Node} {rest : List Node}
    (h : tagsOf (n :: rest) ⊆ tagsOf document) :
    tags n ⊆ tagsOf document ∧ tagsOf rest ⊆ tagsOf document := by
  rw [tagsOf, List.append_subset] at h
  exact h

theorem inside_of_tags {tag : Tag} {content : List Node}
    (h : tags (.element tag content) ⊆ tagsOf document) : Element.Inside document ⟨tag, content⟩ := by
  rw [tags] at h
  exact List.cons_subset.1 h

theorem inside_of_mem_elements (h : tagsOf nodes ⊆ tagsOf document) {e : Element}
    (he : e ∈ elements nodes) : e.Inside document := by
  induction nodes with
  | nil => exact absurd he List.not_mem_nil
  | cons n rest ih =>
      obtain ⟨hnode, hrest⟩ := tagsOf_subset_of_cons h
      cases n with
      | element tag content =>
          rcases List.mem_cons.1 he with rfl | he
          · exact inside_of_tags hnode
          · exact ih hrest he
      | text s => exact ih hrest he
      | remark => exact ih hrest he

end Node

end Xml

namespace Grammar

open GrammarProfile.Xml (Tag Node)

variable {document content : List Node}

theorem inside_of_mem_schemaElements (h : Node.tagsOf content ⊆ Node.tagsOf document)
    {e : Xml.Element} (he : e ∈ schemaElements content) : e.Inside document :=
  Node.inside_of_mem_elements h (List.mem_of_mem_filter he)

theorem inside_of_schemaElement? (h : Node.tagsOf content ⊆ Node.tagsOf document)
    {name : String} {e : Xml.Element} (he : schemaElement? content name = some e) :
    e.Inside document :=
  inside_of_mem_schemaElements h (List.mem_of_find?_eq_some he)

theorem tags_of_compositor? (h : Node.tagsOf content ⊆ Node.tagsOf document) {n : Node}
    (hn : compositor? content = some n) : Node.tags n ⊆ Node.tagsOf document := by
  obtain ⟨e, he, rfl⟩ := Option.map_eq_some_iff.1 hn
  have hinside := inside_of_mem_schemaElements h (List.mem_of_find?_eq_some he)
  rw [Node.tags]
  exact List.cons_subset.2 hinside

/-! ## Declarations -/

namespace Declarations

/-- The declarations that a content model can refer to are those of a document. -/
structure Inside (document : List Node) (d : Declarations) : Prop where
  complexTypes : ∀ p ∈ d.complexTypes.pairs, p.2.Inside document
  groups : ∀ p ∈ d.groups.pairs, p.2.Inside document
  elements : ∀ p ∈ d.elements.pairs, p.2.Inside document

theorem Inside.add {d : Declarations} (h : d.Inside document) {e : Xml.Element}
    (he : e.Inside document) : (d.add e).Inside document := by
  have hset : ∀ {m : OrderedMap Xml.Element} {name : String},
      (∀ p ∈ m.pairs, p.2.Inside document) → ∀ p ∈ (m.insert name e).pairs, p.2.Inside document := by
    intro m name hm p hp
    rcases mem_setPair hp with rfl | hp
    · exact he
    · exact hm p hp
  unfold Declarations.add
  split
  · exact h
  · split
    · exact ⟨hset h.complexTypes, h.groups, h.elements⟩
    · exact ⟨h.complexTypes, h.groups, h.elements⟩
    · exact ⟨h.complexTypes, hset h.groups, h.elements⟩
    · exact ⟨h.complexTypes, h.groups, h.elements⟩
    · exact ⟨h.complexTypes, h.groups, hset h.elements⟩
    · exact ⟨h.complexTypes, h.groups, h.elements⟩
    · exact h

theorem inside_ofContent (document : List Node) : (ofContent document).Inside document := by
  have hnone : ∀ p ∈ (∅ : OrderedMap Xml.Element).pairs, p.2.Inside document :=
    fun p hp => absurd hp List.not_mem_nil
  have hfold : ∀ (es : List Xml.Element) (d : Declarations), d.Inside document →
      (∀ e ∈ es, e.Inside document) → (es.foldl add d).Inside document := by
    intro es
    induction es with
    | nil => exact fun d hd _ => hd
    | cons e rest ih =>
        intro d hd hes
        exact ih _ (hd.add (hes e List.mem_cons_self)) fun f hf => hes f (List.mem_cons_of_mem _ hf)
  exact hfold _ _ ⟨hnone, hnone, hnone⟩ fun e he =>
    inside_of_mem_schemaElements (List.Subset.refl _) he

end Declarations

/-! ## Names in a content model -/

/-- An element of the document, written with a reference, refers to a name. -/
def Referred (document : List Node) (name : String) : Prop :=
  ∃ t ∈ Node.tagsOf document, isSchema t "element" = true ∧
    (t.attribute? "ref").map localName = some name

/-- An element that the document declares by a name. -/
structure DeclaredAs (document : List Node) (name : String) (e : Xml.Element) : Prop where
  inside : e.Inside document
  name : e.tag.attribute? "name" = some name

section Nodes

variable {group : String → Particle} {declared : String → List (String × Xml.Element)}

mutual

theorem mem_mentions_particle?
    (hgroup : ∀ g, ∀ n ∈ (group g).mentions,
      n ∈ (declared g).map Prod.fst ∨ Referred document n) :
    ∀ (node : Node), Node.tags node ⊆ Node.tagsOf document → ∀ p, particle? group node = some p →
      ∀ n ∈ p.mentions, n ∈ (localElements declared node).map Prod.fst ∨ Referred document n
  | .text _, _, p, hp => by simp [particle?] at hp
  | .remark, _, p, hp => by simp [particle?] at hp
  | .element tag content, hinside, p, hp => by
      have hitems := mem_mentions_particles hgroup content
        (Node.inside_of_tags hinside).2
      unfold particle? at hp
      unfold localElements
      split at hp
      · cases hp
      · next hschema =>
        rw [if_neg hschema]
        split at hp
        · -- An element: a reference, or a declaration in passing.
          next helement =>
          split at hp
          · next reference href =>
            cases hp
            intro n hn
            rw [Particle.mentions, List.mem_singleton] at hn
            refine .inr ⟨tag, (Node.inside_of_tags hinside).1, ?_, ?_⟩
            · simpa [isSchema, helement] using hschema
            · rw [href, hn, Option.map_some]
          · next name href hname =>
            cases hp
            intro n hn
            rw [Particle.mentions, List.mem_singleton] at hn
            subst hn
            rw [helement, href, hname]
            exact .inl List.mem_cons_self
          · cases hp
        · next hname =>
          cases hp
          rw [hname, Particle.mentions]
          exact hitems
        · next hname =>
          cases hp
          rw [hname, Particle.mentions]
          exact hitems
        · next hname =>
          cases hp
          rw [hname, Particle.mentions]
          exact hitems
        · next hname =>
          split at hp
          · next reference href =>
            cases hp
            rw [hname, href, Particle.mentions]
            exact hgroup _
          · cases hp
        · cases hp
          intro n hn
          rw [Particle.mentions] at hn
          exact absurd hn List.not_mem_nil
        · cases hp

theorem mem_mentions_particles
    (hgroup : ∀ g, ∀ n ∈ (group g).mentions,
      n ∈ (declared g).map Prod.fst ∨ Referred document n) :
    ∀ (nodes : List Node), Node.tagsOf nodes ⊆ Node.tagsOf document →
      ∀ n ∈ Particle.mentionsOf (particles group nodes),
        n ∈ (localElementsOf declared nodes).map Prod.fst ∨ Referred document n
  | [], _, n, hn => by simp [particles, Particle.mentionsOf] at hn
  | node :: rest, hinside, n, hn => by
      obtain ⟨hnode, hrest⟩ := Node.tagsOf_subset_of_cons hinside
      have hothers := mem_mentions_particles hgroup rest hrest n
      rw [localElementsOf, List.map_append, List.mem_append]
      rw [particles] at hn
      split at hn
      · next p hp =>
        rw [Particle.mentionsOf, List.mem_append] at hn
        rcases hn with hn | hn
        · exact (mem_mentions_particle? hgroup node hnode p hp n hn).imp_left .inl
        · exact (hothers hn).imp_left .inr
      · exact (hothers hn).imp_left .inr

end

mutual

theorem declaredAs_localElements
    (hgroup : ∀ g, ∀ p ∈ declared g, DeclaredAs document p.1 p.2) :
    ∀ (node : Node), Node.tags node ⊆ Node.tagsOf document →
      ∀ p ∈ localElements declared node, DeclaredAs document p.1 p.2
  | .text _, _, p, hp => by simp [localElements] at hp
  | .remark, _, p, hp => by simp [localElements] at hp
  | .element tag content, hinside, p, hp => by
      have hitems := declaredAs_localElementsOf hgroup content (Node.inside_of_tags hinside).2 p
      unfold localElements at hp
      split at hp
      · exact absurd hp List.not_mem_nil
      · split at hp
        · split at hp
          · next hname =>
            obtain rfl := List.mem_singleton.1 hp
            exact ⟨Node.inside_of_tags hinside, hname⟩
          · exact absurd hp List.not_mem_nil
        · exact hitems hp
        · exact hitems hp
        · exact hitems hp
        · split at hp
          · exact hgroup _ p hp
          · exact absurd hp List.not_mem_nil
        · exact absurd hp List.not_mem_nil

theorem declaredAs_localElementsOf
    (hgroup : ∀ g, ∀ p ∈ declared g, DeclaredAs document p.1 p.2) :
    ∀ (nodes : List Node), Node.tagsOf nodes ⊆ Node.tagsOf document →
      ∀ p ∈ localElementsOf declared nodes, DeclaredAs document p.1 p.2
  | [], _, p, hp => by simp [localElementsOf] at hp
  | node :: rest, hinside, p, hp => by
      obtain ⟨hnode, hrest⟩ := Node.tagsOf_subset_of_cons hinside
      rw [localElementsOf, List.mem_append] at hp
      rcases hp with hp | hp
      · exact declaredAs_localElements hgroup node hnode p hp
      · exact declaredAs_localElementsOf hgroup rest hrest p hp

end

end Nodes

namespace Declarations

variable {d : Declarations}

theorem mem_mentions_groupContent (hd : d.Inside document) (fuel : ℕ) :
    ∀ (opened : List String) (g : String), ∀ n ∈ (d.groupContent fuel opened g).mentions,
      n ∈ (d.groupElements fuel opened g).map Prod.fst ∨ Referred document n := by
  induction fuel with
  | zero =>
      intro opened g n hn
      simp [groupContent, Particle.empty, Particle.mentions, Particle.mentionsOf] at hn
  | succ fuel ih =>
      have hempty : ∀ (declared : List (String × Xml.Element)), ∀ n ∈ Particle.empty.mentions,
          n ∈ declared.map Prod.fst ∨ Referred document n := by
        intro declared n hn
        simp [Particle.empty, Particle.mentions, Particle.mentionsOf] at hn
      intro opened g
      unfold groupContent groupElements
      split
      · exact hempty _
      · next e he =>
        split
        · exact hempty _
        · have hinside := hd.groups _ (OrderedMap.get?_eq_some_iff.1 he)
          cases hn : compositor? e.content with
          | none => exact hempty _
          | some node =>
              rw [Option.bind_some]
              cases hp : particle? (d.groupContent fuel (g :: opened)) node with
              | none => exact hempty _
              | some p =>
                  exact mem_mentions_particle? (ih (g :: opened)) node
                    (tags_of_compositor? hinside.2 hn) p hp

theorem declaredAs_groupElements (hd : d.Inside document) (fuel : ℕ) :
    ∀ (opened : List String) (g : String), ∀ p ∈ d.groupElements fuel opened g,
      DeclaredAs document p.1 p.2 := by
  induction fuel with
  | zero => exact fun _ _ p hp => absurd hp List.not_mem_nil
  | succ fuel ih =>
      intro opened g p hp
      unfold groupElements at hp
      split at hp
      · exact absurd hp List.not_mem_nil
      · next e he =>
        have hinside := hd.groups _ (OrderedMap.get?_eq_some_iff.1 he)
        split at hp
        · exact absurd hp List.not_mem_nil
        · split at hp
          · next node hn =>
            exact declaredAs_localElements (ih (g :: opened)) node
              (tags_of_compositor? hinside.2 hn) p hp
          · exact absurd hp List.not_mem_nil

/-- A name in a content model is declared there in passing, or referred to. -/
theorem mem_mentions_contentModel (hd : d.Inside document)
    (h : Node.tagsOf content ⊆ Node.tagsOf document) {n : String}
    (hn : n ∈ (d.contentModel content).mentions) :
    n ∈ (d.contentElements content).map Prod.fst ∨ Referred document n := by
  unfold contentModel at hn
  unfold contentElements
  cases hnode : compositor? content with
  | none =>
      rw [hnode] at hn
      simp [Particle.empty, Particle.mentions, Particle.mentionsOf] at hn
  | some node =>
      rw [hnode, Option.bind_some] at hn
      cases hp : particle? (d.groupContent (d.groups.size + 1) []) node with
      | none =>
          rw [hp] at hn
          simp [Particle.empty, Particle.mentions, Particle.mentionsOf] at hn
      | some p =>
          rw [hp] at hn
          exact mem_mentions_particle? (mem_mentions_groupContent hd _ []) node
            (tags_of_compositor? h hnode) p hp n hn

/-- What is declared in passing is an element of the document with a name. -/
theorem declaredAs_contentElements (hd : d.Inside document)
    (h : Node.tagsOf content ⊆ Node.tagsOf document) {p : String × Xml.Element}
    (hp : p ∈ d.contentElements content) : DeclaredAs document p.1 p.2 := by
  unfold contentElements at hp
  split at hp
  · next node hnode =>
    exact declaredAs_localElements (declaredAs_groupElements hd _ []) node
      (tags_of_compositor? h hnode) p hp
  · exact absurd hp List.not_mem_nil

end Declarations

end Grammar

end GrammarProfile
