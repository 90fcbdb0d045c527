import GrammarProfile.Proofs.TextualValues
import GrammarProfile.Proofs.Written

/-!
The text that is written for a profile is read as this profile.
-/
namespace GrammarProfile.Profile

open GrammarProfile.Yaml (Value Pairs)
open GrammarProfile.Yaml.Value (Textual)

/-! ## Mappings with known keys -/

/-- Pairs with some of the names given as their keys, in this order. -/
structure FieldsOf (names : List String) (pairs : Pairs) : Prop where
  textual : ∀ p ∈ pairs, ∃ n, p.1 = .string n
  sublist : (Pairs.names pairs).Sublist names

theorem fieldsOf_field (name : String) (isPresent : Bool) (v : Value) :
    FieldsOf [name] (field name isPresent v) := by
  cases isPresent with
  | false => exact ⟨fun _ h => absurd h List.not_mem_nil, List.nil_sublist _⟩
  | true => exact ⟨List.forall_mem_singleton.2 ⟨name, rfl⟩, List.Sublist.refl _⟩

theorem fieldsOf_mapTree {α : Type} (m : OrderedMap α) (value : α → Value) :
    FieldsOf m.keys (mapTree m value) := by
  refine ⟨fun p hp => ?_, (names_mapTree m value).symm ▸ List.Sublist.refl _⟩
  obtain ⟨q, -, rfl⟩ := List.mem_map.1 hp
  exact ⟨q.1, rfl⟩

theorem FieldsOf.append {names more : List String} {pairs rest : Pairs} (h : FieldsOf names pairs)
    (h' : FieldsOf more rest) : FieldsOf (names ++ more) (pairs ++ rest) where
  textual p hp := (List.mem_append.1 hp).elim (h.textual p) (h'.textual p)
  sublist := Pairs.names_append pairs rest ▸ h.sublist.append h'.sublist

theorem FieldsOf.keyed {names : List String} {pairs : Pairs} (h : FieldsOf names pairs)
    (hnames : names.Nodup) : pairs.Keyed := ⟨h.textual, h.sublist.nodup hnames⟩

/-! ## Profiles as values of texts -/

variable {depth : Nat}

theorem textual_keyed {pairs : Pairs} (h : pairs.Keyed) (hvalues : ∀ p ∈ pairs, p.2.Textual depth) :
    (Value.mapping pairs).Textual (depth + 1) := by
  refine .mapping h.different (fun p hp => ?_) hvalues
  obtain ⟨n, hn⟩ := h.textual p hp
  exact hn ▸ .string n

theorem textual_texts (depth : Nat) (xs : List String) : (texts xs).Textual (depth + 1) := by
  refine .sequence fun v hv => ?_
  obtain ⟨x, -, rfl⟩ := List.mem_map.1 hv
  exact .string x

theorem textual_field {name : String} {isPresent : Bool} {v : Value} (h : v.Textual depth) :
    ∀ p ∈ field name isPresent v, p.2.Textual depth := by
  cases isPresent with
  | false => exact fun _ hp => absurd hp List.not_mem_nil
  | true => exact List.forall_mem_singleton.2 h

theorem textual_mapTree {α : Type} {m : OrderedMap α} {value : α → Value}
    (h : ∀ p ∈ m.pairs, (value p.2).Textual depth) : ∀ p ∈ mapTree m value, p.2.Textual depth := by
  intro p hp
  obtain ⟨q, hq, rfl⟩ := List.mem_map.1 hp
  exact h q hq

theorem textual_map {α : Type} {m : OrderedMap α} {value : α → Value}
    (h : ∀ p ∈ m.pairs, (value p.2).Textual depth) :
    (Value.mapping (mapTree m value)).Textual (depth + 1) :=
  textual_keyed ((fieldsOf_mapTree m value).keyed m.distinct) (textual_mapTree h)

theorem textual_label (depth : Nat) (label : Option String) : (labelTree label).Textual depth := by
  cases label with
  | none => exact .null
  | some s => exact .string s

theorem AttributeRule.textual_toTree (depth : Nat) (rule : AttributeRule) :
    rule.toTree.Textual (depth + 2) := by
  refine textual_keyed (((fieldsOf_field ..).append (fieldsOf_field ..)).keyed (by decide)) ?_
  exact List.forall_mem_append.2
    ⟨textual_field (.bool _), textual_field (textual_texts depth rule.values)⟩

namespace ElementRule

theorem keyed_childrenTree {rule : ElementRule} (h : rule.Writable) :
    Pairs.Keyed rule.childrenTree := by
  refine ((fieldsOf_mapTree ..).append (fieldsOf_field ..)).keyed ?_
  exact List.nodup_append.2 ⟨rule.children.distinct, List.nodup_singleton _, fun n hn m hm hnm =>
    h.children (List.mem_singleton.1 hm ▸ hnm ▸ hn)⟩

theorem textual_childrenTree {rule : ElementRule} (h : rule.Writable) (depth : Nat) :
    (Value.mapping rule.childrenTree).Textual (depth + 2) := by
  refine textual_keyed (keyed_childrenTree h) (List.forall_mem_append.2
    ⟨textual_mapTree fun p _ => textual_label _ p.2, textual_field ?_⟩)
  split
  · exact .null
  · exact textual_map fun p _ => textual_label depth p.2

theorem textual_toTree {rule : ElementRule} (h : rule.Writable) (depth : Nat) :
    rule.toTree.Textual (depth + 4) := by
  unfold toTree
  split
  · exact .null
  · refine textual_keyed ((((fieldsOf_field ..).append (fieldsOf_field ..)).append
      (fieldsOf_field ..)).append (fieldsOf_field ..) |>.keyed (by decide)) ?_
    refine List.forall_mem_append.2 ⟨List.forall_mem_append.2 ⟨List.forall_mem_append.2
      ⟨textual_field (.string _), textual_field ?_⟩, textual_field ?_⟩, textual_field ?_⟩
    · exact textual_map fun p _ => p.2.textual_toTree depth
    · exact textual_childrenTree h (depth + 1)
    · exact textual_texts (depth + 2) rule.parts

end ElementRule

namespace Restriction

variable {r : Restriction}

theorem textual_document (h : r.Writable) (depth : Nat) : r.document.Textual (depth + 7) := by
  refine textual_keyed (Pairs.keyed_cons.2 ⟨List.not_mem_nil, Pairs.keyed_nil⟩)
    (List.forall_mem_singleton.2 ?_)
  refine textual_keyed (((((fieldsOf_field ..).append (fieldsOf_field ..)).append
    (fieldsOf_field ..)).append (fieldsOf_field ..)).append (fieldsOf_field ..) |>.keyed (by decide)) ?_
  refine List.forall_mem_append.2 ⟨List.forall_mem_append.2 ⟨List.forall_mem_append.2
    ⟨List.forall_mem_append.2 ⟨textual_field (.string _), textual_field (.string _)⟩,
      textual_field (.string _)⟩, textual_field ?_⟩, textual_field ?_⟩
  · exact textual_texts (depth + 4) r.documentTypes
  · exact textual_map fun p hp => ElementRule.textual_toTree (h p hp) depth

/-- The text that is written for a profile is read as this profile, if every literal block in it is
recognised. -/
theorem read_render (h : r.Writable) (hseen : r.document.blocksSeen false false = true) :
    read r.render = ⟨some r, [], LineIndex.ofText r.render⟩ := by
  have hread : Yaml.read r.render = .ok r.document :=
    Yaml.read_tidy_textual (textual_document h 0) (by decide) hseen
  unfold read
  rw [hread]
  exact ofValue_document h _

end Restriction

end GrammarProfile.Profile
