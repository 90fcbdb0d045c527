import GrammarProfile.Proofs.Again
import GrammarProfile.Proofs.Growth
import GrammarProfile.Proofs.Readings

/-!
Entries that take in attributes and children. Where what is taken in agrees with the grammar and
with what the entry says already, the rule that is read from the entry only grows.
-/
namespace GrammarProfile.Cascade

open GrammarProfile.Grammar (Attribute Child ChoiceGroup Count Element Model Occurs)
open GrammarProfile.Profile
open GrammarProfile.Validation
open GrammarProfile.Yaml (Value Pairs)

/-! ## Entries that take in -/

/-- The pairs of an entry before and after its attributes and children take in what is wanted. -/
structure Takes (attributes children : String → Option Value) (before after : Pairs) : Prop where
  keyed : after.Keyed
  attributes : Fills attributes (Pairs.get? before "attributes") (Pairs.get? after "attributes")
  children : Fills children (Pairs.get? before "children") (Pairs.get? after "children")
  others : ∀ n, n ≠ "attributes" → n ≠ "children" → Pairs.get? after n = Pairs.get? before n

section Takes

variable {a b c d : String → Option Value} {u v w : Option Value} {before middle after : Pairs}

theorem Fills.exists_section (h : Fills a v w) (hv : IsSection v before) :
    ∃ after, IsSection w after ∧ ∀ n, Pairs.get? after n = (Pairs.get? before n).or (a n) := by
  cases h with
  | same hnone => exact ⟨before, hv, fun n => by rw [hnone, Option.or_none]⟩
  | gains _ hbefore hgains =>
      obtain rfl := hbefore.unique hv
      exact ⟨_, .mapping hgains.keyed, hgains.get?⟩

theorem Fills.trans (h : Fills a u v) (h' : Fills b v w) :
    Fills (fun n => (a n).or (b n)) u w := by
  cases h with
  | same hnone =>
      have hwanted : (fun n => (a n).or (b n)) = b := by
        funext n
        rw [hnone, Option.none_or]
      rw [hwanted]
      exact h'
  | gains hwanted hbefore hgains =>
      cases h' with
      | same hnone =>
          have hsame : (fun n => (a n).or (b n)) = a := by
            funext n
            rw [hnone, Option.or_none]
          rw [hsame]
          exact .gains hwanted hbefore hgains
      | gains _ hmiddle hgains' =>
          cases hmiddle
          refine .gains ?_ hbefore ⟨hgains'.keyed, hgains.kept.trans hgains'.kept, fun n => ?_⟩
          · obtain ⟨n, hn⟩ := hwanted
            obtain ⟨x, hx⟩ := Option.ne_none_iff_exists'.1 hn
            exact ⟨n, by simp [hx]⟩
          · rw [hgains'.get?, hgains.get?, Option.or_assoc]

theorem Takes.trans (h : Takes a c before middle) (h' : Takes b d middle after) :
    Takes (fun n => (a n).or (b n)) (fun n => (c n).or (d n)) before after where
  keyed := h'.keyed
  attributes := h.attributes.trans h'.attributes
  children := h.children.trans h'.children
  others := fun n hn hn' => (h'.others n hn hn').trans (h.others n hn hn')

theorem Completes.takes {o : ExpandOptions} {e : Element} {x : Value} (h : Completes o e v x)
    (hv : IsSection v before) : ∃ after, IsSection (some x) after ∧
      Takes (wantedAttribute o e) (wantedChild e) before after := by
  cases h with
  | bare hattributes hchildren =>
      have hkeyed := hv.keyed
      have hsame : IsSection (some (v.getD .null)) before := by
        cases hv with
        | missing => exact .null
        | null => exact .null
        | mapping hkeyed => exact .mapping hkeyed
      exact ⟨before, hsame, hkeyed, .same hattributes, .same hchildren, fun _ _ _ => rfl⟩
  | filled _ hfields hkeyed hattributes hchildren hothers =>
      obtain rfl := hfields.unique hv
      exact ⟨_, .mapping hkeyed, hkeyed, hattributes, hchildren, hothers⟩

/-- The document types that the root lists from now on, with their label. -/
def wantedType (present : List String) (n : String) : Option Value :=
  if n ∈ present then some (.string documentTypeLabel) else none

theorem ListsTypes.takes {present : List String} {x : Value} (h : ListsTypes present v x)
    (hv : IsSection v before) : ∃ after, IsSection (some x) after ∧
      Takes (fun _ => none) (wantedType present) before after := by
  obtain ⟨fields, after, hfields, hfills, hafter, _⟩ := isSection_of_lists h
  obtain rfl := hfields.unique hv
  refine ⟨after, hafter, hfills.keyed, ?_, hfills.filled, fun n _ hn => hfills.others n hn⟩
  rw [hfills.others _ (by decide)]
  exact .same fun _ => rfl

end Takes

/-! ## What suits an entry -/

/-- Some name is a child that is listed, or that is asked for. -/
def Chosen (rule : ElementRule) (asked : String → Prop) (names : List String) : Prop :=
  ∃ c ∈ names, c ∈ rule.children.keys ∨ asked c

/-- What is wanted agrees with the grammar and with what the entry says already. -/
structure Suits (m : Model) (e : Element) (rule : ElementRule)
    (attributes children : String → Option Value) : Prop where
  attributes : ∀ n x, attributes n = some x → ∃ d, e.attribute? n = some d ∧
    ∃ written, AttributeConforms d written ∧ ∀ path, attributeRule path x = ⟨written, []⟩
  labels : ∀ n x, children n = some x → n ≠ choiceKey ∧ ∃ label, x = .string label ∧
    (n ∉ rule.children.keys → ChildConforms m e n (some label) ∧ n ∉ rule.alternatives.keys)
  exclusive : ∀ g ∈ e.choiceGroups, g.maxOccurs = some Count.one →
    (∀ n, children n ≠ none → g.contains n = true → n ∈ rule.children.keys) ∨
      g.branches.Pairwise fun a b => ¬(Chosen rule (fun n => children n ≠ none) a.elements ∧
        Chosen rule (fun n => children n ≠ none) b.elements)

section Suits

variable {m : Model} {e : Element} {path : String} {a c : String → Option Value}
  {before after attributes children : Pairs}

theorem Takes.flaws_eq_nil (h : Takes a c before after) (hbefore : before.Keyed)
    (hattributes : IsSection (Pairs.get? before "attributes") attributes)
    (hchildren : IsSection (Pairs.get? before "children") children)
    (hsuits : Suits m e (entryRule path before).result a c)
    (hflaws : (entryRule path before).flaws = []) : (entryRule path after).flaws = [] := by
  obtain ⟨inner, hinner, hget⟩ := h.attributes.exists_section hattributes
  obtain ⟨listed, hlisted, hget'⟩ := h.children.exists_section hchildren
  obtain ⟨hattribute, hchild, hothers⟩ :=
    (flaws_entryRule_iff hbefore hattributes hchildren).1 hflaws
  rw [flaws_entryRule_iff h.keyed hinner hlisted]
  refine ⟨fun n x hx => ?_, fun n x hx => ?_, fun n w hn hn' hw => ?_⟩
  · rw [hget, Option.or_eq_some_iff] at hx
    rcases hx with hold | ⟨_, hnew⟩
    · exact hattribute n x hold
    · obtain ⟨_, _, written, _, hwritten⟩ := hsuits.attributes n x hnew
      rw [hwritten]
  · rw [hget', Option.or_eq_some_iff] at hx
    rcases hx with hold | ⟨_, hnew⟩
    · exact hchild n x hold
    · obtain ⟨hn, label, rfl, _⟩ := hsuits.labels n x hnew
      exact flaws_childEntry_label hn _ label
  · exact hothers n w hn hn' ((h.others n hn hn').symm.trans hw)

theorem Takes.attribute_cases (h : Takes a c before after) (hbefore : before.Keyed)
    (hattributes : IsSection (Pairs.get? before "attributes") attributes)
    (hsuits : Suits m e (entryRule path before).result a c) {n : String} {x : AttributeRule}
    (hx : (n, x) ∈ (entryRule path after).result.attributes.pairs) :
    (n, x) ∈ (entryRule path before).result.attributes.pairs ∨
      ∃ d, e.attribute? n = some d ∧ AttributeConforms d x := by
  obtain ⟨inner, hinner, hget⟩ := h.attributes.exists_section hattributes
  rw [← OrderedMap.get?_eq_some_iff, attributes_entryRule h.keyed hinner, hget,
    Option.map_eq_some_iff] at hx
  obtain ⟨v, hv, rfl⟩ := hx
  rcases Option.or_eq_some_iff.1 hv with hold | ⟨_, hnew⟩
  · left
    rw [← OrderedMap.get?_eq_some_iff, attributes_entryRule hbefore hattributes, hold]
    rfl
  · obtain ⟨d, hd, written, hconforms, hwritten⟩ := hsuits.attributes n v hnew
    rw [hwritten]
    exact .inr ⟨d, hd, hconforms⟩

theorem Takes.get?_children (h : Takes a c before after) (hbefore : before.Keyed)
    (hchildren : IsSection (Pairs.get? before "children") children)
    (hsuits : Suits m e (entryRule path before).result a c) (n : String) :
    (entryRule path after).result.children.get? n =
      ((entryRule path before).result.children.get? n).or ((c n).map Value.string?) := by
  obtain ⟨listed, hlisted, hget⟩ := h.children.exists_section hchildren
  rw [children_entryRule h.keyed hlisted, children_entryRule hbefore hchildren, hget]
  by_cases hn : n = choiceKey
  · have hnone : c n = none := by
      rw [Option.eq_none_iff_forall_ne_some]
      exact fun x hx => (hsuits.labels n x hx).1 hn
    rw [if_pos hn, if_pos hn, hnone]
    rfl
  · have hlabel :
        (c n).map (fun x => (Shape.cardinality (childrenPath path ++ "." ++ n) x).result) =
          (c n).map Value.string? := by
      cases hx : c n with
      | none => rfl
      | some x =>
          obtain ⟨_, label, rfl, _⟩ := hsuits.labels n x hx
          rfl
    rw [if_neg hn, if_neg hn, Option.map_or, hlabel]

theorem Takes.mem_children_iff (h : Takes a c before after) (hbefore : before.Keyed)
    (hchildren : IsSection (Pairs.get? before "children") children)
    (hsuits : Suits m e (entryRule path before).result a c) {n : String} :
    n ∈ (entryRule path after).result.children.keys ↔
      n ∈ (entryRule path before).result.children.keys ∨ c n ≠ none := by
  rw [← OrderedMap.get?_isSome, ← OrderedMap.get?_isSome,
    h.get?_children hbefore hchildren hsuits, Option.isSome_or, Bool.or_eq_true, Option.isSome_map,
    Option.ne_none_iff_isSome]

theorem Takes.child_cases (h : Takes a c before after) (hbefore : before.Keyed)
    (hchildren : IsSection (Pairs.get? before "children") children)
    (hsuits : Suits m e (entryRule path before).result a c) {n : String} {label : Option String}
    (hx : (n, label) ∈ (entryRule path after).result.children.pairs) :
    (n, label) ∈ (entryRule path before).result.children.pairs ∨ ChildConforms m e n label := by
  rw [← OrderedMap.get?_eq_some_iff, h.get?_children hbefore hchildren hsuits,
    Option.or_eq_some_iff] at hx
  rcases hx with hold | ⟨hnone, hnew⟩
  · exact .inl (OrderedMap.get?_eq_some_iff.1 hold)
  · obtain ⟨x, hx, rfl⟩ := Option.map_eq_some_iff.1 hnew
    obtain ⟨_, text, rfl, hroom⟩ := hsuits.labels n x hx
    exact .inr (hroom (OrderedMap.get?_eq_none_iff.1 hnone)).1

theorem Takes.listing_snd (h : Takes a c before after) (hbefore : before.Keyed)
    (hchildren : IsSection (Pairs.get? before "children") children)
    (hsuits : Suits m e (entryRule path before).result a c) :
    (Shape.listing (entryRule path after).result).2 =
      (Shape.listing (entryRule path before).result).2 := by
  obtain ⟨listed, hlisted, hget⟩ := h.children.exists_section hchildren
  have hnone : c choiceKey = none := by
    rw [Option.eq_none_iff_forall_ne_some]
    exact fun x hx => (hsuits.labels choiceKey x hx).1 rfl
  rw [choice_entryRule h.keyed hlisted, choice_entryRule hbefore hchildren, hget, hnone,
    Option.or_none]

theorem Takes.grown (h : Takes a c before after) (hbefore : before.Keyed)
    (hattributes : IsSection (Pairs.get? before "attributes") attributes)
    (hchildren : IsSection (Pairs.get? before "children") children)
    (hsuits : Suits m e (entryRule path before).result a c) :
    Grown m e (entryRule path before).result (entryRule path after).result := by
  have hmem := fun n => h.mem_children_iff (n := n) hbefore hchildren hsuits
  have hlisting := h.listing_snd hbefore hchildren hsuits
  refine
    { attributes := fun n x hx => h.attribute_cases hbefore hattributes hsuits hx
      children := fun n label hx => h.child_cases hbefore hchildren hsuits hx
      kept := fun n hn => (hmem n).2 (.inl hn)
      alternatives := congrArg Prod.fst hlisting
      parts := ?_
      declaresChoice := congrArg Prod.snd hlisting
      disjoint := fun n hn halternative => ?_
      exclusive := fun g hg hone => ?_ }
  · rw [parts_entryRule h.keyed, parts_entryRule hbefore, h.others _ (by decide) (by decide)]
  · by_contra hnew
    obtain ⟨x, hx⟩ := Option.ne_none_iff_exists'.1 (((hmem n).1 hn).resolve_left hnew)
    obtain ⟨_, _, _, hroom⟩ := hsuits.labels n x hx
    exact (hroom hnew).2 halternative
  · -- A branch that is active afterwards has a child that was listed or is wanted.
    have hactive : ∀ b, Active (entryRule path after).result b →
        Chosen (entryRule path before).result (fun n => c n ≠ none) b.elements := by
      rintro b ⟨n, hn, hb⟩
      exact ⟨n, hb, (hmem n).1 hn⟩
    rcases hsuits.exclusive g hg hone with hnone | hpairwise
    · left
      intro n hn hin
      by_contra hnew
      exact hnew (hnone n (((hmem n).1 hn).resolve_left hnew) hin)
    · exact .inr (hpairwise.imp fun hboth hab => hboth ⟨hactive _ hab.1, hactive _ hab.2⟩)

end Suits

end GrammarProfile.Cascade
