import GrammarProfile.Yaml.Reader
import GrammarProfile.Proofs.Pairs

/-!
Values that are read from a text have different keys in each of their mappings.
-/
namespace GrammarProfile.Yaml

/-- A key is none of those before it. -/
def Pairs.Different (pairs : Pairs) : Prop := pairs.Pairwise fun p q => q.1.same p.1 = false

/-- All mappings in a value, other than those in keys, have different keys. -/
inductive Value.Distinct : Value → Prop
  | null : Distinct .null
  | bool (b : Bool) : Distinct (.bool b)
  | number (n : Number) : Distinct (.number n)
  | string (s : String) : Distinct (.string s)
  | sequence {items : List Value} (h : ∀ v ∈ items, Distinct v) : Distinct (.sequence items)
  | mapping {pairs : Pairs} (hkeys : pairs.Different) (h : ∀ p ∈ pairs, Distinct p.2) :
      Distinct (.mapping pairs)
  | tagged {v : Value} (tag : String) (h : Distinct v) : Distinct (.tagged tag v)

namespace Pairs

theorem Different.not_isKey {pairs : Pairs} (h : pairs.Different) (name : String) :
    pairs.Pairwise fun p q => isKey name p.1 = true → ¬isKey name q.1 = true := by
  refine List.Pairwise.imp (fun {p q} hpq hp hq => ?_) h
  rw [isKey_iff.1 hp, isKey_iff.1 hq] at hpq
  simp [Value.same] at hpq

theorem Different.keyed {pairs : Pairs} (h : pairs.Different)
    (htext : ∀ p ∈ pairs, ∃ n, p.1 = .string n) : pairs.Keyed := by
  refine ⟨htext, List.pairwise_filterMap.2 ?_⟩
  refine List.Pairwise.imp_of_mem (fun {p q} hp hq hpq n hn m hm => ?_) h
  obtain ⟨a, ha⟩ := htext p hp
  obtain ⟨b, hb⟩ := htext q hq
  rw [ha, hb] at hpq
  have hab : b ≠ a := by simpa [Value.same] using hpq
  obtain rfl : a = n := by simpa [ha, Value.scalarText?] using hn
  obtain rfl : b = m := by simpa [hb, Value.scalarText?] using hm
  exact hab.symm

theorem Keyed.different {pairs : Pairs} (h : pairs.Keyed) : pairs.Different := by
  induction h using Keyed.induction with
  | nil => exact .nil
  | cons n v rest hn hrest ih =>
      refine List.pairwise_cons.2 ⟨fun q hq => ?_, ih⟩
      obtain ⟨m, hm⟩ := hrest.textual q hq
      have hne : m ≠ n := by
        rintro rfl
        exact hn (List.mem_filterMap.2 ⟨q, hq, by rw [hm]; rfl⟩)
      rw [hm]
      simpa [Value.same] using hne

end Pairs

theorem distinct_of_plainValue {text : String} {mark : Mark} {v : Value}
    (h : plainValue text mark = .ok v) : v.Distinct := by
  unfold plainValue at h
  split at h
  · cases h; exact .null
  · cases h; exact .bool _
  · cases h; exact .number _
  · cases h
  · cases h; exact .string _

theorem distinct_of_scalarValue {tag : Option String} {text : String} {isPlain : Bool}
    {mark : Mark} {v : Value} (h : scalarValue tag text isPlain mark = .ok v) : v.Distinct := by
  unfold scalarValue at h
  dsimp only at h
  split at h
  · split at h
    · exact distinct_of_plainValue h
    · cases h; exact .string _
  · split at h
    · cases h; exact .bool _
    · cases h
  · split at h
    · cases h; exact .number _
    · cases h
  · split at h
    · cases h; exact .number _
    · cases h
  · split at h
    · cases h; exact .null
    · cases h
  · cases h; exact .string _

namespace Document

/-- What is read with some fuel. The pairs before those that are still to be read are different,
and so are all of them in the end. -/
structure ReadsDistinct (d : Document) (fuel : ℕ) : Prop where
  value : ∀ {depth inTag events jumps r},
    d.readValue fuel depth inTag events jumps = .ok r → r.part.Distinct
  items : ∀ {depth events jumps r},
    d.readItems fuel depth events jumps = .ok r → ∀ v ∈ r.part, v.Distinct
  pairs : ∀ {depth mark done events jumps r},
    d.readPairs fuel depth mark done events jumps = .ok r →
    Pairs.Different done.reverse → (∀ p ∈ done, p.2.Distinct) →
    Pairs.Different r.part ∧ ∀ p ∈ r.part, p.2.Distinct

theorem readsDistinct (d : Document) (fuel : ℕ) : ReadsDistinct d fuel := by
  induction fuel with
  | zero =>
      refine ⟨?_, ?_, ?_⟩
      · intro depth inTag events jumps r h
        unfold readValue at h
        cases h
      · intro depth events jumps r h
        unfold readItems at h
        cases h
      · intro depth mark done events jumps r h
        unfold readPairs at h
        cases h
  | succ fuel ih =>
      refine ⟨?_, ?_, ?_⟩
      · intro depth inTag events jumps r h
        unfold readValue at h
        cases events with
        | nil => cases h
        | cons e rest =>
          dsimp only at h
          split at h
          · split at h
            next hr => cases h; exact .tagged _ (ih.value hr)
            next => cases h
          · split at h
            next => cases h
            next =>
              split at h
              next => cases h
              next =>
                split at h
                next hr =>
                  have hpart := ih.value hr
                  cases h
                  exact hpart
                next => cases h
          · split at h
            next hv => cases h; exact distinct_of_scalarValue hv
            next => cases h
          · split at h
            next => cases h
            next =>
              split at h
              next hr => cases h; exact .sequence (ih.items hr)
              next => cases h
          · split at h
            next => cases h
            next =>
              split at h
              next hr =>
                obtain ⟨hkeys, hvalues⟩ := ih.pairs hr List.Pairwise.nil fun _ hp =>
                  absurd hp List.not_mem_nil
                cases h
                exact .mapping hkeys hvalues
              next => cases h
          · cases h
          · cases h
      · intro depth events jumps r h
        unfold readItems at h
        cases events with
        | nil => cases h
        | cons e rest =>
          dsimp only at h
          split at h
          · cases h
            exact fun _ hv => absurd hv List.not_mem_nil
          · split at h
            next => cases h
            next hv =>
              split at h
              next => cases h
              next hr =>
                cases h
                intro v hmem
                rcases List.mem_cons.1 hmem with rfl | hmem
                · exact ih.value hv
                · exact ih.items hr v hmem
      · intro depth mark done events jumps r h hdone hvalues
        unfold readPairs at h
        cases events with
        | nil => cases h
        | cons e rest =>
          dsimp only at h
          split at h
          · cases h
            exact ⟨hdone, fun p hp => hvalues p (List.mem_reverse.1 hp)⟩
          · split at h
            next => cases h
            next k hk =>
              split at h
              next => cases h
              next hnew =>
                split at h
                next => cases h
                next v hv =>
                  refine ih.pairs h ?_ fun p hp => ?_
                  · rw [List.reverse_cons]
                    refine List.pairwise_append.2 ⟨hdone, List.pairwise_singleton _ _, ?_⟩
                    intro p hp q hq
                    obtain rfl := List.mem_singleton.1 hq
                    have hall := List.any_eq_false.1 (Bool.eq_false_iff.2 hnew)
                    exact Bool.eq_false_iff.2 (hall p (List.mem_reverse.1 hp))
                  · rcases List.mem_cons.1 hp with rfl | hp
                    · exact ih.value hv
                    · exact hvalues p hp

end Document

theorem distinct_of_read {text : String} {v : Value} (h : read text = .ok v) : v.Distinct := by
  unfold read at h
  dsimp only at h
  split at h
  · cases h
  · next w hw =>
      split at h
      · cases h
      · cases h
        unfold Document.value at hw
        split at hw
        · split at hw
          · cases hw
          · cases hw; exact .null
        · split at hw
          · cases hw
          · next r hr =>
              split at hw
              · cases hw
              · cases hw
                exact (Document.readsDistinct _ _).value hr

end GrammarProfile.Yaml
