import GrammarProfile.Proofs.Documents

/-!
Values that are read from a text have no two tags on each other: a tag stands on an event, and the
event that an alias stands for has it already.
-/
namespace GrammarProfile.Yaml

namespace Value

def isTagged : Value → Bool
  | tagged _ _ => true
  | _ => false

/-- No value in a value has two tags. -/
inductive SingleTags : Value → Prop
  | null : SingleTags .null
  | bool (b : Bool) : SingleTags (.bool b)
  | number (n : Number) : SingleTags (.number n)
  | string (s : String) : SingleTags (.string s)
  | sequence {items : List Value} (h : ∀ v ∈ items, SingleTags v) : SingleTags (.sequence items)
  | mapping {pairs : List (Value × Value)} (hkeys : ∀ p ∈ pairs, SingleTags p.1)
      (hvalues : ∀ p ∈ pairs, SingleTags p.2) : SingleTags (.mapping pairs)
  | tagged {v : Value} (tag : String) (h : SingleTags v) (hv : v.isTagged = false) :
      SingleTags (.tagged tag v)

end Value

theorem singleTags_of_plainValue {text : String} {mark : Mark} {v : Value}
    (h : plainValue text mark = .ok v) : v.SingleTags ∧ v.isTagged = false := by
  unfold plainValue at h
  split at h
  · cases h; exact ⟨.null, rfl⟩
  · cases h; exact ⟨.bool _, rfl⟩
  · cases h; exact ⟨.number _, rfl⟩
  · cases h
  · cases h; exact ⟨.string _, rfl⟩

theorem singleTags_of_scalarValue {tag : Option String} {text : String} {isPlain : Bool}
    {mark : Mark} {v : Value} (h : scalarValue tag text isPlain mark = .ok v) :
    v.SingleTags ∧ v.isTagged = false := by
  unfold scalarValue at h
  dsimp only at h
  split at h
  · split at h
    · exact singleTags_of_plainValue h
    · cases h; exact ⟨.string _, rfl⟩
  · split at h
    · cases h; exact ⟨.bool _, rfl⟩
    · cases h
  · split at h
    · cases h; exact ⟨.number _, rfl⟩
    · cases h
  · split at h
    · cases h; exact ⟨.number _, rfl⟩
    · cases h
  · split at h
    · cases h; exact ⟨.null, rfl⟩
    · cases h
  · cases h; exact ⟨.string _, rfl⟩

theorem AliasesBare.of_suffix {es es' : List Event} (h : AliasesBare es) (hsuffix : es' <:+ es) :
    AliasesBare es' :=
  fun e he => h e (hsuffix.subset he)

theorem aliasesBare_ofText (text : String) : AliasesBare (Document.ofText text).events := by
  have hproper := fun ts e => (Parse.proper_document (4 * ts.length + 8) ⟨ts, e, [], [], []⟩).aliases
    fun _ he => absurd he List.not_mem_nil
  unfold Document.ofText
  split
  next ts failure _ =>
    have hevents := hproper ts (failure.getD ⟨.noContent, none⟩)
    dsimp only
    generalize (Parse.document (4 * ts.length + 8)).run _ = result at hevents ⊢
    obtain ⟨r, after⟩ := result
    cases r with
    | error e => exact fun e he => hevents e (List.mem_reverse.1 he)
    | ok a => exact fun e he => hevents e (List.mem_reverse.1 he)

namespace Document

theorem anchored_suffix {id : Nat} {es found : List Event} (h : anchored id es = some found) :
    found <:+ es := by
  induction es with
  | nil => exact nomatch h
  | cons e rest ih =>
      rw [anchored] at h
      split at h
      · next hrest =>
        cases h
        exact (ih hrest).trans (List.suffix_cons e rest)
      · split at h
        · cases h
          exact List.suffix_refl _
        · exact nomatch h

/-- What is read with some fuel. The value of an event whose tag is read already has no tag, since
the event is no alias. -/
structure ReadsSingle (d : Document) (fuel : Nat) : Prop where
  value : ∀ {depth : Nat} {inTag : Bool} {e : Event} {es : List Event} {jumps : Nat}
    {r : Reading Value}, AliasesBare (e :: es) → (inTag = true → e.tag ≠ none) →
    d.readValue fuel depth inTag (e :: es) jumps = .ok r →
    r.part.SingleTags ∧ (inTag = true → r.part.isTagged = false) ∧ AliasesBare r.rest
  items : ∀ {depth : Nat} {es : List Event} {jumps : Nat} {r : Reading (List Value)},
    AliasesBare es → d.readItems fuel depth es jumps = .ok r →
    (∀ v ∈ r.part, v.SingleTags) ∧ AliasesBare r.rest
  pairs : ∀ {depth : Nat} {mark : Mark} {done : Pairs} {es : List Event} {jumps : Nat}
    {r : Reading Pairs}, AliasesBare es → d.readPairs fuel depth mark done es jumps = .ok r →
    (∀ p ∈ done, p.1.SingleTags ∧ p.2.SingleTags) →
    (∀ p ∈ r.part, p.1.SingleTags ∧ p.2.SingleTags) ∧ AliasesBare r.rest

variable {d : Document} {fuel : Nat}

theorem ReadsSingle.any (h : ReadsSingle d fuel) {depth : Nat} {es : List Event} {jumps : Nat}
    {r : Reading Value} (hes : AliasesBare es) (hr : d.readValue fuel depth false es jumps = .ok r) :
    r.part.SingleTags ∧ AliasesBare r.rest := by
  cases es with
  | nil =>
      cases fuel <;> · rw [readValue] at hr; cases hr
  | cons e rest =>
      obtain ⟨hpart, -, hrest⟩ := h.value hes (fun htag => absurd htag Bool.false_ne_true) hr
      exact ⟨hpart, hrest⟩

theorem readsSingle (hd : AliasesBare d.events) (fuel : Nat) : ReadsSingle d fuel := by
  induction fuel with
  | zero =>
      refine ⟨fun _ _ h => ?_, fun _ h => ?_, fun _ h => ?_⟩
      · rw [readValue] at h; cases h
      · rw [readItems] at h; cases h
      · rw [readPairs] at h; cases h
  | succ fuel ih =>
      refine ⟨fun {depth inTag e es jumps r} hes hin h => ?_, fun {depth es jumps r} hes h => ?_,
        fun {depth mark done es jumps r} hes h hdone => ?_⟩
      · have hrest : AliasesBare es := hes.of_suffix (List.suffix_cons e es)
        rw [readValue] at h
        dsimp only at h
        split at h
        · next tag hown =>
          split at h
          · next r hr =>
            have hnot : inTag = false := by
              cases inTag with
              | false => rfl
              | true => cases hown
            have htag : e.tag ≠ none := by
              rw [hnot, if_neg Bool.false_ne_true] at hown
              intro hnone
              rw [hnone] at hown
              cases hown
            obtain ⟨hpart, huntagged, hafter⟩ := ih.value hes (fun _ => htag) hr
            cases h
            refine ⟨.tagged tag hpart (huntagged rfl), fun hin' => ?_, hafter⟩
            rw [hnot] at hin'
            cases hin'
          · cases h
        · next id hown halias =>
          -- An alias has no tag, so that none is read already.
          have hbare := hes e List.mem_cons_self id halias
          split at h
          · cases h
          · split at h
            · cases h
            · next there hthere =>
              split at h
              · next r hr =>
                obtain ⟨hpart, -⟩ := ih.any (hd.of_suffix (anchored_suffix hthere)) hr
                cases h
                exact ⟨hpart, fun hin' => absurd hbare (hin hin'), hrest⟩
              · cases h
        · split at h
          · next v hv =>
            obtain ⟨hpart, huntagged⟩ := singleTags_of_scalarValue hv
            cases h
            exact ⟨hpart, fun _ => huntagged, hrest⟩
          · cases h
        · split at h
          · cases h
          · split at h
            · next r hr =>
              obtain ⟨hitems, hafter⟩ := ih.items hrest hr
              cases h
              exact ⟨.sequence hitems, fun _ => rfl, hafter⟩
            · cases h
        · split at h
          · cases h
          · split at h
            · next r hr =>
              obtain ⟨hpairs, hafter⟩ := ih.pairs hrest hr fun _ hp => absurd hp List.not_mem_nil
              cases h
              exact ⟨.mapping (fun p hp => (hpairs p hp).1) fun p hp => (hpairs p hp).2, fun _ => rfl,
                hafter⟩
            · cases h
        · cases h
        · cases h
      · cases es with
        | nil => rw [readItems] at h; cases h
        | cons e es =>
            rw [readItems] at h
            split at h
            · cases h
              exact ⟨fun _ hv => absurd hv List.not_mem_nil, hes.of_suffix (List.suffix_cons e es)⟩
            · split at h
              · cases h
              · next v hv =>
                obtain ⟨hpart, hmiddle⟩ := ih.any hes hv
                split at h
                · cases h
                · next r hr =>
                  obtain ⟨hitems, hafter⟩ := ih.items hmiddle hr
                  cases h
                  exact ⟨List.forall_mem_cons.2 ⟨hpart, hitems⟩, hafter⟩
      · cases es with
        | nil => rw [readPairs] at h; cases h
        | cons e es =>
            rw [readPairs] at h
            split at h
            · cases h
              exact ⟨fun p hp => hdone p (List.mem_reverse.1 hp), hes.of_suffix (List.suffix_cons e es)⟩
            · split at h
              · cases h
              · next k hk =>
                obtain ⟨hkey, hmiddle⟩ := ih.any hes hk
                split at h
                · cases h
                · split at h
                  · cases h
                  · next v hv =>
                    obtain ⟨hvalue, hafter⟩ := ih.any hmiddle hv
                    exact ih.pairs hafter h (List.forall_mem_cons.2 ⟨⟨hkey, hvalue⟩, hdone⟩)

end Document

/-- No value that is read from a text has two tags. -/
theorem singleTags_of_read {text : String} {v : Value} (h : read text = .ok v) : v.SingleTags := by
  have hbare := aliasesBare_ofText text
  unfold read at h
  dsimp only at h
  split at h
  · cases h
  · next w hw =>
    split at h
    · cases h
    · cases h
      unfold Document.value at hw
      split at hw
      · split at hw
        · cases hw
        · cases hw; exact .null
      · split at hw
        · cases hw
        · next r hr =>
          obtain ⟨hpart, -⟩ := (Document.readsSingle hbare _).any hbare hr
          split at hw
          · cases hw
          · cases hw; exact hpart

end GrammarProfile.Yaml
