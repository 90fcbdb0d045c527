import GrammarProfile.Proofs.DistinctKeys
import GrammarProfile.Proofs.Documents

/-!
What events without tags and aliases mean: a relation between events and values that does not mention
fuel, places or what comes after, and texts whose events mean a value are read as this value.
-/
namespace GrammarProfile.Yaml

/-! ## Events with a meaning -/

mutual

/-- Events that mean a value in which at most so many collections lie inside each other. -/
inductive Means : Nat → List Shape → Value → Prop
  | scalar {depth : Nat} {text : String} {isPlain : Bool} {v : Value}
      (h : ∀ mark, scalarValue none text isPlain mark = .ok v) :
      Means depth [Shape.bare (.scalar text isPlain)] v
  | sequence {depth : Nat} {ss : List Shape} {vs : List Value} (h : ItemsMean depth ss vs) :
      Means (depth + 1) (Shape.bare .sequence :: (ss ++ [Shape.bare .sequenceEnd])) (.sequence vs)
  | mapping {depth : Nat} {ss : List Shape} {ps : Pairs} (h : PairsMean depth ss ps)
      (hkeys : ps.Different) :
      Means (depth + 1) (Shape.bare .mapping :: (ss ++ [Shape.bare .mappingEnd])) (.mapping ps)

inductive ItemsMean : Nat → List Shape → List Value → Prop
  | nil {depth : Nat} : ItemsMean depth [] []
  | cons {depth : Nat} {ss ss' : List Shape} {v : Value} {vs : List Value} (hv : Means depth ss v)
      (hvs : ItemsMean depth ss' vs) : ItemsMean depth (ss ++ ss') (v :: vs)

inductive PairsMean : Nat → List Shape → Pairs → Prop
  | nil {depth : Nat} : PairsMean depth [] []
  | cons {depth : Nat} {ss₁ ss₂ ss : List Shape} {k v : Value} {ps : Pairs} (hk : Means depth ss₁ k)
      (hv : Means depth ss₂ v) (hps : PairsMean depth ss ps) :
      PairsMean depth (ss₁ ++ ss₂ ++ ss) ((k, v) :: ps)

end

variable {depth : Nat} {ss ss₁ ss₂ : List Shape} {v : Value} {ps qs : Pairs}

theorem means_text (depth : Nat) (s : String) :
    Means depth [Shape.bare (.scalar s false)] (.string s) := .scalar fun _ => rfl

theorem itemsMean_texts (depth : Nat) (texts : List String) :
    ItemsMean depth (texts.map fun s => Shape.bare (.scalar s false)) (texts.map .string) := by
  induction texts with
  | nil => exact .nil
  | cons s rest ih =>
      have hitems := ItemsMean.cons (means_text depth s) ih
      exact hitems

theorem PairsMean.append (h : PairsMean depth ss₁ ps) (hrest : PairsMean depth ss₂ qs) :
    PairsMean depth (ss₁ ++ ss₂) (ps ++ qs) := by
  induction ps generalizing ss₁ with
  | nil =>
      cases h
      exact hrest
  | cons p ps ih =>
      cases h with
      | cons hk hv hps =>
          rw [List.append_assoc _ _ ss₂]
          exact .cons hk hv (ih hps)

/-- The first event of a value is no end of a collection. -/
theorem Means.head (h : Means depth ss v) :
    ∃ s rest, ss = s :: rest ∧ s.kind ≠ .sequenceEnd ∧ s.kind ≠ .mappingEnd := by
  cases h with
  | scalar => exact ⟨_, _, rfl, nofun, nofun⟩
  | sequence => exact ⟨_, _, rfl, nofun, nofun⟩
  | mapping => exact ⟨_, _, rfl, nofun, nofun⟩

/-! ## Reading events -/

namespace Document

/-- Events are read as what they mean, with fuel for the events and whatever comes after them. -/
structure ReadsMeanings (d : Document) (fuel : Nat) : Prop where
  value : ∀ {depth limit : Nat} {es : List Event} {v : Value} (rest : List Event) (jumps : Nat),
    Means depth (es.map Event.shape) v → depth ≤ limit → 2 * es.length ≤ fuel →
    d.readValue fuel limit false (es ++ rest) jumps = .ok ⟨v, rest, jumps⟩
  items : ∀ {depth limit : Nat} {es : List Event} {vs : List Value} {last : Event}
    (rest : List Event) (jumps : Nat), ItemsMean depth (es.map Event.shape) vs →
    last.kind = .sequenceEnd → depth ≤ limit → 2 * es.length < fuel →
    d.readItems fuel limit (es ++ last :: rest) jumps = .ok ⟨vs, rest, jumps⟩
  pairs : ∀ {depth limit : Nat} {mark : Mark} {done ps : Pairs} {es : List Event} {last : Event}
    (rest : List Event) (jumps : Nat), PairsMean depth (es.map Event.shape) ps →
    Pairs.Different (done.reverse ++ ps) → last.kind = .mappingEnd → depth ≤ limit →
    2 * es.length < fuel →
    d.readPairs fuel limit mark done (es ++ last :: rest) jumps = .ok ⟨done.reverse ++ ps, rest, jumps⟩

/-- The events of a value, and at least one of them. -/
theorem exists_first {es : List Event} {depth : Nat} {v : Value}
    (h : Means depth (es.map Event.shape) v) :
    ∃ e more, es = e :: more ∧ e.kind ≠ .sequenceEnd ∧ e.kind ≠ .mappingEnd := by
  obtain ⟨s, more, heq, hsequence, hmapping⟩ := h.head
  obtain ⟨e, more, rfl, rfl, rfl⟩ := List.map_eq_cons_iff.1 heq
  exact ⟨e, more, rfl, hsequence, hmapping⟩

theorem readsMeanings (d : Document) (fuel : Nat) : ReadsMeanings d fuel := by
  induction fuel with
  | zero =>
      refine ⟨fun _ _ h _ hfuel => ?_, fun _ _ _ _ _ hfuel => absurd hfuel (Nat.not_lt_zero _),
        fun _ _ _ _ _ _ hfuel => absurd hfuel (Nat.not_lt_zero _)⟩
      obtain ⟨e, more, rfl, -, -⟩ := exists_first h
      exact absurd hfuel (by simp)
  | succ fuel ih =>
      refine ⟨fun {depth limit es v} rest jumps h hlimit hfuel => ?_,
        fun {depth limit es vs last} rest jumps h hlast hlimit hfuel => ?_,
        fun {depth limit mark done ps es last} rest jumps h hkeys hlast hlimit hfuel => ?_⟩
      · generalize hss : es.map Event.shape = ss at h
        cases h with
        | scalar h =>
            obtain ⟨⟨kind, tag, anchor, mark⟩, rfl, he⟩ := List.map_eq_singleton_iff.1 hss
            cases he
            simp [readValue, h]
        | sequence h =>
            obtain ⟨⟨kind, tag, anchor, mark⟩, es, rfl, he, hes⟩ := List.map_eq_cons_iff.1 hss
            obtain ⟨es, lasts, rfl, rfl, hlasts⟩ := List.map_eq_append_iff.1 hes
            obtain ⟨last, rfl, hlast⟩ := List.map_eq_singleton_iff.1 hlasts
            cases he
            have hitems := ih.items rest jumps h (congrArg Shape.kind hlast)
              (Nat.le_sub_of_add_le hlimit) (by simp at hfuel; omega)
            have hdepth : ¬(limit == 0) = true := by simp; omega
            simp [readValue, hdepth, hitems]
        | mapping h hkeys =>
            obtain ⟨⟨kind, tag, anchor, mark⟩, es, rfl, he, hes⟩ := List.map_eq_cons_iff.1 hss
            obtain ⟨es, lasts, rfl, rfl, hlasts⟩ := List.map_eq_append_iff.1 hes
            obtain ⟨last, rfl, hlast⟩ := List.map_eq_singleton_iff.1 hlasts
            cases he
            have hpairs : d.readPairs fuel (limit - 1) mark [] (es ++ last :: rest) jumps =
                .ok ⟨_, rest, jumps⟩ :=
              ih.pairs rest jumps h hkeys (congrArg Shape.kind hlast) (Nat.le_sub_of_add_le hlimit)
                (by simp at hfuel; omega)
            have hdepth : ¬(limit == 0) = true := by simp; omega
            simp [readValue, hdepth, hpairs]
      · generalize hss : es.map Event.shape = ss at h
        cases h with
        | nil =>
            obtain rfl := List.map_eq_nil_iff.1 hss
            simp [readItems, hlast]
        | cons hv hvs =>
            obtain ⟨first, more, rfl, rfl, rfl⟩ := List.map_eq_append_iff.1 hss
            have hvalue := ih.value (more ++ last :: rest) jumps hv hlimit (by simp at hfuel; omega)
            obtain ⟨e, es, rfl, hend, -⟩ := exists_first hv
            have hitems := ih.items rest jumps hvs hlast hlimit (by simp at hfuel; omega)
            rw [List.append_assoc, List.cons_append, readItems]
            rw [List.cons_append] at hvalue
            simp [hend, hvalue, hitems]
      · generalize hss : es.map Event.shape = ss at h
        cases h with
        | nil =>
            obtain rfl := List.map_eq_nil_iff.1 hss
            simp [readPairs, hlast]
        | @cons _ _ _ _ k v ps hk hv hps =>
            obtain ⟨first, more, rfl, hfirst, rfl⟩ := List.map_eq_append_iff.1 hss
            obtain ⟨keys, values, rfl, rfl, rfl⟩ := List.map_eq_append_iff.1 hfirst
            have hkey := ih.value (values ++ (more ++ last :: rest)) jumps hk hlimit
              (by simp at hfuel; omega)
            have hvalue := ih.value (more ++ last :: rest) jumps hv hlimit (by simp at hfuel; omega)
            obtain ⟨e, es, rfl, -, hend⟩ := exists_first hk
            have hnew : (done.any fun p => k.same p.1) = false := by
              rw [List.any_eq_false]
              intro p hp
              have hpairwise := (List.pairwise_append.1 hkeys).2.2
              simpa using hpairwise p (List.mem_reverse.2 hp) (k, v) List.mem_cons_self
            have hpairs : d.readPairs fuel limit mark ((k, v) :: done) (more ++ last :: rest) jumps =
                .ok ⟨_, rest, jumps⟩ :=
              ih.pairs rest jumps hps (by simpa using hkeys) hlast hlimit (by simp at hfuel; omega)
            rw [List.append_assoc, List.append_assoc, List.cons_append, readPairs]
            rw [List.cons_append] at hkey
            simp [hend, hkey, hnew, hvalue, hpairs]

end Document

/-- A document whose events mean a value has this value. -/
theorem value_of_means {es : List Event} {depth : Nat} {v : Value}
    (h : Means depth (es.map Event.shape) v) (hdepth : depth ≤ depthLimit) :
    (⟨es, none, false⟩ : Document).value = .ok v := by
  have hread := (Document.readsMeanings ⟨es, none, false⟩
    ((depthLimit + 2) * (es.length + 2))).value [] 0 h hdepth
    (Nat.mul_le_mul (Nat.le_add_left 2 _) (Nat.le_add_right _ 2))
  obtain ⟨e, more, rfl, -, -⟩ := Document.exists_first h
  rw [List.append_nil] at hread
  rw [Document.value, hread]
  rfl

/-- A text whose events mean a value is read as this value. -/
theorem read_of_means {text : String} {es : List Event} {depth : Nat} {v : Value}
    (hdocument : Document.ofText text = ⟨es, none, false⟩) (h : Means depth (es.map Event.shape) v)
    (hdepth : depth ≤ depthLimit) : read text = .ok v := by
  unfold read
  rw [hdocument]
  dsimp only
  rw [value_of_means h hdepth]
  rfl

/-- So is a text whose events are read alike to events that mean a value. -/
theorem read_of_alike {text : String} {es : List Event} {depth : Nat} {ss : List Shape} {v : Value}
    (hdocument : Document.ofText text = ⟨es, none, false⟩) (h : Means depth ss v)
    (hdepth : depth ≤ depthLimit) (halike : List.Forall₂ Alike ss (es.map Event.shape)) :
    read text = .ok v := by
  -- Events with the shapes given, at no place in particular.
  obtain ⟨es', rfl⟩ : ∃ es' : List Event, es'.map Event.shape = ss :=
    ⟨ss.map fun s => ⟨s.kind, s.tag, s.anchor, ⟨0, 0, 0⟩⟩, by simp [Function.comp_def, Event.shape]⟩
  have halike' : EventsAlike es' es := by
    rw [List.forall₂_map_left_iff, List.forall₂_map_right_iff] at halike
    exact halike
  unfold read
  rw [hdocument]
  dsimp only
  rw [value_alike halike' (value_of_means h hdepth)]
  rfl

end GrammarProfile.Yaml
