import GrammarProfile.Pattern
import Mathlib.Data.List.Infix
import Mathlib.Data.List.TakeWhile

/-!
What is read of a source that stands in a group is read of the source alone: a reader that leaves the
closing of the group behind has not looked past its own text.
-/
namespace GrammarProfile.Pattern

/-- What follows a source that is set in a group of its own: the group's end and an anchor. -/
def closing : List Char := [')', '$']

theorem tail_suffix_tail {cs cs' : List Char} (h : cs <:+ cs') : cs.tail <:+ cs'.tail := by
  obtain ⟨z, rfl⟩ := h
  cases z with
  | nil => exact List.suffix_rfl
  | cons c z => exact (List.tail_suffix cs).trans (List.suffix_append z cs)

/-- What a reader leaves, if it succeeds, is an end of a text. -/
def Ends {α : Type} (x : Except Error (α × List Char)) (cs : List Char) : Prop :=
  ∀ r left, x = .ok (r, left) → left <:+ cs

/-- If the first reading leaves a text and the closing after it, the second leaves the text alone and
has the same result. -/
def Cut {α : Type} (x x' : Except Error (α × List Char)) : Prop :=
  ∀ r y, x = .ok (r, y ++ closing) → x' = .ok (r, y)

/-- The same for the results and texts that have a property. -/
def CutWhere {α : Type} (P : α → List Char → Prop) (x x' : Except Error (α × List Char)) : Prop :=
  ∀ r y, P r y → x = .ok (r, y ++ closing) → x' = .ok (r, y)

section

variable {α β γ : Type} {x x' : Except Error (α × List Char)} {cs cs' y : List Char} {e : Error}

theorem Ends.mono (h : Ends x cs) (hcs : cs <:+ cs') : Ends x cs' :=
  fun r left hx => (h r left hx).trans hcs

theorem Ends.tail (h : Ends x cs.tail) : Ends x cs := h.mono (List.tail_suffix cs)

theorem ends_error : Ends (.error e : Except Error (α × List Char)) cs := nofun

theorem ends_ok {a : α} (h : cs <:+ cs') : Ends (.ok (a, cs)) cs' := by
  rintro _ _ ⟨⟩
  exact h

theorem Ends.bind {g : α × List Char → Except Error (β × List Char)} (hx : Ends x cs)
    (hg : ∀ a left, left <:+ cs → Ends (g (a, left)) left) : Ends (x >>= g) cs := by
  intro r left h
  cases x with
  | error e => cases h
  | ok p =>
      have hp := hx p.1 p.2 rfl
      exact (hg p.1 p.2 hp r left h).trans hp

theorem Ends.bind_tail {g : α × List Char → Except Error (β × List Char)} (hx : Ends x cs)
    (hg : ∀ a left, Ends (g (a, left)) left.tail) : Ends (x >>= g) cs.tail := by
  intro r left h
  cases x with
  | error e => cases h
  | ok p => exact (hg p.1 p.2 r left h).trans (tail_suffix_tail (hx p.1 p.2 rfl))

theorem ends_bind {x : Except Error γ} {g : γ → Except Error (β × List Char)}
    (hg : ∀ a, Ends (g a) cs) : Ends (x >>= g) cs := by
  intro r left h
  cases x with
  | error e => cases h
  | ok a => exact hg a r left h

theorem ends_ite {p : Prop} [Decidable p] (hx : Ends x cs) (hx' : Ends x' cs) :
    Ends (if p then x else x') cs := by
  split
  · exact hx
  · exact hx'

theorem Ends.le (h : Ends x cs) {r : α} {left : List Char} (hx : x = .ok (r, left)) :
    left.length ≤ cs.length := (h r left hx).length_le

theorem exists_of_suffix (h : y ++ closing <:+ cs) : ∃ z, cs = z ++ closing ∧ y <:+ z := by
  obtain ⟨z, rfl⟩ := h
  exact ⟨z ++ y, (List.append_assoc z y closing).symm, z, rfl⟩

/-- No reader leaves the closing if what it leaves ends within it. -/
theorem Ends.cut (h : Ends x cs) (hcs : cs.length < 2) : Cut x x' := by
  intro r y hx
  have hle := (h r _ hx).length_le
  rw [List.length_append] at hle
  exact absurd hle (by simp only [closing, List.length_cons, List.length_nil]; omega)

theorem cut_error {e : Error} : Cut (.error e) x' := nofun

theorem cut_ok {a : α} : Cut (.ok (a, y ++ closing)) (.ok (a, y)) := by
  intro r z h
  obtain ⟨rfl, hy⟩ := Prod.mk.inj (Except.ok.inj h)
  rw [List.append_cancel_right hy]

theorem Cut.bind {g k : α × List Char → Except Error (β × List Char)} (hx : Cut x x')
    (hends : ∀ a left, Ends (g (a, left)) left)
    (hg : ∀ a y, x' = .ok (a, y) → Cut (g (a, y ++ closing)) (k (a, y))) :
    Cut (x >>= g) (x' >>= k) := by
  intro r y h
  cases x with
  | error e => cases h
  | ok p =>
      obtain ⟨a, left⟩ := p
      obtain ⟨z, rfl, -⟩ := exists_of_suffix (hends a left r _ h)
      have hx' := hx a z rfl
      subst hx'
      exact hg a z rfl r y h

theorem Cut.where {P : α → List Char → Prop} (h : Cut x x') : CutWhere P x x' :=
  fun r y _ => h r y

/-- Both readings take the same branch. -/
theorem cutWhere_ite {P : α → List Char → Prop} {p : Prop} [Decidable p]
    {z z' : Except Error (α × List Char)} (hx : CutWhere P x x') (hz : CutWhere P z z') :
    CutWhere P (if p then x else z) (if p then x' else z') := by
  split
  · exact hx
  · exact hz

theorem CutWhere.bind {P : α → List Char → Prop} {Q : β → List Char → Prop}
    {g k : α × List Char → Except Error (β × List Char)} (hx : CutWhere P x x')
    (hends : ∀ a left, Ends (g (a, left)) left)
    (hP : ∀ a y r z, Q r z → g (a, y ++ closing) = .ok (r, z ++ closing) → P a y)
    (hg : ∀ a y, x' = .ok (a, y) → CutWhere Q (g (a, y ++ closing)) (k (a, y))) :
    CutWhere Q (x >>= g) (x' >>= k) := by
  intro r y hQ h
  cases x with
  | error e => cases h
  | ok p =>
      obtain ⟨a, left⟩ := p
      obtain ⟨z, rfl, -⟩ := exists_of_suffix (hends a left r _ h)
      have hx' := hx a z (hP a z r y hQ h) rfl
      subst hx'
      exact hg a z rfl r y hQ h

/-- What is left of the closing alone is not more than the closing. -/
theorem Ends.cut_closing (h : Ends x closing) : CutWhere (fun _ y => y ≠ []) x x' := by
  intro r y hy hx
  have hle := (h r _ hx).length_le
  rw [List.length_append] at hle
  exact absurd (List.length_eq_zero_iff.1 (by omega)) hy

/-- What takes at least one character more has not found the closing. -/
theorem CutWhere.bind_tail {g k : α × List Char → Except Error (β × List Char)}
    (hx : CutWhere (fun _ y => y ≠ []) x x') (hends : ∀ a left, Ends (g (a, left)) left.tail)
    (hg : ∀ a y, x' = .ok (a, y) → Cut (g (a, y ++ closing)) (k (a, y))) :
    Cut (x >>= g) (x' >>= k) := by
  have hall : CutWhere (fun _ _ => True) (x >>= g) (x' >>= k) := by
    refine hx.bind (fun a left => (hends a left).tail) ?_ fun a y h => (hg a y h).where
    rintro a y r z - h rfl
    have hle := (hends a _ r _ h).length_le
    rw [List.length_append] at hle
    exact absurd hle (Nat.not_le_of_lt (Nat.lt_add_left _ (by decide)))
  exact fun r y => hall r y trivial

theorem cut_bind {x : Except Error γ} {g k : γ → Except Error (β × List Char)}
    (hg : ∀ a, Cut (g a) (k a)) : Cut (x >>= g) (x >>= k) := by
  intro r y h
  cases x with
  | error e => cases h
  | ok a => exact hg a r y h

end

/-! ## Blanks and comments -/

theorem skipRemarks_suffix (comment : Bool) (cs : List Char) : skipRemarks comment cs <:+ cs := by
  induction cs generalizing comment with
  | nil => exact List.suffix_rfl
  | cons c rest ih =>
      rw [skipRemarks]
      split
      · exact (ih _).trans (List.suffix_cons c rest)
      · split
        · exact (ih _).trans (List.suffix_cons c rest)
        · split
          · exact (ih _).trans (List.suffix_cons c rest)
          · exact List.suffix_rfl

theorem settle_suffix (f : Flags) (cs : List Char) : settle f cs <:+ cs := by
  unfold settle
  split
  · exact skipRemarks_suffix false cs
  · exact List.suffix_rfl

theorem tail_settle_suffix (f : Flags) (cs : List Char) : (settle f cs).tail <:+ cs.tail :=
  tail_suffix_tail (settle_suffix f cs)

theorem ends_of_settled {α : Type} {x : Except Error (α × List Char)} {f : Flags} {cs : List Char}
    (h : Ends x (settle f cs).tail) : Ends x cs :=
  (h.mono (tail_settle_suffix f cs)).tail

theorem settle_nil (f : Flags) : settle f [] = [] := List.suffix_nil.1 (settle_suffix f [])

theorem skipRemarks_append (comment : Bool) (cs : List Char) :
    skipRemarks comment (cs ++ closing) = skipRemarks comment cs ++ closing ∨
    skipRemarks comment (cs ++ closing) = [] ∧ skipRemarks comment cs = [] := by
  induction cs generalizing comment with
  | nil =>
      cases comment with
      | false => exact .inl (by decide)
      | true => exact .inr (by decide)
  | cons c rest ih =>
      rw [List.cons_append, skipRemarks, skipRemarks]
      split
      · exact ih _
      · split
        · exact ih _
        · split
          · exact ih _
          · exact .inl rfl

/-- The closing is reached only if no comment swallows it. -/
theorem settle_append (f : Flags) (cs : List Char) :
    settle f (cs ++ closing) = settle f cs ++ closing ∨
    settle f (cs ++ closing) = [] ∧ settle f cs = [] := by
  unfold settle
  split
  · exact skipRemarks_append false cs
  · exact .inl rfl

/-- A reader that skips blanks and takes what comes next. -/
theorem cut_of_settled {α : Type} {x x' : Except Error (α × List Char)} {f : Flags}
    {cs : List Char} (hends : Ends x (settle f (cs ++ closing)).tail)
    (h : ∀ c rest, settle f cs = c :: rest → settle f (cs ++ closing) = c :: rest ++ closing →
      Cut x x') : Cut x x' := by
  obtain hs | ⟨hs, -⟩ := settle_append f cs
  · cases hu : settle f cs with
    | nil =>
        rw [hs, hu] at hends
        exact hends.cut (by decide)
    | cons c rest => exact h c rest hu (hu ▸ hs)
  · rw [hs] at hends
    exact hends.cut (by decide)

/-- A reader that is run after blanks. -/
theorem cut_settle {α : Type} {R : List Char → Except Error (α × List Char)} (f : Flags)
    (cs : List Char) (hnil : Ends (R []) []) (h : ∀ u, Cut (R (u ++ closing)) (R u)) :
    Cut (R (settle f (cs ++ closing))) (R (settle f cs)) := by
  obtain hs | ⟨hs, hs'⟩ := settle_append f cs
  · rw [hs]
    exact h _
  · rw [hs, hs']
    exact hnil.cut (by decide)

theorem cut_settled {α : Type} {a : α} {f : Flags} {cs : List Char} :
    Cut (.ok (a, settle f (cs ++ closing))) (.ok (a, settle f cs)) :=
  cut_settle (R := fun u => .ok (a, u)) f cs (ends_ok List.suffix_rfl) fun _ => cut_ok

/-! ## Escapes -/

theorem readHexDigits_ends (f : Flags) (n : ℕ) (cs : List Char) :
    Ends (readHexDigits f (n + 1) cs) cs.tail := by
  induction n generalizing cs with
  | zero =>
      cases cs with
      | nil => exact ends_error
      | cons c rest =>
          rw [readHexDigits]
          split
          · exact ends_ok (settle_suffix f rest)
          · exact ends_error
  | succ n ih =>
      cases cs with
      | nil => exact ends_error
      | cons c rest =>
          rw [readHexDigits]
          split
          · refine Ends.mono ?_ (settle_suffix f rest)
            exact (ih _).tail.bind fun _ _ _ => ends_ok List.suffix_rfl
          · exact ends_error

theorem readHexDigits_cut (f : Flags) (n : ℕ) (cs : List Char) :
    Cut (readHexDigits f n (cs ++ closing)) (readHexDigits f n cs) := by
  induction n generalizing cs with
  | zero => exact cut_ok
  | succ n ih =>
      cases cs with
      | nil =>
          rw [List.nil_append, closing, readHexDigits]
          exact cut_error
      | cons c rest =>
          rw [List.cons_append, readHexDigits, readHexDigits]
          split
          · have hnil : Ends (readHexDigits f n []) [] := by
              cases n with
              | zero => exact ends_ok List.suffix_rfl
              | succ n => exact ends_error
            exact (cut_settle f rest hnil ih).bind (fun _ _ => ends_ok List.suffix_rfl)
              fun _ _ _ => cut_ok
          · exact cut_error

theorem readBraced_ends (f : Flags) (cs : List Char) (n : ℕ) :
    Ends (readBraced f cs n) (settle f cs).tail := by
  induction n generalizing cs with
  | zero => exact ends_error
  | succ n ih =>
      rw [readBraced]
      cases settle f cs with
      | nil => exact ends_error
      | cons c rest =>
          dsimp only [List.tail_cons]
          split
          · exact ends_ok List.suffix_rfl
          · exact (ends_of_settled (ih rest)).bind fun _ _ _ => ends_ok List.suffix_rfl

theorem readBraced_cut (f : Flags) (cs : List Char) (n m : ℕ) (hm : cs.length < m) :
    Cut (readBraced f (cs ++ closing) n) (readBraced f cs m) := by
  induction n generalizing cs m with
  | zero => exact cut_error
  | succ n ih =>
      refine cut_of_settled (readBraced_ends f _ (n + 1)) fun c rest hu hs => ?_
      obtain ⟨m, rfl⟩ := Nat.exists_eq_succ_of_ne_zero (Nat.ne_zero_of_lt hm)
      have hle := (settle_suffix f cs).length_le
      rw [hu, List.length_cons] at hle
      rw [readBraced, readBraced, hs, hu]
      dsimp only [List.cons_append]
      split
      · exact cut_ok
      · exact (ih rest m (by omega)).bind (fun _ _ => ends_ok List.suffix_rfl)
          fun _ _ _ => cut_ok

theorem readHex_ends (f : Flags) (width : ℕ) (cs : List Char) :
    Ends (readHex f (width + 1) cs) (settle f cs).tail := by
  unfold readHex
  cases settle f cs with
  | nil => exact ends_error
  | cons c rest =>
      dsimp only [List.tail_cons]
      split
      · refine (ends_of_settled (readBraced_ends f rest _)).bind fun digits left _ => ?_
        dsimp only
        split
        · exact ends_error
        · split
          · exact ends_ok (settle_suffix f left)
          · exact ends_error
      · refine (readHexDigits_ends f width (c :: rest)).bind fun digits left _ => ?_
        dsimp only
        split
        · exact ends_ok List.suffix_rfl
        · exact ends_error

theorem readHex_cut (f : Flags) (width : ℕ) (cs : List Char) :
    Cut (readHex f (width + 1) (cs ++ closing)) (readHex f (width + 1) cs) := by
  refine cut_of_settled (readHex_ends f width _) fun c rest hu hs => ?_
  rw [readHex, readHex, hs, hu]
  dsimp only [List.cons_append]
  split
  · refine (readBraced_cut f rest _ _ (Nat.lt_succ_self _)).bind (fun digits left => ?_)
      fun digits y _ => ?_
    all_goals
      dsimp only
      split
    · exact ends_error
    · split
      · exact ends_ok (settle_suffix f left)
      · exact ends_error
    · exact cut_error
    · split
      · exact cut_settled
      · exact cut_error
  · refine (readHexDigits_cut f (width + 1) (c :: rest)).bind (fun digits left => ?_)
      fun digits y _ => ?_
    all_goals
      dsimp only
      split
    · exact ends_ok List.suffix_rfl
    · exact ends_error
    · exact cut_ok
    · exact cut_error

theorem readPropertyName_ends (f : Flags) (cs : List Char) :
    Ends (readPropertyName f cs) (settle f cs).tail := by
  unfold readPropertyName
  split
  · exact ends_error
  · next c rest hs =>
    rw [hs, List.tail_cons]
    split
    · exact ends_of_settled (readBraced_ends f rest _)
    · split
      · exact ends_error
      · exact ends_ok (settle_suffix f rest)

theorem readPropertyName_cut (f : Flags) (cs : List Char) :
    Cut (readPropertyName f (cs ++ closing)) (readPropertyName f cs) := by
  refine cut_of_settled (readPropertyName_ends f _) fun c rest hu hs => ?_
  rw [readPropertyName, readPropertyName, hs, hu]
  dsimp only [List.cons_append]
  split
  · exact readBraced_cut f rest _ _ (Nat.lt_succ_self _)
  · split
    · exact cut_error
    · exact cut_settled

theorem readProperty_ends (f : Flags) (negated : Bool) (cs : List Char) :
    Ends (readProperty f negated cs) cs :=
  (ends_of_settled (readPropertyName_ends f cs)).bind fun _ _ _ =>
    ends_bind fun _ => ends_ok List.suffix_rfl

theorem readProperty_cut (f : Flags) (negated : Bool) (cs : List Char) :
    Cut (readProperty f negated (cs ++ closing)) (readProperty f negated cs) :=
  (readPropertyName_cut f cs).bind (fun _ _ => ends_bind fun _ => ends_ok List.suffix_rfl)
    fun _ _ _ => cut_bind fun _ => cut_ok

theorem readBoundary_ends (f : Flags) (cs : List Char) : Ends (readBoundary f cs) cs := by
  unfold readBoundary
  dsimp only
  split
  · exact ends_ok List.suffix_rfl
  · next brace rest =>
    split
    · split
      · exact ends_error
      · split
        · refine Ends.mono ?_ (List.suffix_cons _ rest)
          refine (ends_of_settled (readBraced_ends f rest _)).bind fun name left _ => ?_
          dsimp only
          split
          all_goals first
            | exact ends_error
            | exact ends_ok List.suffix_rfl
        · exact ends_ok List.suffix_rfl
    · exact ends_ok List.suffix_rfl

/-- An escape whose end does not depend on what follows. It does where a brace that has nothing
behind it follows a word boundary: there may be a name in braces. -/
def Ended (f : Flags) (a : Atom) (y : List Char) : Prop :=
  ∀ l, a = .look l → ∀ z, y = '\x7b' :: z → settle f z ≠ []

theorem readBoundary_cut (f : Flags) (cs : List Char) :
    CutWhere (Ended f) (readBoundary f (cs ++ closing)) (readBoundary f cs) := by
  cases cs with
  | nil => exact (cut_ok (y := [])).where
  | cons brace rest =>
      unfold readBoundary
      dsimp only [List.cons_append]
      split
      · next hbrace =>
        obtain hs | ⟨hs, -⟩ := settle_append f rest
        · rw [hs]
          cases hu : settle f rest with
          | nil =>
              rintro r y hended h
              obtain ⟨rfl, hy⟩ := Prod.mk.inj (Except.ok.inj h)
              have hall : brace :: rest ++ closing = y ++ closing := hy
              have hrest : y = brace :: rest := (List.append_cancel_right hall).symm
              exact absurd hu (hended _ rfl rest (eq_of_beq hbrace ▸ hrest))
          | cons c more =>
              refine Cut.where ?_
              dsimp only [List.cons_append]
              split
              · refine (readBraced_cut f rest _ _ (Nat.lt_succ_self _)).bind
                  (fun name left => ?_) fun name y _ => ?_
                all_goals
                  dsimp only
                  split
                all_goals first
                  | exact ends_ok List.suffix_rfl
                  | exact ends_error
                  | exact cut_ok
                  | exact cut_error
              · exact cut_ok (y := brace :: rest)
        · rw [hs]
          exact cut_error.where
      · exact (cut_ok (y := brace :: rest)).where

theorem readEscape_ends (f : Flags) (cs : List Char) : Ends (readEscape f cs) cs.tail := by
  cases cs with
  | nil => exact ends_error
  | cons c rest =>
      unfold readEscape
      refine ends_ite ends_error ?_
      refine ends_ite (ends_of_settled (readHex_ends f 1 rest)) ?_
      refine ends_ite (ends_of_settled (readHex_ends f 3 rest)) ?_
      refine ends_ite (ends_of_settled (readHex_ends f 7 rest)) ?_
      refine ends_ite (readProperty_ends f _ rest) ?_
      refine ends_ite (ends_bind fun _ => ends_ok List.suffix_rfl) ?_
      refine ends_ite (ends_ok List.suffix_rfl) ?_
      refine ends_ite (readBoundary_ends f rest) ?_
      split
      · exact ends_ok List.suffix_rfl
      · exact ends_error

theorem readEscape_cut (f : Flags) (cs : List Char) :
    CutWhere (Ended f) (readEscape f (cs ++ closing)) (readEscape f cs) := by
  cases cs with
  | nil => exact ((readEscape_ends f closing).cut (by decide)).where
  | cons c rest =>
      rw [List.cons_append]
      unfold readEscape
      refine cutWhere_ite cut_error.where ?_
      refine cutWhere_ite (readHex_cut f 1 rest).where ?_
      refine cutWhere_ite (readHex_cut f 3 rest).where ?_
      refine cutWhere_ite (readHex_cut f 7 rest).where ?_
      refine cutWhere_ite (readProperty_cut f _ rest).where ?_
      refine cutWhere_ite (cut_bind fun _ => cut_ok).where ?_
      refine cutWhere_ite cut_ok.where ?_
      refine cutWhere_ite (readBoundary_cut f rest) ?_
      split
      · exact cut_ok.where
      · exact cut_error.where

/-! ## Bracketed classes -/

theorem readClassAtom_ends (f : Flags) (cs : List Char) : Ends (readClassAtom f cs) cs.tail := by
  unfold readClassAtom
  split
  · exact ends_error
  · next c rest =>
    split
    · exact (readEscape_ends f rest).tail
    · exact ends_ok List.suffix_rfl

theorem readClassAtom_cut (f : Flags) (cs : List Char) :
    CutWhere (Ended f) (readClassAtom f (cs ++ closing)) (readClassAtom f cs) := by
  cases cs with
  | nil => exact ((readClassAtom_ends f closing).cut (by decide)).where
  | cons c rest =>
      unfold readClassAtom
      dsimp only [List.cons_append]
      split
      · exact readEscape_cut f rest
      · exact cut_ok.where

theorem readRangeEnd_ends (f : Flags) (first : Atom) (cs : List Char) :
    Ends (readRangeEnd f first cs) cs := by
  unfold readRangeEnd
  refine Ends.mono ?_ (settle_suffix f cs)
  cases settle f cs with
  | nil => exact ends_error
  | cons c after =>
      dsimp only
      split
      · have hafter := settle_suffix f after
        split
        · exact ends_error
        · next next more hs =>
          split
          · exact ends_bind fun _ => ends_ok List.suffix_rfl
          · rw [hs] at hafter
            refine Ends.mono ?_ (hafter.trans (List.suffix_cons c after))
            exact (readClassAtom_ends f _).tail.bind fun _ _ _ =>
              ends_bind fun _ => ends_ok List.suffix_rfl
      · exact ends_bind fun _ => ends_ok List.suffix_rfl

/-- The piece that ends a range is a character. -/
theorem ended_of_range {f : Flags} {first second : Atom} {item : Nested CharSet} {y : List Char}
    (h : rangeBetween f first second = .ok item) : Ended f second y := by
  rintro l rfl
  unfold rangeBetween at h
  split at h
  · next heq => cases heq
  · cases h

/-- No item begins with a boundary. -/
theorem ended_of_readRangeEnd {f : Flags} {first : Atom} {cs y : List Char}
    {r : Nested CharSet × List Char} (h : readRangeEnd f first cs = .ok r) :
    Ended f first y := by
  rintro l rfl
  have hitem : ∀ {β : Type} (k : Nested CharSet → Except Error β) (b : β),
      (classItem f (.look l) >>= k) ≠ .ok b := nofun
  unfold readRangeEnd at h
  split at h
  · cases h
  · split at h
    · split at h
      · cases h
      · split at h
        · exact absurd h (hitem _ _)
        · next next more _ _ =>
          cases hsecond : readClassAtom f (next :: more) with
          | error e =>
              rw [hsecond] at h
              cases h
          | ok p =>
              rw [hsecond] at h
              cases h
    · exact absurd h (hitem _ _)

theorem readRangeEnd_cut (f : Flags) (first : Atom) (cs : List Char) :
    CutWhere (fun _ y => y ≠ []) (readRangeEnd f first (cs ++ closing))
      (readRangeEnd f first cs) := by
  unfold readRangeEnd
  obtain hs | ⟨hs, -⟩ := settle_append f cs
  · rw [hs]
    cases settle f cs with
    | nil => exact (ends_bind fun _ => ends_ok List.suffix_rfl : Ends _ closing).cut_closing
    | cons c after =>
        dsimp only [List.cons_append]
        split
        · obtain ha | ⟨ha, -⟩ := settle_append f after
          · rw [ha]
            cases settle f after with
            | nil =>
                have hends : Ends (readClassAtom f closing) ['$'] := readClassAtom_ends f closing
                exact ((hends.bind fun _ _ _ => ends_bind fun _ => ends_ok List.suffix_rfl).cut
                  (by decide)).where
            | cons next more =>
                dsimp only [List.cons_append]
                split
                · exact (cut_bind fun _ => cut_ok (y := c :: after)).where
                · refine (readClassAtom_cut f (next :: more)).bind
                    (fun _ _ => ends_bind fun _ => ends_ok List.suffix_rfl) ?_
                    fun _ _ _ => (cut_bind fun _ => cut_ok).where
                  intro second y r z _ h
                  cases hrange : rangeBetween f first second with
                  | error e =>
                      dsimp only at h
                      rw [hrange] at h
                      cases h
                  | ok item => exact ended_of_range hrange
          · rw [ha]
            exact cut_error.where
        · exact (cut_bind fun _ => cut_ok (y := c :: after)).where
  · rw [hs]
    exact cut_error.where

theorem readClassRange_ends (f : Flags) (cs : List Char) : Ends (readClassRange f cs) cs.tail :=
  (readClassAtom_ends f cs).bind fun _ _ _ => readRangeEnd_ends f _ _

theorem readClassRange_cut (f : Flags) (cs : List Char) :
    CutWhere (fun _ y => y ≠ []) (readClassRange f (cs ++ closing)) (readClassRange f cs) := by
  exact (readClassAtom_cut f cs).bind (fun _ _ => readRangeEnd_ends f _ _)
    (fun _ _ _ _ _ h => ended_of_readRangeEnd h) fun first y _ => readRangeEnd_cut f first y

/-- The part of a text up to a character that is not in the closing. -/
theorem span_append {d : Char} (hd : closing.all (· != d) = true) (cs : List Char) :
    (∃ t, cs.dropWhile (· != d) = d :: t ∧
      (cs ++ closing).dropWhile (· != d) = d :: t ++ closing ∧
      (cs ++ closing).takeWhile (· != d) = cs.takeWhile (· != d)) ∨
    cs.dropWhile (· != d) = [] ∧ (cs ++ closing).dropWhile (· != d) = [] := by
  induction cs with
  | nil => exact .inr ⟨rfl, List.dropWhile_eq_nil_iff.2 (List.all_eq_true.1 hd)⟩
  | cons c rest ih =>
      by_cases hc : c = d
      · subst hc
        exact .inl ⟨rest, by simp⟩
      · have hne : (c != d) = true := bne_iff_ne.2 hc
        simp only [List.cons_append, List.dropWhile_cons, List.takeWhile_cons, hne, if_true]
        obtain ⟨t, ht, ht', hname⟩ | hnone := ih
        · exact .inl ⟨t, ht, ht', congrArg (c :: ·) hname⟩
        · exact .inr hnone

theorem asciiName_append (cs : List Char) :
    asciiName? (cs ++ closing) = (asciiName? cs).map fun p => (p.1, p.2 ++ closing) := by
  unfold asciiName?
  obtain ⟨t, ht, ht', hname⟩ | ⟨hnone, hnone'⟩ := span_append (d := ':') (by decide) cs
  · rw [ht, ht', hname]
    cases t with
    | nil => rfl
    | cons c left =>
        by_cases hc : c = ']'
        · subst hc
          rfl
        · simp [hc]
  · rw [hnone, hnone']
    rfl

theorem asciiName_suffix {cs : List Char} {p : List Char × List Char}
    (h : asciiName? cs = some p) : p.2 <:+ cs := by
  unfold asciiName? at h
  split at h
  · next left hs =>
    cases h
    have hdrop := List.dropWhile_suffix (l := cs) (· != ':')
    rw [hs] at hdrop
    exact ((List.suffix_cons _ left).trans (List.suffix_cons _ _)).trans hdrop
  · cases h

theorem namedClass_append (f : Flags) (negated : Bool) (cs : List Char) :
    namedClass? f negated (cs ++ closing) =
      (namedClass? f negated cs).map fun p => (p.1, p.2 ++ closing) := by
  unfold namedClass?
  rw [asciiName_append]
  cases asciiName? cs with
  | none => rfl
  | some p =>
      dsimp only [Option.map_some, Option.bind_eq_bind, Option.bind_some]
      cases CharSet.ofAsciiName? (String.ofList p.1) with
      | none => rfl
      | some s => rfl

theorem namedClass_suffix {f : Flags} {negated : Bool} {cs : List Char}
    {p : Except Error (Nested CharSet) × List Char} (h : namedClass? f negated cs = some p) :
    p.2 <:+ cs := by
  simp only [namedClass?, Option.bind_eq_bind, Option.bind_eq_some_iff, Option.some.injEq] at h
  obtain ⟨q, hq, s, -, rfl⟩ := h
  exact asciiName_suffix hq

theorem readAsciiClass_append (f : Flags) (cs : List Char) :
    readAsciiClass? f (cs ++ closing) =
      (readAsciiClass? f cs).map fun p => (p.1, p.2 ++ closing) := by
  cases cs with
  | nil => rfl
  | cons c rest =>
      unfold readAsciiClass?
      dsimp only [List.cons_append]
      split
      · cases rest with
        | nil => rfl
        | cons d more =>
            dsimp only [List.cons_append]
            split
            · exact namedClass_append f true more
            · exact namedClass_append f false (d :: more)
      · rfl

theorem readAsciiClass_suffix {f : Flags} {cs : List Char}
    {p : Except Error (Nested CharSet) × List Char} (h : readAsciiClass? f cs = some p) :
    p.2 <:+ cs := by
  unfold readAsciiClass? at h
  split at h
  · cases h
  · next c rest =>
    split at h
    · refine List.IsSuffix.trans ?_ (List.suffix_cons c rest)
      split at h
      · cases h
      · next d more =>
        split at h
        · exact (namedClass_suffix h).trans (List.suffix_cons d more)
        · exact namedClass_suffix h
    · cases h

theorem readCaret_ends (f : Flags) (cs : List Char) : Ends (.ok (readCaret f cs)) cs := by
  unfold readCaret
  split
  · exact ends_ok List.suffix_rfl
  · next c rest =>
    split
    · exact ends_ok ((settle_suffix f rest).trans (List.suffix_cons c rest))
    · exact ends_ok List.suffix_rfl

theorem readCaret_cut (f : Flags) (cs : List Char) :
    Cut (.ok (readCaret f (cs ++ closing))) (.ok (readCaret f cs)) := by
  cases cs with
  | nil => exact cut_ok (y := [])
  | cons c rest =>
      unfold readCaret
      dsimp only [List.cons_append]
      split
      · exact cut_settled
      · exact cut_ok (y := c :: rest)

theorem readDashes_ends (f : Flags) (n : ℕ) (items : List (Nested CharSet)) (cs : List Char) :
    Ends (.ok (readDashes f n items cs)) cs := by
  induction n generalizing items cs with
  | zero => exact ends_ok List.suffix_rfl
  | succ n ih =>
      cases cs with
      | nil => exact ends_ok List.suffix_rfl
      | cons c rest =>
          rw [readDashes]
          split
          · exact (ih _ _).mono ((settle_suffix f rest).trans (List.suffix_cons c rest))
          · exact ends_ok List.suffix_rfl

theorem readDashes_cut (f : Flags) (n m : ℕ) (items : List (Nested CharSet)) (cs : List Char)
    (hn : cs.length ≤ n) (hm : cs.length ≤ m) :
    Cut (.ok (readDashes f n items (cs ++ closing))) (.ok (readDashes f m items cs)) := by
  induction n generalizing items cs m with
  | zero =>
      obtain rfl := List.eq_nil_of_length_eq_zero (Nat.le_zero.1 hn)
      cases m with
      | zero => exact cut_ok (y := [])
      | succ m => exact cut_ok (y := [])
  | succ n ih =>
      cases cs with
      | nil =>
          cases m with
          | zero => exact cut_ok (y := [])
          | succ m => exact cut_ok (y := [])
      | cons c rest =>
          obtain ⟨m, rfl⟩ := Nat.exists_eq_succ_of_ne_zero (Nat.ne_zero_of_lt hm)
          rw [List.length_cons] at hn hm
          rw [List.cons_append, readDashes, readDashes]
          split
          · have hle := (settle_suffix f rest).length_le
            obtain hs | ⟨hs, hs'⟩ := settle_append f rest
            · rw [hs]
              exact ih m _ _ (by omega) (by omega)
            · rw [hs]
              exact (readDashes_ends f n _ []).cut (by decide)
          · exact cut_ok (y := c :: rest)

theorem leadingItems_ends (f : Flags) (dashes : List (Nested CharSet)) (cs : List Char) :
    Ends (leadingItems f dashes cs) cs := by
  unfold leadingItems
  split
  · exact ends_error
  · next c rest =>
    split
    · split
      · exact ends_error
      · next next more hs =>
        have hrest := settle_suffix f rest
        rw [hs] at hrest
        exact ends_ok (hrest.trans (List.suffix_cons c rest))
    · exact ends_ok List.suffix_rfl

theorem leadingItems_cut (f : Flags) (dashes : List (Nested CharSet)) (cs : List Char) :
    CutWhere (fun _ y => y ≠ []) (leadingItems f dashes (cs ++ closing))
      (leadingItems f dashes cs) := by
  cases cs with
  | nil => exact (leadingItems_ends f dashes closing).cut_closing
  | cons c rest =>
      unfold leadingItems
      dsimp only [List.cons_append]
      split
      · obtain hs | ⟨hs, -⟩ := settle_append f rest
        · rw [hs]
          cases settle f rest with
          | nil => exact (ends_ok List.suffix_rfl : Ends _ closing).cut_closing
          | cons next more => exact (cut_ok (y := next :: more)).where
        · rw [hs]
          exact cut_error.where
      · exact (cut_ok (y := c :: rest)).where

theorem readLeading_ends (f : Flags) (cs : List Char) : Ends (readLeading f cs) cs :=
  (readDashes_ends f cs.length [] cs).bind (g := fun p => leadingItems f p.1 p.2)
    fun _ _ _ => leadingItems_ends f _ _

theorem readLeading_cut (f : Flags) (cs : List Char) :
    CutWhere (fun _ y => y ≠ []) (readLeading f (cs ++ closing)) (readLeading f cs) := by
  have hlength : cs.length ≤ (cs ++ closing).length := (List.prefix_append cs closing).length_le
  exact (readDashes_cut f _ _ [] cs hlength (Nat.le_refl _)).where.bind
    (P := fun _ _ => True) (g := fun p => leadingItems f p.1 p.2)
    (k := fun p => leadingItems f p.1 p.2) (fun _ _ => leadingItems_ends f _ _)
    (fun _ _ _ _ _ _ => trivial) fun _ _ _ => leadingItems_cut f _ _

theorem readClassStart_ends (f : Flags) (cs : List Char) : Ends (readClassStart f cs) cs :=
  Ends.bind ((readCaret_ends f (settle f cs)).mono (settle_suffix f cs))
    (g := fun p => readLeading f p.2 >>= fun q => .ok ((p.1, q.1), q.2))
    fun _ _ _ => (readLeading_ends f _).bind fun _ _ _ => ends_ok List.suffix_rfl

theorem readClassStart_cut (f : Flags) (cs : List Char) :
    CutWhere (fun _ y => y ≠ []) (readClassStart f (cs ++ closing)) (readClassStart f cs) := by
  have hcaret : Cut (.ok (readCaret f (settle f (cs ++ closing))))
      (.ok (readCaret f (settle f cs))) :=
    cut_settle (R := fun u => .ok (readCaret f u)) f cs (readCaret_ends f []) (readCaret_cut f)
  refine hcaret.where.bind (P := fun _ _ => True)
    (g := fun p => readLeading f p.2 >>= fun q => .ok ((p.1, q.1), q.2))
    (k := fun p => readLeading f p.2 >>= fun q => .ok ((p.1, q.1), q.2))
    (fun _ _ => (readLeading_ends f _).bind fun _ _ _ => ends_ok List.suffix_rfl)
    (fun _ _ _ _ _ _ => trivial) fun negated y _ => ?_
  refine (readLeading_cut f y).bind (fun _ _ => ends_ok List.suffix_rfl) ?_
    fun _ _ _ => cut_ok.where
  rintro items y r z hz h
  obtain ⟨-, hy⟩ := Prod.mk.inj (Except.ok.inj h)
  exact List.append_cancel_right hy ▸ hz

theorem readSetOp_append (c : Char) (cs : List Char) :
    readSetOp? (c :: (cs ++ closing)) =
      (readSetOp? (c :: cs)).map fun p => (p.1, p.2 ++ closing) := by
  cases cs with
  | nil =>
      by_cases hc : c = ')'
      · subst hc
        rfl
      · exact if_neg (mt eq_of_beq hc)
  | cons d rest =>
      unfold readSetOp?
      dsimp only [List.cons_append]
      split
      · rw [Option.map_map]
        rfl
      · rfl

theorem readSetOp_suffix {c : Char} {cs : List Char} {p : SetOp × List Char}
    (h : readSetOp? (c :: cs) = some p) : p.2 <:+ cs := by
  cases cs with
  | nil => cases h
  | cons d rest =>
      unfold readSetOp? at h
      dsimp only at h
      split at h
      · obtain ⟨op, -, rfl⟩ := Option.map_eq_some_iff.1 h
        exact List.suffix_cons d rest
      · cases h

theorem readClassBody_ends (f : Flags) (n : ℕ) (negated : Bool)
    (pending : Option (SetOp × Nested CharSet)) (items : List (Nested CharSet)) (cs : List Char) :
    Ends (readClassBody f n negated pending items cs) (settle f cs).tail := by
  induction n generalizing negated pending items cs with
  | zero => exact ends_error
  | succ n ih =>
      have ih' : ∀ negated pending items cs, Ends (readClassBody f n negated pending items cs) cs :=
        fun _ _ _ _ => ends_of_settled (ih _ _ _ _)
      rw [readClassBody]
      cases settle f cs with
      | nil => exact ends_error
      | cons c rest =>
          dsimp only [List.tail_cons]
          split
          · exact ends_bind fun _ => ends_ok List.suffix_rfl
          · split
            · next item left h =>
              exact ends_bind fun _ => (ih' _ _ _ left).mono (readAsciiClass_suffix h)
            · exact (readClassStart_ends f rest).bind fun _ inner _ =>
                (ih' _ _ _ inner).bind fun _ left _ => ih' _ _ _ left
          · split
            · next op left h => exact (ih' _ _ _ left).mono (readSetOp_suffix h)
            · exact (readClassRange_ends f (c :: rest)).bind fun _ left _ => ih' _ _ _ left

theorem readClassBody_cut (f : Flags) (n m : ℕ) (negated : Bool)
    (pending : Option (SetOp × Nested CharSet)) (items : List (Nested CharSet)) (cs : List Char)
    (hm : cs.length < m) :
    Cut (readClassBody f n negated pending items (cs ++ closing))
      (readClassBody f m negated pending items cs) := by
  induction n generalizing m negated pending items cs with
  | zero => exact cut_error
  | succ n ih =>
      refine cut_of_settled (readClassBody_ends f _ _ _ _ _) fun c rest hu hs => ?_
      have hends : ∀ n negated pending items cs,
          Ends (readClassBody f n negated pending items cs) cs.tail := fun _ _ _ _ cs =>
        (readClassBody_ends f _ _ _ _ cs).mono (tail_settle_suffix f cs)
      obtain ⟨m, rfl⟩ := Nat.exists_eq_succ_of_ne_zero (Nat.ne_zero_of_lt hm)
      have hle := (settle_suffix f cs).length_le
      rw [hu, List.length_cons] at hle
      rw [readClassBody, readClassBody, hs, hu]
      dsimp only [List.cons_append]
      split
      · exact cut_bind fun _ => cut_ok
      · rw [readAsciiClass_append]
        cases hclass : readAsciiClass? f rest with
        | some p =>
            have hp := (readAsciiClass_suffix hclass).length_le
            exact cut_bind fun _ => ih _ _ _ _ p.2 (by omega)
        | none =>
            refine (readClassStart_cut f rest).bind_tail
              (fun _ _ => (hends _ _ _ _ _).bind fun _ _ _ => (hends _ _ _ _ _).tail)
              fun start inner hinner => ?_
            have hstart := (readClassStart_ends f rest).le hinner
            refine (ih _ _ _ _ inner (by omega)).bind (fun _ _ => (hends _ _ _ _ _).tail)
              fun item left hleft => ?_
            have hbody := (hends _ _ _ _ inner).tail.le hleft
            exact ih _ _ _ _ left (by omega)
      · rw [readSetOp_append]
        cases hop : readSetOp? (c :: rest) with
        | some p =>
            have hp := (readSetOp_suffix hop).length_le
            exact ih _ _ _ _ p.2 (by omega)
        | none =>
            refine (readClassRange_cut f (c :: rest)).bind_tail (fun _ _ => hends _ _ _ _ _)
              fun item left hleft => ?_
            have hrange : left.length ≤ rest.length :=
              (readClassRange_ends f (c :: rest)).le hleft
            exact ih _ _ _ _ left (by omega)

theorem readClass_ends (f : Flags) (cs : List Char) : Ends (readClass f cs) cs :=
  (readClassStart_ends f cs).bind fun _ left _ => ends_of_settled (readClassBody_ends f _ _ _ _ left)

theorem readClass_cut (f : Flags) (cs : List Char) :
    Cut (readClass f (cs ++ closing)) (readClass f cs) := by
  refine (readClassStart_cut f cs).bind_tail
    (fun _ left => (readClassBody_ends f _ _ _ _ left).mono (tail_settle_suffix f left))
    fun start left hleft => ?_
  exact readClassBody_cut f _ _ _ _ _ left
    (Nat.lt_succ_of_le ((readClassStart_ends f cs).le hleft))

end GrammarProfile.Pattern
