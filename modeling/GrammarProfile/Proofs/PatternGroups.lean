import GrammarProfile.Proofs.PatternPieces

/-!
A source that stands between anchors in a group of its own is read like the source alone, unless it
closes that group itself.
-/
namespace GrammarProfile.Pattern

/-! ## Bounds of repetitions -/

theorem dropBlanks_append (cs : List Char) :
    (cs ++ closing).dropWhile Text.isBlank = cs.dropWhile Text.isBlank ++ closing := by
  induction cs with
  | nil => rfl
  | cons c rest ih =>
      rw [List.cons_append, List.dropWhile_cons, List.dropWhile_cons]
      split
      · exact ih
      · rfl

theorem readDigits_ends (f : Flags) (n : ℕ) (cs : List Char) :
    Ends (.ok (readDigits f n cs)) cs := by
  induction n generalizing cs with
  | zero => exact ends_ok List.suffix_rfl
  | succ n ih =>
      cases cs with
      | nil => exact ends_ok List.suffix_rfl
      | cons c rest =>
          rw [readDigits]
          split
          · have hrest := ih (settle f rest) _ _ rfl
            exact ends_ok ((hrest.trans (settle_suffix f rest)).trans (List.suffix_cons c rest))
          · exact ends_ok List.suffix_rfl

theorem readDigits_cut (f : Flags) (n m : ℕ) (cs : List Char) (hn : cs.length ≤ n)
    (hm : cs.length ≤ m) :
    Cut (.ok (readDigits f n (cs ++ closing))) (.ok (readDigits f m cs)) := by
  induction n generalizing cs m with
  | zero =>
      obtain rfl := List.eq_nil_of_length_eq_zero (Nat.le_zero.1 hn)
      cases m with
      | zero => exact cut_ok (y := [])
      | succ m => exact cut_ok (y := [])
  | succ n ih =>
      cases cs with
      | nil =>
          cases m with
          | zero => exact cut_ok (y := [])
          | succ m => exact cut_ok (y := [])
      | cons c rest =>
          obtain ⟨m, rfl⟩ := Nat.exists_eq_succ_of_ne_zero (Nat.ne_zero_of_lt hm)
          rw [List.length_cons] at hn hm
          rw [List.cons_append, readDigits, readDigits]
          split
          · have hle := (settle_suffix f rest).length_le
            obtain hs | ⟨hs, -⟩ := settle_append f rest
            · rw [hs]
              exact Cut.bind (g := fun p => .ok (c :: p.1, p.2)) (k := fun p => .ok (c :: p.1, p.2))
                (ih m _ (by omega) (by omega)) (fun _ _ => ends_ok List.suffix_rfl)
                fun _ _ _ => cut_ok
            · rw [hs]
              exact (ends_ok (readDigits_ends f n [] _ _ rfl)).cut (by decide)
          · exact cut_ok (y := c :: rest)

theorem readCount_ends (f : Flags) (cs : List Char) : Ends (readCount f cs) cs := by
  refine Ends.mono (Ends.bind (g := fun p => do
      .ok (← countOf p.1, settle f (p.2.dropWhile Text.isBlank)))
    (readDigits_ends f _ _) fun _ left _ => ends_bind fun _ => ends_ok ?_) (List.dropWhile_suffix _)
  exact (settle_suffix f _).trans (List.dropWhile_suffix _)

theorem readCount_cut (f : Flags) (cs : List Char) :
    Cut (readCount f (cs ++ closing)) (readCount f cs) := by
  unfold readCount
  rw [dropBlanks_append]
  generalize cs.dropWhile Text.isBlank = u
  have hlength : u.length ≤ (u ++ closing).length := (List.prefix_append u closing).length_le
  refine Cut.bind (g := fun p => do
      .ok (← countOf p.1, settle f (p.2.dropWhile Text.isBlank))) (k := fun p => do
      .ok (← countOf p.1, settle f (p.2.dropWhile Text.isBlank)))
    (readDigits_cut f _ _ u hlength (Nat.le_refl _))
    (fun _ left => ends_bind fun _ =>
      ends_ok ((settle_suffix f _).trans (List.dropWhile_suffix _))) fun _ y _ => ?_
  refine cut_bind fun _ => ?_
  dsimp only
  rw [dropBlanks_append]
  exact cut_settled

theorem boundsOf_ends (low high : Option ℕ) (cs : List Char) : Ends (boundsOf low high cs) cs := by
  unfold boundsOf
  split
  · split
    · exact ends_error
    · next c left =>
      split
      · split
        · exact ends_error
        · exact ends_ok (List.suffix_cons c left)
      · exact ends_error
  · exact ends_error

theorem boundsOf_cut (low high : Option ℕ) (cs : List Char) :
    Cut (boundsOf low high (cs ++ closing)) (boundsOf low high cs) := by
  unfold boundsOf
  split
  · cases cs with
    | nil => exact cut_error
    | cons c left =>
        dsimp only [List.cons_append]
        split
        · split
          · exact cut_error
          · exact cut_ok
        · exact cut_error
  · exact cut_error

theorem readHigh_ends (f : Flags) (low : Option ℕ) (cs : List Char) :
    Ends (readHigh f low cs) cs :=
  (readCount_ends f cs).bind fun _ left _ => boundsOf_ends _ _ left

theorem readHigh_cut (f : Flags) (low : Option ℕ) (cs : List Char) :
    Cut (readHigh f low (cs ++ closing)) (readHigh f low cs) :=
  (readCount_cut f cs).bind (fun _ left => boundsOf_ends _ _ left) fun _ y _ => boundsOf_cut _ _ y

theorem readUpper_ends (f : Flags) (low : Option ℕ) (cs : List Char) :
    Ends (readUpper f low cs) cs := by
  unfold readUpper
  split
  · exact readHigh_ends f low []
  · next c rest =>
    split
    · split
      · exact ends_ok (List.suffix_cons c rest)
      · exact ends_error
    · exact readHigh_ends f low _

theorem readUpper_cut (f : Flags) (low : Option ℕ) (cs : List Char) :
    Cut (readUpper f low (cs ++ closing)) (readUpper f low cs) := by
  cases cs with
  | nil => exact readHigh_cut f low []
  | cons c rest =>
      unfold readUpper
      dsimp only [List.cons_append]
      split
      · split
        · exact cut_ok
        · exact cut_error
      · exact readHigh_cut f low (c :: rest)

theorem readBoundsEnd_ends (f : Flags) (low : Option ℕ) (cs : List Char) :
    Ends (readBoundsEnd f low cs) cs := by
  unfold readBoundsEnd
  split
  · exact ends_error
  · next c rest =>
    refine Ends.mono ?_ (List.suffix_cons c rest)
    split
    · exact (readUpper_ends f low _).mono (settle_suffix f rest)
    · split
      · exact ends_ok List.suffix_rfl
      · exact ends_error
    · exact ends_error

theorem readBoundsEnd_cut (f : Flags) (low : Option ℕ) (cs : List Char) :
    Cut (readBoundsEnd f low (cs ++ closing)) (readBoundsEnd f low cs) := by
  cases cs with
  | nil => exact cut_error
  | cons c rest =>
      unfold readBoundsEnd
      dsimp only [List.cons_append]
      split
      · exact cut_settle f rest (readUpper_ends f low []) (readUpper_cut f low)
      · split
        · exact cut_ok
        · exact cut_error
      · exact cut_error

theorem readBounds_ends (f : Flags) (cs : List Char) : Ends (readBounds f cs) cs :=
  ((readCount_ends f _).mono (settle_suffix f cs)).bind fun low left _ =>
    readBoundsEnd_ends f low left

theorem readBounds_cut (f : Flags) (cs : List Char) :
    Cut (readBounds f (cs ++ closing)) (readBounds f cs) :=
  (cut_settle f cs (readCount_ends f []) (readCount_cut f)).bind
    (fun low left => readBoundsEnd_ends f low left) fun low y _ => readBoundsEnd_cut f low y

/-! ## Groups -/

theorem readFlags_ends (seen : List Char) (on : Bool) (f : Flags) (cs : List Char) :
    Ends (readFlags seen on f cs) cs := by
  induction cs generalizing seen on f with
  | nil => exact ends_error
  | cons c rest ih =>
      rw [readFlags]
      split
      · split
        · exact ends_error
        · exact ends_ok List.suffix_rfl
      · refine Ends.mono ?_ (List.suffix_cons c rest)
        split
        · exact ends_error
        · split
          · exact ih _ _ _
          · split
            · exact ih _ _ _
            · exact ends_error

theorem readFlags_cut (seen : List Char) (on : Bool) (f : Flags) (cs : List Char) :
    CutWhere (fun _ y => y ≠ []) (readFlags seen on f (cs ++ closing))
      (readFlags seen on f cs) := by
  induction cs generalizing seen on f with
  | nil => exact (readFlags_ends seen on f closing).cut_closing
  | cons c rest ih =>
      rw [List.cons_append, readFlags, readFlags]
      split
      · split
        · exact cut_error.where
        · exact (cut_ok (y := c :: rest)).where
      · split
        · exact cut_error.where
        · split
          · exact ih _ _ _
          · split
            · exact ih _ _ _
            · exact cut_error.where

theorem readGroupName_ends (cs : List Char) : Ends (readGroupName cs) cs := by
  unfold readGroupName
  have hdrop := List.dropWhile_suffix (l := cs) (· != '>')
  dsimp only
  split
  · exact ends_error
  · next angle left h =>
    rw [h] at hdrop
    split
    · exact ends_ok ((List.suffix_cons angle left).trans hdrop)
    · exact ends_error

theorem readGroupName_cut (cs : List Char) :
    Cut (readGroupName (cs ++ closing)) (readGroupName cs) := by
  unfold readGroupName
  obtain ⟨t, ht, ht', hname⟩ | ⟨-, hnone⟩ := span_append (d := '>') (by decide) cs
  · dsimp only
    rw [ht, ht', hname]
    dsimp only [List.cons_append]
    split
    · exact cut_ok
    · exact cut_error
  · dsimp only
    rw [hnone]
    exact cut_error

theorem readNamed_ends (c : Context) (cs : List Char) : Ends (readNamed c cs) cs := by
  refine (readGroupName_ends cs).bind fun name left _ => ?_
  dsimp only
  split
  · exact ends_error
  · exact ends_ok List.suffix_rfl

theorem readNamed_cut (c : Context) (cs : List Char) :
    Cut (readNamed c (cs ++ closing)) (readNamed c cs) := by
  refine (readGroupName_cut cs).bind (fun name left => ?_) fun name y _ => ?_
  · dsimp only
    split
    · exact ends_error
    · exact ends_ok List.suffix_rfl
  · dsimp only
    split
    · exact cut_error
    · exact cut_ok

theorem openFlags_ends (c : Context) (bare : Bool) (f : Flags) (cs : List Char) :
    Ends (openFlags c bare f cs) cs.tail := by
  unfold openFlags
  split
  · exact ends_error
  · split
    · exact ends_ok List.suffix_rfl
    · split
      · exact ends_error
      · exact ends_ok List.suffix_rfl

theorem openFlags_cut (c : Context) (bare : Bool) (f : Flags) (cs : List Char) :
    Cut (openFlags c bare f (cs ++ closing)) (openFlags c bare f cs) := by
  cases cs with
  | nil => exact (openFlags_ends c bare f closing).cut (by decide)
  | cons mark left =>
      unfold openFlags
      dsimp only [List.cons_append]
      split
      · exact cut_ok
      · split
        · exact cut_error
        · exact cut_ok

theorem readFlagged_ends (c : Context) (cs : List Char) : Ends (readFlagged c cs) cs.tail :=
  (readFlags_ends [] true c.flags cs).bind_tail fun f left => openFlags_ends c _ f left

theorem readFlagged_cut (c : Context) (cs : List Char) :
    Cut (readFlagged c (cs ++ closing)) (readFlagged c cs) := by
  cases cs with
  | nil => exact (readFlagged_ends c closing).cut (by decide)
  | cons d rest =>
      exact (readFlags_cut [] true c.flags (d :: rest)).bind_tail
        (fun f left => openFlags_ends c _ f left) fun f y _ => openFlags_cut c _ f y

theorem marksLook_append (cs : List Char) : marksLook (cs ++ closing) = marksLook cs := by
  cases cs with
  | nil => rfl
  | cons c rest =>
      cases rest with
      | nil => rfl
      | cons d more => rfl

theorem nameAfter_append (cs : List Char) :
    nameAfter? (cs ++ closing) = (nameAfter? cs).map (· ++ closing) := by
  cases cs with
  | nil => rfl
  | cons c rest =>
      unfold nameAfter?
      dsimp only [List.cons_append]
      split
      · rfl
      · split
        · cases rest with
          | nil => rfl
          | cons d more =>
              dsimp only [List.cons_append]
              split
              · rfl
              · rfl
        · rfl

theorem nameAfter_suffix {cs rest : List Char} (h : nameAfter? cs = some rest) : rest <:+ cs := by
  unfold nameAfter? at h
  split at h
  · cases h
  · next c more =>
    refine List.IsSuffix.trans ?_ (List.suffix_cons c more)
    split at h
    · exact Option.some.inj h ▸ List.suffix_rfl
    · split at h
      · split at h
        · cases h
        · next d more =>
          split at h
          · exact Option.some.inj h ▸ List.suffix_cons d more
          · cases h
      · cases h

theorem readGroupKind_ends (c : Context) (cs : List Char) : Ends (readGroupKind c cs) cs := by
  unfold readGroupKind
  split
  · exact ends_error
  · split
    · next rest h => exact (readNamed_ends c rest).mono (nameAfter_suffix h)
    · exact (readFlagged_ends c cs).tail

theorem readGroupKind_cut (c : Context) (cs : List Char) :
    Cut (readGroupKind c (cs ++ closing)) (readGroupKind c cs) := by
  unfold readGroupKind
  rw [marksLook_append, nameAfter_append]
  split
  · exact cut_error
  · cases nameAfter? cs with
    | some rest => exact readNamed_cut c rest
    | none => exact readFlagged_cut c cs

theorem readOpening_ends (c : Context) (cs : List Char) : Ends (readOpening c cs) cs := by
  unfold readOpening
  refine Ends.mono ?_ (settle_suffix c.flags cs)
  cases settle c.flags cs with
  | nil => exact ends_ok List.suffix_rfl
  | cons mark rest =>
      dsimp only
      split
      · exact (readGroupKind_ends c rest).mono (List.suffix_cons mark rest)
      · exact ends_ok List.suffix_rfl

theorem readOpening_cut (c : Context) (cs : List Char) :
    Cut (readOpening c (cs ++ closing)) (readOpening c cs) := by
  unfold readOpening
  obtain hs | ⟨hs, -⟩ := settle_append c.flags cs
  · rw [hs]
    cases settle c.flags cs with
    | nil => exact cut_ok (y := [])
    | cons mark rest =>
        dsimp only [List.cons_append]
        split
        · exact readGroupKind_cut c rest
        · exact cut_ok (y := mark :: rest)
  · rw [hs]
    exact (ends_ok List.suffix_rfl : Ends _ []).cut (by decide)

theorem skipLazy_suffix (cs : List Char) : skipLazy cs <:+ cs := by
  unfold skipLazy
  split
  · exact List.suffix_rfl
  · next c rest =>
    split
    · exact List.suffix_cons c rest
    · exact List.suffix_rfl

theorem skipLazy_append (cs : List Char) : skipLazy (cs ++ closing) = skipLazy cs ++ closing := by
  cases cs with
  | nil => rfl
  | cons c rest =>
      unfold skipLazy
      dsimp only [List.cons_append]
      split
      · rfl
      · rfl

/-! ## Alternatives -/

theorem readGroupEnd_ends (cs : List Char) : Ends (readGroupEnd cs) cs.tail := by
  unfold readGroupEnd
  split
  · exact ends_error
  · split
    · exact ends_ok List.suffix_rfl
    · exact ends_error

theorem readGroupEnd_cut (cs : List Char) :
    Cut (readGroupEnd (cs ++ closing)) (readGroupEnd cs) := by
  cases cs with
  | nil => exact (readGroupEnd_ends closing).cut (by decide)
  | cons c rest =>
      unfold readGroupEnd
      dsimp only [List.cons_append]
      split
      · exact cut_ok
      · exact cut_error

theorem readAlternatives_ends (n : ℕ) (c : Context) (done parts : List Part) (cs : List Char) :
    Ends (readAlternatives n c done parts cs) cs := by
  induction n generalizing c done parts cs with
  | zero => exact ends_error
  | succ n ih =>
      rw [readAlternatives]
      refine Ends.mono ?_ (settle_suffix c.flags cs)
      cases settle c.flags cs with
      | nil => exact ends_ok List.suffix_rfl
      | cons next rest =>
          have hrest := List.suffix_cons next rest
          have hlazy := (skipLazy_suffix rest).trans hrest
          dsimp only
          split
          · exact ends_ok List.suffix_rfl
          · exact (ih _ _ _ rest).mono hrest
          · refine Ends.mono ((readOpening_ends c rest).bind fun opening inside _ => ?_) hrest
            cases opening with
            | flags f => exact ih _ _ _ inside
            | group inner =>
                exact (ih _ _ _ inside).bind fun _ left _ =>
                  (readGroupEnd_ends left).tail.bind fun _ left _ => ih _ _ _ left
          · exact Ends.mono ((readClass_ends c.flags rest).bind fun _ left _ => ih _ _ _ left) hrest
          · exact ends_bind fun _ => (ih _ _ _ _).mono hlazy
          · exact ends_bind fun _ => (ih _ _ _ _).mono hlazy
          · exact ends_bind fun _ => (ih _ _ _ _).mono hlazy
          · split
            · refine Ends.mono ((readBounds_ends c.flags rest).bind fun bounds left _ => ?_) hrest
              exact ends_bind fun _ => (ih _ _ _ _).mono
                ((skipLazy_suffix _).trans (settle_suffix c.flags left))
            · exact ends_error
          · exact ends_bind fun _ => (ih _ _ _ rest).mono hrest
          · exact (ih _ _ _ rest).mono hrest
          · exact (ih _ _ _ rest).mono hrest
          · refine Ends.mono ((readEscape_ends c.flags rest).tail.bind fun a left _ => ?_) hrest
            exact ends_bind fun _ => ih _ _ _ left
          · exact ends_bind fun _ => (ih _ _ _ rest).mono hrest

theorem settle_brace (f : Flags) (cs : List Char) : settle f ('\x7b' :: cs) = '\x7b' :: cs := by
  unfold settle
  split
  · rfl
  · rfl

/-- A brace with nothing behind it is the start of bounds that do not end. -/
theorem readAlternatives_brace {n : ℕ} {c : Context} {done parts : List Part} {z y : List Char}
    {r : Part × Context} (hz : settle c.flags z = []) :
    readAlternatives n c done parts ('\x7b' :: z ++ closing) ≠ .ok (r, y ++ closing) := by
  cases n with
  | zero => nofun
  | succ n =>
      rw [List.cons_append, readAlternatives, settle_brace]
      change (if parts.head?.any (·.operand) then _ else _) ≠ _
      split
      · intro h
        cases hb : readBounds c.flags (z ++ closing) with
        | error e =>
            rw [hb] at h
            cases h
        | ok p =>
            rw [hb] at h
            have hleft : y ++ closing <:+ p.2 := by
              refine Ends.mono (ends_bind fun _ => readAlternatives_ends n _ _ _ _)
                ((skipLazy_suffix _).trans (settle_suffix c.flags p.2)) r _ h
            obtain ⟨w, hw, -⟩ := exists_of_suffix hleft
            have hbounds := readBounds_cut c.flags z p.1 w (hw ▸ hb)
            have hcount : readCount c.flags [] = .ok (none, settle c.flags []) := rfl
            rw [readBounds, hz, hcount, settle_nil] at hbounds
            cases hbounds
      · nofun

theorem readAlternatives_cut (n m : ℕ) (c : Context) (done parts : List Part) (cs : List Char)
    (hm : cs.length < m) :
    Cut (readAlternatives n c done parts (cs ++ closing)) (readAlternatives m c done parts cs) := by
  induction n generalizing m c done parts cs with
  | zero => exact cut_error
  | succ n ih =>
      obtain ⟨m, rfl⟩ := Nat.exists_eq_succ_of_ne_zero (Nat.ne_zero_of_lt hm)
      have hle := (settle_suffix c.flags cs).length_le
      rw [readAlternatives, readAlternatives]
      obtain hs | ⟨hs, -⟩ := settle_append c.flags cs
      · rw [hs]
        cases hu : settle c.flags cs with
        | nil => exact cut_ok (y := [])
        | cons next rest =>
            rw [hu, List.length_cons] at hle
            have hends : ∀ c done parts left, Ends (readAlternatives n c done parts left) left :=
              readAlternatives_ends n
            have hlazy : ∀ parts, Cut (readAlternatives n c done parts (skipLazy (rest ++ closing)))
                (readAlternatives m c done parts (skipLazy rest)) := by
              intro parts
              have hleft := (skipLazy_suffix rest).length_le
              rw [skipLazy_append]
              exact ih _ _ _ _ _ (by omega)
            have hrest : ∀ done parts, Cut (readAlternatives n c done parts (rest ++ closing))
                (readAlternatives m c done parts rest) := fun _ _ => ih _ _ _ _ _ (by omega)
            dsimp only [List.cons_append]
            split
            · exact cut_ok (y := _ :: rest)
            · exact hrest _ _
            · refine (readOpening_cut c rest).bind (fun opening inside => ?_)
                fun opening inside hinside => ?_
              · cases opening with
                | flags f => exact hends _ _ _ inside
                | group inner =>
                    exact (hends _ _ _ inside).bind fun _ left _ =>
                      (readGroupEnd_ends left).tail.bind fun _ left _ => hends _ _ _ left
              · have hopening := (readOpening_ends c rest).le hinside
                cases opening with
                | flags f => exact ih _ _ _ _ inside (by omega)
                | group inner =>
                    refine (ih _ _ _ _ inside (by omega)).bind
                      (fun _ left => (readGroupEnd_ends left).tail.bind fun _ left _ =>
                        hends _ _ _ left) fun _ left hleft => ?_
                    have hgroup := (readAlternatives_ends _ _ _ _ inside).le hleft
                    refine (readGroupEnd_cut left).bind (fun _ left => hends _ _ _ left)
                      fun _ left' hleft' => ?_
                    have hend := (readGroupEnd_ends left).tail.le hleft'
                    exact ih _ _ _ _ left' (by omega)
            · refine (readClass_cut c.flags rest).bind (fun _ left => hends _ _ _ left)
                fun s left hleft => ?_
              have hlength := (readClass_ends c.flags rest).le hleft
              exact ih _ _ _ _ left (by omega)
            · exact cut_bind fun _ => hlazy _
            · exact cut_bind fun _ => hlazy _
            · exact cut_bind fun _ => hlazy _
            · split
              · refine (readBounds_cut c.flags rest).bind (fun bounds left => ?_)
                  fun bounds left hleft => ?_
                · exact ends_bind fun _ => (hends _ _ _ _).mono
                    ((skipLazy_suffix _).trans (settle_suffix c.flags left))
                · have hlength := (readBounds_ends c.flags rest).le hleft
                  refine cut_bind fun parts => ?_
                  dsimp only
                  have hskip := (settle_suffix c.flags left).length_le
                  obtain hl | ⟨hl, -⟩ := settle_append c.flags left
                  · have hshort := (skipLazy_suffix (settle c.flags left)).length_le
                    rw [hl, skipLazy_append]
                    exact ih _ _ _ _ _ (by omega)
                  · rw [hl]
                    exact (hends c done parts []).cut (by decide)
              · exact cut_error
            · exact cut_bind fun _ => hrest _ _
            · exact hrest _ _
            · exact hrest _ _
            · refine fun r y => (readEscape_cut c.flags rest).bind (Q := fun _ _ => True)
                (fun a left => ends_bind fun _ => hends _ _ _ left) ?_ (fun a left hleft => ?_)
                r y trivial
              · rintro a y r w - h l hl z rfl hz
                dsimp only at h
                cases he : atomExpr c.flags a with
                | error e =>
                    rw [he] at h
                    cases h
                | ok e =>
                    rw [he] at h
                    exact readAlternatives_brace hz h
              · have hlength := (readEscape_ends c.flags rest).tail.le hleft
                exact (cut_bind fun _ => ih _ _ _ _ left (by omega)).where
            · exact cut_bind fun _ => hrest _ _
      · rw [hs]
        exact (ends_ok List.suffix_rfl : Ends _ []).cut (by decide)

/-! ## Whole texts -/

theorem readExpr_eq_ok_iff {text : List Char} {e : Expr} :
    readExpr text = .ok e ↔ ∃ p c, readAlternatives (text.length + 1) ⟨.start, []⟩ [] [] text =
      .ok ((p, c), []) ∧ p.depth ≤ depthLimit ∧ p.expr.size ≤ sizeLimit ∧ p.expr = e := by
  unfold readExpr
  constructor
  · intro h
    cases hread : readAlternatives (text.length + 1) ⟨.start, []⟩ [] [] text with
    | error err =>
        rw [hread] at h
        cases h
    | ok r =>
        obtain ⟨⟨p, c⟩, left⟩ := r
        rw [hread] at h
        change (if !left.isEmpty then _ else _) = _ at h
        split at h
        · cases h
        · next hleft =>
          split at h
          · cases h
          · next hdepth =>
            split at h
            · cases h
            · next hsize =>
              obtain rfl : left = [] := by simpa using hleft
              exact ⟨p, c, rfl, Nat.le_of_not_lt hdepth, Nat.le_of_not_lt hsize, Except.ok.inj h⟩
  · rintro ⟨p, c, h, hdepth, hsize, rfl⟩
    rw [h]
    change (if depthLimit < p.depth then _ else _) = _
    rw [if_neg (Nat.not_lt_of_le hdepth), if_neg (Nat.not_lt_of_le hsize)]

theorem readExpr_unopened {text : List Char} {p : Part} {c : Context} {next : Char}
    {left : List Char}
    (h : readAlternatives (text.length + 1) ⟨.start, []⟩ [] [] text = .ok ((p, c), next :: left)) :
    readExpr text = .error .unopenedGroup := by
  rw [readExpr, h]
  rfl

theorem anchored_eq (cs : List Char) : anchored cs = '^' :: '(' :: '?' :: ':' :: (cs ++ closing) :=
  List.append_assoc ['^', '(', '?', ':'] cs closing

theorem readAlternatives_anchored (cs : List Char) :
    readAlternatives ((anchored cs).length + 1) ⟨.start, []⟩ [] [] (anchored cs) =
      (do
        let ((p, inner), left) ← readAlternatives (cs.length + 5) ⟨.start, []⟩ [] [] (cs ++ closing)
        let (_, left) ← readGroupEnd left
        readAlternatives (cs.length + 5) { inner with flags := .start } []
          [⟨p.expr, 1 + p.depth, true⟩, ⟨.look .textStart, 0, true⟩] left) := by
  have hlength : (anchored cs).length + 1 = cs.length + 5 + 1 + 1 := by
    rw [anchored_eq]
    simp [closing]
  rw [hlength, anchored_eq, readAlternatives]
  rfl

theorem readAlternatives_anchor (n : ℕ) (names : List String) (parts : List Part) :
    readAlternatives (n + 2) ⟨.start, names⟩ [] parts ['$'] =
      .ok ((sequence (⟨.look .textEnd, 0, true⟩ :: parts), ⟨.start, names⟩), []) := by
  rfl

/-- Where a group ends in a source or right after it, the closing is still to come. -/
theorem closing_suffix_of_end {cs left : List Char} {r : Unit × List Char}
    (hleft : left <:+ cs ++ closing) (hend : readGroupEnd left = .ok r) :
    ∃ y, left = y ++ closing := by
  unfold readGroupEnd at hend
  split at hend
  · cases hend
  · next c rest =>
    split at hend
    · next hc =>
      have hclosing : closing <:+ cs ++ closing := List.suffix_append cs closing
      cases rest with
      | nil =>
          obtain rfl := eq_of_beq hc
          have hshort := List.suffix_of_suffix_length_le hleft hclosing (by decide)
          exact absurd hshort (by decide)
      | cons d more =>
          obtain ⟨y, hy⟩ := List.suffix_of_suffix_length_le hclosing hleft
            (by simp only [closing, List.length_cons, List.length_nil]; omega)
          exact ⟨y, hy.symm⟩
    · cases hend

/-- A source that is read between anchors is a source that is read alone, and what is read stands
between anchors, unless the source closes the group that it is set in. -/
theorem readExpr_anchored {cs : List Char} {e : Expr} (h : readExpr (anchored cs) = .ok e) :
    (∃ inner, readExpr cs = .ok inner ∧
      e = .concat (.look .textStart) (.concat inner (.look .textEnd))) ∨
    readExpr cs = .error .unopenedGroup := by
  obtain ⟨q, c, hread, hdepth, hsize, rfl⟩ := readExpr_eq_ok_iff.1 h
  rw [readAlternatives_anchored] at hread
  cases hinner : readAlternatives (cs.length + 5) ⟨.start, []⟩ [] [] (cs ++ closing) with
  | error err =>
      rw [hinner] at hread
      cases hread
  | ok r =>
      obtain ⟨⟨p, inner⟩, left⟩ := r
      rw [hinner] at hread
      have hleft : left <:+ cs ++ closing := readAlternatives_ends _ _ _ _ _ _ _ hinner
      have hcut := readAlternatives_cut (cs.length + 5) (cs.length + 1) ⟨.start, []⟩ [] [] cs
        (Nat.lt_succ_self _) (p, inner)
      change (readGroupEnd left >>= fun r => readAlternatives (cs.length + 5) ⟨.start, inner.names⟩ []
        [⟨p.expr, 1 + p.depth, true⟩, ⟨.look .textStart, 0, true⟩] r.2) = _ at hread
      cases hend : readGroupEnd left with
      | error err =>
          rw [hend] at hread
          cases hread
      | ok rest =>
          obtain ⟨y, rfl⟩ := closing_suffix_of_end hleft hend
          have halone := hcut y hinner
          cases y with
          | cons next more => exact .inr (readExpr_unopened halone)
          | nil =>
              have hq := (readAlternatives_anchor (cs.length + 3) inner.names
                [⟨p.expr, 1 + p.depth, true⟩, ⟨.look .textStart, 0, true⟩]).symm.trans hread
              obtain ⟨rfl, -⟩ := Prod.mk.inj (Prod.mk.inj (Except.ok.inj hq)).1
              have hp : p.depth ≤ depthLimit := by
                refine Nat.le_trans ?_ hdepth
                simp only [sequence, deepest, List.map_cons, List.map_nil, List.foldl_cons,
                  List.foldl_nil]
                omega
              have hs : p.expr.size ≤ sizeLimit := by
                refine Nat.le_trans ?_ hsize
                simp only [sequence, List.foldl_cons, List.foldl_nil, Expr.size]
                omega
              exact .inl ⟨p.expr, readExpr_eq_ok_iff.2 ⟨p, inner, halone, hp, hs, rfl⟩, rfl⟩

end GrammarProfile.Pattern
