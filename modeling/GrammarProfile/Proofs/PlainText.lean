import GrammarProfile.Proofs.Tokens

/-!
Reading plain scalars: a text that may be written plainly is read up to the colon after it, or
up to the next token where its line ends.
-/
namespace GrammarProfile.Yaml

/-! ## Texts that may be plain -/

/-- The rest of a plain text, from inside it. -/
structure PlainRest (cs : List Char) : Prop where
  gaps : ∀ c ∈ cs, isGap c = true → c = ' '
  last : cs.getLast? ≠ some ' '
  colon : hasEndingColon cs = false
  hash : hasNeighbours isGap (· == '#') cs = false

/-- A text that is written plainly. -/
structure IsPlain (cs : List Char) : Prop extends PlainRest cs where
  nonempty : cs ≠ []
  printable : ∀ c ∈ cs, isPrintable c = true
  breaks : ∀ c ∈ cs, isBreak c = false
  head : cs.head? ≠ some ' '
  indicator : beginsAsIndicator cs = false

theorem isPlain_of_allowsPlain {cs : List Char} (hne : cs ≠ [])
    (h : Style.allowsPlain cs = true) : IsPlain cs := by
  simp only [Style.allowsPlain, Style.needsEscapes, Bool.not_eq_true', Bool.or_eq_false_iff,
    List.any_eq_false, Bool.not_eq_true, Bool.not_eq_false] at h
  obtain ⟨⟨⟨⟨⟨⟨hbreaks, -, hprintable⟩, hhead⟩, hlast⟩, hindicator⟩, hcolon⟩, hhash⟩ := h
  have hgaps : ∀ c ∈ cs, isGap c = true → c = ' ' := by
    intro c hc hgap
    have hprint := hprintable c hc
    simp only [isGap, isSpacing, hbreaks c hc, Bool.or_false, Bool.or_eq_true, beq_iff_eq] at hgap
    obtain (rfl | rfl) | rfl := hgap
    · rfl
    · exact absurd hprint (by decide)
    · exact absurd hprint (by decide)
  refine ⟨⟨hgaps, ?_, hcolon, hhash⟩, hne, hprintable, hbreaks, ?_, hindicator⟩
  · intro hlast'
    rw [lastIs, hlast'] at hlast
    exact absurd hlast (by decide)
  · intro hhead'
    rw [headIs, hhead'] at hhead
    exact absurd hhead (by decide)

theorem hasEndingColon_append_right {v w : List Char} (h : hasEndingColon (v ++ w) = false) :
    hasEndingColon w = false := by
  induction v with
  | nil => exact h
  | cons c rest ih =>
      rw [List.cons_append, hasEndingColon, Bool.or_eq_false_iff] at h
      exact ih h.2

theorem hasNeighbours_append_right {p q : Char → Bool} {v w : List Char}
    (h : hasNeighbours p q (v ++ w) = false) : hasNeighbours p q w = false := by
  induction v with
  | nil => exact h
  | cons c rest ih =>
      refine ih ?_
      cases hrest : rest ++ w with
      | nil => rfl
      | cons d more =>
          rw [List.cons_append, hrest, hasNeighbours, Bool.or_eq_false_iff] at h
          exact h.2

theorem PlainRest.append_right {v w : List Char} (h : PlainRest (v ++ w)) : PlainRest w where
  gaps c hc := h.gaps c (List.mem_append_right _ hc)
  last := by
    intro hw
    refine h.last ?_
    rw [List.getLast?_append, hw]
    rfl
  colon := hasEndingColon_append_right h.colon
  hash := hasNeighbours_append_right h.hash

/-- The blanks at the beginning of a text. -/
theorem exists_spaces {cs : List Char} (h : ∀ c ∈ cs, isGap c = true → c = ' ') :
    ∃ k more, cs = spaces k ++ more ∧ ∀ c ∈ more.head?, isGap c = false := by
  induction cs with
  | nil => exact ⟨0, [], rfl, fun _ hc => nomatch hc⟩
  | cons c rest ih =>
      cases hc : isGap c with
      | false => exact ⟨0, c :: rest, rfl, fun d hd => Option.some.inj hd ▸ hc⟩
      | true =>
          obtain ⟨k, more, rfl, hmore⟩ := ih fun d hd => h d (List.mem_cons_of_mem _ hd)
          obtain rfl := h c List.mem_cons_self hc
          exact ⟨k + 1, more, rfl, hmore⟩

theorem getLast?_spaces (k : Nat) : (spaces (k + 1)).getLast? = some ' ' := by
  rw [spaces, List.getLast?_replicate, if_neg (Nat.succ_ne_zero k)]

/-- A plain text is a word, possibly with blanks and further words after it. -/
theorem PlainRest.cases_word {cs : List Char} (h : PlainRest cs) (hne : cs ≠ [])
    (hhead : ∀ c ∈ cs.head?, isGap c = false) :
    ∃ w rest, cs = w ++ rest ∧ w ≠ [] ∧ (∀ c ∈ w, isGap c = false) ∧
      (rest = [] ∨ ∃ k more, rest = spaces (k + 1) ++ more ∧ more ≠ [] ∧
        (∀ c ∈ more.head?, isGap c = false) ∧ PlainRest more) := by
  induction cs with
  | nil => exact absurd rfl hne
  | cons c rest ih =>
      have hc := hhead c rfl
      have hrest : PlainRest rest := PlainRest.append_right (v := [c]) h
      have hword : ∀ w : List Char, (∀ d ∈ w, isGap d = false) → ∀ d ∈ c :: w, isGap d = false :=
        fun w hw d hd => (List.mem_cons.1 hd).elim (fun he => he ▸ hc) (hw d)
      cases rest with
      | nil => exact ⟨[c], [], rfl, List.cons_ne_nil _ _, hword [] (by simp), .inl rfl⟩
      | cons d more =>
          cases hd : isGap d with
          | false =>
              obtain ⟨w, after, heq, -, hw, hafter⟩ := ih hrest (List.cons_ne_nil _ _)
                fun e he => Option.some.inj he ▸ hd
              exact ⟨c :: w, after, by rw [heq, List.cons_append], List.cons_ne_nil _ _,
                hword w hw, hafter⟩
          | true =>
              obtain ⟨k, more', hmore, hhead'⟩ := exists_spaces hrest.gaps
              obtain ⟨k, rfl⟩ : ∃ l, k = l + 1 := by
                cases k with
                | succ k => exact ⟨k, rfl⟩
                | zero =>
                    rw [spaces, List.replicate_zero, List.nil_append] at hmore
                    exact absurd (hhead' d (hmore ▸ rfl)) (by rw [hd]; decide)
              have hne' : more' ≠ [] := by
                rintro rfl
                rw [List.append_nil] at hmore
                exact hrest.last (hmore ▸ getLast?_spaces k)
              exact ⟨[c], d :: more, rfl, List.cons_ne_nil _ _, hword [] (by simp),
                .inr ⟨k, more', hmore, hne', hhead', PlainRest.append_right (hmore ▸ hrest)⟩⟩

/-! ## Gaps inside and after scalars -/

theorem not_gap_facts {c : Char} (h : isGap c = false) : isSpacing c = false ∧ isBreak c = false := by
  rw [isGap, Bool.or_eq_false_iff, Bool.or_eq_false_iff] at h
  exact h.1

theorem skip_space (r : List Char) (m : Mark) :
    (⟨' ' :: r, m⟩ : Cursor).skip 1 = ⟨r, m.past [' ']⟩ := rfl

theorem AtToken.not_gap {r : List Char} (h : AtToken r) : ∀ c ∈ r.head?, isGap c = false := by
  intro c hc
  have htoken := h c hc
  rw [isTokenHead, Bool.and_eq_true, Bool.and_eq_true] at htoken
  simpa using htoken.1.1

namespace Gap

/-- A gap ends where something else comes. -/
theorem scan_end {limit : Nat} {r : List Char} (hr : ∀ c ∈ r.head?, isGap c = false) (fuel : Nat)
    (g : Gap) (m : Mark) : scan limit fuel g ⟨r, m⟩ = .ok (g, ⟨r, m⟩) := by
  cases fuel with
  | zero => rfl
  | succ fuel =>
      cases r with
      | nil => rfl
      | cons c rest =>
          have hc := not_gap_facts (hr c rfl)
          rw [scan, Cursor.lineBreak?_cons hc.2]
          simp [Cursor.next?, hc.1]

theorem scan_spaces {limit k : Nat} {r : List Char} {fuel : Nat} (hfuel : k ≤ fuel) (g : Gap)
    (m : Mark) : scan limit fuel g ⟨spaces k ++ r, m⟩ =
      scan limit (fuel - k) { g with blanks := if g.ended then g.blanks else g.blanks ++ spaces k }
        ⟨r, m.past (spaces k)⟩ := by
  induction k generalizing g m fuel with
  | zero =>
      obtain ⟨ended, blanks, breaks⟩ := g
      cases ended <;> simp [spaces]
  | succ k ih =>
      obtain ⟨fuel, rfl⟩ := Nat.exists_eq_add_of_lt (Nat.lt_of_lt_of_le (Nat.succ_pos k) hfuel)
      obtain ⟨ended, blanks, breaks⟩ := g
      rw [spaces_succ, List.cons_append, Nat.zero_add, scan, Cursor.lineBreak?_cons (by decide),
        skip_space]
      cases ended with
      | true =>
          have hrest := ih (show k ≤ fuel by omega) ⟨true, blanks, breaks⟩ (m.past [' '])
          simp only [Cursor.next?, List.head?_cons]
          rw [if_neg (by decide), if_neg (by decide), if_neg (by simp), hrest,
            Nat.add_sub_add_right, m.past_cons ' ' (spaces k)]
          rfl
      | false =>
          have hrest := ih (show k ≤ fuel by omega) ⟨false, blanks ++ [' '], breaks⟩ (m.past [' '])
          simp only [Cursor.next?, List.head?_cons]
          rw [if_neg (by decide), if_pos (by decide), hrest, Nat.add_sub_add_right, m.past_cons ' ' (spaces k)]
          simp

theorem scan_newline {limit : Nat} (r : List Char) (fuel : Nat) (g : Gap) (m : Mark) :
    scan limit (fuel + 1) g ⟨'\n' :: r, m⟩ =
      scan limit fuel ⟨true, [], g.breaks ++ ['\n']⟩ ⟨r, m.past ['\n']⟩ := by
  rw [scan, Cursor.lineBreak?_newline]

/-- After a line has ended, a gap goes on up to the next token or comment. -/
theorem scan_fill {limit : Nat} {lines : List (List Char)} (hlines : ∀ line ∈ lines, IsFiller line)
    {k : Nat} {r : List Char} (hr : AtToken r) (m : Mark) :
    ∃ lines' k' m', (∀ line ∈ lines', IsFiller line) ∧ (∃ w, m' = m.past w) ∧
      m'.past (fill lines' ++ spaces k') = m.past (fill lines ++ spaces k) ∧
      ((fill lines' ++ (spaces k' ++ r)).head? = some '#' ∨ lines' = [] ∧ k' = 0) ∧
      ∀ (fuel : Nat) (g : Gap), (fill lines ++ (spaces k ++ r)).length ≤ fuel → g.ended = true →
        ∃ g', scan limit fuel g ⟨fill lines ++ (spaces k ++ r), m⟩ =
          .ok (g', ⟨fill lines' ++ (spaces k' ++ r), m'⟩) ∧ g'.ended = true := by
  induction lines generalizing m with
  | nil =>
      refine ⟨[], 0, m.past (spaces k), hlines, ⟨_, rfl⟩, rfl, .inr ⟨rfl, rfl⟩, ?_⟩
      intro fuel g hfuel hended
      have hk : (spaces k).length = k := List.length_replicate
      rw [fill_nil, List.nil_append, List.length_append] at hfuel
      exact ⟨_, (scan_spaces (by omega) g m).trans (scan_end hr.not_gap _ _ _), hended⟩
  | cons line lines ih =>
      obtain ⟨j, comment, rfl, hcomment⟩ := hlines line List.mem_cons_self
      have hlines' := fun l hl => hlines l (List.mem_cons_of_mem _ hl)
      have hj : (spaces j).length = j := List.length_replicate
      have htext : fill ((spaces j ++ comment) :: lines) ++ (spaces k ++ r) =
          spaces j ++ (comment ++ '\n' :: (fill lines ++ (spaces k ++ r))) := by
        simp
      have hmark : (m.past (spaces j)).past (comment ++ '\n' :: (fill lines ++ spaces k)) =
          m.past (fill ((spaces j ++ comment) :: lines) ++ spaces k) := by
        rw [← Mark.past_append]
        simp
      rw [htext]
      obtain rfl | ⟨cs, rfl, hcs⟩ := hcomment
      · obtain ⟨lines', k', m', hfillers, ⟨w, hw⟩, hpast, hstop, hscan⟩ :=
          ih hlines' ((m.past (spaces j)).past ['\n'])
        refine ⟨lines', k', m', hfillers, ⟨spaces j ++ ['\n'] ++ w, ?_⟩, ?_, hstop,
          fun fuel g hfuel hended => ?_⟩
        · rw [hw, Mark.past_append, Mark.past_append]
        · rw [hpast, ← hmark, List.nil_append, Mark.past_cons _ '\n' (_ ++ _)]
        · simp only [List.length_append, List.nil_append, List.length_cons] at hfuel
          obtain ⟨f, hf⟩ : ∃ f, fuel - j = f + 1 := ⟨fuel - j - 1, by omega⟩
          rw [scan_spaces (by omega), hf, List.nil_append, scan_newline]
          exact hscan f ⟨true, [], g.breaks ++ ['\n']⟩
            (by simp only [List.length_append]; omega) rfl
      · refine ⟨('#' :: cs) :: lines, k, m.past (spaces j), ?_, ⟨_, rfl⟩, ?_, .inl rfl,
          fun fuel g hfuel hended =>
            ⟨{ g with blanks := if g.ended then g.blanks else g.blanks ++ spaces j }, ?_, hended⟩⟩
        · intro l hl
          obtain rfl | hl := List.mem_cons.1 hl
          · exact ⟨0, '#' :: cs, rfl, .inr ⟨cs, rfl, hcs⟩⟩
          · exact hlines' l hl
        · rw [← hmark]
          simp
        · rw [List.length_append] at hfuel
          rw [scan_spaces (by omega), scan_end (by intro c hc; cases hc; decide)]
          simp

end Gap

theorem IsPlain.head_facts {cs : List Char} (h : IsPlain cs) :
    ∀ c ∈ cs.head?, isGap c = false ∧ c ≠ '#' := by
  intro c hc
  obtain ⟨rest, rfl⟩ : ∃ rest, cs = c :: rest := by
    cases cs with
    | nil => exact absurd hc (by simp)
    | cons d rest => exact ⟨rest, by rw [Option.some.inj hc]⟩
  constructor
  · cases hgap : isGap c with
    | false => rfl
    | true => exact absurd (congrArg some (h.gaps c List.mem_cons_self hgap)) h.head
  · rintro rfl
    have hindicator := h.indicator
    simp [beginsAsIndicator] at hindicator

namespace Plain

theorem scanRun_word {w rest tail : List Char} (hw : ∀ c ∈ w, isGap c = false)
    (hcolon : hasEndingColon (w ++ rest) = false) (hstop : endsBefore false (rest ++ tail) = true)
    {fuel : Nat} (hfuel : w.length < fuel) (run : List Char) (m : Mark) :
    scanRun false fuel run ⟨w ++ (rest ++ tail), m⟩ =
      .ok (w.reverse ++ run, ⟨rest ++ tail, m.past w⟩) := by
  have hwrong : ∀ cs, hasWrongColon false cs = false := by
    intro cs
    unfold hasWrongColon
    split <;> rfl
  induction w generalizing run m fuel with
  | nil =>
      obtain ⟨fuel, rfl⟩ := Nat.exists_eq_add_of_lt hfuel
      rw [scanRun, hwrong, if_neg Bool.false_ne_true, List.nil_append, if_pos hstop]
      rfl
  | cons c w ih =>
      obtain ⟨fuel, rfl⟩ := Nat.exists_eq_add_of_lt (Nat.zero_lt_of_lt hfuel)
      rw [List.length_cons] at hfuel
      have hc := hw c List.mem_cons_self
      rw [List.cons_append, hasEndingColon, Bool.or_eq_false_iff] at hcolon
      have hends : endsBefore false (c :: (w ++ (rest ++ tail))) = false := by
        have hnext : (c == ':' && (w ++ (rest ++ tail)).head?.all isGap) = false := by
          refine Bool.and_eq_false_imp.2 fun hc => ?_
          have hgap := hcolon.1
          rw [hc, Bool.true_and] at hgap
          rw [← List.append_assoc]
          cases hmore : w ++ rest with
          | nil => rw [hmore] at hgap; exact absurd hgap (by decide)
          | cons d more => rw [hmore] at hgap; exact hgap
        rw [endsBefore, hc, hnext]
        rfl
      have hbreak : ∀ d ∈ [c], isBreak d = false := by
        intro d hd
        rw [List.mem_singleton.1 hd]
        rw [isGap, Bool.or_eq_false_iff, Bool.or_eq_false_iff] at hc
        exact hc.1.2
      have hskip : (⟨c :: (w ++ (rest ++ tail)), m⟩ : Cursor).skip 1 =
          ⟨w ++ (rest ++ tail), m.past [c]⟩ := Cursor.skip_append hbreak _ m
      rw [Nat.zero_add, scanRun, hwrong, if_neg Bool.false_ne_true, List.cons_append, hends,
        if_neg Bool.false_ne_true, hskip]
      have hrest := ih (fun d hd => hw d (List.mem_cons_of_mem _ hd)) hcolon.2
        (show w.length < fuel by omega) (c :: run) (m.past [c])
      rw [show List.take 1 (c :: (w ++ (rest ++ tail))) ++ run = c :: run from rfl, hrest,
        ← Mark.past_append, List.reverse_cons, List.append_assoc]
      rfl

/-- What happens after a run of characters of a plain scalar, with `done` read in reverse. -/
def afterRun (inFlow : Bool) (indent fuel : Nat) (done : List Char) (c : Cursor) :
    Except Error Result :=
  if !c.sees (fun ch => isSpacing ch || isBreak ch) then .ok ⟨done.reverse, false, c⟩
  else
    match Gap.scan indent (fuel + 1) Gap.start c with
    | .error e => .error e
    | .ok (gap, c) =>
      if !inFlow && c.mark.column < indent then .ok ⟨done.reverse, gap.ended, c⟩
      else scanBody inFlow indent fuel done gap c

/-- The words of a plain text are read one after the other. -/
theorem scanBody_words {indent : Nat} {tail : List Char} {ended : Bool} {after : Cursor}
    {cs : List Char} (h : PlainRest cs) (hne : cs ≠ [])
    (hhead : ∀ c ∈ cs.head?, isGap c = false ∧ c ≠ '#') (hstop : endsBefore false tail = true)
    {m : Mark} (hindent : indent ≤ m.column + 1)
    (hmarker : (⟨cs ++ tail, m⟩ : Cursor).atDocumentMarker = false) {fuel : Nat}
    (hfuel : (cs ++ tail).length < fuel)
    (hlast : ∀ left done, tail.length < left →
      afterRun false indent left done ⟨tail, m.past cs⟩ = .ok ⟨done.reverse, ended, after⟩)
    (done : List Char) (gap : Gap) :
    scanBody false indent fuel done gap ⟨cs ++ tail, m⟩ =
      .ok ⟨done.reverse ++ gap.text ++ cs, ended, after⟩ := by
  induction hlength : cs.length using Nat.strongRecOn generalizing cs m fuel done gap with
  | ind length ih =>
  obtain ⟨w, rest, rfl, hw, hword, hrest⟩ := h.cases_word hne fun c hc => (hhead c hc).1
  obtain ⟨fuel, rfl⟩ := Nat.exists_eq_add_of_lt (Nat.zero_lt_of_lt hfuel)
  have hpos := List.length_pos_iff.2 hw
  simp only [List.length_append] at hfuel hlength
  have hhash : ((⟨w ++ rest ++ tail, m⟩ : Cursor).next? == some '#') = false := by
    cases w with
    | nil => exact absurd rfl hw
    | cons c w =>
        have hc := (hhead c rfl).2
        simpa [Cursor.next?] using hc
  have hends : endsBefore false (rest ++ tail) = true := by
    rcases hrest with rfl | ⟨k, more, rfl, -⟩
    · exact hstop
    · rfl
  have hrun := scanRun_word hword h.colon hends (show w.length < 0 + fuel + 1 by omega) [] m
  have hreverse : ∃ c run, w.reverse ++ [] = c :: run := by
    cases hr : w.reverse ++ [] with
    | nil => exact absurd (by simpa using hr) hw
    | cons c run => exact ⟨c, run, rfl⟩
  obtain ⟨c, run, hreverse⟩ := hreverse
  have hbody : scanBody false indent (0 + fuel + 1) done gap ⟨w ++ rest ++ tail, m⟩ =
      afterRun false indent (0 + fuel) (w.reverse ++ (gap.text.reverse ++ done))
        ⟨rest ++ tail, m.past w⟩ := by
    rw [scanBody, hmarker, hhash, List.append_assoc, hrun, hreverse]
    rw [List.append_nil] at hreverse
    rw [hreverse]
    rfl
  rw [hbody]
  rcases hrest with rfl | ⟨k, more, rfl, hmore, hmoreHead, hmoreRest⟩
  · rw [List.append_nil] at hlast
    rw [List.nil_append, hlast _ _ (by omega)]
    simp
  · have hk : (spaces (k + 1)).length = k + 1 := List.length_replicate
    have hwBreak : ∀ c ∈ w, isBreak c = false := fun c hc => (not_gap_facts (hword c hc)).2
    have hpast : (m.past w).past (spaces (k + 1)) =
        ⟨m.index + w.length + (k + 1), m.line, m.column + w.length + (k + 1)⟩ := by
      rw [Mark.past_of_not_break hwBreak, Mark.past_spaces]
    have hnotHash : ∀ c ∈ more.head?, c ≠ '#' := by
      rintro c hc rfl
      obtain ⟨more, rfl⟩ : ∃ rest, more = '#' :: rest := by
        cases more with
        | nil => exact absurd hc (by simp)
        | cons d rest => exact ⟨rest, by rw [Option.some.inj hc]⟩
      have hsplit : w ++ (spaces (k + 1) ++ '#' :: more) = (w ++ spaces k) ++ ' ' :: '#' :: more := by
        rw [spaces, List.replicate_succ', List.append_assoc, List.append_assoc]
        rfl
      have hneighbours := hasNeighbours_append_right (hsplit ▸ h.hash)
      simp [hasNeighbours, isGap, isSpacing] at hneighbours
    have hgapLast : ∀ c ∈ (more ++ tail).head?, isGap c = false := by
      cases more with
      | nil => exact absurd rfl hmore
      | cons d rest => exact hmoreHead
    rw [List.length_append, hk] at hfuel hlength
    have hscan : Gap.scan indent (0 + fuel + 1) Gap.start ⟨spaces (k + 1) ++ (more ++ tail), m.past w⟩ =
        .ok (⟨false, spaces (k + 1), []⟩, ⟨more ++ tail, (m.past w).past (spaces (k + 1))⟩) :=
      (Gap.scan_spaces (by omega) Gap.start _).trans (Gap.scan_end hgapLast _ _ _)
    have hnext : indent ≤ ((m.past w).past (spaces (k + 1))).column + 1 := by
      rw [hpast]
      dsimp only
      omega
    have hmarker' : (⟨more ++ tail, (m.past w).past (spaces (k + 1))⟩ : Cursor).atDocumentMarker =
        false := by
      rw [Cursor.atDocumentMarker, Cursor.atMarker, Cursor.atMarker, hpast]
      simp
    have hfuel' : (more ++ tail).length < 0 + fuel := by
      rw [List.length_append]
      omega
    have hlast' : ∀ left done, tail.length < left → afterRun false indent left done
        ⟨tail, ((m.past w).past (spaces (k + 1))).past more⟩ = .ok ⟨done.reverse, ended, after⟩ := by
      rwa [← Mark.past_append, ← Mark.past_append]
    have hmore' := ih more.length (by omega) hmoreRest hmore
      (fun c hc => ⟨hmoreHead c hc, hnotHash c hc⟩) hnext hmarker' hfuel' hlast'
      (w.reverse ++ (gap.text.reverse ++ done)) ⟨false, spaces (k + 1), []⟩ rfl
    rw [afterRun, List.append_assoc, if_neg (by simp [Cursor.sees, spaces_succ, isSpacing]), hscan]
    dsimp only
    rw [if_neg (by rw [hpast]; simp; omega), hmore']
    simp [Gap.text]

variable {indent : Nat} {cs tail : List Char} {m : Mark}

/-- A plain text that is a key. -/
theorem scan_key (h : IsPlain cs) (htail : Lexer.AtColon tail) (hindent : indent ≤ m.column + 1)
    (hmarker : (⟨cs ++ tail, m⟩ : Cursor).atDocumentMarker = false) :
    scan false indent ⟨cs ++ tail, m⟩ = .ok ⟨cs, false, ⟨tail, m.past cs⟩⟩ := by
  obtain ⟨r, rfl, hr⟩ := htail
  refine scanBody_words h.toPlainRest h.nonempty h.head_facts ?_ hindent hmarker (Nat.lt_succ_self _)
    (fun left done _ => ?_) [] Gap.start
  · rw [endsBefore, hr]
    rfl
  · rfl

/-- A plain text at the end of its line. -/
theorem scan_line (h : IsPlain cs) {lines : List (List Char)}
    (hlines : ∀ line ∈ lines, IsFiller line) {k : Nat} {r : List Char} (hr : AtToken r)
    (hk : r ≠ [] → k < indent) (hindent : indent ≤ m.column + 1)
    (hmarker : (⟨cs ++ '\n' :: (fill lines ++ (spaces k ++ r)), m⟩ : Cursor).atDocumentMarker =
      false) :
    ∃ lines' k' m', scan false indent ⟨cs ++ '\n' :: (fill lines ++ (spaces k ++ r)), m⟩ =
        .ok ⟨cs, true, ⟨fill lines' ++ (spaces k' ++ r), m'⟩⟩ ∧
      (∀ line ∈ lines', IsFiller line) ∧ m.line < m'.line ∧
      m'.past (fill lines' ++ spaces k') = m.past (cs ++ '\n' :: (fill lines ++ spaces k)) ∧
      (fill lines' ++ (spaces k' ++ r)).length <
        (cs ++ '\n' :: (fill lines ++ (spaces k ++ r))).length := by
  have hbreaks : ∀ c ∈ cs, isBreak c = false := h.breaks
  obtain ⟨lines', k', m', hfillers, ⟨w, hw⟩, hpast, hstop, hscan⟩ :=
    @Gap.scan_fill indent lines hlines k r hr ((m.past cs).past ['\n'])
  refine ⟨lines', k', m', ?_, hfillers, ?_, ?_, ?_⟩
  · refine scanBody_words h.toPlainRest h.nonempty h.head_facts rfl hindent hmarker
      (Nat.lt_succ_self _) (fun left done hleft => ?_) [] Gap.start
    rw [List.length_cons] at hleft
    obtain ⟨gap, hgap, hended⟩ := hscan left ⟨true, [], ['\n']⟩ (by omega) rfl
    rw [afterRun, if_neg (by simp [Cursor.sees, isBreak]), Gap.scan_newline]
    simp only [Gap.start, List.nil_append, hgap]
    split
    · rw [hended]
    · next hcolumn =>
      -- The scalar could go on by its column, but a comment or the end of the text comes.
      rw [Bool.not_false, Bool.true_and, decide_eq_true_eq] at hcolumn
      cases left with
      | zero => rw [scanBody, hended]
      | succ left =>
          rw [scanBody]
          rcases hstop with hhash | ⟨rfl, rfl⟩
          · rw [if_pos (by simp [Cursor.next?, hhash]), hended]
          · have hcol := (Mark.past_fill (List.cons_ne_nil [] lines) k (m.past cs)).1
            rw [fill_cons, List.nil_append, List.cons_append, Mark.past_cons, ← hpast] at hcol
            cases r with
            | nil =>
                have hend : (⟨fill [] ++ (spaces 0 ++ []), m'⟩ : Cursor).atDocumentMarker = false := by
                  simp [Cursor.atDocumentMarker, Cursor.atMarker, spaces]
                rw [hended, hend]
                rfl
            | cons c rest => exact absurd (hcol.symm ▸ hk (List.cons_ne_nil c rest)) hcolumn
  · have hcs := m.line_le_past cs
    have hnewline : ((m.past cs).past ['\n']).line = (m.past cs).line + 1 := rfl
    have hline := hw ▸ ((m.past cs).past ['\n']).line_le_past w
    omega
  · rw [hpast, ← Mark.past_cons, ← Mark.past_append]
  · have hindex := congrArg Mark.index hpast
    rw [hw] at hindex
    simp only [Mark.index_past, List.length_append, List.length_cons] at hindex ⊢
    omega

end Plain

namespace Lexer

variable {lx here : Lexer} {ks : List TokenKind} {I : List Nat} {allowed : Bool}
  {p : Option PendingKey} {cs tail : List Char} {m : Mark}

/-- No plain text is a document marker. -/
theorem atDocumentMarker_plain (h : IsPlain cs) (htail : ∀ c ∈ tail.head?, c ≠ '-' ∧ c ≠ '.') (m : Mark) :
    (⟨cs ++ tail, m⟩ : Cursor).atDocumentMarker = false := by
  have hindicator := h.indicator
  simp only [beginsAsIndicator, Bool.or_eq_false_iff] at hindicator
  have hprefix : ∀ d : Char, d = '-' ∨ d = '.' → ([d, d, d].isPrefixOf cs) = false →
      [d, d, d].isPrefixOf (cs ++ tail) = false := by
    intro d hd hcs
    have hne := h.nonempty
    have hnot : ∀ e ∈ tail.head?, (d == e) = false := by
      intro e he
      rw [beq_eq_false_iff_ne]
      rintro rfl
      exact hd.elim (htail d he).1 (htail d he).2
    match cs, hne with
    | [a], _ | [a, b], _ =>
        cases tail with
        | nil => simp [List.isPrefixOf]
        | cons e more => simp [List.isPrefixOf, hnot e rfl]
    | a :: b :: c :: rest, _ => simpa [List.isPrefixOf] using hcs
  have hdash := hprefix '-' (.inl rfl) hindicator.1.1
  have hdot := hprefix '.' (.inr rfl) hindicator.1.2
  have hdash' : "---".toList = ['-', '-', '-'] := rfl
  have hdot' : "...".toList = ['.', '.', '.'] := rfl
  simp [Cursor.atDocumentMarker, Cursor.atMarker, hdash, hdot]

theorem token_plain {ts : List Token} {n : Nat} (h : IsPlain cs)
    (htail : ∀ c ∈ tail.head?, c ≠ '-' ∧ c ≠ '.') :
    token ⟨⟨cs ++ tail, m⟩, ts, n, I, allowed, p, []⟩ =
      plainScalar ⟨⟨cs ++ tail, m⟩, ts, n, I, allowed, p, []⟩ := by
  have hmarker : ∀ marker, marker = "---" ∨ marker = "..." →
      (⟨cs ++ tail, m⟩ : Cursor).atMarker marker = false := by
    have h := atDocumentMarker_plain h htail m
    rw [Cursor.atDocumentMarker, Bool.or_eq_false_iff] at h
    rintro marker (rfl | rfl)
    · exact h.1
    · exact h.2
  have hdash := hmarker _ (.inl rfl)
  have hdot := hmarker _ (.inr rfl)
  have hindicator := h.indicator
  cases cs with
  | nil => exact absurd rfl h.nonempty
  | cons c rest =>
      have hc := (h.head_facts c rfl).1
      have hnext : c = '?' ∨ c = ':' ∨ c = '-' → ∃ d more, rest = d :: more ∧ isGap d = false := by
        intro hmark
        cases rest with
        | nil => rcases hmark with rfl | rfl | rfl <;> simp [beginsAsIndicator, atGap] at hindicator
        | cons d more =>
            refine ⟨d, more, rfl, ?_⟩
            rcases hmark with rfl | rfl | rfl <;> simp [beginsAsIndicator, atGap] at hindicator <;>
              simpa using hindicator.2
      simp [beginsAsIndicator] at hindicator
      obtain ⟨-, ⟨h₁, h₂, h₃, h₄, h₅, h₆, h₇, h₈, h₉, h₁₀, h₁₁, h₁₂, h₁₃, h₁₄, h₁₅, h₁₆⟩, -⟩ := hindicator
      by_cases hmark : c = '?' ∨ c = ':' ∨ c = '-'
      · obtain ⟨d, more, rfl, hd⟩ := hnext hmark
        have hspacing := (not_gap_facts hd).1
        rcases hmark with rfl | rfl | rfl <;>
          simp_all [token, Cursor.next?, beginsPlain, Cursor.gapAfter, inFlow]
      · rw [not_or, not_or] at hmark
        have hlist : indicators = ['-', '?', ':', ',', '[', ']', '\x7b', '\x7d', '#', '&', '*', '!',
          '|', '>', '\'', '"', '%', '@', '`'] := by decide
        have hother : c ∉ indicators := by
          simp [hlist, h₁, h₂, h₃, h₄, h₅, h₆, h₇, h₈, h₉, h₁₀, h₁₁, h₁₂, h₁₃, h₁₄, h₁₅, h₁₆, hmark]
        have hbegins : beginsPlain ⟨⟨c :: (rest ++ tail), m⟩, ts, n, I, allowed, p, []⟩ c = true := by
          simp [beginsPlain, hmark, hc, hother]
        rw [List.cons_append] at hdash hdot ⊢
        simp only [token, Cursor.next?, List.head?_cons, Bool.and_eq_true, beq_iff_eq, hdash, hdot,
          hmark, h₂, h₃, h₄, h₅, h₆, h₇, h₈, h₉, h₁₀, h₁₁, h₁₂, h₁₃, h₁₄, false_and, if_false,
          Bool.false_eq_true, hbegins, if_true]
theorem atToken_plain (h : IsPlain cs) (tail : List Char) : AtToken (cs ++ tail) := by
  intro c hc
  cases cs with
  | nil => exact absurd rfl h.nonempty
  | cons d rest =>
      obtain rfl := Option.some.inj hc
      have hd := h.head_facts d rfl
      have hmark : d ≠ '\ufeff' := by
        rintro rfl
        exact absurd (h.printable _ List.mem_cons_self) (by decide)
      simp [isTokenHead, hd.1, hd.2, hmark]

/-- The smallest column in which further lines of a scalar may begin. -/
def least (I : List Nat) : Nat := (I.head?.map (· + 1)).getD 0

theorem leastColumn_eq (lx : Lexer) : lx.leastColumn = least lx.indents := by
  unfold leastColumn least
  cases lx.indents <;> rfl

theorem least_le {column : Nat} (h : Within I column) : least I ≤ column + 1 := by
  unfold least
  cases hI : I.head? with
  | none => exact Nat.zero_le _
  | some n => exact Nat.succ_le_succ (h n hI)

theorem NextPart.lt_least {k : Nat} {r : List Char} (h : NextPart I k r) (hr : r ≠ []) :
    k < least I := by
  obtain ⟨n, hn, hk⟩ := h.within hr
  unfold least
  rw [Option.mem_def.1 hn]
  exact Nat.lt_succ_of_le hk

/-- A plain text that is a key. -/
theorem inline_plain (h : IsPlain cs) :
    Inline True AtColon cs [.scalar (String.ofList cs) true] := by
  refine inline_of_token h.nonempty (by simp) fun {here ks I allowed p tail m} hhere hI hcolon => ?_
  have htail : ∀ c ∈ tail.head?, c ≠ '-' ∧ c ≠ '.' := by
    obtain ⟨r, rfl, -⟩ := hcolon
    intro c hc
    cases hc
    decide
  obtain ⟨ts, -, rfl⟩ := hhere
  rw [token_plain h htail, plainScalar, keyToken]
  cases hsave : saveKey ⟨⟨cs ++ tail, m⟩, ts, ts.length, I, allowed, p, []⟩ with
  | error e => rfl
  | ok after =>
      obtain ⟨q, rfl⟩ := saveKey_eq hsave
      have hscan := Plain.scan_key h hcolon (least_le hI) (atDocumentMarker_plain h htail m)
      simp only [inFlow, List.isEmpty_nil, Bool.not_true, leastColumn_eq, hscan]

/-- A plain text at the end of its line. -/
theorem places_plain (h : IsPlain cs) (may : List (List Char) → Prop) (start : Option Nat) (j : Nat) :
    Places True may I start allowed (spaces j ++ (cs ++ ['\n'])) [.scalar (String.ofList cs) true] := by
  intro lx ks p lines k r m hstands hI _ hp hidle hlines _ hr hk
  have htail : ∀ c ∈ ('\n' :: (fill lines ++ (spaces k ++ r))).head?, c ≠ '-' ∧ c ≠ '.' := by
    intro c hc
    cases hc
    decide
  have htext : spaces j ++ (cs ++ ['\n']) ++ (fill lines ++ (spaces k ++ r)) =
      spaces j ++ (cs ++ '\n' :: (fill lines ++ (spaces k ++ r))) := by
    simp
  rw [htext] at hstands
  obtain ⟨q, hawaits, hq, hidle⟩ := hstands.awaits_idle (atToken_plain h _) hp hidle
  have hdeeper := hI.past (not_break_spaces j)
  generalize m.past (spaces j) = here at hdeeper hawaits hidle
  obtain ⟨lines', k', last, hscan, hfillers, hline, hpast, hshort⟩ :=
    Plain.scan_line h hlines hr hk.lt_least (least_le hdeeper.within)
      (atDocumentMarker_plain h htail here)
  have hcolumn : (last.past (fill lines' ++ spaces k')).column = k := by
    have hfill : cs ++ '\n' :: (fill lines ++ spaces k) = cs ++ (fill ([] :: lines) ++ spaces k) := by
      simp
    rw [hpast, hfill, Mark.past_append]
    exact (Mark.past_fill (List.cons_ne_nil _ _) k _).1
  have hsaved : Idle here (saved ks I allowed _ here) := hidle.saved hdeeper
  have hread : lx.Reaches fun after => Stands after (ks ++ [.scalar (String.ofList cs) true]) I true
      none (fill lines' ++ (spaces k' ++ r)) last := by
    refine hawaits.step hdeeper.within fun first hfirst => ?_
    obtain ⟨after, hsave, hafter⟩ := hfirst.saveKey hq
    have hnext := (hafter.emitAt (.scalar (String.ofList cs) true) here).moved
      (fill lines' ++ (spaces k' ++ r)) last true
    obtain ⟨fresh, hfresh, hlast⟩ := hnext.dropStale (hsaved.droppable _)
    rw [hsaved.keepFresh_eq hline] at hlast
    refine ⟨_, fresh, ?_, hfresh, ?_, ?_, hlast⟩
    · obtain ⟨ts, -, rfl⟩ := hfirst
      obtain ⟨ts', -, rfl⟩ := hafter
      rw [token_plain h htail, plainScalar, hsave]
      simp only [inFlow, List.isEmpty_nil, Bool.not_true, leastColumn_eq, hscan]
      rfl
    · obtain ⟨ts, -, rfl⟩ := hlast
      exact hshort
    · exact hlast.goesOn ks (by simp)
  refine (hread.mono fun after hafter => ?_).sure
  have hnext := hafter.awaits hfillers hr (droppable_none _)
  rw [Bool.true_or] at hnext
  exact ⟨_, hnext, fun _ => hcolumn⟩

end Lexer

end GrammarProfile.Yaml
