import Mathlib.Algebra.Ring.Nat
import GrammarProfile.Proofs.PlainText

/-!
Reading quoted scalars: a text between quotes is read again if each of its characters is written
so that it reads as itself, and its line separators are followed by indentation.
-/
namespace GrammarProfile.Yaml

/-! ## Hexadecimal digits -/

/-- One more hexadecimal digit. -/
def hexStep (acc : Option Nat) (c : Char) : Option Nat :=
  match acc with
  | none => none
  | some n =>
    if c.isDigit then some (n * 16 + (c.toNat - 48))
    else if 'a' ≤ c && c ≤ 'f' then some (n * 16 + (c.toNat - 87))
    else if 'A' ≤ c && c ≤ 'F' then some (n * 16 + (c.toNat - 55))
    else none

theorem hexValue?_eq (cs : List Char) : hexValue? cs = cs.foldl hexStep (some 0) := rfl

theorem hexStep_upper {d : Nat} (hd : d < 16) (n : Nat) :
    hexStep (some n) (Nat.digitChar d).toUpper = some (n * 16 + d) := by
  have hall : ∀ d : Fin 16, ((Nat.digitChar d).toUpper.isDigit = true ∧
      (Nat.digitChar d).toUpper.toNat - 48 = d) ∨
      ((Nat.digitChar d).toUpper.isDigit = false ∧
      ('a' ≤ (Nat.digitChar d).toUpper && (Nat.digitChar d).toUpper ≤ 'f') = false ∧
      ('A' ≤ (Nat.digitChar d).toUpper && (Nat.digitChar d).toUpper ≤ 'F') = true ∧
      (Nat.digitChar d).toUpper.toNat - 55 = d) := by
    decide
  rcases hall ⟨d, hd⟩ with ⟨h₁, h₂⟩ | ⟨h₁, h₂, h₃, h₄⟩
  · simp only [hexStep, h₁, if_true, h₂]
  · simp only [hexStep, h₁, h₂, h₃, h₄, Bool.false_eq_true, if_false, if_true]

theorem length_hexDigits (width n : Nat) : (hexDigits width n).length = width := by
  induction width generalizing n with
  | zero => rfl
  | succ width ih => rw [hexDigits, List.length_append, ih, List.length_singleton]

theorem hexValue?_hexDigits (width n : Nat) :
    hexValue? (hexDigits width n) = some (n % 16 ^ width) := by
  induction width generalizing n with
  | zero => simp [hexDigits, hexValue?, Nat.mod_one]
  | succ width ih =>
      rw [hexDigits, hexValue?_eq, List.foldl_append, ← hexValue?_eq, ih, List.foldl_cons,
        List.foldl_nil, hexStep_upper (Nat.mod_lt _ (by decide)), Nat.pow_succ',
        Nat.mod_mul, Nat.add_comm, Nat.mul_comm]

theorem mem_hexDigits {width n : Nat} {c : Char} (hc : c ∈ hexDigits width n) :
    ∃ d < 16, c = (Nat.digitChar d).toUpper := by
  induction width generalizing n with
  | zero => exact absurd hc List.not_mem_nil
  | succ width ih =>
      rcases List.mem_append.1 hc with hc | hc
      · exact ih hc
      · exact ⟨n % 16, Nat.mod_lt _ (by decide), List.mem_singleton.1 hc⟩

theorem isGap_of_mem_hexDigits {width n : Nat} {c : Char} (hc : c ∈ hexDigits width n) :
    isGap c = false := by
  obtain ⟨d, hd, rfl⟩ := mem_hexDigits hc
  have hall : ∀ d : Fin 16, isGap (Nat.digitChar d).toUpper = false := by decide
  exact hall ⟨d, hd⟩

theorem isBreak_of_mem_hexDigits {width n : Nat} {c : Char} (hc : c ∈ hexDigits width n) :
    isBreak c = false := by
  have hgap := isGap_of_mem_hexDigits hc
  rw [isGap, Bool.or_eq_false_iff, Bool.or_eq_false_iff] at hgap
  exact hgap.1.2

/-! ## What quotes hold -/

/-- The character that begins and ends a quoted scalar. -/
def quote (single : Bool) : Char := if single then '\'' else '"'

namespace Quoted

/-- Characters that are read as one character of a scalar. -/
structure IsPiece (single : Bool) (p : List Char) (c : Char) : Prop where
  head : ∀ d ∈ p.head?, isGap d = false
  nonempty : p ≠ []
  reads : ∀ (fuel : Nat) (done r : List Char) (m : Mark),
    scanRun single (fuel + 1) done ⟨p ++ r, m⟩ = scanRun single fuel (c :: done) ⟨r, m.past p⟩

/-- Where a reader stands between the characters of a scalar. -/
inductive Stretch where
  | run
  | blanks
  | breaks
  /-- After indentation that follows line separators. -/
  | indented
  deriving DecidableEq

def IsSeparator (b : Char) : Prop := b = '\u2028' ∨ b = '\u2029'

/-- What is written, up to the closing quote, for the rest of a text. -/
inductive Written (single : Bool) : Stretch → List Char → List Char → Prop where
  | done {s : Stretch} (hs : s ≠ .breaks) : Written single s [] []
  | piece {s : Stretch} {p w cs : List Char} {c : Char} (hs : s ≠ .breaks)
      (hp : IsPiece single p c) (h : Written single .run w cs) : Written single s (p ++ w) (c :: cs)
  | blank {s : Stretch} {w cs : List Char} (hs : s = .run ∨ s = .blanks)
      (h : Written single .blanks w cs) : Written single s (' ' :: w) (' ' :: cs)
  | separator {s : Stretch} {w cs : List Char} {b : Char} (hs : s = .run ∨ s = .breaks)
      (hb : IsSeparator b) (h : Written single .breaks w cs) :
      Written single s (b :: w) (b :: cs)
  | indent {s : Stretch} {w cs : List Char} (hs : s = .breaks ∨ s = .indented)
      (h : Written single .indented w cs) : Written single s (' ' :: w) cs

variable {single : Bool}

/-- What happens after a run of characters. -/
def afterRun (single : Bool) (fuel : Nat) (run : Except Error (List Char × Bool × Cursor)) :
    Except Error (List Char × Cursor) :=
  match run with
  | .error e => .error e
  | .ok (done, escapedBreak, c) =>
    if c.next? == some (quote single) then .ok (done.reverse, c.skip 1)
    else
      match Gap.scan 0 (fuel + 1) ⟨escapedBreak, [], []⟩ c with
      | .error e => .error e
      | .ok (gap, c) =>
        let text := if escapedBreak then gap.breaks else gap.text
        scanBody single fuel (text.reverse ++ done) c

/-- What happens after a gap. -/
def afterGap (single : Bool) (fuel : Nat) (done : List Char) (gap : Except Error (Gap × Cursor)) :
    Except Error (List Char × Cursor) :=
  match gap with
  | .error e => .error e
  | .ok (gap, c) => scanBody single fuel (gap.text.reverse ++ done) c

theorem text_separators {bs : List Char} (hne : bs ≠ []) (h : ∀ b ∈ bs, IsSeparator b) :
    Gap.text ⟨true, [], bs⟩ = bs := by
  cases bs with
  | nil => exact absurd rfl hne
  | cons b more =>
      have hb := h b List.mem_cons_self
      rcases hb with rfl | rfl <;> simp [Gap.text]

/-- The rest of a text is read up to the closing quote, with enough fuel. -/
def Reads (single : Bool) (w cs : List Char) : Stretch → Prop
  | .run => ∀ (fuel left : Nat) (done r : List Char) (m : Mark), Lexer.PastQuote r →
      (w ++ quote single :: r).length < fuel → (w ++ quote single :: r).length ≤ left →
      afterRun single left (scanRun single fuel done ⟨w ++ quote single :: r, m⟩) =
        .ok (done.reverse ++ cs, ⟨r, m.past (w ++ [quote single])⟩)
  | .blanks => ∀ (fuel left : Nat) (done blanks r : List Char) (m : Mark),
      Lexer.PastQuote r → 0 < m.column →
      (w ++ quote single :: r).length ≤ fuel → (w ++ quote single :: r).length < left →
      afterGap single left done
          (Gap.scan 0 fuel ⟨false, blanks, []⟩ ⟨w ++ quote single :: r, m⟩) =
        .ok (done.reverse ++ blanks ++ cs, ⟨r, m.past (w ++ [quote single])⟩)
  | s => ∀ (fuel left : Nat) (done breaks r : List Char) (m : Mark),
      Lexer.PastQuote r → breaks ≠ [] → (∀ b ∈ breaks, IsSeparator b) → (s = .indented → 0 < m.column) →
      (w ++ quote single :: r).length ≤ fuel → (w ++ quote single :: r).length < left →
      afterGap single left done
          (Gap.scan 0 fuel ⟨true, [], breaks⟩ ⟨w ++ quote single :: r, m⟩) =
        .ok (done.reverse ++ breaks ++ cs, ⟨r, m.past (w ++ [quote single])⟩)

theorem scanBody_eq {fuel : Nat} {done r : List Char} {m : Mark} (hm : 0 < m.column) (hr : r ≠ []) :
    scanBody single (fuel + 1) done ⟨r, m⟩ =
      afterRun single fuel (scanRun single (fuel + 1) done ⟨r, m⟩) := by
  have hmarker : (⟨r, m⟩ : Cursor).atDocumentMarker = false := by
    rw [Cursor.atDocumentMarker, Cursor.atMarker, Cursor.atMarker,
      beq_eq_false_iff_ne.2 (Nat.ne_of_gt hm)]
    rfl
  have hend : (⟨r, m⟩ : Cursor).atEnd = false := by
    rw [Cursor.atEnd, List.isEmpty_eq_false_iff]
    exact hr
  rw [scanBody, hmarker, hend, if_neg Bool.false_ne_true, if_neg Bool.false_ne_true]
  rfl

/-- Where no gap comes next, a run follows. -/
theorem Reads.resume {w cs : List Char} (h : Reads single w cs .run)
    (hhead : ∀ c ∈ (w ++ [quote single]).head?, isGap c = false) {left : Nat} {done r : List Char}
    {m : Mark} (hr : Lexer.PastQuote r) (hm : 0 < m.column)
    (hleft : (w ++ quote single :: r).length < left) (fuel : Nat) (g : Gap) :
    afterGap single left done (Gap.scan 0 fuel g ⟨w ++ quote single :: r, m⟩) =
      .ok (done.reverse ++ g.text ++ cs, ⟨r, m.past (w ++ [quote single])⟩) := by
  obtain ⟨left, rfl⟩ := Nat.exists_eq_add_of_lt (Nat.zero_lt_of_lt hleft)
  have hhead' : ∀ c ∈ (w ++ quote single :: r).head?, isGap c = false := by
    cases w with
    | nil => exact hhead
    | cons d w => exact hhead
  rw [Gap.scan_end hhead', afterGap, scanBody_eq hm (by simp), h _ _ _ r m hr (by omega) (by omega)]
  simp

theorem quote_not_gap : isGap (quote single) = false := by
  cases single <;> decide

theorem reads_done : Reads single [] [] .run := by
  intro fuel left done r m hr hfuel hleft
  obtain ⟨fuel, rfl⟩ := Nat.exists_eq_add_of_lt (Nat.zero_lt_of_lt hfuel)
  have hrun : scanRun single (0 + fuel + 1) done ⟨[] ++ quote single :: r, m⟩ =
      .ok (done, false, ⟨quote single :: r, m⟩) := by
    rw [List.nil_append, scanRun]
    dsimp only
    rw [if_neg (by rw [quote_not_gap]; decide)]
    cases single with
    | false => rfl
    | true => simpa [quote] using fun h => absurd h hr
  have hskip : (⟨quote single :: r, m⟩ : Cursor).skip 1 = ⟨r, m.past ([] ++ [quote single])⟩ := by
    refine Cursor.skip_append (w := [quote single]) ?_ r m
    simpa using (not_gap_facts quote_not_gap).2
  rw [hrun, afterRun, ← hskip]
  simp [Cursor.next?]

theorem reads_piece {p w cs : List Char} {c : Char} (hp : IsPiece single p c)
    (h : Reads single w cs .run) : Reads single (p ++ w) (c :: cs) .run := by
  intro fuel left done r m hr hfuel hleft
  obtain ⟨fuel, rfl⟩ := Nat.exists_eq_add_of_lt (Nat.zero_lt_of_lt hfuel)
  have hpos := List.length_pos_iff.2 hp.nonempty
  rw [List.append_assoc, List.length_append] at hfuel hleft
  rw [List.append_assoc, List.append_assoc, hp.reads, h _ _ _ r _ hr (by omega) (by omega)]
  simp [Mark.past_append]

/-- A run ends where a gap begins. -/
theorem afterRun_gap {fuel left : Nat} {done r : List Char} {m : Mark} {c : Char}
    (hc : isGap c = true) :
    afterRun single left (scanRun single (fuel + 1) done ⟨c :: r, m⟩) =
      afterGap single left done (Gap.scan 0 (left + 1) ⟨false, [], []⟩ ⟨c :: r, m⟩) := by
  have hne : (some c == some (quote single)) = false := by
    rw [beq_eq_false_iff_ne]
    rintro heq
    rw [Option.some.inj heq, quote_not_gap] at hc
    exact absurd hc (by decide)
  rw [scanRun]
  dsimp only
  rw [if_pos hc, afterRun, Cursor.next?, List.head?_cons, hne]
  rfl

theorem scan_separator {b : Char} (hb : IsSeparator b) (r : List Char) (fuel : Nat) (g : Gap)
    (m : Mark) : Gap.scan 0 (fuel + 1) g ⟨b :: r, m⟩ =
      Gap.scan 0 fuel ⟨true, [], g.breaks ++ [b]⟩ ⟨r, m.past [b]⟩ := by
  rcases hb with rfl | rfl <;> rfl

theorem Written.reads {s : Stretch} {w cs : List Char} (h : Written single s w cs) :
    Reads single w cs s := by
  induction h with
  | @done s hs =>
      have hhead : ∀ c ∈ ([] ++ [quote single]).head?, isGap c = false :=
        fun c hc => Option.some.inj hc ▸ quote_not_gap
      cases s with
      | run => exact reads_done
      | blanks =>
          intro fuel left done blanks r m hr hm _ hleft
          exact reads_done.resume hhead hr hm hleft fuel _
      | breaks => exact absurd rfl hs
      | indented =>
          intro fuel left done breaks r m hr hne hbreaks hm _ hleft
          rw [reads_done.resume hhead hr (hm rfl) hleft, text_separators hne hbreaks]
  | @piece s p w cs c hs hp _ ih =>
      have hpiece := reads_piece hp ih
      have hhead : ∀ d ∈ (p ++ w ++ [quote single]).head?, isGap d = false := by
        intro d hd
        cases hp' : p with
        | nil => exact absurd hp' hp.nonempty
        | cons e more =>
            rw [hp'] at hd
            exact hp.head d (by rw [hp']; exact hd)
      cases s with
      | run => exact hpiece
      | blanks =>
          intro fuel left done blanks r m hr hm _ hleft
          exact hpiece.resume hhead hr hm hleft fuel _
      | breaks => exact absurd rfl hs
      | indented =>
          intro fuel left done breaks r m hr hne hbreaks hm _ hleft
          rw [hpiece.resume hhead hr (hm rfl) hleft, text_separators hne hbreaks]
  | @blank s w cs hs _ ih =>
      have hgap : ∀ (fuel left : Nat) (done blanks r : List Char) (m : Mark), Lexer.PastQuote r →
          (' ' :: w ++ quote single :: r).length ≤ fuel →
          (' ' :: w ++ quote single :: r).length ≤ left →
          afterGap single left done
            (Gap.scan 0 fuel ⟨false, blanks, []⟩ ⟨' ' :: w ++ quote single :: r, m⟩) =
          .ok (done.reverse ++ blanks ++ ' ' :: cs, ⟨r, m.past (' ' :: w ++ [quote single])⟩) := by
        intro fuel left done blanks r m hr hfuel hleft
        obtain ⟨fuel, rfl⟩ := Nat.exists_eq_add_of_lt (Nat.zero_lt_of_lt hfuel)
        rw [List.cons_append, List.length_cons] at hfuel hleft
        have hspace := @Gap.scan_spaces 0 1 (w ++ quote single :: r) (0 + fuel + 1) (by omega)
          ⟨false, blanks, []⟩ m
        have htext : ' ' :: w ++ quote single :: r = spaces 1 ++ (w ++ quote single :: r) := rfl
        rw [htext, hspace, if_neg Bool.false_ne_true, Nat.add_sub_cancel, ih _ _ _ _ _ _ hr
          (by simp [Mark.past_spaces]) (by omega) (by omega)]
        simp [spaces, m.past_cons ' ' (w ++ _)]
      rcases hs with rfl | rfl
      · intro fuel left done r m hr hfuel hleft
        obtain ⟨fuel, rfl⟩ := Nat.exists_eq_add_of_lt (Nat.zero_lt_of_lt hfuel)
        rw [Nat.zero_add, List.cons_append, afterRun_gap (by decide), ← List.cons_append,
          hgap _ _ _ _ _ _ hr (by omega) hleft, List.append_nil]
      · intro fuel left done blanks r m hr _ hfuel hleft
        exact hgap _ _ _ _ _ _ hr hfuel (by omega)
  | @separator s w cs b hs hb _ ih =>
      have hgap : ∀ (fuel left : Nat) (g : Gap) (done r : List Char) (m : Mark),
          Lexer.PastQuote r → (∀ b ∈ g.breaks, IsSeparator b) →
          (b :: w ++ quote single :: r).length ≤ fuel →
          (b :: w ++ quote single :: r).length ≤ left →
          afterGap single left done (Gap.scan 0 fuel g ⟨b :: w ++ quote single :: r, m⟩) =
          .ok (done.reverse ++ g.breaks ++ b :: cs, ⟨r, m.past (b :: w ++ [quote single])⟩) := by
        intro fuel left g done r m hr hg hfuel hleft
        obtain ⟨fuel, rfl⟩ := Nat.exists_eq_add_of_lt (Nat.zero_lt_of_lt hfuel)
        rw [List.cons_append, List.length_cons] at hfuel hleft
        have hmore : ∀ d ∈ g.breaks ++ [b], IsSeparator d := fun d hd =>
          (List.mem_append.1 hd).elim (hg d) fun hd => List.mem_singleton.1 hd ▸ hb
        rw [Nat.zero_add, List.cons_append, scan_separator hb,
          ih _ _ _ _ _ _ hr (by simp) hmore (fun h => by cases h) (by omega) (by omega)]
        simp [m.past_cons b (w ++ _)]
      rcases hs with rfl | rfl
      · intro fuel left done r m hr hfuel hleft
        obtain ⟨fuel, rfl⟩ := Nat.exists_eq_add_of_lt (Nat.zero_lt_of_lt hfuel)
        rw [Nat.zero_add, List.cons_append, afterRun_gap (by rcases hb with rfl | rfl <;> decide),
          ← List.cons_append, hgap _ _ _ _ _ _ hr (by simp) (by omega) hleft, List.append_nil]
      · intro fuel left done breaks r m hr _ hbreaks _ hfuel hleft
        exact hgap _ _ ⟨true, [], breaks⟩ _ _ _ hr hbreaks hfuel (by omega)
  | @indent s w cs hs _ ih =>
      have hgap : ∀ (fuel left : Nat) (done breaks r : List Char) (m : Mark),
          Lexer.PastQuote r → breaks ≠ [] → (∀ b ∈ breaks, IsSeparator b) →
          (' ' :: w ++ quote single :: r).length ≤ fuel →
          (' ' :: w ++ quote single :: r).length < left →
          afterGap single left done
            (Gap.scan 0 fuel ⟨true, [], breaks⟩ ⟨' ' :: w ++ quote single :: r, m⟩) =
          .ok (done.reverse ++ breaks ++ cs, ⟨r, m.past (' ' :: w ++ [quote single])⟩) := by
        intro fuel left done breaks r m hr hne hbreaks hfuel hleft
        obtain ⟨fuel, rfl⟩ := Nat.exists_eq_add_of_lt (Nat.zero_lt_of_lt hfuel)
        rw [List.cons_append, List.length_cons] at hfuel hleft
        have hspace := @Gap.scan_spaces 0 1 (w ++ quote single :: r) (0 + fuel + 1) (by omega)
          ⟨true, [], breaks⟩ m
        have htext : ' ' :: w ++ quote single :: r = spaces 1 ++ (w ++ quote single :: r) := rfl
        rw [htext, hspace, if_pos rfl, Nat.add_sub_cancel, ih _ _ _ _ _ _ hr hne hbreaks
          (fun _ => by simp [Mark.past_spaces]) (by omega) (by omega)]
        simp [spaces, m.past_cons ' ' (w ++ _)]
      rcases hs with rfl | rfl
      · exact fun fuel left done breaks r m hr hne hbreaks _ hfuel hleft =>
          hgap _ _ _ _ _ _ hr hne hbreaks hfuel hleft
      · exact fun fuel left done breaks r m hr hne hbreaks _ hfuel hleft =>
          hgap _ _ _ _ _ _ hr hne hbreaks hfuel hleft

/-- A quoted scalar is read to its closing quote. -/
theorem scan_written {w cs : List Char} (h : Written single .run w cs) {r : List Char}
    (hr : Lexer.PastQuote r) (m : Mark) :
    scan single ⟨quote single :: (w ++ quote single :: r), m⟩ =
      .ok (cs, ⟨r, m.past (quote single :: (w ++ [quote single]))⟩) := by
  have hskip : (⟨quote single :: (w ++ quote single :: r), m⟩ : Cursor).skip 1 =
      ⟨w ++ quote single :: r, m.past [quote single]⟩ := by
    refine Cursor.skip_append (w := [quote single]) ?_ _ m
    simpa using (not_gap_facts quote_not_gap).2
  have hcolumn : 0 < (m.past [quote single]).column := by
    rw [Mark.past_of_not_break (by simpa using (not_gap_facts quote_not_gap).2)]
    exact Nat.succ_pos _
  have hreads := h.reads ((quote single :: (w ++ quote single :: r)).length + 1)
    (quote single :: (w ++ quote single :: r)).length [] r (m.past [quote single]) hr
    (by simp only [List.length_cons]; omega) (by simp)
  rw [scan, hskip, scanBody_eq hcolumn (by simp), hreads, m.past_cons (quote single) (w ++ _)]
  rfl

/-! ## Characters between quotes -/

theorem piece_single {c : Char} (hc : isGap c = false) (hquote : c ≠ '\'') : IsPiece true [c] c where
  head := fun _ hd => Option.some.inj hd ▸ hc
  nonempty := List.cons_ne_nil _ _
  reads := by
    intro fuel done r m
    rw [List.singleton_append, scanRun]
    dsimp only
    rw [if_neg (by rw [hc]; decide), if_pos rfl, if_pos (by simpa using hquote),
      Cursor.skip_one (not_gap_facts hc).2]

theorem piece_quote : IsPiece true ['\'', '\''] '\'' where
  head := fun _ hd => Option.some.inj hd ▸ rfl
  nonempty := List.cons_ne_nil _ _
  reads := fun _ _ _ _ => rfl

theorem piece_double {c : Char} (hc : isGap c = false) (hquote : c ≠ '"') (hslash : c ≠ '\\') :
    IsPiece false [c] c where
  head := fun _ hd => Option.some.inj hd ▸ hc
  nonempty := List.cons_ne_nil _ _
  reads := by
    intro fuel done r m
    rw [List.singleton_append, scanRun]
    dsimp only
    rw [if_neg (by rw [hc]; decide), if_neg Bool.false_ne_true, if_neg (by simpa using hquote),
      if_neg (by simpa using hslash), Cursor.skip_one (not_gap_facts hc).2]

/-- An escape that is read as a character. -/
theorem piece_escape {e c : Char} {digits : List Char} (he : isBreak e = false)
    (hscan : ∀ (r : List Char) (m : Mark), scanEscape ⟨'\\' :: e :: (digits ++ r), m⟩ =
      .ok (c, ⟨r, m.past ('\\' :: e :: digits)⟩)) :
    IsPiece false ('\\' :: e :: digits) c where
  head := fun _ hd => Option.some.inj hd ▸ rfl
  nonempty := List.cons_ne_nil _ _
  reads := by
    intro fuel done r m
    rw [List.cons_append, List.cons_append, scanRun]
    dsimp only
    rw [if_neg (by decide), if_neg Bool.false_ne_true, if_neg (by decide), if_pos (by decide),
      Cursor.skip_one (by decide), Cursor.lineBreak?_cons he, hscan]

theorem piece_named {e c : Char} (he : isBreak e = false) (hmeaning : escapeMeaning? e = some (.inl c)) :
    IsPiece false ['\\', e] c := by
  refine piece_escape he fun r m => ?_
  have hskip : (⟨'\\' :: e :: ([] ++ r), m⟩ : Cursor).skip 2 = ⟨r, m.past ['\\', e]⟩ :=
    Cursor.skip_append (w := ['\\', e]) (by simpa [isBreak] using he) r m
  rw [scanEscape]
  simp only [List.drop_one, List.tail_cons, List.head?_cons, Option.bind_some, hmeaning, hskip]

theorem piece_coded {e c : Char} {width : Nat} {digits : List Char}
    (he : escapeMeaning? e = some (.inr width)) (hbreak : isBreak e = false)
    (hlength : digits.length = width) (hdigits : ∀ d ∈ digits, isBreak d = false)
    (hvalue : hexValue? digits = some c.toNat) : IsPiece false ('\\' :: e :: digits) c := by
  refine piece_escape hbreak fun r m => ?_
  have hstart : ∀ d ∈ ['\\', e], isBreak d = false := by simpa [isBreak] using hbreak
  have hskip : (⟨'\\' :: e :: (digits ++ r), m⟩ : Cursor).skip 2 =
      ⟨digits ++ r, m.past ['\\', e]⟩ := Cursor.skip_append hstart _ m
  have hmark : m.past ('\\' :: e :: digits) = (m.past ['\\', e]).past digits :=
    Mark.past_append m ['\\', e] digits
  have hvalid : ((0xD800 ≤ c.toNat && c.toNat ≤ 0xDFFF) || decide (0x10FFFF < c.toNat)) = false := by
    have := c.valid
    simp only [UInt32.isValidChar, Nat.isValidChar, Char.toNat] at this ⊢
    simp only [Bool.or_eq_false_iff, Bool.and_eq_false_iff, decide_eq_false_iff_not]
    omega
  rw [scanEscape]
  simp only [List.drop_one, List.tail_cons, List.head?_cons, Option.bind_some, he, hskip,
    ← hlength, List.take_left, Nat.lt_irrefl, if_false, hvalue, hvalid, Bool.false_eq_true,
    Char.ofNat_toNat, Cursor.skip_append hdigits, hmark]

/-- A code in hexadecimal digits, as many as it needs. -/
theorem piece_hex {e c : Char} {width : Nat} (he : escapeMeaning? e = some (.inr width))
    (hbreak : isBreak e = false) (hc : c.toNat < 16 ^ width) :
    IsPiece false ('\\' :: e :: hexDigits width c.toNat) c :=
  piece_coded he hbreak (length_hexDigits _ _) (fun _ => isBreak_of_mem_hexDigits)
    (by rw [hexValue?_hexDigits, Nat.mod_eq_of_lt hc])

theorem toNat_lt (c : Char) : c.toNat < 16 ^ 8 := Nat.lt_of_lt_of_le c.val.toNat_lt (by decide)

/-- Each character is escaped so that it reads as itself. -/
theorem piece_escaped {c : Char} (hc : c ≠ ' ') : IsPiece false (escaped c) c := by
  unfold escaped
  split
  · exact piece_named (by decide) rfl
  · exact piece_named (by decide) rfl
  · exact piece_named (by decide) rfl
  · exact piece_named (by decide) rfl
  · exact piece_named (by decide) rfl
  · exact piece_named (by decide) rfl
  · exact piece_named (by decide) rfl
  · exact piece_named (by decide) rfl
  · exact piece_named (by decide) rfl
  · exact piece_named (by decide) rfl
  · exact piece_named (by decide) rfl
  · exact piece_named (by decide) rfl
  · exact piece_named (by decide) rfl
  · exact piece_named (by decide) rfl
  · next h₁ h₂ h₃ h₄ h₅ h₆ h₇ h₈ h₉ h₁₀ h₁₁ h₁₂ h₁₃ h₁₄ =>
    split
    · refine piece_double ?_ h₁₀ h₁₁
      simp [isGap, isSpacing, isBreak, hc]
      exact ⟨⟨h₄, ⟨⟨⟨h₅, h₈⟩, h₁₂⟩, h₁₃⟩, h₁₄⟩, h₁⟩
    · split
      · exact piece_hex rfl (by decide) (by omega)
      · split
        · exact piece_hex rfl (by decide) (by omega)
        · exact piece_hex rfl (by decide) (toNat_lt c)

/-! ## Texts between quotes -/

/-- Characters of which all but spaces are pieces. -/
theorem written_pieces {write : Char → List Char} {cs : List Char}
    (hspace : write ' ' = [' ']) (hpiece : ∀ c ∈ cs, c ≠ ' ' → IsPiece single (write c) c)
    {s : Stretch} (hs : s = .run ∨ s = .blanks) : Written single s (cs.flatMap write) cs := by
  induction cs generalizing s with
  | nil => exact .done (by rcases hs with rfl | rfl <;> decide)
  | cons c rest ih =>
      have hrest := fun d hd => hpiece d (List.mem_cons_of_mem _ hd)
      rw [List.flatMap_cons]
      by_cases hc : c = ' '
      · rw [hc, hspace]
        exact .blank hs (ih hrest (.inr rfl))
      · exact .piece (by rcases hs with rfl | rfl <;> decide) (hpiece c List.mem_cons_self hc)
          (ih hrest (.inl rfl))

/-- A text in double quotes reads as itself. -/
theorem written_escaped (cs : List Char) : Written false .run (cs.flatMap escaped) cs :=
  written_pieces rfl (fun _ _ hc => piece_escaped hc) (.inl rfl)

/-- What single quotes can hold from a place on: no space next to a line separator. -/
structure Quotable (cs : List Char) : Prop where
  printable : ∀ c ∈ cs, isPrintable c = true ∧ c ≠ '\n'
  before : hasNeighbours (· == ' ') isBreak cs = false
  after : hasNeighbours isBreak (· == ' ') cs = false

theorem Quotable.tail {c : Char} {cs : List Char} (h : Quotable (c :: cs)) : Quotable cs where
  printable d hd := h.printable d (List.mem_cons_of_mem _ hd)
  before := hasNeighbours_append_right (v := [c]) h.before
  after := hasNeighbours_append_right (v := [c]) h.after

theorem Quotable.break_next {c : Char} {cs : List Char} (h : Quotable (c :: cs))
    (hc : isBreak c = true) : cs.head? ≠ some ' ' := by
  cases cs with
  | nil => exact fun h => nomatch h
  | cons d rest =>
      intro hd
      obtain rfl := Option.some.inj hd
      have := h.after
      simp [hasNeighbours, hc] at this

theorem Quotable.space_next {cs : List Char} (h : Quotable (' ' :: cs)) :
    ∀ d ∈ cs.head?, isBreak d = false := by
  cases cs with
  | nil => exact fun _ h => nomatch h
  | cons d rest =>
      intro e he
      obtain rfl := Option.some.inj he
      have := h.before
      simp only [hasNeighbours, beq_self_eq_true, Bool.true_and, Bool.or_eq_false_iff] at this
      exact this.1

theorem isSeparator_of_printable {c : Char} (hc : isBreak c = true) (hprint : isPrintable c = true)
    (hline : c ≠ '\n') : IsSeparator c := by
  simp only [isBreak, Bool.or_eq_true, beq_iff_eq] at hc
  rcases hc with (((rfl | rfl) | rfl) | rfl) | rfl
  · exact absurd rfl hline
  · exact absurd hprint (by decide)
  · exact absurd hprint (by decide)
  · exact .inl rfl
  · exact .inr rfl

theorem written_indent {w cs : List Char} (h : Written single .indented w cs) (n : Nat) :
    Written single .breaks (spaces (n + 1) ++ w) cs := by
  have hindented : ∀ k, Written single .indented (spaces k ++ w) cs := by
    intro k
    induction k with
    | zero => exact h
    | succ k ih => exact .indent (.inr rfl) ih
  exact .indent (.inl rfl) (hindented n)

/-- The body of a text in single quotes. -/
theorem written_singleQuotedBody {n : Nat} {cs : List Char} (h : Quotable cs) {afterBreak : Bool}
    {s : Stretch}
    (hs : if afterBreak then s = .breaks ∧ cs.head? ≠ some ' '
      else s = .run ∨ s = .blanks ∧ ∀ d ∈ cs.head?, isBreak d = false) :
    Written true s (singleQuotedBody (n + 1) afterBreak cs) cs := by
  induction cs generalizing afterBreak s with
  | nil =>
      cases afterBreak with
      | false => exact .done (by rcases hs with rfl | ⟨rfl, -⟩ <;> decide)
      | true =>
          obtain ⟨rfl, -⟩ := hs
          rw [singleQuotedBody, if_pos rfl, ← List.append_nil (spaces (n + 1))]
          exact written_indent (.done (by decide)) n
  | cons c rest ih =>
      rw [singleQuotedBody]
      split
      · next hc =>
        have hsep := isSeparator_of_printable hc (h.printable c List.mem_cons_self).1
          (h.printable c List.mem_cons_self).2
        refine .separator ?_ hsep (ih h.tail ⟨rfl, h.break_next hc⟩)
        cases afterBreak with
        | true => exact .inr hs.1
        | false =>
            rcases hs with rfl | ⟨-, hhead⟩
            · exact .inl rfl
            · exact absurd (hhead c rfl) (by rw [hc]; decide)
      · next hc =>
        rw [Bool.not_eq_true] at hc
        have hpiece : ∀ t : Stretch, t ≠ .breaks → c ≠ ' ' → Written true t
            ((if c == '\'' then ['\'', '\''] else [c]) ++ singleQuotedBody (n + 1) false rest)
            (c :: rest) := by
          intro t ht hspace
          have hgap : isGap c = false := by
            have hprint := (h.printable c List.mem_cons_self).1
            rw [isGap, hc, Bool.or_false, Bool.or_eq_false_iff, isSpacing, Bool.or_eq_false_iff]
            refine ⟨⟨beq_eq_false_iff_ne.2 hspace, beq_eq_false_iff_ne.2 ?_⟩,
              beq_eq_false_iff_ne.2 ?_⟩
            · rintro rfl
              exact absurd hprint (by decide)
            · rintro rfl
              exact absurd hprint (by decide)
          refine .piece ht ?_ (ih h.tail (.inl rfl))
          split
          · next hq => exact (beq_iff_eq.1 hq) ▸ piece_quote
          · next hq => exact piece_single hgap (by simpa using hq)
        cases afterBreak with
        | true =>
            obtain ⟨rfl, hhead⟩ := hs
            rw [if_pos rfl, List.append_assoc]
            exact written_indent (hpiece .indented (by decide) fun he => hhead (congrArg some he)) n
        | false =>
            rw [if_neg Bool.false_ne_true, List.nil_append]
            have ht : s = .run ∨ s = .blanks := hs.imp id (·.1)
            by_cases hspace : c = ' '
            · subst hspace
              exact .blank ht (ih h.tail (.inr ⟨rfl, h.space_next⟩))
            · exact hpiece s (by rcases ht with rfl | rfl <;> decide) hspace

/-- A text in single quotes reads as itself. -/
theorem written_singleQuote {cs : List Char} (hstyle : Style.allowsSingleQuotes cs = true)
    (hline : '\n' ∉ cs) (n : Nat) : Written true .run (singleQuotedBody (n + 1) false cs) cs := by
  simp only [Style.allowsSingleQuotes, Style.needsEscapes, Bool.not_eq_true', Bool.or_eq_false_iff,
    List.any_eq_false, Bool.not_eq_false] at hstyle
  obtain ⟨⟨hbefore, hprintable⟩, hafter⟩ := hstyle
  have hquotable : Quotable cs :=
    ⟨fun c hc => ⟨hprintable c hc, fun he => hline (he ▸ hc)⟩, hbefore, hafter⟩
  exact written_singleQuotedBody hquotable (.inl rfl)

end Quoted

namespace Lexer

variable {single : Bool} {w cs : List Char}

theorem isTokenHead_quote : isTokenHead (quote single) = true := by
  cases single <;> decide

theorem atToken_quote (r : List Char) : AtToken (quote single :: r) :=
  atToken_cons isTokenHead_quote r

/-- A text between quotes. -/
theorem inline_quoted (h : Quoted.Written single .run w cs) :
    Inline True PastQuote (quote single :: (w ++ [quote single]))
      [.scalar (String.ofList cs) false] := by
  refine inline_of_token (List.cons_ne_nil _ _) (by simp) fun {here ks I allowed p tail m} hhere _ hquote => ?_
  have htext : quote single :: (w ++ [quote single]) ++ tail =
      quote single :: (w ++ quote single :: tail) := by
    simp
  rw [htext] at hhere
  obtain ⟨ts, -, rfl⟩ := hhere
  have htoken : token ⟨⟨quote single :: (w ++ quote single :: tail), m⟩, ts, ts.length, I, allowed,
      p, []⟩ = quotedScalar ⟨⟨quote single :: (w ++ quote single :: tail), m⟩, ts, ts.length, I,
        allowed, p, []⟩ single := by
    cases single <;> simp [token, quote, Cursor.next?, Cursor.atMarker, List.isPrefixOf]
  rw [htoken, quotedScalar, keyToken, keyToken]
  cases hsave : saveKey ⟨⟨quote single :: (w ++ quote single :: tail), m⟩, ts, ts.length, I, allowed,
      p, []⟩ with
  | error e => rfl
  | ok after =>
      obtain ⟨q, rfl⟩ := saveKey_eq hsave
      simp only [Quoted.scan_written h hquote]

end Lexer

end GrammarProfile.Yaml
