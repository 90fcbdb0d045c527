import Mathlib.Logic.Relation
import GrammarProfile.Yaml.Reader
import GrammarProfile.Yaml.Style

/-!
Runs of the lexer in block context: single steps, what a state waits for after blanks, comments
and line ends, and the ends of collections that are put in before the next token.
-/
namespace GrammarProfile.Yaml

/-! ## Places -/

namespace Mark

/-- The place after a text that holds no carriage return. -/
def past (m : Mark) : List Char → Mark
  | [] => m
  | c :: rest =>
    if isBreak c then past ⟨m.index + 1, m.line + 1, 0⟩ rest
    else past ⟨m.index + 1, m.line, m.column + 1⟩ rest

@[simp] theorem past_nil (m : Mark) : m.past [] = m := rfl

theorem past_append (m : Mark) (v w : List Char) : m.past (v ++ w) = (m.past v).past w := by
  induction v generalizing m with
  | nil => rfl
  | cons c rest ih =>
      rw [List.cons_append, past, past]
      split
      · exact ih _
      · exact ih _

theorem past_cons (m : Mark) (c : Char) (w : List Char) : m.past (c :: w) = (m.past [c]).past w :=
  past_append m [c] w

theorem past_of_not_break {w : List Char} (h : ∀ c ∈ w, isBreak c = false) (m : Mark) :
    m.past w = ⟨m.index + w.length, m.line, m.column + w.length⟩ := by
  induction w generalizing m with
  | nil => rfl
  | cons c rest ih =>
      rw [past, if_neg (by rw [h c List.mem_cons_self]; decide),
        ih fun d hd => h d (List.mem_cons_of_mem _ hd)]
      simp only [List.length_cons, Nat.add_assoc, Nat.add_comm 1]

theorem past_spaces (m : Mark) (k : Nat) :
    m.past (spaces k) = ⟨m.index + k, m.line, m.column + k⟩ := by
  have hspaces : ∀ c ∈ spaces k, isBreak c = false :=
    fun c hc => (List.eq_of_mem_replicate hc).symm ▸ rfl
  rw [past_of_not_break hspaces, spaces, List.length_replicate]

theorem line_le_past (m : Mark) (w : List Char) : m.line ≤ (m.past w).line := by
  induction w generalizing m with
  | nil => exact Nat.le_refl _
  | cons c rest ih =>
      rw [past]
      split
      · exact Nat.le_trans (Nat.le_succ _) (ih ⟨m.index + 1, m.line + 1, 0⟩)
      · exact ih ⟨m.index + 1, m.line, m.column + 1⟩

theorem index_past (m : Mark) (w : List Char) : (m.past w).index = m.index + w.length := by
  induction w generalizing m with
  | nil => rfl
  | cons c rest ih =>
      rw [past]
      split <;> rw [ih] <;> simp only [List.length_cons] <;> omega

end Mark

namespace Cursor

/-- Moving over characters of a line. -/
theorem skip_append {w : List Char} (h : ∀ c ∈ w, isBreak c = false) (r : List Char) (m : Mark) :
    (⟨w ++ r, m⟩ : Cursor).skip w.length = ⟨r, m.past w⟩ := by
  rw [Mark.past_of_not_break h, skip, List.drop_left]

theorem skip_one {c : Char} (hc : isBreak c = false) (r : List Char) (m : Mark) :
    (⟨c :: r, m⟩ : Cursor).skip 1 = ⟨r, m.past [c]⟩ :=
  skip_append (w := [c]) (by simpa using hc) r m

theorem lineBreak?_cons {c : Char} (h : isBreak c = false) (r : List Char) (m : Mark) :
    (⟨c :: r, m⟩ : Cursor).lineBreak? = none := by
  simp only [isBreak, Bool.or_eq_false_iff, beq_eq_false_iff_ne] at h
  obtain ⟨⟨⟨⟨h₁, h₂⟩, h₃⟩, h₄⟩, h₅⟩ := h
  rw [lineBreak?]
  split <;> simp_all

theorem lineBreak?_newline (r : List Char) (m : Mark) :
    (⟨'\n' :: r, m⟩ : Cursor).lineBreak? = some ('\n', ⟨r, m.past ['\n']⟩) := rfl

end Cursor

/-! ## Gaps between tokens -/

/-- Whether a token may begin with a character. -/
def isTokenHead (c : Char) : Bool := !isGap c && c != '#' && c != '\ufeff'

/-- A text that begins with a token, or is at its end. -/
def AtToken (r : List Char) : Prop := ∀ c ∈ r.head?, isTokenHead c = true

theorem atToken_nil : AtToken [] := fun _ h => nomatch h

theorem atToken_cons {c : Char} (h : isTokenHead c = true) (r : List Char) : AtToken (c :: r) :=
  fun _ hd => (Option.some.inj hd) ▸ h

/-- A line that holds no token: blanks, and possibly a comment. -/
def IsFiller (line : List Char) : Prop :=
  ∃ k comment, line = spaces k ++ comment ∧
    (comment = [] ∨ ∃ cs, comment = '#' :: cs ∧ ∀ c ∈ cs, isBreak c = false)

theorem isFiller_nil : IsFiller [] := ⟨0, [], rfl, .inl rfl⟩

/-- Lines with the line feeds after them. -/
def fill (lines : List (List Char)) : List Char := lines.flatMap fun line => line ++ ['\n']

@[simp] theorem fill_nil : fill [] = [] := rfl

@[simp] theorem fill_cons (line : List Char) (lines : List (List Char)) :
    fill (line :: lines) = line ++ '\n' :: fill lines := by
  simp [fill]

theorem spaces_succ (k : Nat) : spaces (k + 1) = ' ' :: spaces k := rfl

theorem takeWhile_spaces {p : Char → Bool} (hp : p ' ' = true) {r : List Char}
    (hr : ∀ c ∈ r.head?, p c = false) (k : Nat) : (spaces k ++ r).takeWhile p = spaces k := by
  have hnone : r.takeWhile p = [] := by
    cases r with
    | nil => rfl
    | cons c rest => exact List.takeWhile_cons_of_neg (by rw [hr c rfl]; decide)
  rw [spaces, List.takeWhile_append_of_pos fun c hc => by rw [List.eq_of_mem_replicate hc, hp], hnone,
    List.append_nil]

theorem isTokenHead.facts {c : Char} (h : isTokenHead c = true) :
    isSpacing c = false ∧ isBreak c = false ∧ c ≠ '\x00' ∧ c ≠ '#' ∧ c ≠ '\ufeff' := by
  simp only [isTokenHead, isGap, Bool.and_eq_true, Bool.not_eq_true', Bool.or_eq_false_iff,
    bne_iff_ne, beq_eq_false_iff_ne] at h
  exact ⟨h.1.1.1.1, h.1.1.1.2, h.1.1.2, h.1.2, h.2⟩

namespace Lexer

/-- The kinds of the tokens so far. -/
def kinds (lx : Lexer) : List TokenKind := lx.tokens.reverse.map Token.kind

/-- After blanks at the end of a line or before a token. -/
theorem skipGaps_spaces {lx : Lexer} {k : Nat} {r : List Char} {m : Mark}
    (hcursor : lx.cursor = ⟨spaces k ++ r, m⟩) (hr : AtToken r) (fuel : Nat) :
    skipGaps (fuel + 1) lx = { lx with cursor := ⟨r, m.past (spaces k)⟩ } := by
  have hheads : ∀ c ∈ r.head?, isSpacing c = false ∧ isBreak c = false ∧ c ≠ '#' ∧ c ≠ '\ufeff' :=
    fun c hc => have h := isTokenHead.facts (hr c hc); ⟨h.1, h.2.1, h.2.2.2.1, h.2.2.2.2⟩
  have hbom : ((⟨spaces k ++ r, m⟩ : Cursor).next? == some '\ufeff') = false := by
    cases k with
    | succ k => rfl
    | zero =>
        rw [beq_eq_false_iff_ne]
        intro h
        exact (hheads '\ufeff' (by simpa [spaces, Cursor.next?] using h)).2.2.2 rfl
  have hskip : ∀ tabs : Bool,
      (⟨spaces k ++ r, m⟩ : Cursor).skipWhile (fun ch => ch == ' ' || (tabs && ch == '\t')) =
        ⟨r, m.past (spaces k)⟩ := by
    intro tabs
    rw [Cursor.skipWhile, Cursor.takeWhile, takeWhile_spaces (by rfl)]
    · exact Cursor.skip_append (fun c hc => (List.eq_of_mem_replicate hc).symm ▸ rfl) r m
    · intro c hc
      have h := (hheads c hc).1
      rw [isSpacing, Bool.or_eq_false_iff] at h
      rw [h.1, h.2]
      simp
  have hhash : ((⟨r, m.past (spaces k)⟩ : Cursor).next? == some '#') = false := by
    rw [beq_eq_false_iff_ne]
    exact fun h => (hheads '#' h).2.2.1 rfl
  have hline : (⟨r, m.past (spaces k)⟩ : Cursor).lineBreak? = none := by
    cases r with
    | nil => rfl
    | cons c rest => exact Cursor.lineBreak?_cons (hheads c rfl).2.1 _ _
  rw [skipGaps]
  simp only [hcursor, hbom, Bool.and_false, Bool.false_eq_true, if_false, hskip, hhash, hline]

/-- Over a line without a token. -/
theorem skipGaps_line {lx : Lexer} {line r : List Char} {m : Mark} (hline : IsFiller line)
    (hcursor : lx.cursor = ⟨line ++ '\n' :: r, m⟩) (hblock : lx.outer = []) (fuel : Nat) :
    skipGaps (fuel + 1) lx =
      skipGaps fuel { lx with cursor := ⟨r, m.past (line ++ ['\n'])⟩, keyAllowed := true } := by
  obtain ⟨k, comment, rfl, hcomment⟩ := hline
  have hheads : ∀ c ∈ (comment ++ '\n' :: r).head?, isSpacing c = false ∧ c ≠ '\ufeff' := by
    intro c hc
    obtain rfl | ⟨cs, rfl, -⟩ := hcomment
    · cases hc; decide
    · cases hc; decide
  have hbom : ((⟨spaces k ++ comment ++ '\n' :: r, m⟩ : Cursor).next? == some '\ufeff') = false := by
    rw [List.append_assoc]
    cases k with
    | succ k => rfl
    | zero =>
        rw [beq_eq_false_iff_ne]
        intro h
        exact (hheads '\ufeff' (by simpa [spaces, Cursor.next?] using h)).2 rfl
  have hskip : ∀ tabs : Bool, (⟨spaces k ++ comment ++ '\n' :: r, m⟩ : Cursor).skipWhile
      (fun ch => ch == ' ' || (tabs && ch == '\t')) =
        ⟨comment ++ '\n' :: r, m.past (spaces k)⟩ := by
    intro tabs
    rw [List.append_assoc, Cursor.skipWhile, Cursor.takeWhile, takeWhile_spaces (by rfl)]
    · exact Cursor.skip_append (fun c hc => (List.eq_of_mem_replicate hc).symm ▸ rfl) _ m
    · intro c hc
      have h := (hheads c hc).1
      rw [isSpacing, Bool.or_eq_false_iff] at h
      rw [h.1, h.2]
      simp
  have hflow : lx.inFlow = false := by rw [inFlow, hblock]; rfl
  have hbreak : ∀ c : Cursor, c = ⟨comment ++ '\n' :: r, m.past (spaces k)⟩ →
      (if c.next? == some '#' then c.skipWhile (!isBreak ·) else c) =
        ⟨'\n' :: r, m.past (spaces k ++ comment)⟩ := by
    rintro c rfl
    obtain rfl | ⟨cs, rfl, hcs⟩ := hcomment
    · rw [List.append_nil]
      rfl
    · have hcs' : ∀ c ∈ '#' :: cs, isBreak c = false := by
        intro c hc
        obtain rfl | hc := List.mem_cons.1 hc
        · decide
        · exact hcs c hc
      have htaken : (('#' :: cs) ++ '\n' :: r).takeWhile (!isBreak ·) = '#' :: cs := by
        rw [List.takeWhile_append_of_pos fun c hc => by rw [hcs' c hc]; rfl]
        exact (congrArg _ (List.takeWhile_cons_of_neg (by decide))).trans (List.append_nil _)
      rw [if_pos (by rfl), Cursor.skipWhile, Cursor.takeWhile, htaken, Cursor.skip_append hcs',
        Mark.past_append]
  rw [skipGaps]
  simp only [hcursor, hbom, Bool.and_false, Bool.false_eq_true, if_false, hskip]
  rw [hbreak _ rfl, Cursor.lineBreak?_newline]
  simp only [hflow, Bool.not_false, Bool.or_true, Mark.past_append]

theorem skipGaps_fill {lines : List (List Char)} (hlines : ∀ line ∈ lines, IsFiller line)
    {lx : Lexer} {k : Nat} {r : List Char} {m : Mark}
    (hcursor : lx.cursor = ⟨fill lines ++ (spaces k ++ r), m⟩) (hblock : lx.outer = [])
    (hr : AtToken r) {fuel : Nat} (hfuel : lines.length < fuel) :
    skipGaps fuel lx =
      { lx with
        cursor := ⟨r, m.past (fill lines ++ spaces k)⟩
        keyAllowed := lx.keyAllowed || !lines.isEmpty } := by
  induction lines generalizing lx m fuel with
  | nil =>
      obtain ⟨fuel, rfl⟩ := Nat.exists_eq_add_of_lt hfuel
      rw [skipGaps_spaces hcursor hr]
      simp
  | cons line lines ih =>
      obtain ⟨fuel, rfl⟩ := Nat.exists_eq_add_of_lt (Nat.zero_lt_of_lt hfuel)
      rw [List.length_cons] at hfuel
      rw [fill_cons, List.append_assoc, List.cons_append] at hcursor
      have hrest := @ih (fun l hl => hlines l (List.mem_cons_of_mem _ hl))
        { lx with cursor := ⟨fill lines ++ (spaces k ++ r), m.past (line ++ ['\n'])⟩, keyAllowed := true }
        _ rfl hblock fuel (by omega)
      have hmark : (m.past (line ++ ['\n'])).past (fill lines ++ spaces k) =
          m.past (fill (line :: lines) ++ spaces k) := by
        rw [← Mark.past_append]
        simp
      rw [Nat.zero_add, skipGaps_line (hlines line List.mem_cons_self) hcursor hblock, hrest, hmark]
      simp

/-! ## Steps -/

/-- One more token is read, and it is not the end of the text. -/
structure Step (lx after : Lexer) : Prop where
  advance : lx.advance = .ok after
  shorter : after.cursor.rest.length < lx.cursor.rest.length
  goesOn : .streamEnd ∉ lx.kinds → .streamEnd ∉ after.kinds

/-- Some steps lead to a state with a property. -/
def Reaches (lx : Lexer) (Q : Lexer → Prop) : Prop :=
  ∃ after, Relation.ReflTransGen Step lx after ∧ Q after

/-- Some steps lead to a place where no token can be read. -/
def Fails (lx : Lexer) : Prop := lx.Reaches fun after => ∃ e, after.advance = .error e

/-- Where `ok` holds, some steps lead to a state with a property, and else the lexer fails. -/
def Outcome (ok : Prop) (lx : Lexer) (Q : Lexer → Prop) : Prop :=
  (ok ∧ lx.Reaches Q) ∨ (¬ok ∧ lx.Fails)

theorem Reaches.refl {lx : Lexer} {Q : Lexer → Prop} (h : Q lx) : lx.Reaches Q := ⟨lx, .refl, h⟩

theorem Reaches.trans {lx : Lexer} {Q R : Lexer → Prop} (h : lx.Reaches Q)
    (hnext : ∀ after, Q after → after.Reaches R) : lx.Reaches R := by
  obtain ⟨after, hsteps, hafter⟩ := h
  obtain ⟨last, hmore, hlast⟩ := hnext after hafter
  exact ⟨last, hsteps.trans hmore, hlast⟩

theorem Step.reaches {lx after : Lexer} {Q : Lexer → Prop} (h : Step lx after)
    (hafter : Q after) : lx.Reaches Q :=
  ⟨after, .single h, hafter⟩

theorem Reaches.mono {lx : Lexer} {Q R : Lexer → Prop} (h : lx.Reaches Q)
    (hmono : ∀ after, Q after → R after) : lx.Reaches R :=
  h.trans fun after hafter => .refl (hmono after hafter)

/-- Sure steps before. -/
theorem Reaches.outcome {ok : Prop} {lx : Lexer} {Q R : Lexer → Prop} (h : lx.Reaches Q)
    (hnext : ∀ after, Q after → after.Outcome ok R) : lx.Outcome ok R := by
  obtain ⟨after, hsteps, hafter⟩ := h
  exact (hnext after hafter).imp
    (fun ⟨hok, hreaches⟩ => ⟨hok, Reaches.trans ⟨after, hsteps, rfl⟩ fun _ h => h ▸ hreaches⟩)
    fun ⟨hnot, hfails⟩ => ⟨hnot, Reaches.trans ⟨after, hsteps, rfl⟩ fun _ h => h ▸ hfails⟩

theorem Outcome.bind {first second : Prop} {lx : Lexer} {Q R : Lexer → Prop}
    (h : lx.Outcome first Q) (hnext : ∀ after, Q after → after.Outcome second R) :
    lx.Outcome (first ∧ second) R := by
  obtain ⟨hfirst, hreaches⟩ | ⟨hnot, hfails⟩ := h
  · refine (hreaches.outcome hnext).imp ?_ ?_
    · exact fun ⟨hsecond, hlast⟩ => ⟨⟨hfirst, hsecond⟩, hlast⟩
    · exact fun ⟨hnot, hfails⟩ => ⟨fun hok => hnot hok.2, hfails⟩
  · exact .inr ⟨fun hok => hnot hok.1, hfails⟩

/-- Sure steps after. -/
theorem Outcome.reaches {ok : Prop} {lx : Lexer} {Q R : Lexer → Prop} (h : lx.Outcome ok Q)
    (hnext : ∀ after, Q after → after.Reaches R) : lx.Outcome ok R :=
  h.imp (fun ⟨hok, hreaches⟩ => ⟨hok, hreaches.trans hnext⟩) id

theorem Outcome.mono {ok : Prop} {lx : Lexer} {Q R : Lexer → Prop} (h : lx.Outcome ok Q)
    (hmono : ∀ after, Q after → R after) : lx.Outcome ok R :=
  h.reaches fun after hafter => .refl (hmono after hafter)

theorem Outcome.congr {ok ok' : Prop} {lx : Lexer} {Q : Lexer → Prop} (h : lx.Outcome ok Q)
    (hok : ok ↔ ok') : lx.Outcome ok' Q :=
  h.imp (fun h => ⟨hok.1 h.1, h.2⟩) fun h => ⟨fun h' => h.1 (hok.2 h'), h.2⟩

theorem Reaches.fails {lx : Lexer} {Q : Lexer → Prop} (h : lx.Reaches Q)
    (hnext : ∀ after, Q after → after.Fails) : lx.Fails := h.trans hnext

theorem Reaches.sure {lx : Lexer} {Q : Lexer → Prop} (h : lx.Reaches Q) : lx.Outcome True Q :=
  .inl ⟨trivial, h⟩

-- In parentheses, since to check it as a rule of definitional unfolding takes long.
/-- One token more, or the end. -/
theorem run_succ (fuel : Nat) (lx : Lexer) : run (fuel + 1) lx =
    match lx.advance with
    | .error e => (lx.settled, some e)
    | .ok after =>
      match after.tokens with
      | ⟨.streamEnd, _⟩ :: _ => (after.tokens.reverse, none)
      | _ => run fuel after := (rfl)

/-- A run passes through the states that steps lead to. -/
theorem run_of_steps {lx after : Lexer} (h : Relation.ReflTransGen Step lx after)
    (hgoesOn : .streamEnd ∉ lx.kinds) {fuel : Nat} (hfuel : lx.cursor.rest.length < fuel) :
    ∃ left, after.cursor.rest.length < left ∧ run fuel lx = run left after ∧
      .streamEnd ∉ after.kinds := by
  induction h using Relation.ReflTransGen.head_induction_on generalizing fuel with
  | refl => exact ⟨fuel, hfuel, rfl, hgoesOn⟩
  | @head lx next hstep _ ih =>
      obtain ⟨fuel, rfl⟩ := Nat.exists_eq_add_of_lt (Nat.zero_lt_of_lt hfuel)
      have hshorter := hstep.shorter
      have hnext := hstep.goesOn hgoesOn
      obtain ⟨left, hleft, hrun, hlast⟩ := ih hnext (show next.cursor.rest.length < fuel by omega)
      refine ⟨left, hleft, ?_, hlast⟩
      rw [Nat.zero_add, run_succ, hstep.advance, ← hrun]
      dsimp only
      split
      · next m ts hend => exact absurd (by simp [kinds, hend]) hnext
      · rfl

/-! ## What a state waits for -/

/-- A state outside flow collections, by what it has read and what remains: the kinds of the
tokens so far, the columns of the open collections, whether a key may come, and the key that is
pending. -/
def Stands (lx : Lexer) (ks : List TokenKind) (I : List Nat) (allowed : Bool)
    (pending : Option PendingKey) (r : List Char) (m : Mark) : Prop :=
  ∃ ts, ts.reverse.map Token.kind = ks ∧ lx = ⟨⟨r, m⟩, ts, ts.length, I, allowed, pending, []⟩

/-- A state before the token that begins the text `r` at `m`. Inner collections that end before
that token count as ended. -/
structure Awaits (lx : Lexer) (ks : List TokenKind) (I : List Nat) (allowed : Bool)
    (pending : Option PendingKey) (r : List Char) (m : Mark) : Prop where
  prepared : (skipGaps (lx.cursor.rest.length + 1) lx).dropStale =
    .ok { lx with cursor := ⟨r, m⟩, keyAllowed := allowed, pending := pending }
  outer : lx.outer = []
  count : lx.count = lx.tokens.length
  length : r.length ≤ lx.cursor.rest.length
  indents : ∃ inner, lx.indents = inner ++ I ∧ (r = [] ∨ ∀ n ∈ inner, m.column < n) ∧
    ks = lx.kinds ++ List.replicate inner.length .blockEnd

/-- Whether a column is not left of the innermost collection. -/
def Within (I : List Nat) (column : Nat) : Prop := ∀ n ∈ I.head?, n ≤ column

/-- Whether a column is right of the innermost collection. -/
def Deeper (I : List Nat) (column : Nat) : Prop := ∀ n ∈ I.head?, n < column

theorem Deeper.within {I : List Nat} {column : Nat} (h : Deeper I column) : Within I column :=
  fun n hn => Nat.le_of_lt (h n hn)

theorem unroll_append {column : Nat} {inner I : List Nat} (hinner : ∀ n ∈ inner, column < n)
    (hI : Within I column) (lx : Lexer) :
    unroll column (inner ++ I) lx =
      { lx with
        tokens := List.replicate inner.length ⟨.blockEnd, lx.cursor.mark⟩ ++ lx.tokens
        count := lx.count + inner.length
        indents := I } := by
  induction inner generalizing lx with
  | nil =>
      cases I with
      | nil => rfl
      | cons n outer =>
          rw [List.nil_append, unroll, if_neg (Nat.not_lt.2 (hI n rfl))]
          rfl
  | cons n inner ih =>
      rw [List.cons_append, unroll, if_pos (hinner n List.mem_cons_self),
        ih fun k hk => hinner k (List.mem_cons_of_mem _ hk)]
      simp [emit, emitAt, List.replicate_succ', Nat.add_comm, Nat.add_left_comm]

/-- The state with the ends of inner collections put in. -/
theorem Awaits.stands {lx : Lexer} {ks : List TokenKind} {I inner : List Nat} {allowed : Bool}
    {pending : Option PendingKey} {r : List Char} {m : Mark}
    (h : Awaits lx ks I allowed pending r m)
    (hks : ks = lx.kinds ++ List.replicate inner.length .blockEnd) :
    Stands ⟨⟨r, m⟩, List.replicate inner.length ⟨.blockEnd, m⟩ ++ lx.tokens,
      lx.count + inner.length, I, allowed, pending, []⟩ ks I allowed pending r m := by
  refine ⟨List.replicate inner.length ⟨.blockEnd, m⟩ ++ lx.tokens, ?_, ?_⟩
  · rw [hks, kinds, List.reverse_append, List.reverse_replicate, List.map_append,
      List.map_replicate]
  · rw [h.count, List.length_append, List.length_replicate, Nat.add_comm]

/-- The next token is read with the ends of inner collections put in. -/
theorem Awaits.advance_eq {lx : Lexer} {ks : List TokenKind} {I : List Nat} {allowed : Bool}
    {pending : Option PendingKey} {r : List Char} {m : Mark}
    (h : Awaits lx ks I allowed pending r m) (hr : r ≠ []) (hI : Within I m.column) :
    ∃ here, Stands here ks I allowed pending r m ∧
      lx.advance = here.token.bind dropStale := by
  obtain ⟨inner, hindents, hinner, hks⟩ := h.indents
  refine ⟨_, h.stands hks, ?_⟩
  have hflow : ({ lx with cursor := ⟨r, m⟩, keyAllowed := allowed, pending := pending } :
      Lexer).inFlow = false := by
    rw [inFlow, h.outer]
    rfl
  unfold advance
  rw [h.prepared]
  simp only [hflow, Bool.false_eq_true, if_false]
  rw [hindents, unroll_append (hinner.resolve_left hr) hI]
  simp only [h.outer]
  cases token _ with
  | error e => rfl
  | ok after => rfl

/-- A token is read from a state that waits for it. -/
theorem Awaits.step {lx : Lexer} {ks : List TokenKind} {I : List Nat} {allowed : Bool}
    {pending : Option PendingKey} {r : List Char} {m : Mark}
    (h : Awaits lx ks I allowed pending r m) (hI : Within I m.column) {Q : Lexer → Prop}
    (htoken : ∀ here, Stands here ks I allowed pending r m → ∃ after fresh,
      here.token = .ok after ∧ after.dropStale = .ok fresh ∧
        fresh.cursor.rest.length < r.length ∧
        (.streamEnd ∉ ks → .streamEnd ∉ fresh.kinds) ∧ Q fresh) : lx.Reaches Q := by
  have hr : r ≠ [] := by
    rintro rfl
    obtain ⟨inner, -, -, hks⟩ := h.indents
    obtain ⟨_, _, _, _, hshort, _⟩ := htoken _ (h.stands hks)
    exact Nat.not_lt_zero _ hshort
  obtain ⟨here, hhere, hadvance⟩ := h.advance_eq hr hI
  obtain ⟨after, fresh, hafter, hfresh, hshort, hgoesOn, hQ⟩ := htoken here hhere
  refine Step.reaches ⟨?_, Nat.lt_of_lt_of_le hshort h.length, fun hbefore => hgoesOn ?_⟩ hQ
  · rw [hadvance, hafter]
    exact hfresh
  · obtain ⟨inner, -, -, hks⟩ := h.indents
    simpa [hks, List.mem_replicate] using hbefore

/-- A place where no token can be read. -/
theorem Awaits.fails {lx : Lexer} {ks : List TokenKind} {I : List Nat} {allowed : Bool}
    {pending : Option PendingKey} {r : List Char} {m : Mark}
    (h : Awaits lx ks I allowed pending r m) (hr : r ≠ []) (hI : Within I m.column)
    (htoken : ∀ here, Stands here ks I allowed pending r m → ∃ e, here.token.bind dropStale = .error e) :
    lx.Fails := by
  obtain ⟨here, hhere, hadvance⟩ := h.advance_eq hr hI
  obtain ⟨e, he⟩ := htoken here hhere
  exact .refl ⟨e, hadvance.trans he⟩

/-- A collection ends where the next token stands left of it. -/
theorem Awaits.close {lx : Lexer} {ks : List TokenKind} {n : Nat} {I : List Nat} {allowed : Bool}
    {pending : Option PendingKey} {r : List Char} {m : Mark}
    (h : Awaits lx ks (n :: I) allowed pending r m) (hn : r = [] ∨ m.column < n) :
    Awaits lx (ks ++ [.blockEnd]) I allowed pending r m := by
  obtain ⟨inner, hindents, hinner, hks⟩ := h.indents
  refine { h with indents := ⟨inner ++ [n], by simp [hindents], ?_, ?_⟩ }
  · rcases hinner with hr | hinner
    · exact .inl hr
    · refine hn.imp id fun hn k hk => ?_
      rcases List.mem_append.1 hk with hk | hk
      · exact hinner k hk
      · exact List.mem_singleton.1 hk ▸ hn
  · rw [hks, List.append_assoc, List.length_append, List.length_singleton, List.replicate_succ']

theorem exists_unroll (column : Nat) (columns : List Nat) (lx : Lexer) :
    ∃ k ≤ columns.length, unroll column columns lx =
      { lx with
        tokens := List.replicate k ⟨.blockEnd, lx.cursor.mark⟩ ++ lx.tokens
        count := lx.count + k
        indents := columns.drop k } := by
  induction columns generalizing lx with
  | nil => exact ⟨0, Nat.le_refl _, rfl⟩
  | cons n outer ih =>
      rw [unroll]
      split
      · obtain ⟨k, hk, hunroll⟩ := ih (lx.emit .blockEnd)
        refine ⟨k + 1, Nat.succ_le_succ hk, ?_⟩
        rw [hunroll]
        simp [emit, emitAt, List.replicate_succ', Nat.add_comm, Nat.add_left_comm]
      · exact ⟨0, Nat.zero_le _, rfl⟩

theorem unrollAll_eq {lx : Lexer} (hblock : lx.outer = []) :
    lx.unrollAll =
      { lx with
        tokens := List.replicate lx.indents.length ⟨.blockEnd, lx.cursor.mark⟩ ++ lx.tokens
        count := lx.count + lx.indents.length
        indents := [] } := by
  have hfold : ∀ (columns : List Nat) (before : Lexer),
      columns.foldl (fun lx _ => lx.emit .blockEnd) before =
        { before with
          tokens := List.replicate columns.length ⟨.blockEnd, before.cursor.mark⟩ ++ before.tokens
          count := before.count + columns.length } := by
    intro columns
    induction columns with
    | nil => exact fun _ => rfl
    | cons n outer ih =>
        intro before
        rw [List.foldl_cons, ih]
        simp [emit, emitAt, List.replicate_succ', Nat.add_comm, Nat.add_left_comm]
  rw [unrollAll, inFlow, hblock, if_neg (by decide), hfold]

/-- At the end of the text all collections end. -/
theorem Awaits.run_eq {lx : Lexer} {ks : List TokenKind} {allowed : Bool} {m : Mark}
    (h : Awaits lx ks [] allowed none [] m) (fuel : Nat) :
    ∃ ts, run (fuel + 1) lx = (ts, none) ∧ ts.map Token.kind = ks ++ [.streamEnd] := by
  obtain ⟨inner, hindents, -, hks⟩ := h.indents
  obtain rfl : lx.indents = inner := hindents.trans (List.append_nil inner)
  obtain ⟨k, hk, hunroll⟩ := exists_unroll m.column lx.indents
    { lx with cursor := ⟨[], m⟩, keyAllowed := allowed, pending := none }
  have hflow : ({ lx with cursor := ⟨[], m⟩, keyAllowed := allowed, pending := none } :
      Lexer).inFlow = false := by
    rw [inFlow, h.outer]
    rfl
  have hadvance : ∃ last : Mark, lx.advance = .ok ⟨⟨[], last⟩,
      ⟨.streamEnd, last⟩ :: (List.replicate (lx.indents.length - k) ⟨.blockEnd, last⟩ ++
        (List.replicate k ⟨.blockEnd, m⟩ ++ lx.tokens)),
      lx.count + k + (lx.indents.length - k) + 1, [], false, none, []⟩ := by
    refine ⟨if m.column == 0 then m else ⟨m.index, m.line + 1, 0⟩, ?_⟩
    unfold advance
    rw [h.prepared]
    simp only [hflow, Bool.false_eq_true, if_false]
    rw [hunroll]
    simp only [token, Cursor.next?, List.head?_nil, streamEnd, h.outer]
    rw [unrollAll_eq rfl]
    simp [plainToken, dropKey, emitSkip, emit, emitAt, Cursor.skip, dropStale, keepFresh]
  obtain ⟨last, hadvance⟩ := hadvance
  rw [run_succ, hadvance]
  refine ⟨_, rfl, ?_⟩
  have hsum : List.replicate k TokenKind.blockEnd ++
      List.replicate (lx.indents.length - k) TokenKind.blockEnd =
        List.replicate lx.indents.length TokenKind.blockEnd := by
    rw [List.replicate_append_replicate, Nat.add_sub_cancel' hk]
  simp only [hks, kinds, ← hsum, List.reverse_cons, List.reverse_append, List.reverse_replicate,
    List.map_append, List.map_replicate, List.map_cons, List.map_nil, List.append_assoc]

end Lexer

end GrammarProfile.Yaml
