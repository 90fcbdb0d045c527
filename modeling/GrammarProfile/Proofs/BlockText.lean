import GrammarProfile.Proofs.QuotedText

/-!
Reading literal blocks: a text written as one is read again, with whatever blank lines come after
it left to what follows, unless the block keeps them.
-/
namespace GrammarProfile.Yaml

/-! ## Lines of a block -/

namespace Block

/-- A character that ends a line of a block and is read as itself. -/
def IsLineEnd (b : Char) : Prop := b = '\n' ∨ Quoted.IsSeparator b

theorem IsLineEnd.isBreak {b : Char} (h : IsLineEnd b) : isBreak b = true := by
  rcases h with rfl | rfl | rfl <;> rfl

theorem isLineEnd_of_printable {b : Char} (hb : isBreak b = true) (hprint : isPrintable b = true) :
    IsLineEnd b := by
  by_cases hline : b = '\n'
  · exact .inl hline
  · exact .inr (Quoted.isSeparator_of_printable hb hprint hline)

theorem lineBreak?_of_isLineEnd {b : Char} (h : IsLineEnd b) (r : List Char) (m : Mark) :
    (⟨b :: r, m⟩ : Cursor).lineBreak? = some (b, ⟨r, m.past [b]⟩) := by
  rcases h with rfl | rfl | rfl <;> rfl

/-- Line ends, at least one. -/
structure AreEnds (bs : List Char) : Prop where
  nonempty : bs ≠ []
  ends : ∀ b ∈ bs, IsLineEnd b

/-- What a line holds. -/
structure IsLine (line : List Char) : Prop where
  nonempty : line ≠ []
  breaks : ∀ c ∈ line, isBreak c = false

/-- A text that begins inside a line, with the line ends that close it apart. -/
inductive Cut : List Char → List Char → List Char → Prop where
  | last {line ends : List Char} (hline : IsLine line) (hends : AreEnds ends) :
      Cut (line ++ ends) line ends
  | more {line bs cs text ends : List Char} (hline : IsLine line) (hbs : AreEnds bs)
      (h : Cut cs text ends) : Cut (line ++ bs ++ cs) (line ++ bs ++ text) ends

variable {cs text ends : List Char}

theorem Cut.eq_append (h : Cut cs text ends) : cs = text ++ ends := by
  induction h with
  | last _ _ => rfl
  | more _ _ _ ih => simp only [ih, List.append_assoc]

theorem Cut.areEnds (h : Cut cs text ends) : AreEnds ends := by
  induction h with
  | last _ hends => exact hends
  | more _ _ _ ih => exact ih

theorem Cut.last_text (h : Cut cs text ends) : ∃ v c, text = v ++ [c] ∧ isBreak c = false := by
  induction h with
  | @last line ends hline _ =>
      obtain ⟨v, c, rfl⟩ := (List.eq_nil_or_concat line).resolve_left hline.nonempty
      rw [List.concat_eq_append] at hline ⊢
      exact ⟨v, c, rfl, hline.breaks c (by simp)⟩
  | @more line bs cs text ends _ _ _ ih =>
      obtain ⟨v, c, rfl, hc⟩ := ih
      exact ⟨line ++ bs ++ v, c, (List.append_assoc ..).symm, hc⟩

theorem Cut.head (h : Cut cs text ends) : ∃ c rest, cs = c :: rest ∧ isBreak c = false := by
  have hline : ∀ line tail : List Char, IsLine line →
      ∃ c rest, line ++ tail = c :: rest ∧ isBreak c = false := by
    intro line tail hline
    cases line with
    | nil => exact absurd rfl hline.nonempty
    | cons c line => exact ⟨c, line ++ tail, rfl, hline.breaks c List.mem_cons_self⟩
  cases h with
  | last hfirst _ => exact hline _ _ hfirst
  | more hfirst _ _ => exact List.append_assoc .. ▸ hline _ _ hfirst

/-- A character more in the first line. -/
theorem Cut.cons (h : Cut cs text ends) {c : Char} (hc : isBreak c = false) :
    Cut (c :: cs) (c :: text) ends := by
  have hmore : ∀ line, IsLine line → IsLine (c :: line) := fun line hline =>
    ⟨List.cons_ne_nil _ _, fun d hd => (List.mem_cons.1 hd).elim (fun he => he ▸ hc) (hline.breaks d)⟩
  cases h with
  | last hline hends => exact .last (hmore _ hline) hends
  | more hline hbs h => exact .more (hmore _ hline) hbs h

/-- A text that ends in a line end holds nothing else, or a line after some of them. -/
theorem exists_cut (hends : ∀ c ∈ cs, isBreak c = true → IsLineEnd c)
    (hlast : ∀ c ∈ cs.getLast?, isBreak c = true) :
    (∀ c ∈ cs, IsLineEnd c) ∨
      ∃ bs rest text ends, cs = bs ++ rest ∧ (∀ b ∈ bs, IsLineEnd b) ∧ Cut rest text ends := by
  induction cs with
  | nil => exact .inl fun _ hc => absurd hc List.not_mem_nil
  | cons c rest ih =>
      have hends' := fun d hd => hends d (List.mem_cons_of_mem _ hd)
      by_cases hrest : rest = []
      · subst hrest
        have hc := hends c List.mem_cons_self (hlast c rfl)
        exact .inl fun d hd => List.mem_singleton.1 hd ▸ hc
      · have hlast' : ∀ d ∈ rest.getLast?, isBreak d = true := fun d hd =>
          hlast d (by rw [List.getLast?_cons_of_ne_nil hrest]; exact hd)
        cases hc : isBreak c with
        | true =>
            have hc' := hends c List.mem_cons_self hc
            have hcons : ∀ bs, (∀ b ∈ bs, IsLineEnd b) → ∀ b ∈ c :: bs, IsLineEnd b :=
              fun bs hbs b hb => (List.mem_cons.1 hb).elim (fun he => he ▸ hc') (hbs b)
            obtain hall | ⟨bs, more, text, ends, rfl, hbs, hcut⟩ := ih hends' hlast'
            · exact .inl (hcons rest hall)
            · exact .inr ⟨c :: bs, more, text, ends, rfl, hcons bs hbs, hcut⟩
        | false =>
            have hline : IsLine [c] := ⟨List.cons_ne_nil _ _, fun d hd => List.mem_singleton.1 hd ▸ hc⟩
            obtain hall | ⟨bs, more, text, ends, rfl, hbs, hcut⟩ := ih hends' hlast'
            · exact .inr ⟨[], c :: rest, [c], rest, rfl, fun _ hb => absurd hb List.not_mem_nil,
                .last hline ⟨hrest, hall⟩⟩
            · cases bs with
              | nil => exact .inr ⟨[], c :: more, c :: text, ends, rfl, hbs, hcut.cons hc⟩
              | cons b bs =>
                  exact .inr ⟨[], c :: (b :: bs ++ more), c :: (b :: bs ++ text), ends, rfl,
                    fun _ hb => absurd hb List.not_mem_nil,
                    .more hline ⟨List.cons_ne_nil b bs, hbs⟩ hcut⟩

/-! ## Writing a block -/

theorem literalBody_line {line : List Char} (hline : ∀ c ∈ line, isBreak c = false) (n : Nat)
    (tail : List Char) : literalBody n false (line ++ tail) = line ++ literalBody n false tail := by
  induction line with
  | nil => rfl
  | cons c line ih =>
      rw [List.cons_append, literalBody, hline c List.mem_cons_self,
        ih fun d hd => hline d (List.mem_cons_of_mem _ hd)]
      rfl

theorem literalBody_ends {bs : List Char} (hbs : ∀ b ∈ bs, IsLineEnd b) (n : Nat)
    (tail : List Char) : literalBody n true (bs ++ tail) = bs ++ literalBody n true tail := by
  induction bs with
  | nil => rfl
  | cons b bs ih =>
      rw [List.cons_append, literalBody, (hbs b List.mem_cons_self).isBreak, if_pos rfl,
        ih fun d hd => hbs d (List.mem_cons_of_mem _ hd)]
      rfl

theorem AreEnds.literalBody (h : AreEnds ends) (n : Nat) (tail : List Char) :
    literalBody n false (ends ++ tail) = ends ++ literalBody n true tail := by
  obtain ⟨b, bs, rfl⟩ := List.exists_cons_of_ne_nil h.nonempty
  rw [List.cons_append, Yaml.literalBody, (h.ends b List.mem_cons_self).isBreak, if_pos rfl,
    literalBody_ends fun d hd => h.ends d (List.mem_cons_of_mem _ hd)]
  rfl

theorem Cut.literalBody (h : Cut cs text ends) (n : Nat) :
    literalBody n true cs = spaces n ++ literalBody n false cs := by
  obtain ⟨c, rest, rfl, hc⟩ := h.head
  rw [Yaml.literalBody, Yaml.literalBody, hc]
  simp

/-! ## Reading its lines -/

theorem column_past {bs : List Char} (hbs : ∀ b ∈ bs, IsLineEnd b) {m : Mark} (hm : m.column = 0) :
    (m.past bs).column = 0 := by
  induction bs generalizing m with
  | nil => exact hm
  | cons b bs ih =>
      rw [Mark.past, (hbs b List.mem_cons_self).isBreak]
      exact ih (fun d hd => hbs d (List.mem_cons_of_mem _ hd)) rfl

variable {n j : Nat} {y : List Char}

/-- Over empty lines. -/
theorem scanBreaks_ends {bs : List Char} (hbs : ∀ b ∈ bs, IsLineEnd b) {fuel : Nat}
    (hfuel : bs.length ≤ fuel) (breaks : List Char) (widest : Nat) {m : Mark} (hm : m.column = 0) :
    scanBreaks (some n) fuel breaks widest ⟨bs ++ y, m⟩ =
      scanBreaks (some n) (fuel - bs.length) (breaks ++ bs) widest ⟨y, m.past bs⟩ := by
  induction bs generalizing fuel breaks m with
  | nil => simp
  | cons b bs ih =>
      rw [List.length_cons] at hfuel
      obtain ⟨fuel, rfl⟩ := Nat.exists_eq_add_of_lt (Nat.lt_of_lt_of_le (Nat.succ_pos _) hfuel)
      have hb := hbs b List.mem_cons_self
      have hspace : b ≠ ' ' ∧ b ≠ '	' := by rcases hb with rfl | rfl | rfl <;> decide
      have hblanks : ((b :: (bs ++ y)).takeWhile (· == ' ')).length = 0 := by
        rw [List.takeWhile_cons_of_neg (by simpa using hspace.1)]
        rfl
      have hskip : (⟨b :: (bs ++ y), m⟩ : Cursor).skip 0 = ⟨b :: (bs ++ y), m⟩ := rfl
      have hrest := ih (fun d hd => hbs d (List.mem_cons_of_mem _ hd)) (show bs.length ≤ fuel by omega)
        (breaks ++ [b]) (m := m.past [b]) (column_past (by simpa using hb) hm)
      rw [List.cons_append, Nat.zero_add, scanBreaks]
      simp only [hblanks, Nat.zero_min, hskip, hm, Nat.max_zero, lineBreak?_of_isLineEnd hb, hrest]
      rw [if_neg (by simp [Cursor.next?, hspace.2]), List.length_cons, Nat.add_sub_add_right,
        m.past_cons b bs]
      simp

/-- Over the indentation of a line that is not empty. -/
theorem scanBreaks_indent (hy : ∀ c ∈ y.head?, isBreak c = false)
    (hj : j = n ∨ j < n ∧ ∀ c ∈ y.head?, isSpacing c = false) (fuel : Nat) (breaks : List Char)
    (widest : Nat) {m : Mark} (hm : m.column = 0) :
    scanBreaks (some n) (fuel + 1) breaks widest ⟨spaces j ++ y, m⟩ =
      .ok (breaks, max widest j, ⟨y, m.past (spaces j)⟩) := by
  have hspaces : (spaces j).length = j := List.length_replicate
  have hmin : min ((spaces j ++ y).takeWhile (· == ' ')).length (n - m.column) = j := by
    have htake : ((spaces j ++ y).takeWhile (· == ' ')).length =
        j + (y.takeWhile (· == ' ')).length := by
      rw [spaces, List.takeWhile_append_of_pos fun c hc => by rw [List.eq_of_mem_replicate hc]; rfl,
        List.length_append, List.length_replicate]
    rcases hj with rfl | ⟨hlt, hspacing⟩
    · omega
    · have hnone : y.takeWhile (· == ' ') = [] := by
        cases y with
        | nil => rfl
        | cons c rest =>
            have hc := hspacing c rfl
            rw [isSpacing, Bool.or_eq_false_iff] at hc
            exact List.takeWhile_cons_of_neg (by simp [hc.1])
      rw [hnone] at htake
      rw [htake, List.length_nil]
      omega
  have hskip : (⟨spaces j ++ y, m⟩ : Cursor).skip j = ⟨y, m.past (spaces j)⟩ := by
    have := Cursor.skip_append (w := spaces j)
      (fun c hc => (List.eq_of_mem_replicate hc).symm ▸ rfl) y m
    rwa [hspaces] at this
  have hcolumn : (m.past (spaces j)).column = j := by rw [Mark.past_spaces, hm, Nat.zero_add]
  have htab : ((⟨y, m.past (spaces j)⟩ : Cursor).next? == some '	' &&
      (some n).all (j < ·)) = false := by
    rw [Bool.and_eq_false_iff, Option.all_some, decide_eq_false_iff_not, beq_eq_false_iff_ne]
    rcases hj with rfl | ⟨-, hspacing⟩
    · exact .inr (Nat.lt_irrefl _)
    · exact .inl fun h => absurd (hspacing '	' h) (by decide)
  have hline : (⟨y, m.past (spaces j)⟩ : Cursor).lineBreak? = none := by
    cases y with
    | nil => rfl
    | cons c rest => exact Cursor.lineBreak?_cons (hy c rfl) _ _
  rw [scanBreaks]
  simp only [hmin, hskip, hcolumn, htab, hline, Bool.false_eq_true, if_false]

theorem takeWhile_line {line : List Char} (hline : ∀ c ∈ line, isBreak c = false) {b : Char}
    (hb : isBreak b = true) (tail : List Char) :
    (line ++ b :: tail).takeWhile (!isBreak ·) = line := by
  rw [List.takeWhile_append_of_pos fun c hc => by rw [hline c hc]; rfl,
    List.takeWhile_cons_of_neg (by rw [hb]; decide), List.append_nil]

/-- One line, the line ends after it and the indentation of the next line. -/
theorem scanLines_line {line ends : List Char} (hline : IsLine line) (hends : AreEnds ends)
    (hy : ∀ c ∈ y.head?, isBreak c = false)
    (hj : j = n ∨ j < n ∧ ∀ c ∈ y.head?, isSpacing c = false) (fuel : Nat)
    (hfuel : ends.length ≤ fuel) (l : Lines) {m : Mark} (hm : m.column = n) :
    ∃ blankLed, scanLines true n (fuel + 1) l ⟨line ++ (ends ++ (spaces j ++ y)), m⟩ =
      scanLines true n fuel
        ⟨line.reverse ++ (l.trailing.reverse ++ (l.lead.reverse ++ l.done)), ends.take 1,
          ends.drop 1, blankLed⟩ ⟨y, m.past (line ++ (ends ++ spaces j))⟩ := by
  obtain ⟨b, bs, rfl⟩ := List.exists_cons_of_ne_nil hends.nonempty
  have hb := hends.ends b List.mem_cons_self
  have hbs := fun d hd => hends.ends d (List.mem_cons_of_mem _ hd)
  rw [List.length_cons] at hfuel
  have hend : (⟨line ++ (b :: bs ++ (spaces j ++ y)), m⟩ : Cursor).atEnd = false := by
    simp [Cursor.atEnd, hline.nonempty]
  have htaken : (⟨line ++ (b :: bs ++ (spaces j ++ y)), m⟩ : Cursor).takeWhile (!isBreak ·) =
      (line, ⟨b :: (bs ++ (spaces j ++ y)), m.past line⟩) := by
    rw [Cursor.takeWhile, List.cons_append, takeWhile_line hline.breaks hb.isBreak,
      Cursor.skip_append hline.breaks]
  have hcolumn : ((m.past line).past [b]).column = 0 := by
    rw [Mark.past, hb.isBreak]
    rfl
  have hmark : m.past (line ++ (b :: bs ++ spaces j)) =
      (((m.past line).past [b]).past bs).past (spaces j) := by
    rw [← Mark.past_append, ← Mark.past_append, ← Mark.past_append]
    simp
  have hbreaks : scanBreaks (some n) (fuel + 1) [] 0 ⟨bs ++ (spaces j ++ y), (m.past line).past [b]⟩ =
      .ok (bs, max 0 j, ⟨y, m.past (line ++ (b :: bs ++ spaces j))⟩) := by
    rw [scanBreaks_ends hbs (by omega) [] 0 hcolumn, Nat.succ_sub (by omega), hmark]
    exact scanBreaks_indent hy hj _ _ _ (column_past hbs hcolumn)
  refine ⟨(⟨line ++ (b :: bs ++ (spaces j ++ y)), m⟩ : Cursor).sees isSpacing, ?_⟩
  rw [scanLines]
  simp only [hm, hend, bne_self_eq_false, Bool.or_false, Bool.false_eq_true, if_false, htaken,
    lineBreak?_of_isLineEnd hb, hbreaks, Bool.not_true, Bool.false_and, List.take_succ_cons,
    List.take_zero, List.drop_succ_cons, List.drop_zero]

/-- The lines of a block end where a line begins left of them. -/
theorem scanLines_end {column : Nat} (hcolumn : column ≠ n) (fuel : Nat) (l : Lines) {r : List Char}
    {m : Mark} (hm : m.column = column) : scanLines true n fuel l ⟨r, m⟩ = .ok (l, ⟨r, m⟩) := by
  cases fuel with
  | zero => rfl
  | succ fuel => rw [scanLines, if_pos (by simp [hm, hcolumn])]

theorem column_past_ends (h : AreEnds ends) (m : Mark) : (m.past ends).column = 0 := by
  obtain ⟨b, bs, rfl⟩ := List.exists_cons_of_ne_nil h.nonempty
  rw [Mark.past, (h.ends b List.mem_cons_self).isBreak, if_pos rfl]
  exact column_past (fun d hd => h.ends d (List.mem_cons_of_mem _ hd)) rfl

theorem column_past_line {line : List Char} (hends : AreEnds ends) (j : Nat) (m : Mark) :
    (m.past (line ++ (ends ++ spaces j))).column = j := by
  rw [Mark.past_append, Mark.past_append, Mark.past_spaces, column_past_ends hends]
  exact Nat.zero_add j

/-- All lines of a block are read, up to the next token, which stands left of them. -/
theorem scanLines_cut (h : Cut cs text ends) (hj : j < n) (hy : ∀ c ∈ y.head?, isGap c = false)
    (fuel : Nat) (hfuel : (literalBody n false cs).length < fuel) (l : Lines) {m : Mark}
    (hm : m.column = n) :
    ∃ blankLed, scanLines true n fuel l ⟨literalBody n false cs ++ (spaces j ++ y), m⟩ =
      .ok (⟨text.reverse ++ (l.trailing.reverse ++ (l.lead.reverse ++ l.done)), ends.take 1,
        ends.drop 1, blankLed⟩, ⟨y, m.past (literalBody n false cs ++ spaces j)⟩) := by
  induction h generalizing fuel l m with
  | @last line ends hline hends =>
      have hbody : literalBody n false (line ++ ends) = line ++ ends := by
        rw [literalBody_line hline.breaks, ← List.append_nil ends, hends.literalBody]
        rfl
      obtain ⟨fuel, rfl⟩ := Nat.exists_eq_add_of_lt (Nat.zero_lt_of_lt hfuel)
      rw [hbody, List.length_append] at hfuel
      obtain ⟨blankLed, hread⟩ := scanLines_line hline hends (fun c hc => (not_gap_facts (hy c hc)).2)
        (.inr ⟨hj, fun c hc => (not_gap_facts (hy c hc)).1⟩) (0 + fuel) (by omega) l hm
      refine ⟨blankLed, ?_⟩
      rw [hbody, List.append_assoc, List.append_assoc, hread]
      exact scanLines_end (Nat.ne_of_lt hj) _ _ (column_past_line hends j m)
  | @more line bs cs text ends hline hbs hcut ih =>
      obtain ⟨c, rest, hcs, hc⟩ := hcut.head
      have hbody : literalBody n false (line ++ bs ++ cs) =
          line ++ (bs ++ (spaces n ++ literalBody n false cs)) := by
        rw [List.append_assoc, literalBody_line hline.breaks, hbs.literalBody, hcut.literalBody]
      have hhead : ∀ d ∈ (literalBody n false cs ++ (spaces j ++ y)).head?, isBreak d = false := by
        intro d hd
        rw [hcs, Yaml.literalBody, hc] at hd
        exact Option.some.inj hd ▸ hc
      obtain ⟨fuel, rfl⟩ := Nat.exists_eq_add_of_lt (Nat.zero_lt_of_lt hfuel)
      have hpos := List.length_pos_iff.2 hline.nonempty
      rw [hbody] at hfuel
      simp only [List.length_append] at hfuel
      obtain ⟨_, hread⟩ := scanLines_line hline hbs hhead (.inl rfl) (0 + fuel) (by omega) l hm
      obtain ⟨blankLed, hrest⟩ := ih (0 + fuel) (by omega)
        ⟨line.reverse ++ (l.trailing.reverse ++ (l.lead.reverse ++ l.done)), bs.take 1, bs.drop 1, _⟩
        (column_past_line hbs n m)
      refine ⟨blankLed, ?_⟩
      have htext : line ++ (bs ++ (spaces n ++ literalBody n false cs)) ++ (spaces j ++ y) =
          line ++ (bs ++ (spaces n ++ (literalBody n false cs ++ (spaces j ++ y)))) := by
        simp
      have hdone : (bs.drop 1).reverse ++ (bs.take 1).reverse = bs.reverse := by
        rw [← List.reverse_append, List.take_append_drop]
      rw [hbody, htext, hread, hrest, ← Mark.past_append]
      simp only [← List.append_assoc, hdone, List.reverse_append]

/-! ## Headers -/

/-- The indentation that a header gives for a text. -/
def width? (cs : List Char) : Option Nat :=
  if headIs (fun c => c == ' ' || isBreak c) cs then some 2 else none

/-- What a header says about the line ends that close a text. -/
def chomping (cs : List Char) : Chomping :=
  match cs.reverse with
  | [] => .strip
  | last :: before =>
    if !isBreak last then .strip
    else if before.head?.all isBreak then .keep else .clip

/-- The mark of a header for what it says about line ends. -/
def chompingMark : Chomping → List Char
  | .strip => ['-']
  | .clip => []
  | .keep => ['+']

theorem literalHints_eq (cs : List Char) :
    literalHints cs = ((width? cs).map fun _ => '2').toList ++ chompingMark (chomping cs) := by
  have hwidth : ((width? cs).map fun _ => '2').toList =
      if headIs (fun c => c == ' ' || isBreak c) cs then ['2'] else [] := by
    unfold width?
    split <;> rfl
  rw [literalHints, hwidth, chomping]
  congr 1
  cases cs.reverse with
  | nil => rfl
  | cons last before =>
      dsimp only
      split
      · rfl
      · cases before with
        | nil => rfl
        | cons c _ =>
            cases hc : isBreak c <;> simp [hc, chompingMark]

theorem scanHeader_hints (cs r : List Char) (m : Mark) :
    scanHeader ⟨literalHints cs ++ '\n' :: r, m⟩ =
      .ok (chomping cs, width? cs, ⟨'\n' :: r, m.past (literalHints cs)⟩) := by
  rw [literalHints_eq]
  have hwidth : width? cs = some 2 ∨ width? cs = none := by
    unfold width?
    split
    · exact .inl rfl
    · exact .inr rfl
  rcases hwidth with h | h <;> rw [h] <;> cases chomping cs <;> rfl

/-! ## Whole blocks -/

/-- Over the indentation of the first line, where the header gives none. -/
theorem scanBreaks_first {y : List Char} (hy : ∀ c ∈ y.head?, isBreak c = false ∧ isSpacing c = false)
    (fuel : Nat) {m : Mark} (hm : m.column = 0) :
    scanBreaks none (fuel + 1) [] 0 ⟨spaces n ++ y, m⟩ = .ok ([], n, ⟨y, m.past (spaces n)⟩) := by
  have hlength : (spaces n).length = n := List.length_replicate
  have htake : (spaces n ++ y).takeWhile (· == ' ') = spaces n := by
    refine takeWhile_spaces rfl (fun c hc => ?_) n
    have h := (hy c hc).2
    rw [isSpacing, Bool.or_eq_false_iff] at h
    exact h.1
  have hskip : (⟨spaces n ++ y, m⟩ : Cursor).skip n = ⟨y, m.past (spaces n)⟩ := by
    have := Cursor.skip_append (w := spaces n)
      (fun c hc => (List.eq_of_mem_replicate hc).symm ▸ rfl) y m
    rwa [hlength] at this
  have hcolumn : (m.past (spaces n)).column = n := by rw [Mark.past_spaces, hm, Nat.zero_add]
  have htab : ((⟨y, m.past (spaces n)⟩ : Cursor).next? == some '\t') = false :=
    beq_eq_false_iff_ne.2 fun h => absurd (hy '\t' h).2 (by decide)
  have hline : (⟨y, m.past (spaces n)⟩ : Cursor).lineBreak? = none := by
    cases y with
    | nil => rfl
    | cons c rest => exact Cursor.lineBreak?_cons (hy c rfl).1 _ _
  rw [scanBreaks]
  simp only [htake, hlength, hskip, hcolumn, htab, hline, Bool.false_and, Bool.false_eq_true, if_false,
    Nat.zero_max]

/-- What the line ends that close a block add to its text: `lead` is the first of them. -/
def ending (c : Chomping) (lead trailing : List Char) : List Char :=
  match c with
  | .strip => []
  | .clip => lead
  | .keep => lead ++ trailing

/-- The body of a block, where the first line that is not empty comes after `bs`. -/
theorem scan_body {bs : List Char} (hbs : ∀ b ∈ bs, IsLineEnd b) (h : Cut cs text ends) (hj : j < n)
    (hy : ∀ c ∈ y.head?, isGap c = false) {fuel : Nat}
    (hfuel : (literalBody n true (bs ++ cs)).length < fuel) {m : Mark} (hm : m.column = 0) :
    ∃ widest l, scanBreaks (some n) fuel [] 0 ⟨literalBody n true (bs ++ cs) ++ (spaces j ++ y), m⟩ =
        .ok (bs, widest, ⟨literalBody n false cs ++ (spaces j ++ y), m.past (bs ++ spaces n)⟩) ∧
      scanLines true n fuel ⟨[], [], bs, false⟩
          ⟨literalBody n false cs ++ (spaces j ++ y), m.past (bs ++ spaces n)⟩ =
        .ok (l, ⟨y, m.past (literalBody n true (bs ++ cs) ++ spaces j)⟩) ∧
      l.done.reverse = bs ++ text ∧ l.lead = ends.take 1 ∧ l.trailing = ends.drop 1 := by
  obtain ⟨d, rest, hcs, hd⟩ := h.head
  have hbody : literalBody n true (bs ++ cs) = bs ++ (spaces n ++ literalBody n false cs) := by
    rw [literalBody_ends hbs, h.literalBody]
  have hhead : ∀ e ∈ (literalBody n false cs ++ (spaces j ++ y)).head?, isBreak e = false := by
    intro e he
    rw [hcs, Yaml.literalBody, hd] at he
    exact Option.some.inj he ▸ hd
  have hlength : (spaces n).length = n := List.length_replicate
  rw [hbody, List.length_append, List.length_append] at hfuel
  have hcolumn : (m.past (bs ++ spaces n)).column = n := by
    rw [Mark.past_append, Mark.past_spaces, column_past hbs hm, Nat.zero_add]
  obtain ⟨blankLed, hlines⟩ :=
    scanLines_cut h hj hy fuel (by omega) ⟨[], [], bs, false⟩ hcolumn
  obtain ⟨left, hleft⟩ : ∃ left, fuel - bs.length = left + 1 := ⟨fuel - bs.length - 1, by omega⟩
  refine ⟨max 0 n, ⟨text.reverse ++ (bs.reverse ++ []), ends.take 1, ends.drop 1, blankLed⟩, ?_, ?_,
    ?_, rfl, rfl⟩
  · have htext : literalBody n true (bs ++ cs) ++ (spaces j ++ y) =
        bs ++ (spaces n ++ (literalBody n false cs ++ (spaces j ++ y))) := by
      rw [hbody]
      simp
    rw [htext, scanBreaks_ends hbs (by omega) [] 0 hm, hleft, scanBreaks_indent hhead (.inl rfl) _ _ _
      (column_past hbs hm), Mark.past_append]
    rfl
  · refine hlines.trans ?_
    rw [← Mark.past_append, hbody]
    simp
  · simp

/-- The line ends of a block that belong to its text are kept, and those after it are dropped. -/
theorem chomped_eq {T E v : List Char} {c : Char} (h : T ++ E = v ++ [c] ++ ends)
    (hc : isBreak c = false) (hends : ∀ b ∈ ends, isBreak b = true)
    (hE : ∀ b ∈ E, isBreak b = true) (hkept : chomping T = .keep → E = []) :
    v ++ [c] ++ ending (chomping T) (ends.take 1) (ends.drop 1) = T := by
  obtain ⟨bs, rfl, rfl⟩ : ∃ bs, T = v ++ [c] ++ bs ∧ ends = bs ++ E := by
    rcases List.append_eq_append_iff.1 h with ⟨bs, hv, hE'⟩ | h
    · rcases List.eq_nil_or_concat bs with rfl | ⟨before, b, rfl⟩
      · exact ⟨[], by simpa using hv.symm, by simpa using hE'.symm⟩
      · rw [List.concat_eq_append, ← List.append_assoc] at hv
        have hb := hE b (hE' ▸ by simp)
        rw [← List.singleton_inj.1 (List.append_inj_right' hv rfl), hc] at hb
        exact absurd hb (by decide)
    · exact h
  rcases List.eq_nil_or_concat bs with rfl | ⟨before, b, rfl⟩
  · have hstrip : chomping (v ++ [c] ++ []) = .strip := by simp [chomping, hc]
    rw [hstrip, ending]
  · rw [List.concat_eq_append] at hends hkept ⊢
    have hb : isBreak b = true := hends b (by simp)
    rcases List.eq_nil_or_concat before with rfl | ⟨more, d, rfl⟩
    · have hclip : chomping (v ++ [c] ++ ([] ++ [b])) = .clip := by simp [chomping, hb, hc]
      rw [hclip, ending, List.nil_append, List.singleton_append, List.take_succ_cons, List.take_zero]
    · rw [List.concat_eq_append] at hends hkept ⊢
      have hd : isBreak d = true := hends d (by simp)
      have hkeep : chomping (v ++ [c] ++ (more ++ [d] ++ [b])) = .keep := by simp [chomping, hb, hd]
      rw [hkeep, ending, hkept hkeep, List.append_nil, List.take_append_drop]

theorem chomping_ends {T : List Char} (h : ∀ b ∈ T, isBreak b = true) (hne : T ≠ []) :
    chomping T = .keep := by
  obtain ⟨before, b, rfl⟩ := (List.eq_nil_or_concat T).resolve_left hne
  rw [List.concat_eq_append] at h ⊢
  have hb : isBreak b = true := h b (by simp)
  rcases List.eq_nil_or_concat before with rfl | ⟨more, d, rfl⟩
  · simp [chomping, hb]
  · rw [List.concat_eq_append] at h ⊢
    have hd : isBreak d = true := h d (by simp)
    simp [chomping, hb, hd]

/-- A block is read from its header on. -/
theorem scan_eq {least : Nat} {T body breaks r : List Char} {widest : Nat} {l : Lines} {m m' m'' : Mark}
    (hbreaks : scanBreaks ((width? T).map (least - 1 + ·))
      (('|' :: (literalHints T ++ '\n' :: body)).length + 1) [] 0
      ⟨body, m.past ('|' :: (literalHints T ++ ['\n']))⟩ = .ok (breaks, widest, ⟨y, m'⟩))
    (hlines : scanLines true (((width? T).map (least - 1 + ·)).getD (max widest (max least 1)))
      (('|' :: (literalHints T ++ '\n' :: body)).length + 1) ⟨[], [], breaks, false⟩ ⟨y, m'⟩ =
        .ok (l, ⟨r, m''⟩)) :
    scan true least ⟨'|' :: (literalHints T ++ '\n' :: body), m⟩ =
      .ok (l.done.reverse ++ ending (chomping T) l.lead l.trailing, ⟨r, m''⟩) := by
  have hskip : (⟨'|' :: (literalHints T ++ '\n' :: body), m⟩ : Cursor).skip 1 =
      ⟨literalHints T ++ '\n' :: body, m.past ['|']⟩ := rfl
  have hmark : ((m.past ['|']).past (literalHints T)).past ['\n'] =
      m.past ('|' :: (literalHints T ++ ['\n'])) := by
    rw [← Mark.past_append, ← Mark.past_append]
    simp
  have hcomment : ∀ m : Mark, (⟨'\n' :: body, m⟩ : Cursor).skipComment = ⟨'\n' :: body, m⟩ :=
    fun _ => rfl
  have hend : ∀ m : Mark, (⟨'\n' :: body, m⟩ : Cursor).atLineEnd = true := fun _ => rfl
  rw [scan]
  simp only [hskip, scanHeader_hints, hcomment, hend, Bool.not_true, Bool.false_eq_true, if_false,
    Cursor.lineBreak?_newline, hmark, hbreaks, hlines]
  cases chomping T <;> rfl

/-- What is written for a text that holds something: the text with the line ends after it, of which
the block keeps none. -/
structure IsWhole (T E : List Char) : Prop where
  nonempty : T ≠ []
  printable : ∀ c ∈ T, isPrintable c = true
  newlines : ∀ b ∈ E, b = '\n'
  ended : lastIs isBreak (T ++ E) = true
  kept : chomping T = .keep → E = []

theorem column_header (T : List Char) (m : Mark) :
    (m.past ('|' :: (literalHints T ++ ['\n']))).column = 0 := by
  rw [← List.cons_append, Mark.past_append]
  rfl

theorem past_header (T w : List Char) (m : Mark) :
    (m.past ('|' :: (literalHints T ++ ['\n']))).past w =
      m.past ('|' :: (literalHints T ++ '\n' :: w)) := by
  rw [← Mark.past_append]
  simp

theorem width?_ends {T : List Char} (hT : ∀ b ∈ T, IsLineEnd b) (hne : T ≠ []) :
    width? T = some 2 := by
  obtain ⟨b, bs, rfl⟩ := List.exists_cons_of_ne_nil hne
  rw [width?, headIs, List.head?_cons, Option.any_some, (hT b List.mem_cons_self).isBreak]
  simp

/-- A block whose text is line ends only. -/
theorem scan_ends {T : List Char} (hT : ∀ b ∈ T, IsLineEnd b) (hne : T ≠ []) {least : Nat}
    (hn : n = least - 1 + 2) (hj : j < n) (hy : ∀ c ∈ y.head?, isGap c = false) (m : Mark) :
    scan true least ⟨'|' :: (literalHints T ++ '\n' :: (T ++ (spaces j ++ y))), m⟩ =
      .ok (T, ⟨y, m.past ('|' :: (literalHints T ++ '\n' :: (T ++ spaces j)))⟩) := by
  have hcolumn := column_header T m
  have hlength : T.length < ('|' :: (literalHints T ++ '\n' :: (T ++ (spaces j ++ y)))).length + 1 := by
    simp only [List.length_cons, List.length_append]
    omega
  generalize hfuel : ('|' :: (literalHints T ++ '\n' :: (T ++ (spaces j ++ y)))).length + 1 = fuel
    at hlength
  obtain ⟨left, hleft⟩ : ∃ left, fuel - T.length = left + 1 := ⟨fuel - T.length - 1, by omega⟩
  have hknown : (width? T).map (least - 1 + ·) = some n := by
    rw [width?_ends hT hne, hn]
    rfl
  have hbreaks : scanBreaks (some n) fuel [] 0
      ⟨T ++ (spaces j ++ y), m.past ('|' :: (literalHints T ++ ['\n']))⟩ =
        .ok (T, max 0 j, ⟨y, m.past ('|' :: (literalHints T ++ '\n' :: (T ++ spaces j)))⟩) := by
    rw [scanBreaks_ends hT (by omega) [] 0 hcolumn, hleft,
      scanBreaks_indent (fun c hc => (not_gap_facts (hy c hc)).2)
        (.inr ⟨hj, fun c hc => (not_gap_facts (hy c hc)).1⟩) _ _ _ (column_past hT hcolumn),
      ← Mark.past_append, past_header]
    rfl
  have hj' : (m.past ('|' :: (literalHints T ++ '\n' :: (T ++ spaces j)))).column = j := by
    rw [← past_header, Mark.past_append, Mark.past_spaces, column_past hT hcolumn, Nat.zero_add]
  have hlines := scanLines_end (Nat.ne_of_lt hj) fuel ⟨[], [], T, false⟩ (r := y) hj'
  rw [← hfuel] at hbreaks hlines
  rw [scan_eq (hknown ▸ hbreaks) (by rw [hknown]; exact hlines),
    chomping_ends (fun b hb => (hT b hb).isBreak) hne]
  rfl

/-- A literal block is read as its text. -/
theorem scan_literal {T E : List Char} (h : IsWhole T E) {least : Nat} (hn : n = least - 1 + 2)
    (hj : j < n) (hy : ∀ c ∈ y.head?, isGap c = false) (m : Mark) :
    scan true least
        ⟨'|' :: (literalHints T ++ '\n' :: (literalBody n true (T ++ E) ++ (spaces j ++ y))), m⟩ =
      .ok (T, ⟨y, m.past ('|' :: (literalHints T ++ '\n' :: (literalBody n true (T ++ E) ++ spaces j)))⟩) := by
  have hcolumn := column_header T m
  have hends : ∀ c ∈ T ++ E, isBreak c = true → IsLineEnd c := by
    intro c hc hbreak
    rcases List.mem_append.1 hc with hc | hc
    · exact isLineEnd_of_printable hbreak (h.printable c hc)
    · exact .inl (h.newlines c hc)
  have hlast : ∀ c ∈ (T ++ E).getLast?, isBreak c = true := by
    intro c hc
    have := h.ended
    rwa [lastIs, Option.mem_def.1 hc] at this
  obtain hall | ⟨bs, rest, text, ends, heq, hbs, hcut⟩ := exists_cut hends hlast
  · have hT : ∀ b ∈ T, IsLineEnd b := fun b hb => hall b (List.mem_append_left _ hb)
    obtain rfl := h.kept (chomping_ends (fun b hb => (hT b hb).isBreak) h.nonempty)
    have hbody : literalBody n true (T ++ []) = T := by
      rw [literalBody_ends hT, literalBody, List.append_nil]
    rw [hbody]
    exact scan_ends hT h.nonempty hn hj hy m
  · obtain ⟨v, c, rfl, hc⟩ := hcut.last_text
    obtain ⟨t, T', hT⟩ := List.exists_cons_of_ne_nil h.nonempty
    have hsplit : T ++ E = bs ++ v ++ [c] ++ ends := by
      rw [heq, hcut.eq_append]
      simp
    have htext := chomped_eq hsplit hc (fun b hb => (hcut.areEnds.ends b hb).isBreak)
      (fun b hb => h.newlines b hb ▸ rfl) h.kept
    have hlength : (literalBody n true (T ++ E)).length < ('|' :: (literalHints T ++ '\n' ::
        (literalBody n true (T ++ E) ++ (spaces j ++ y)))).length + 1 := by
      simp only [List.length_cons, List.length_append]
      omega
    rw [heq] at hlength ⊢
    generalize hfuel : ('|' :: (literalHints T ++ '\n' ::
      (literalBody n true (bs ++ rest) ++ (spaces j ++ y)))).length + 1 = fuel at hlength
    obtain ⟨widest, l, hbreaks, hlines, hdone, hlead, htrailing⟩ :=
      scan_body hbs hcut hj hy hlength hcolumn
    rw [past_header T (literalBody n true (bs ++ rest) ++ spaces j)] at hlines
    have hread : ∀ (known : Option Nat) (widest : Nat), (width? T).map (least - 1 + ·) = known →
        scanBreaks known fuel [] 0 ⟨literalBody n true (bs ++ rest) ++ (spaces j ++ y),
          m.past ('|' :: (literalHints T ++ ['\n']))⟩ = .ok (bs, widest,
            ⟨literalBody n false rest ++ (spaces j ++ y),
              (m.past ('|' :: (literalHints T ++ ['\n']))).past (bs ++ spaces n)⟩) →
        known.getD (max widest (max least 1)) = n →
        scan true least ⟨'|' :: (literalHints T ++ '\n' ::
            (literalBody n true (bs ++ rest) ++ (spaces j ++ y))), m⟩ =
          .ok (T, ⟨y, m.past ('|' :: (literalHints T ++ '\n' ::
            (literalBody n true (bs ++ rest) ++ spaces j)))⟩) := by
      intro known widest hknown hbreaks hindent
      rw [← hfuel] at hbreaks hlines
      have hscan := scan_eq (hknown ▸ hbreaks) (by rw [hknown, hindent]; exact hlines)
      rw [hscan, hdone, hlead, htrailing, ← List.append_assoc, htext]
    by_cases hwidth : headIs (fun c => c == ' ' || isBreak c) T = true
    · refine hread (some n) widest ?_ hbreaks rfl
      rw [width?, if_pos hwidth, hn]
      rfl
    · -- The first line is not empty and begins with no blank, so that its indentation is seen.
      have ht : isBreak t = false ∧ isSpacing t = false := by
        rw [hT, headIs, List.head?_cons, Option.any_some, Bool.or_eq_true, not_or, beq_iff_eq,
          Bool.not_eq_true] at hwidth
        refine ⟨hwidth.2, ?_⟩
        rw [isSpacing, Bool.or_eq_false_iff, beq_eq_false_iff_ne, beq_eq_false_iff_ne]
        refine ⟨hwidth.1, ?_⟩
        rintro rfl
        exact absurd (h.printable '\t' (hT ▸ List.mem_cons_self)) (by decide)
      obtain rfl : bs = [] := by
        cases bs with
        | nil => rfl
        | cons b bs =>
            rw [hT] at heq
            obtain rfl := (List.cons.inj heq).1
            exact absurd (hbs t List.mem_cons_self).isBreak (by rw [ht.1]; decide)
      have hhead : ∀ d ∈ (literalBody n false rest ++ (spaces j ++ y)).head?,
          isBreak d = false ∧ isSpacing d = false := by
        intro d hd
        rw [List.nil_append, hT, List.cons_append] at heq
        rw [← heq, literalBody, ht.1] at hd
        exact Option.some.inj hd ▸ ht
      refine hread none n ?_ ?_ ?_
      · rw [width?, if_neg hwidth]
        rfl
      · obtain ⟨left, rfl⟩ := Nat.exists_eq_add_of_lt (Nat.zero_lt_of_lt hlength)
        rw [List.nil_append, hcut.literalBody, List.append_assoc]
        exact scanBreaks_first hhead _ hcolumn
      · rw [Option.getD_none]
        omega

end Block

theorem literalBody_append_ends {w bs : List Char} (hbs : ∀ b ∈ bs, isBreak b = true) (n : Nat)
    (afterBreak : Bool) : literalBody n afterBreak (w ++ bs) = literalBody n afterBreak w ++ bs := by
  induction w generalizing afterBreak with
  | nil =>
      induction bs generalizing afterBreak with
      | nil => rfl
      | cons b bs ih =>
          have hcons : literalBody n afterBreak (b :: bs) = b :: literalBody n true bs := by
            rw [literalBody, if_pos (hbs b List.mem_cons_self)]
          have hrest := ih (fun d hd => hbs d (List.mem_cons_of_mem _ hd)) true
          exact hcons.trans (congrArg _ hrest)
  | cons c w ih =>
      rw [List.cons_append, literalBody, literalBody, ih, ih]
      split <;> simp

theorem lastIs_append {p : Char → Bool} {w : List Char} (hne : w ≠ []) (v : List Char) :
    lastIs p (v ++ w) = lastIs p w := by
  obtain ⟨u, c, rfl⟩ := (List.eq_nil_or_concat w).resolve_left hne
  simp [lastIs]

/-- The lines of a block end as its text does. -/
theorem lastIs_literalBody {T : List Char} (hne : T ≠ []) (n : Nat) (afterBreak : Bool) :
    literalBody n afterBreak T ≠ [] ∧
      lastIs isBreak (literalBody n afterBreak T) = lastIs isBreak T := by
  induction T generalizing afterBreak with
  | nil => exact absurd rfl hne
  | cons c rest ih =>
      rw [literalBody]
      by_cases hrest : rest = []
      · subst hrest
        split
        · exact ⟨List.cons_ne_nil _ _, rfl⟩
        · exact ⟨by simp, lastIs_append (List.cons_ne_nil c []) _⟩
      · rw [← List.singleton_append (x := c) (l := rest), lastIs_append hrest]
        split
        · exact ⟨List.cons_ne_nil _ _, by
            rw [← List.singleton_append, lastIs_append (ih hrest true).1, (ih hrest true).2]⟩
        · refine ⟨by simp, ?_⟩
          rw [← List.singleton_append, lastIs_append (by simp), lastIs_append (ih hrest false).1,
            (ih hrest false).2]

theorem lastIs_literalBlock {T : List Char} (hne : T ≠ []) (n : Nat) :
    lastIs isBreak (literalBlock n T) = lastIs isBreak T := by
  have hbody := lastIs_literalBody hne n true
  rw [literalBlock, ← List.cons_append, lastIs_append (List.cons_ne_nil _ _),
    ← List.singleton_append, lastIs_append hbody.1, hbody.2]

theorem endLine_literalBlock {T : List Char} (hne : T ≠ []) (n : Nat) :
    endLine (literalBlock n T) = '|' :: (literalHints T ++ '\n' :: literalBody n true
      (T ++ if lastIs isBreak T then [] else ['\n'])) := by
  rw [endLine, lastIs_literalBlock hne]
  split
  · rw [List.append_nil]
    rfl
  · have hfeed : ∀ b ∈ ['\n'], isBreak b = true := by simp [isBreak]
    rw [literalBody_append_ends hfeed, literalBlock]
    simp

namespace Lexer

variable {lx here : Lexer} {ks : List TokenKind} {I : List Nat} {allowed : Bool} {m : Mark}

/-- Lines that may come after the block of a text: empty ones, and none if the block keeps them. -/
structure AfterBlock (T : List Char) (lines : List (List Char)) : Prop where
  empty : ∀ line ∈ lines, line = []
  kept : Block.chomping T = .keep → lines = []

theorem fill_empty {lines : List (List Char)} (h : ∀ line ∈ lines, line = []) :
    ∀ b ∈ fill lines, b = '\n' := by
  intro b hb
  obtain ⟨line, hline, hb⟩ := List.mem_flatMap.1 hb
  rw [h line hline] at hb
  exact List.mem_singleton.1 hb

theorem column_past_last {w : List Char} (h : lastIs isBreak w = true) (k : Nat) (m : Mark) :
    (m.past (w ++ spaces k)).column = k := by
  rcases List.eq_nil_or_concat w with rfl | ⟨v, b, rfl⟩
  · exact absurd h (by decide)
  · rw [List.concat_eq_append] at h ⊢
    have hb : isBreak b = true := by simpa [lastIs] using h
    rw [Mark.past_append, Mark.past_append, Mark.past_spaces, Mark.past, hb, if_pos rfl]
    exact Nat.zero_add k

theorem NextPart.lt_indent {k : Nat} {r : List Char} (h : NextPart I k r) : k < least I - 1 + 2 := by
  by_cases hr : r = []
  · rw [h.last hr]
    omega
  · have := h.lt_least hr
    omega

theorem token_bar {r : List Char} {ts : List Token} {count : Nat} {p : Option PendingKey} :
    token ⟨⟨'|' :: r, m⟩, ts, count, I, allowed, p, []⟩ =
      blockScalar ⟨⟨'|' :: r, m⟩, ts, count, I, allowed, p, []⟩ true := by
  simp [token, Cursor.next?, Cursor.atMarker, List.isPrefixOf, inFlow]

theorem lastIs_of_keep {T : List Char} (h : Block.chomping T = .keep) : lastIs isBreak T = true := by
  rcases List.eq_nil_or_concat T with rfl | ⟨v, c, rfl⟩
  · exact absurd h (by decide)
  · rw [List.concat_eq_append] at h ⊢
    cases hc : isBreak c with
    | true => simp [lastIs, hc]
    | false =>
        rw [Block.chomping, List.reverse_append] at h
        simp [hc] at h

/-- The line end that a block gets, if its text has none, and the lines after it. -/
theorem AfterBlock.isWhole {T : List Char} {lines : List (List Char)} (h : AfterBlock T lines)
    (hne : T ≠ []) (hprintable : ∀ c ∈ T, isPrintable c = true) :
    Block.IsWhole T ((if lastIs isBreak T then [] else ['\n']) ++ fill lines) := by
  have hnewlines : ∀ b ∈ (if lastIs isBreak T then [] else ['\n']) ++ fill lines, b = '\n' := by
    intro b hb
    rcases List.mem_append.1 hb with hb | hb
    · split at hb
      · exact absurd hb List.not_mem_nil
      · exact List.mem_singleton.1 hb
    · exact fill_empty h.empty b hb
  refine ⟨hne, hprintable, hnewlines, ?_, fun hkeep => ?_⟩
  · generalize hE : (if lastIs isBreak T then [] else ['\n']) ++ fill lines = E at hnewlines
    rcases List.eq_nil_or_concat E with rfl | ⟨v, b, rfl⟩
    · rw [List.append_nil]
      cases hlast : lastIs isBreak T with
      | true => rfl
      | false =>
          rw [hlast] at hE
          exact absurd hE (List.cons_ne_nil _ _)
    · rw [List.concat_eq_append] at hnewlines ⊢
      rw [← List.append_assoc, lastIs_append (List.cons_ne_nil b []), hnewlines b (by simp)]
      decide
  · rw [if_pos (lastIs_of_keep hkeep), h.kept hkeep]
    rfl

theorem Stands.dropKey {p : Option PendingKey} {r : List Char} (h : Stands here ks I allowed p r m)
    (hp : ∀ key ∈ p, key.required = false) :
    ∃ after, here.dropKey = .ok after ∧ Stands after ks I allowed none r m := by
  obtain ⟨ts, hks, rfl⟩ := h
  refine ⟨_, if_neg ?_, ts, hks, rfl⟩
  cases p with
  | none => exact Bool.false_ne_true
  | some key => simpa using hp key rfl

/-- A literal block. -/
theorem places_literal {T : List Char} (hne : T ≠ []) (hprintable : ∀ c ∈ T, isPrintable c = true)
    (start : Option Nat) (j : Nat) : Places True (AfterBlock T) I start allowed
      (spaces j ++ endLine (literalBlock (least I - 1 + 2) T)) [.scalar (String.ofList T) false] := by
  intro lx ks p lines k r m hstands hI _ hp hidle _ hafter hr hk
  have hwhole := hafter.isWhole hne hprintable
  have hbreaks : ∀ b ∈ fill lines, isBreak b = true := fun b hb => fill_empty hafter.empty b hb ▸ rfl
  have htext : spaces j ++ endLine (literalBlock (least I - 1 + 2) T) ++ (fill lines ++ (spaces k ++ r)) =
      spaces j ++ ('|' :: (literalHints T ++ '\n' :: (literalBody (least I - 1 + 2) true
        (T ++ ((if lastIs isBreak T then [] else ['\n']) ++ fill lines)) ++ (spaces k ++ r)))) := by
    rw [endLine_literalBlock hne, ← List.append_assoc T, literalBody_append_ends hbreaks]
    simp
  generalize ((if lastIs isBreak T then [] else ['\n']) ++ fill lines) = E at hwhole htext
  rw [htext] at hstands
  obtain ⟨q, hawaits, hq, hidle⟩ := hstands.awaits_idle (atToken_cons (by decide) _) hp hidle
  have hdeeper := hI.past (not_break_spaces j)
  generalize m.past (spaces j) = here at hdeeper hawaits hidle
  have hscan := Block.scan_literal hwhole rfl hk.lt_indent hr.not_gap here
  have hcolumn : (here.past ('|' :: (literalHints T ++ '\n' ::
      (literalBody (least I - 1 + 2) true (T ++ E) ++ spaces k)))).column = k := by
    have hne' : T ++ E ≠ [] := List.append_ne_nil_of_left_ne_nil hne E
    have hbody := lastIs_literalBody hne' (least I - 1 + 2) true
    have hsplit : ∀ B : List Char, '|' :: (literalHints T ++ '\n' :: (B ++ spaces k)) =
        '|' :: (literalHints T ++ ['\n']) ++ B ++ spaces k := fun B => by simp
    rw [hsplit, column_past_last]
    rw [lastIs_append hbody.1, hbody.2]
    exact hwhole.ended
  generalize here.past ('|' :: (literalHints T ++ '\n' ::
    (literalBody (least I - 1 + 2) true (T ++ E) ++ spaces k))) = last at hscan hcolumn
  have hshort : k + r.length < ('|' :: (literalHints T ++ '\n' ::
      (literalBody (least I - 1 + 2) true (T ++ E) ++ (spaces k ++ r)))).length := by
    simp only [spaces, List.length_cons, List.length_append, List.length_replicate]
    omega
  have hread : lx.Reaches fun after =>
      Stands after (ks ++ [.scalar (String.ofList T) false]) I true none r last := by
    refine hawaits.step hdeeper.within fun first hfirst => ?_
    obtain ⟨dropped, hdropped, hplain⟩ := hfirst.dropKey fun key hkey => (hidle key hkey).1
    have hnext := (hplain.emitAt (.scalar (String.ofList T) false) here).moved r last true
    obtain ⟨fresh, hfresh, hread⟩ := hnext.read ks (Nat.lt_of_le_of_lt (Nat.le_add_left _ _) hshort)
      (by simp)
    refine ⟨_, fresh, ?_, hfresh, hread⟩
    obtain ⟨ts, -, rfl⟩ := hfirst
    obtain ⟨ts', -, rfl⟩ := hplain
    rw [token_bar, blockScalar, hdropped]
    simp only [leastColumn_eq, hscan]
    rfl
  refine (hread.mono fun after hstands => ?_).sure
  have hnext := hstands.awaits_line (k := 0) hr (droppable_none _)
  exact ⟨_, hnext, fun _ => hcolumn⟩

end Lexer

end GrammarProfile.Yaml
