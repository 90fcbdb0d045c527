import GrammarProfile.Proofs.Lexing

/-!
Reading single tokens in block context: dashes, marks and colons, the keys that colons end, and
tokens that stand on one line.
-/
namespace GrammarProfile.Yaml

/-! ## Keys that have to have ended -/

namespace Mark

theorem past_fill {lines : List (List Char)} (hlines : lines ≠ []) (k : Nat) (m : Mark) :
    (m.past (fill lines ++ spaces k)).column = k ∧
      m.line < (m.past (fill lines ++ spaces k)).line := by
  obtain ⟨before, line, rfl⟩ := (List.eq_nil_or_concat lines).resolve_left hlines
  rw [List.concat_eq_append]
  have hfill : fill (before ++ [line]) = fill before ++ line ++ ['\n'] := by simp [fill]
  rw [hfill, past_append, past_append, past_spaces]
  refine ⟨Nat.zero_add k, ?_⟩
  have hline := line_le_past m (fill before ++ line)
  exact Nat.lt_succ_of_le hline

end Mark

theorem length_le_fill (lines : List (List Char)) : lines.length ≤ (fill lines).length := by
  induction lines with
  | nil => exact Nat.le_refl _
  | cons line lines ih =>
      rw [fill_cons, List.length_append, List.length_cons, List.length_cons]
      omega

namespace Lexer

theorem isStale_past {m : Mark} {k : PendingKey} (h : isStale m k = true) (w : List Char) :
    isStale (m.past w) k = true := by
  have hline := m.line_le_past w
  have hindex := m.index_past w
  simp only [isStale, Bool.or_eq_true, decide_eq_true_eq] at h ⊢
  omega

theorem keepFresh_past (m : Mark) (w : List Char) (p : Option PendingKey) :
    keepFresh (m.past w) (keepFresh m p) = keepFresh (m.past w) p := by
  cases p with
  | none => rfl
  | some k =>
      cases h : isStale m k with
      | false => simp [keepFresh, Option.filter_some, h]
      | true => simp [keepFresh, Option.filter_some, h, isStale_past h]

theorem mem_of_mem_keepFresh {m : Mark} {p : Option PendingKey} {k : PendingKey}
    (h : k ∈ keepFresh m p) : k ∈ p :=
  (Option.filter_eq_some_iff.1 h).1

/-- A key is not given up if its colon comes soon enough, and one that is not required may be. -/
def Droppable (m : Mark) (p : Option PendingKey) : Prop :=
  ∀ k ∈ p, isStale m k = true → k.required = false

theorem droppable_none (m : Mark) : Droppable m none := fun _ h => nomatch h

theorem Droppable.keepFresh {m n : Mark} {p : Option PendingKey} (h : Droppable m p) :
    Droppable m (keepFresh n p) :=
  fun k hk => h k (mem_of_mem_keepFresh hk)

theorem droppable_keepFresh (m : Mark) (p : Option PendingKey) : Droppable m (keepFresh m p) := by
  intro k hk hstale
  have hfresh := (Option.filter_eq_some_iff.1 hk).2
  rw [hstale] at hfresh
  exact nomatch hfresh

/-- A key is dropped later if it is dropped before or still pending then. -/
theorem droppable_append {m : Mark} {v w : List Char} {p : Option PendingKey} :
    Droppable (m.past (v ++ w)) p ↔
      Droppable (m.past v) p ∧ Droppable (m.past (v ++ w)) (keepFresh (m.past v) p) := by
  refine ⟨fun h => ⟨fun k hk hstale => h k hk ?_, h.keepFresh⟩, fun h k hk hstale => ?_⟩
  · rw [Mark.past_append]
    exact isStale_past hstale w
  · cases hearly : isStale (m.past v) k with
    | true => exact h.1 k hk hearly
    | false => exact h.2 k (Option.filter_eq_some_iff.2 ⟨hk, by rw [hearly]; rfl⟩) hstale

theorem dropStale_eq {lx : Lexer} (hblock : lx.outer = [])
    (hp : Droppable lx.cursor.mark lx.pending) :
    lx.dropStale = .ok { lx with pending := keepFresh lx.cursor.mark lx.pending } := by
  have hnone : (lx.pending.any fun k => isStale lx.cursor.mark k && k.required) = false := by
    cases h : lx.pending with
    | none => rfl
    | some k =>
        rw [Option.any_some, Bool.and_eq_false_iff, Classical.or_iff_not_imp_left, Bool.not_eq_false]
        exact hp k h
  simp [dropStale, hnone, hblock]

variable {lx here : Lexer} {ks : List TokenKind} {I : List Nat} {allowed : Bool}
  {p : Option PendingKey} {r : List Char} {m : Mark}

theorem Stands.dropStale (h : Stands lx ks I allowed p r m) (hp : Droppable m p) :
    ∃ fresh, lx.dropStale = .ok fresh ∧ Stands fresh ks I allowed (keepFresh m p) r m := by
  obtain ⟨ts, hks, rfl⟩ := h
  exact ⟨_, dropStale_eq rfl hp, ts, hks, rfl⟩

/-- A required key without its colon in time is an error. -/
theorem dropStale_fails (hp : ∃ p ∈ lx.pending :: lx.outer, ¬Droppable lx.cursor.mark p) :
    ∃ e, lx.dropStale = .error e := by
  obtain ⟨p, hp, hdrop⟩ := hp
  simp only [Droppable, Classical.not_forall] at hdrop
  obtain ⟨k, hk, hstale, hrequired⟩ := hdrop
  rw [Bool.not_eq_false] at hrequired
  refine ⟨_, if_pos (List.any_eq_true.2 ⟨p, hp, ?_⟩)⟩
  rw [Option.mem_def.1 hk, Option.any_some, hstale, hrequired]
  rfl

theorem Stands.dropStale_fails (h : Stands lx ks I allowed p r m) (hp : ¬Droppable m p) :
    ∃ e, lx.dropStale = .error e := by
  obtain ⟨ts, -, rfl⟩ := h
  exact Lexer.dropStale_fails ⟨p, List.mem_cons_self, hp⟩

/-- What comes after blanks and lines without a token. -/
theorem Stands.awaits {lines : List (List Char)} {k : Nat}
    (h : Stands lx ks I allowed p (fill lines ++ (spaces k ++ r)) m)
    (hlines : ∀ line ∈ lines, IsFiller line) (hr : AtToken r)
    (hp : Droppable (m.past (fill lines ++ spaces k)) p) :
    Awaits lx ks I (allowed || !lines.isEmpty) (keepFresh (m.past (fill lines ++ spaces k)) p) r
      (m.past (fill lines ++ spaces k)) := by
  obtain ⟨ts, hks, rfl⟩ := h
  have hlength := length_le_fill lines
  have hskip := @skipGaps_fill lines hlines ⟨⟨fill lines ++ (spaces k ++ r), m⟩, ts, ts.length, I,
    allowed, p, []⟩ k r m rfl rfl hr ((fill lines ++ (spaces k ++ r)).length + 1)
    (by rw [List.length_append]; omega)
  refine ⟨?_, rfl, rfl, ?_, [], rfl, .inr fun _ hn => absurd hn List.not_mem_nil, ?_⟩
  · rw [hskip, dropStale_eq rfl hp]
  · rw [List.length_append, List.length_append]
    omega
  · rw [← hks, kinds, List.length_nil, List.replicate_zero, List.append_nil]

/-- What comes after blanks in the same line. -/
theorem Stands.awaits_line {k : Nat} (h : Stands lx ks I allowed p (spaces k ++ r) m)
    (hr : AtToken r) (hp : Droppable (m.past (spaces k)) p) :
    Awaits lx ks I allowed (keepFresh (m.past (spaces k)) p) r (m.past (spaces k)) := by
  have hawaits := @Stands.awaits lx ks I allowed p r m [] k h (fun _ hl => absurd hl List.not_mem_nil)
    hr hp
  rwa [List.isEmpty_nil, Bool.not_true, Bool.or_false] at hawaits

/-- In a new line no key is pending. -/
theorem Stands.awaits_newLine {lines : List (List Char)} {k : Nat}
    (h : Stands lx ks I allowed p (fill lines ++ (spaces k ++ r)) m)
    (hlines : ∀ line ∈ lines, IsFiller line) (hne : lines ≠ []) (hr : AtToken r)
    (hp : ∀ key ∈ p, key.required = false ∧ key.mark.line ≤ m.line) :
    ∃ last, Awaits lx ks I true none r last ∧ last.column = k := by
  obtain ⟨hcolumn, hline⟩ := Mark.past_fill hne k m
  refine ⟨_, ?_, hcolumn⟩
  have hawaits := h.awaits hlines hr fun key hkey _ => (hp key hkey).1
  have hdropped : keepFresh (m.past (fill lines ++ spaces k)) p = none := by
    rw [keepFresh, Option.filter_eq_none_iff]
    intro key hkey
    have hkeyLine := (hp key hkey).2
    simp only [isStale, Bool.not_eq_true', Bool.or_eq_false_iff, decide_eq_false_iff_not, not_and]
    omega
  cases lines with
  | nil => exact absurd rfl hne
  | cons line lines => rwa [hdropped, List.isEmpty_cons, Bool.not_false, Bool.or_true] at hawaits

/-! ## Dashes and marks -/

/-- The columns of the open collections before a part of the collection in a column. -/
def columns (opened : Bool) (column : Nat) (I : List Nat) : List Nat :=
  if opened then column :: I else I

/-- The token that begins a collection, if it is not open yet. -/
def opening (opened : Bool) (kind : TokenKind) : List TokenKind := if opened then [] else [kind]

theorem within_columns {column : Nat} (hI : Deeper I column) (opened : Bool) :
    Within (columns opened column I) column := by
  cases opened with
  | false => exact hI.within
  | true => exact fun n hn => Option.some.inj hn ▸ Nat.le_refl _

theorem Stands.emitAt (h : Stands here ks I allowed p r m) (kind : TokenKind) (mark : Mark) :
    Stands (here.emitAt kind mark) (ks ++ [kind]) I allowed p r m := by
  obtain ⟨ts, hks, rfl⟩ := h
  exact ⟨⟨kind, mark⟩ :: ts, by simp [← hks], rfl⟩

theorem Stands.moved (h : Stands here ks I allowed p r m) (r' : List Char) (m' : Mark)
    (allowed' : Bool) : Stands { here with cursor := ⟨r', m'⟩, keyAllowed := allowed' } ks I allowed'
      p r' m' := by
  obtain ⟨ts, hks, rfl⟩ := h
  exact ⟨ts, hks, rfl⟩

theorem Stands.roll {opened : Bool} (h : Stands here ks (columns opened m.column I) allowed p r m)
    (hI : Deeper I m.column) (kind : TokenKind) :
    Stands (here.roll kind) (ks ++ opening opened kind) (m.column :: I) allowed p r m := by
  obtain ⟨ts, hks, rfl⟩ := h
  cases opened with
  | true =>
      refine ⟨ts, by simp [opening, hks], ?_⟩
      simp [Lexer.roll, isDeeper, columns]
  | false =>
      have hdeeper : (I.head?.all fun n => decide (n < m.column)) = true := by
        cases I with
        | nil => rfl
        | cons n outer => exact decide_eq_true (hI n rfl)
      refine ⟨⟨kind, m⟩ :: ts, by simp [opening, hks], ?_⟩
      simp [Lexer.roll, isDeeper, columns, hdeeper, inFlow, emit, Lexer.emitAt]

/-- An indicator of one character that no key may be before. -/
theorem Stands.plainToken {x : Char} (h : Stands here ks I allowed none (x :: r) m)
    (hx : isBreak x = false) (kind : TokenKind) (allowed' : Bool) :
    ∃ after, here.plainToken kind allowed' 1 = .ok after ∧
      Stands after (ks ++ [kind]) I allowed' none r (m.past [x]) := by
  obtain ⟨ts, hks, rfl⟩ := h
  refine ⟨_, rfl, ⟨kind, m⟩ :: ts, by simp [← hks], ?_⟩
  rw [Mark.past_of_not_break (by simpa using hx)]
  rfl

theorem Stands.goesOn (h : Stands here ks I allowed p r m) (before : List TokenKind)
    (hend : .streamEnd ∉ before → .streamEnd ∉ ks) :
    .streamEnd ∉ before → .streamEnd ∉ here.kinds := by
  obtain ⟨ts, rfl, rfl⟩ := h
  exact hend

/-- A token was read that no key is pending at. -/
theorem Stands.read (h : Stands here ks I allowed none r m) (before : List TokenKind) {left : Nat}
    (hshort : r.length < left) (hend : .streamEnd ∉ before → .streamEnd ∉ ks) :
    ∃ fresh, here.dropStale = .ok fresh ∧ fresh.cursor.rest.length < left ∧
      (.streamEnd ∉ before → .streamEnd ∉ fresh.kinds) ∧ Stands fresh ks I allowed none r m := by
  have hgoesOn := h.goesOn before hend
  obtain ⟨ts, hks, rfl⟩ := h
  exact ⟨_, dropStale_eq rfl (droppable_none _), hshort, hgoesOn, ts, hks, rfl⟩

@[simp] theorem mem_opening {opened : Bool} {kind k : TokenKind} :
    k ∈ opening opened kind ↔ opened = false ∧ k = kind := by
  cases opened <;> simp [opening]

variable {ts : List Token} {n : Nat} {opened : Bool}

theorem token_dash (hr : r.head?.all isGap = true) :
    token ⟨⟨'-' :: r, m⟩, ts, n, I, allowed, p, []⟩ =
      blockEntry ⟨⟨'-' :: r, m⟩, ts, n, I, allowed, p, []⟩ := by
  have hmark : (⟨'-' :: r, m⟩ : Cursor).atMarker "---" = false := by
    cases r with
    | nil => simp [Cursor.atMarker]
    | cons c rest =>
        have hc : c ≠ '-' := by
          rintro rfl
          simp [isGap, isSpacing, isBreak] at hr
        simp [Cursor.atMarker, List.isPrefixOf, hc.symm]
  simp only [token, Cursor.next?, List.head?_cons, hmark, Cursor.gapAfter, List.drop_one,
    List.tail_cons, hr]
  simp [Cursor.atMarker, List.isPrefixOf]

theorem token_mark (hr : r.head?.all isGap = true) :
    token ⟨⟨'?' :: r, m⟩, ts, n, I, allowed, p, []⟩ =
      explicitKey ⟨⟨'?' :: r, m⟩, ts, n, I, allowed, p, []⟩ := by
  simp [token, Cursor.next?, Cursor.gapAfter, hr, Cursor.atMarker, List.isPrefixOf]

theorem token_colon (hr : r.head?.all isGap = true) :
    token ⟨⟨':' :: r, m⟩, ts, n, I, allowed, p, []⟩ =
      colon ⟨⟨':' :: r, m⟩, ts, n, I, allowed, p, []⟩ := by
  simp [token, Cursor.next?, Cursor.gapAfter, hr, Cursor.atMarker, List.isPrefixOf]

/-- A dash begins an entry, and a list if none is open in its column. -/
theorem Awaits.dash (h : Awaits lx ks (columns opened m.column I) true none ('-' :: r) m)
    (hI : Deeper I m.column) (hr : r.head?.all isGap = true) :
    lx.Reaches fun after =>
      Stands after (ks ++ opening opened .blockSequence ++ [.entry]) (m.column :: I) true none r
        (m.past ['-']) := by
  refine h.step (within_columns hI opened) fun here hhere => ?_
  obtain ⟨after, hafter, hstands⟩ :=
    (hhere.roll hI .blockSequence).plainToken (by decide) .entry true
  obtain ⟨fresh, hfresh, hread⟩ := hstands.read ks (Nat.lt_succ_self _) (by simp)
  refine ⟨after, fresh, ?_, hfresh, hread⟩
  obtain ⟨ts, -, rfl⟩ := hhere
  rw [token_dash hr, blockEntry, if_neg (by simp [inFlow]), hafter]

/-- A mark begins a pair, and a mapping if none is open in its column. -/
theorem Awaits.mark (h : Awaits lx ks (columns opened m.column I) true none ('?' :: r) m)
    (hI : Deeper I m.column) (hr : r.head?.all isGap = true) :
    lx.Reaches fun after =>
      Stands after (ks ++ opening opened .blockMapping ++ [.key]) (m.column :: I) true none r
        (m.past ['?']) := by
  refine h.step (within_columns hI opened) fun here hhere => ?_
  obtain ⟨after, hafter, hstands⟩ :=
    (hhere.roll hI .blockMapping).plainToken (by decide) .key true
  obtain ⟨fresh, hfresh, hread⟩ := hstands.read ks (Nat.lt_succ_self _) (by simp)
  refine ⟨after, fresh, ?_, hfresh, hread⟩
  obtain ⟨ts, -, rfl⟩ := hhere
  rw [token_mark hr, explicitKey, if_neg (by simp [inFlow])]
  exact hafter

/-- The colon before the value of a key that has a mark. -/
theorem Awaits.markColon (h : Awaits lx ks (m.column :: I) true none (':' :: r) m)
    (hI : Deeper I m.column) (hr : r.head?.all isGap = true) :
    lx.Reaches fun after =>
      Stands after (ks ++ [.value]) (m.column :: I) true none r (m.past [':']) := by
  refine h.step (within_columns hI true) fun here hhere => ?_
  have hcolon : here.token = .ok
      { (here.emitAt .value m) with cursor := ⟨r, m.past [':']⟩, keyAllowed := true } := by
    obtain ⟨ts, -, rfl⟩ := hhere
    rw [token_colon hr, colon]
    simp [inFlow, Lexer.roll, isDeeper, emitSkip, emit, Lexer.emitAt, Cursor.skip,
      Mark.past_of_not_break (w := [':']) (List.forall_mem_singleton.2 (by decide))]
  obtain ⟨fresh, hfresh, hread⟩ :=
    ((hhere.emitAt .value m).moved r (m.past [':']) true).read ks (Nat.lt_succ_self _) (by simp)
  exact ⟨_, fresh, hcolon, hfresh, hread⟩

/-! ## Tokens that may be keys -/

/-- The key that is pending at a token that may be one. -/
def saved (ks : List TokenKind) (I : List Nat) (allowed : Bool) (p : Option PendingKey) (m : Mark) :
    Option PendingKey :=
  if allowed then some ⟨I.head? == some m.column, ks.length, m⟩ else p

theorem saved_not_allowed (ks : List TokenKind) (I : List Nat) (p : Option PendingKey) (m : Mark) :
    saved ks I false p m = p := rfl

/-- A text that is read as tokens that may be a key, up to what satisfies `stop`. A key that is
required must not be too long. -/
def Inline (ok : Prop) (stop : List Char → Prop) (w : List Char) (kinds : List TokenKind) : Prop :=
  ∀ {lx : Lexer} {ks : List TokenKind} {I : List Nat} {allowed : Bool} {p : Option PendingKey}
    {tail : List Char} {m : Mark}, Awaits lx ks I allowed p (w ++ tail) m → Within I m.column →
    (allowed = true → p = none) → stop tail →
    lx.Outcome (ok ∧ Droppable (m.past w) (saved ks I allowed p m)) fun after =>
      Stands after (ks ++ kinds) I false (keepFresh (m.past w) (saved ks I allowed p m)) tail
        (m.past w)

theorem Stands.saveKey (h : Stands here ks I allowed p r m) (hp : allowed = true → p = none) :
    ∃ after, here.saveKey = .ok after ∧ Stands after ks I allowed (saved ks I allowed p m) r m := by
  obtain ⟨ts, hks, rfl⟩ := h
  have hlength : ts.length = ks.length := by rw [← hks, List.length_map, List.length_reverse]
  cases allowed with
  | false => exact ⟨⟨⟨r, m⟩, ts, ts.length, I, false, p, []⟩, rfl, ts, hks, rfl⟩
  | true =>
      obtain rfl := hp rfl
      exact ⟨_, by simp [Lexer.saveKey, dropKey]; rfl, ts, hks, by simp [saved, hlength, inFlow]⟩

/-- Saving a key changes nothing else. -/
theorem saveKey_eq {after : Lexer} (h : here.saveKey = .ok after) :
    ∃ q, after = { here with pending := q } := by
  unfold Lexer.saveKey dropKey at h
  split at h
  · split at h
    · next heq => split at heq <;> cases h
    · next heq =>
        split at heq
        · cases heq
        · cases heq
          cases h
          exact ⟨_, rfl⟩
  · cases h
    exact ⟨_, rfl⟩

/-- What is read as one token by a scan that stays in block context. -/
theorem inline_of_token {stop : List Char → Prop} {w : List Char} {kind : TokenKind}
    (hw : w ≠ []) (hkind : kind ≠ .streamEnd)
    (htoken : ∀ {here : Lexer} {ks : List TokenKind} {I : List Nat} {allowed : Bool}
      {p : Option PendingKey} {tail : List Char} {m : Mark},
      Stands here ks I allowed p (w ++ tail) m → Within I m.column → stop tail →
      here.token = here.keyToken fun _ => .ok (kind, ⟨tail, m.past w⟩)) :
    Inline True stop w [kind] := by
  intro lx ks I allowed p tail m h hI hp hstop
  have htext : w ++ tail ≠ [] := List.append_ne_nil_of_left_ne_nil hw _
  have hread : ∀ here, Stands here ks I allowed p (w ++ tail) m → ∃ after, here.token = .ok after ∧
      Stands after (ks ++ [kind]) I false (saved ks I allowed p m) tail (m.past w) := by
    intro here hhere
    obtain ⟨after, hsave, hafter⟩ := hhere.saveKey hp
    have hcursor : after.cursor.mark = m := by
      obtain ⟨ts, -, rfl⟩ := hafter
      rfl
    refine ⟨_, ?_, (hafter.emitAt kind m).moved tail (m.past w) false⟩
    rw [htoken hhere hI hstop, keyToken, hsave, ← hcursor]
    rfl
  by_cases hdrop : Droppable (m.past w) (saved ks I allowed p m)
  · refine .inl ⟨⟨trivial, hdrop⟩, h.step hI fun here hhere => ?_⟩
    obtain ⟨after, hafter, hstands⟩ := hread here hhere
    obtain ⟨fresh, hfresh, hstands⟩ := hstands.dropStale hdrop
    refine ⟨after, fresh, hafter, hfresh, ?_, ?_, hstands⟩
    · obtain ⟨ts, -, rfl⟩ := hstands
      have hpos := List.length_pos_iff.2 hw
      rw [List.length_append]
      exact Nat.lt_add_of_pos_left hpos
    · exact hstands.goesOn ks (by simp [hkind.symm])
  · refine .inr ⟨fun hok => hdrop hok.2, h.fails htext hI fun here hhere => ?_⟩
    obtain ⟨after, hafter, hstands⟩ := hread here hhere
    obtain ⟨e, he⟩ := hstands.dropStale_fails hdrop
    exact ⟨e, by rw [hafter]; exact he⟩

/-- Where no key can be too long. -/
theorem Inline.sure {ok : Prop} {stop : List Char → Prop} {w tail : List Char}
    {kinds : List TokenKind} (hinline : Inline ok stop w kinds)
    (h : Awaits lx ks I allowed p (w ++ tail) m) (hI : Within I m.column)
    (hp : allowed = true → p = none) (hstop : stop tail)
    (hdrop : Droppable (m.past w) (saved ks I allowed p m)) :
    lx.Outcome ok fun after =>
      Stands after (ks ++ kinds) I false (keepFresh (m.past w) (saved ks I allowed p m)) tail
        (m.past w) :=
  (hinline h hI hp hstop).congr (and_iff_left hdrop)

theorem within_past {w : List Char} (hw : ∀ c ∈ w, isBreak c = false) (hI : Within I m.column) :
    Within I (m.past w).column := by
  rw [Mark.past_of_not_break hw]
  exact fun n hn => Nat.le_trans (hI n hn) (Nat.le_add_right _ _)

/-- What comes after blanks in the same line, where a pending key may be too long. -/
theorem Stands.outcome_line {ok : Prop} {Q : Lexer → Prop} {k : Nat}
    (h : Stands lx ks I allowed p (spaces k ++ r) m) (hr : AtToken r)
    (hnext : Awaits lx ks I allowed (keepFresh (m.past (spaces k)) p) r (m.past (spaces k)) →
      lx.Outcome ok Q) : lx.Outcome (Droppable (m.past (spaces k)) p ∧ ok) Q := by
  by_cases hdrop : Droppable (m.past (spaces k)) p
  · exact (hnext (h.awaits_line hr hdrop)).congr (and_iff_right hdrop).symm
  · refine .inr ⟨fun hok => hdrop hok.1, .refl ?_⟩
    obtain ⟨ts, -, rfl⟩ := h
    have hskip := @skipGaps_spaces ⟨⟨spaces k ++ r, m⟩, ts, ts.length, I, allowed, p, []⟩ k r m rfl hr
      (spaces k ++ r).length
    obtain ⟨e, he⟩ := @Lexer.dropStale_fails
      ⟨⟨r, m.past (spaces k)⟩, ts, ts.length, I, allowed, p, []⟩ ⟨p, List.mem_cons_self, hdrop⟩
    refine ⟨e, ?_⟩
    unfold advance
    rw [hskip, he]

/-- What is read one after the other with a space between. -/
theorem Inline.append {first second : Prop} {before stop : List Char → Prop} {v w : List Char}
    {ks₁ ks₂ : List TokenKind} (hfirst : Inline first before v ks₁)
    (hsecond : Inline second stop w ks₂) (hv : ∀ c ∈ v, isBreak c = false)
    (hbefore : ∀ tail, before (' ' :: (w ++ tail))) (hw : ∀ tail, AtToken (w ++ tail)) :
    Inline (first ∧ second) stop (v ++ ' ' :: w) (ks₁ ++ ks₂) := by
  intro lx ks I allowed p tail m h hI hp hstop
  have hmark : ((m.past v).past (spaces 1)).past w = (m.past v).past (spaces 1 ++ w) :=
    (Mark.past_append ..).symm
  have hwhole : (m.past v).past (spaces 1 ++ w) = m.past (v ++ ' ' :: w) := (Mark.past_append ..).symm
  rw [List.append_assoc] at h
  have hrest : ∀ after, Stands after (ks ++ ks₁) I false
      (keepFresh (m.past v) (saved ks I allowed p m)) (spaces 1 ++ (w ++ tail)) (m.past v) →
      after.Outcome _ _ := fun after hafter => hafter.outcome_line (hw tail) fun hawaits =>
    hsecond hawaits (within_past (List.forall_mem_singleton.2 (by decide)) (within_past hv hI))
      (fun h => nomatch h) hstop
  refine (((hfirst h hI hp (hbefore tail)).bind hrest).mono fun last hlast => ?_).congr ?_
  · rw [saved_not_allowed, keepFresh_past, hmark, keepFresh_past, hwhole] at hlast
    rwa [← List.append_assoc]
  · have hlate := @droppable_append m v (spaces 1 ++ w) (saved ks I allowed p m)
    have hearly := @droppable_append (m.past v) (spaces 1) w
      (keepFresh (m.past v) (saved ks I allowed p m))
    rw [← hmark] at hearly
    rw [Mark.past_append, ← hmark, hearly] at hlate
    rw [← hwhole, ← hmark, hlate, saved_not_allowed]
    exact ⟨fun ⟨⟨h₁, h₂⟩, h₃, h₄, h₅⟩ => ⟨⟨h₁, h₄⟩, h₂, h₃, h₅⟩,
      fun ⟨⟨h₁, h₄⟩, h₂, h₃, h₅⟩ => ⟨⟨h₁, h₂⟩, h₃, h₄, h₅⟩⟩

/-! ## Collections in brackets -/

/-- A state inside one flow collection; `q` is the key that may be pending around it. -/
def InFlow (lx : Lexer) (ks : List TokenKind) (I : List Nat) (allowed : Bool)
    (p q : Option PendingKey) (r : List Char) (m : Mark) : Prop :=
  ∃ ts, ts.reverse.map Token.kind = ks ∧
    lx = ⟨⟨r, m⟩, ts, ts.length, I, allowed, p, [q]⟩

theorem token_openBracket :
    token ⟨⟨'[' :: r, m⟩, ts, n, I, allowed, p, []⟩ =
      openFlow ⟨⟨'[' :: r, m⟩, ts, n, I, allowed, p, []⟩ .flowSequence := by
  simp [token, Cursor.next?, Cursor.atMarker, List.isPrefixOf]

theorem token_openBrace :
    token ⟨⟨'\x7b' :: r, m⟩, ts, n, I, allowed, p, []⟩ =
      openFlow ⟨⟨'\x7b' :: r, m⟩, ts, n, I, allowed, p, []⟩ .flowMapping := by
  simp [token, Cursor.next?, Cursor.atMarker, List.isPrefixOf]

theorem token_closeBracket {outer : List (Option PendingKey)} :
    token ⟨⟨']' :: r, m⟩, ts, n, I, allowed, p, outer⟩ =
      closeFlow ⟨⟨']' :: r, m⟩, ts, n, I, allowed, p, outer⟩ .flowSequenceEnd := by
  simp [token, Cursor.next?, Cursor.atMarker, List.isPrefixOf]

theorem token_closeBrace {outer : List (Option PendingKey)} :
    token ⟨⟨'\x7d' :: r, m⟩, ts, n, I, allowed, p, outer⟩ =
      closeFlow ⟨⟨'\x7d' :: r, m⟩, ts, n, I, allowed, p, outer⟩ .flowMappingEnd := by
  simp [token, Cursor.next?, Cursor.atMarker, List.isPrefixOf]

theorem dropStale_flow {q : Option PendingKey} (hp : Droppable m p) (hq : Droppable m q) :
    dropStale ⟨⟨r, m⟩, ts, n, I, allowed, p, [q]⟩ =
      .ok ⟨⟨r, m⟩, ts, n, I, allowed, keepFresh m p, [keepFresh m q]⟩ := by
  have hnone : ∀ p, Droppable m p → (p.any fun k => isStale m k && k.required) = false := by
    intro p hp
    cases p with
    | none => rfl
    | some k =>
        rw [Option.any_some, Bool.and_eq_false_iff, Classical.or_iff_not_imp_left, Bool.not_eq_false]
        exact hp k rfl
  simp [dropStale, hnone p hp, hnone q hq]

/-- A bracket that opens. -/
theorem Awaits.openFlow {x : Char} {kind : TokenKind} (hx : isBreak x = false)
    (hkind : kind ≠ .streamEnd)
    (htoken : ∀ (ts : List Token) (n : Nat), token ⟨⟨x :: r, m⟩, ts, n, I, allowed, p, []⟩ =
      Lexer.openFlow ⟨⟨x :: r, m⟩, ts, n, I, allowed, p, []⟩ kind)
    (h : Awaits lx ks I allowed p (x :: r) m) (hI : Within I m.column)
    (hp : allowed = true → p = none) :
    lx.Outcome (Droppable (m.past [x]) (saved ks I allowed p m)) fun after =>
      InFlow after (ks ++ [kind]) I true none (keepFresh (m.past [x]) (saved ks I allowed p m)) r
        (m.past [x]) := by
  have hread : ∀ here, Stands here ks I allowed p (x :: r) m → ∃ ts, ts.reverse.map Token.kind = ks ∧
      here.token = .ok ⟨⟨r, m.past [x]⟩, ⟨kind, m⟩ :: ts, ts.length + 1, I, true, none,
        [saved ks I allowed p m]⟩ := by
    rintro here ⟨ts, hks, rfl⟩
    obtain ⟨_, hsave, ts', hks', rfl⟩ := Stands.saveKey ⟨ts, hks, rfl⟩ hp
    refine ⟨ts', hks', ?_⟩
    rw [htoken, Lexer.openFlow, hsave, Mark.past_of_not_break (by simpa using hx)]
    rfl
  by_cases hdrop : Droppable (m.past [x]) (saved ks I allowed p m)
  · refine .inl ⟨hdrop, h.step hI fun here hhere => ?_⟩
    obtain ⟨ts, hks, htoken⟩ := hread here hhere
    refine ⟨_, ⟨⟨r, m.past [x]⟩, ⟨kind, m⟩ :: ts, ts.length + 1, I, true, none,
      [keepFresh (m.past [x]) (saved ks I allowed p m)]⟩, htoken,
      dropStale_flow (droppable_none _) hdrop, Nat.lt_succ_self _, ?_, ⟨kind, m⟩ :: ts, ?_, rfl⟩
    · simp [kinds, ← hks, hkind.symm]
    · simp [← hks]
  · refine .inr ⟨hdrop, h.fails (List.cons_ne_nil _ _) hI fun here hhere => ?_⟩
    obtain ⟨ts, -, htoken⟩ := hread here hhere
    rw [htoken]
    exact Lexer.dropStale_fails ⟨_, List.mem_cons_of_mem _ List.mem_cons_self, hdrop⟩

/-- The bracket that closes a flow collection. -/
theorem InFlow.close {x : Char} {kind : TokenKind} {q : Option PendingKey} {k : Nat}
    (hx : isTokenHead x = true) (hkind : kind ≠ .streamEnd)
    (htoken : ∀ (m : Mark) (ts : List Token) (n : Nat) (outer : List (Option PendingKey)),
      token ⟨⟨x :: r, m⟩, ts, n, I, allowed, none, outer⟩ =
        closeFlow ⟨⟨x :: r, m⟩, ts, n, I, allowed, none, outer⟩ kind)
    (h : InFlow lx ks I allowed none q (spaces k ++ x :: r) m)
    (hfresh : Droppable (m.past (spaces k)) q) :
    lx.Outcome (Droppable (m.past (spaces k ++ [x])) q) fun after =>
      Stands after (ks ++ [kind]) I false (keepFresh (m.past (spaces k ++ [x])) q) r
        (m.past (spaces k ++ [x])) := by
  obtain ⟨ts, hks, rfl⟩ := h
  have hbreak := (isTokenHead.facts hx).2.1
  have hmark : m.past (spaces k ++ [x]) = (m.past (spaces k)).past [x] := Mark.past_append ..
  have hskip := @skipGaps_spaces ⟨⟨spaces k ++ x :: r, m⟩, ts, ts.length, I, allowed, none, [q]⟩ k
    (x :: r) m rfl (atToken_cons hx r) (spaces k ++ x :: r).length
  have hclose : closeFlow ⟨⟨x :: r, m.past (spaces k)⟩, ts, ts.length, I, allowed, none,
      [keepFresh (m.past (spaces k)) q]⟩ kind =
        .ok ⟨⟨r, m.past (spaces k ++ [x])⟩, ⟨kind, m.past (spaces k)⟩ :: ts, ts.length + 1, I,
          false, keepFresh (m.past (spaces k)) q, []⟩ := by
    rw [hmark, Mark.past_of_not_break (m := m.past (spaces k)) (by simpa using hbreak)]
    rfl
  have hadvance : advance ⟨⟨spaces k ++ x :: r, m⟩, ts, ts.length, I, allowed, none, [q]⟩ =
      dropStale ⟨⟨r, m.past (spaces k ++ [x])⟩, ⟨kind, m.past (spaces k)⟩ :: ts, ts.length + 1, I,
        false, keepFresh (m.past (spaces k)) q, []⟩ := by
    have hkeep : keepFresh (m.past (spaces k)) none = none := rfl
    unfold advance
    rw [hskip, dropStale_flow (droppable_none _) hfresh]
    simp only [inFlow, List.isEmpty_cons, Bool.not_false, if_true]
    rw [hkeep, htoken, hclose]
  by_cases hdrop : Droppable (m.past (spaces k ++ [x])) q
  · refine .inl ⟨hdrop, _, .single ⟨?_, ?_, ?_⟩, ⟨kind, m.past (spaces k)⟩ :: ts, by simp [← hks], rfl⟩
    · rw [hadvance, dropStale_eq rfl hdrop.keepFresh]
      simp only [hmark, keepFresh_past, List.length_cons]
    · simp only [List.length_append, List.length_cons]
      omega
    · simp [kinds, hkind.symm]
  · refine .inr ⟨hdrop, .refl ?_⟩
    rw [hadvance]
    exact Lexer.dropStale_fails
      ⟨_, List.mem_cons_self, fun hkept => hdrop (droppable_append.2 ⟨hfresh, hkept⟩)⟩

theorem inline_brackets {opens closes : Char} {first last : TokenKind}
    (hopens : isBreak opens = false) (hcloses : isTokenHead closes = true)
    (hfirst : first ≠ .streamEnd) (hlast : last ≠ .streamEnd)
    (hopen : ∀ (r : List Char) (m : Mark) (I : List Nat) (allowed : Bool) (p : Option PendingKey)
      (ts : List Token) (n : Nat), token ⟨⟨opens :: r, m⟩, ts, n, I, allowed, p, []⟩ =
        openFlow ⟨⟨opens :: r, m⟩, ts, n, I, allowed, p, []⟩ first)
    (hclose : ∀ (r : List Char) (m : Mark) (I : List Nat) (allowed : Bool) (p : Option PendingKey)
      (ts : List Token) (n : Nat) (outer : List (Option PendingKey)),
        token ⟨⟨closes :: r, m⟩, ts, n, I, allowed, p, outer⟩ =
          closeFlow ⟨⟨closes :: r, m⟩, ts, n, I, allowed, p, outer⟩ last) (stop : List Char → Prop) :
    Inline True stop [opens, closes] [first, last] := by
  intro lx ks I allowed p tail m h hI hp _
  have hmark : (m.past [opens]).past [closes] = m.past ([opens] ++ [closes]) :=
    (Mark.past_append m [opens] [closes]).symm
  have hrest : ∀ after, InFlow after (ks ++ [first]) I true none
      (keepFresh (m.past [opens]) (saved ks I allowed p m)) (closes :: tail) (m.past [opens]) →
      after.Outcome _ _ := fun after hafter =>
    InFlow.close (k := 0) hcloses hlast (fun _ _ _ _ => hclose _ _ _ _ _ _ _ _) hafter
      (droppable_keepFresh _ _)
  refine (((Awaits.openFlow hopens hfirst (fun _ _ => hopen _ _ _ _ _ _ _) h hI hp).bind hrest).mono
    fun final hstands => ?_).congr ?_
  · change Stands final _ _ _ (keepFresh ((m.past [opens]).past [closes]) _) _
      ((m.past [opens]).past [closes]) at hstands
    rw [keepFresh_past, hmark, List.append_assoc] at hstands
    exact hstands
  · change _ ∧ Droppable ((m.past [opens]).past [closes]) _ ↔ _
    rw [hmark, ← droppable_append]
    exact (iff_of_eq (true_and _)).symm

theorem inline_emptyList (stop : List Char → Prop) :
    Inline True stop "[]".toList [.flowSequence, .flowSequenceEnd] :=
  inline_brackets (by decide) (by decide) (by decide) (by decide)
    (fun _ _ _ _ _ _ _ => token_openBracket) (fun _ _ _ _ _ _ _ _ => token_closeBracket) stop

theorem inline_emptyMapping (stop : List Char → Prop) :
    Inline True stop "\x7b\x7d".toList [.flowMapping, .flowMappingEnd] :=
  inline_brackets (by decide) (by decide) (by decide) (by decide)
    (fun _ _ _ _ _ _ _ => token_openBrace) (fun _ _ _ _ _ _ _ _ => token_closeBrace) stop

/-! ## Keys -/

/-- A gap, or the end. -/
def AtGap (tail : List Char) : Prop := tail.head?.all isGap = true

/-- A colon, and a gap after it. -/
def AtColon (tail : List Char) : Prop := ∃ r, tail = ':' :: r ∧ AtGap r

theorem kinds_insert {ks later : List TokenKind} (h : ts.reverse.map Token.kind = ks ++ later)
    (token : Token) :
    (ts.take (ts.length - ks.length) ++ token :: ts.drop (ts.length - ks.length)).reverse.map
      Token.kind = ks ++ token.kind :: later := by
  have hlength : ts.length = ks.length + later.length := by
    have := congrArg List.length h
    rwa [List.length_map, List.length_reverse, List.length_append] at this
  have htake : (ts.take (ts.length - ks.length)).reverse.map Token.kind = later := by
    rw [List.reverse_take, List.map_drop, h, show ts.length - (ts.length - ks.length) = ks.length by
      omega, List.drop_left]
  have hdrop : (ts.drop (ts.length - ks.length)).reverse.map Token.kind = ks := by
    rw [List.reverse_drop, List.map_take, h, show ts.length - (ts.length - ks.length) = ks.length by
      omega, List.take_left]
  simp only [List.reverse_append, List.reverse_cons, List.map_append, List.map_cons, htake,
    hdrop, List.append_assoc, List.singleton_append]

/-- The colon after a key. -/
theorem Stands.keyColon {later : List TokenKind} {column : Nat} {key : Mark} {required : Bool}
    (h : Stands here (ks ++ later) (columns opened column I) false
      (some ⟨required, ks.length, key⟩) (':' :: r) m)
    (hkey : key.column = column) (hI : Deeper I column) (hr : r.head?.all isGap = true) :
    ∃ after, here.token = .ok after ∧
      Stands after (ks ++ opening opened .blockMapping ++ .key :: later ++ [.value]) (column :: I)
        false none r (m.past [':']) := by
  obtain ⟨ts, hks, rfl⟩ := h
  have hlength : ks.length ≤ ts.length := by
    have := congrArg List.length hks
    rw [List.length_map, List.length_reverse, List.length_append] at this
    omega
  have hkeyed := kinds_insert hks ⟨.key, key⟩
  have hcount : (ts.take (ts.length - ks.length) ++ (⟨.key, key⟩ : Token) ::
      ts.drop (ts.length - ks.length)).length = ts.length + 1 := by
    rw [List.length_append, List.length_cons, List.length_take, List.length_drop]
    omega
  generalize hinserted : ts.take (ts.length - ks.length) ++ (⟨.key, key⟩ : Token) ::
    ts.drop (ts.length - ks.length) = inserted at hkeyed hcount
  rw [token_colon hr, colon]
  cases opened with
  | true =>
      refine ⟨_, rfl, ⟨.value, m⟩ :: inserted, ?_, ?_⟩
      · rw [List.reverse_cons, List.map_append, hkeyed]
        simp [opening]
      · simp only [insert, hinserted]
        simp [isDeeper, columns, hkey, inFlow, emitSkip, emit, Lexer.emitAt, Cursor.skip, hcount,
          Mark.past_of_not_break (w := [':']) (List.forall_mem_singleton.2 (by decide))]
  | false =>
      have hdeeper : (I.head?.all fun n => decide (n < key.column)) = true := by
        cases I with
        | nil => rfl
        | cons n outer => exact decide_eq_true (hkey ▸ hI n rfl)
      have hbegun := kinds_insert hkeyed ⟨.blockMapping, key⟩
      rw [hcount] at hbegun
      have hcount' : (inserted.take (ts.length + 1 - ks.length) ++ (⟨.blockMapping, key⟩ : Token) ::
          inserted.drop (ts.length + 1 - ks.length)).length = ts.length + 2 := by
        rw [List.length_append, List.length_cons, List.length_take, List.length_drop, hcount]
        omega
      refine ⟨_, rfl, ⟨.value, m⟩ :: (inserted.take (ts.length + 1 - ks.length) ++
        (⟨.blockMapping, key⟩ : Token) :: inserted.drop (ts.length + 1 - ks.length)), ?_, ?_⟩
      · rw [List.reverse_cons, List.map_append, hbegun]
        simp [opening]
      · simp only [insert, hinserted]
        rw [if_pos (by simp [isDeeper, columns, hdeeper, inFlow])]
        simp [emitSkip, emit, Lexer.emitAt, Cursor.skip, columns, hkey, hcount',
          Mark.past_of_not_break (w := [':']) (List.forall_mem_singleton.2 (by decide))]

/-- The longest text that can be a key. -/
def longestKey : Nat := 1024

theorem isStale_past_line {w : List Char} (hw : ∀ c ∈ w, isBreak c = false) (m : Mark)
    (required : Bool) (position : Nat) :
    isStale (m.past w) ⟨required, position, m⟩ = decide (longestKey < w.length) := by
  rw [Mark.past_of_not_break hw, Bool.eq_iff_iff, decide_eq_true_iff]
  simp [isStale, longestKey]

/-- A key is not taken for one where it is too long, whether it is required or not. -/
theorem Stands.lateColon (h : Stands lx ks I false none (':' :: r) m) (hI : Within I m.column)
    (hr : r.head?.all isGap = true) : lx.Fails := by
  have hawaits := Stands.awaits_line (k := 0) h (atToken_cons (by decide) r) (droppable_none _)
  refine hawaits.fails (List.cons_ne_nil _ _) hI fun here ⟨ts, _, hhere⟩ => ?_
  rw [hhere]
  change ∃ e, (token ⟨⟨':' :: r, m⟩, ts, ts.length, I, false, none, []⟩).bind _ = _
  rw [token_colon hr]
  exact ⟨_, rfl⟩

/-- A key and its colon. -/
theorem Inline.key {ok : Prop} {w : List Char} {kinds : List TokenKind} {column : Nat}
    (hkey : Inline ok AtColon w kinds) (hw : ∀ c ∈ w, isBreak c = false)
    (h : Awaits lx ks (columns opened column I) true none (w ++ ':' :: r) m)
    (hcolumn : m.column = column) (hI : Deeper I column) (hr : r.head?.all isGap = true) :
    lx.Outcome (ok ∧ w.length ≤ longestKey) fun after =>
      Stands after (ks ++ opening opened .blockMapping ++ .key :: kinds ++ [.value]) (column :: I)
        false none r (m.past (w ++ [':'])) := by
  have hwithin : Within (columns opened column I) m.column := hcolumn ▸ within_columns (hcolumn ▸ hI) opened
  have hread := hkey h hwithin (fun _ => rfl) ⟨r, rfl, hr⟩
  have hstale := isStale_past_line hw m ((columns opened column I).head? == some m.column) ks.length
  by_cases hlong : w.length ≤ longestKey
  · rw [decide_eq_false (Nat.not_lt.2 hlong)] at hstale
    have hdrop : Droppable (m.past w) (saved ks (columns opened column I) true none m) :=
      fun k hk h => by
        obtain rfl := Option.some.inj hk
        rw [hstale] at h
        exact nomatch h
    have hkept : keepFresh (m.past w) (saved ks (columns opened column I) true none m) =
        saved ks (columns opened column I) true none m := by
      simp [keepFresh, saved, Option.filter_some, hstale]
    refine (hread.congr (and_congr_right' (iff_of_true hdrop hlong))).reaches fun after hafter => ?_
    rw [hkept] at hafter
    have hawaits := Stands.awaits_line (k := 0) hafter (atToken_cons (by decide) r) hdrop
    change Awaits after _ _ _ (keepFresh (m.past w) _) _ (m.past w) at hawaits
    rw [hkept] at hawaits
    refine hawaits.step (within_past hw hwithin) fun here hhere => ?_
    obtain ⟨next, hnext, hstands⟩ := hhere.keyColon hcolumn hI hr
    obtain ⟨fresh, hread⟩ := hstands.read (ks ++ kinds) (Nat.lt_succ_self _) (by simp)
    rw [Mark.past_append]
    exact ⟨next, fresh, hnext, hread⟩
  · rw [decide_eq_true (Nat.lt_of_not_le hlong)] at hstale
    refine .inr ⟨fun hok => hlong hok.2, ?_⟩
    rcases hread with ⟨-, hreaches⟩ | ⟨-, hfails⟩
    · refine hreaches.fails fun after hafter => ?_
      have hdropped : keepFresh (m.past w) (saved ks (columns opened column I) true none m) = none := by
        simp [keepFresh, saved, Option.filter_some, hstale]
      rw [hdropped] at hafter
      exact hafter.lateColon (within_past hw hwithin) hr
    · exact hfails

/-! ## Nodes in their places -/

/-- The next token, after `k` blanks, stands where a collection goes on, or the text is at its
end. -/
structure NextPart (I : List Nat) (k : Nat) (r : List Char) : Prop where
  within : r ≠ [] → ∃ n ∈ I.head?, k ≤ n
  last : r = [] → k = 0

/-- A key that may be pending here can be given up in the next line. -/
def Idle (m : Mark) (p : Option PendingKey) : Prop :=
  ∀ key ∈ p, key.required = false ∧ key.mark.line ≤ m.line

theorem idle_none (m : Mark) : Idle m none := fun _ h => nomatch h

theorem Idle.past (h : Idle m p) (w : List Char) : Idle (m.past w) p :=
  fun key hkey => ⟨(h key hkey).1, Nat.le_trans (h key hkey).2 (m.line_le_past w)⟩

theorem Idle.keepFresh {n : Mark} (h : Idle m p) : Idle m (keepFresh n p) :=
  fun key hkey => h key (mem_of_mem_keepFresh hkey)

theorem Idle.droppable (h : Idle m p) (n : Mark) : Droppable n p := fun key hkey _ => (h key hkey).1

/-- In a later line nothing is pending. -/
theorem Idle.keepFresh_eq {n : Mark} (h : Idle m p) (hline : m.line < n.line) :
    Lexer.keepFresh n p = none := by
  rw [Lexer.keepFresh, Option.filter_eq_none_iff]
  intro key hkey
  have hkeyLine := (h key hkey).2
  simp only [isStale, Bool.not_eq_true', Bool.or_eq_false_iff, decide_eq_false_iff_not, not_and]
  omega

/-- A key that may be pending at a place right of the open collections is not required. -/
theorem Idle.saved (h : Idle m p) (hI : Deeper I m.column) : Idle m (saved ks I allowed p m) := by
  intro key hkey
  cases allowed with
  | false => exact h key hkey
  | true =>
      obtain rfl := Option.some.inj hkey
      refine ⟨?_, Nat.le_refl _⟩
      rw [beq_eq_false_iff_ne]
      exact fun hhead => Nat.lt_irrefl _ (hI _ hhead)

/-- A text that is read as tokens from the end of the indicator before it, in the column `start` if
that is told, to the next part, with lines between that satisfy `may`. -/
def Places (ok : Prop) (may : List (List Char) → Prop) (I : List Nat) (start : Option Nat)
    (allowed : Bool) (w : List Char) (kinds : List TokenKind) : Prop :=
  ∀ {lx : Lexer} {ks : List TokenKind} {p : Option PendingKey} {lines : List (List Char)} {k : Nat}
    {r : List Char} {m : Mark}, Stands lx ks I allowed p (w ++ (fill lines ++ (spaces k ++ r))) m →
    Deeper I m.column → (∀ c ∈ start, m.column = c) → (allowed = true → p = none) → Idle m p →
    (∀ line ∈ lines, IsFiller line) → may lines → AtToken r → NextPart I k r →
    lx.Outcome ok fun after => ∃ last, Awaits after (ks ++ kinds) I true none r last ∧
      (r ≠ [] → last.column = k)

theorem Deeper.past (h : Deeper I m.column) {w : List Char} (hw : ∀ c ∈ w, isBreak c = false) :
    Deeper I (m.past w).column := by
  rw [Mark.past_of_not_break hw]
  exact fun n hn => Nat.lt_of_lt_of_le (h n hn) (Nat.le_add_right _ _)

theorem not_break_spaces (j : Nat) : ∀ c ∈ spaces j, isBreak c = false :=
  fun _ hc => (List.eq_of_mem_replicate hc).symm ▸ rfl

/-- What comes after blanks in the same line, with a key still pending. -/
theorem Stands.awaits_idle {j : Nat} (h : Stands lx ks I allowed p (spaces j ++ r) m)
    (hr : AtToken r) (hp : allowed = true → p = none) (hidle : Idle m p) :
    ∃ q, Awaits lx ks I allowed q r (m.past (spaces j)) ∧ (allowed = true → q = none) ∧
      Idle (m.past (spaces j)) q := by
  refine ⟨_, h.awaits_line hr (hidle.droppable _), fun hallowed => ?_, (hidle.past _).keepFresh⟩
  rw [hp hallowed]
  rfl

/-- What may follow a closing quote: a second one would belong to the text. -/
def PastQuote (tail : List Char) : Prop := tail.head? ≠ some '\''

theorem AtColon.pastQuote {tail : List Char} (h : AtColon tail) : PastQuote tail := by
  obtain ⟨r, rfl, -⟩ := h
  simp [PastQuote]

theorem pastQuote_filler {line : List Char} (h : IsFiller line) (tail : List Char) :
    PastQuote (line ++ '\n' :: tail) := by
  obtain ⟨k, comment, rfl, hcomment⟩ := h
  cases k with
  | succ k => simp [PastQuote, spaces_succ]
  | zero => obtain rfl | ⟨cs, rfl, hcs⟩ := hcomment <;> simp [PastQuote, spaces]

/-- Tokens on one line, with nothing but a comment after them. -/
theorem Inline.places {ok : Prop} {stop : List Char → Prop} {w line : List Char}
    {kinds : List TokenKind} (h : Inline ok stop w kinds) (hw : ∀ tail, AtToken (w ++ tail))
    (hline : IsFiller line) (hstop : ∀ tail, stop (line ++ '\n' :: tail))
    (may : List (List Char) → Prop) (start : Option Nat) (j : Nat) :
    Places ok may I start allowed (spaces j ++ (w ++ (line ++ ['\n']))) kinds := by
  intro lx ks p lines k r m hstands hI _ hp hidle hlines _ hr _
  have htext : spaces j ++ (w ++ (line ++ ['\n'])) ++ (fill lines ++ (spaces k ++ r)) =
      spaces j ++ (w ++ (fill (line :: lines) ++ (spaces k ++ r))) := by
    simp
  rw [htext] at hstands
  obtain ⟨q, hawaits, hq, hidle⟩ := hstands.awaits_idle (hw _) hp hidle
  have hdeeper := hI.past (not_break_spaces j)
  have hstop' : stop (fill (line :: lines) ++ (spaces k ++ r)) := by
    rw [fill_cons, List.append_assoc]
    exact hstop _
  have hsaved : Idle _ (saved ks _ allowed _ _) := hidle.saved hdeeper
  refine (h.sure hawaits hdeeper.within hq hstop' (hsaved.droppable _)).reaches fun after hafter => .refl ?_
  obtain ⟨last, hlast, hcolumn⟩ := hafter.awaits_newLine
    (fun l hl => (List.mem_cons.1 hl).elim (fun he => he ▸ hline) (hlines l))
    (List.cons_ne_nil _ _) hr (hsaved.past w).keepFresh
  exact ⟨last, hlast, fun _ => hcolumn⟩

/-- Nothing but a comment. -/
theorem places_absent {line : List Char} (hline : IsFiller line) (may : List (List Char) → Prop)
    (start : Option Nat) : Places True may I start allowed (line ++ ['\n']) [] := by
  intro lx ks p lines k r m hstands _ _ _ hidle hlines _ hr _
  have htext : line ++ ['\n'] ++ (fill lines ++ (spaces k ++ r)) =
      fill (line :: lines) ++ (spaces k ++ r) := by
    simp
  rw [htext] at hstands
  obtain ⟨last, hlast, hcolumn⟩ := hstands.awaits_newLine
    (fun l hl => (List.mem_cons.1 hl).elim (fun he => he ▸ hline) (hlines l))
    (List.cons_ne_nil _ _) hr hidle
  exact Reaches.sure (.refl ⟨last, (List.append_nil ks).symm ▸ hlast, fun _ => hcolumn⟩)

/-- Tokens on one line, such as a tag, before a value. -/
theorem Inline.before {first second : Prop} {stop : List Char → Prop} {v w : List Char}
    {ks₁ ks₂ : List TokenKind} {may : List (List Char) → Prop} (hfirst : Inline first stop v ks₁)
    (hsecond : Places second may I none false w ks₂) (hv : ∀ c ∈ v, isBreak c = false)
    (hhead : ∀ tail, AtToken (v ++ tail)) (hstop : ∀ tail, stop (w ++ tail)) (start : Option Nat)
    (j : Nat) : Places (first ∧ second) may I start allowed (spaces j ++ (v ++ w)) (ks₁ ++ ks₂) := by
  intro lx ks p lines k r m hstands hI _ hp hidle hlines hmay hr hk
  rw [List.append_assoc, List.append_assoc] at hstands
  obtain ⟨q, hawaits, hq, hidle⟩ := hstands.awaits_idle (hhead _) hp hidle
  have hdeeper := hI.past (not_break_spaces j)
  have hsaved : Idle _ (saved ks _ allowed _ _) := hidle.saved hdeeper
  refine (hfirst.sure hawaits hdeeper.within hq (hstop _) (hsaved.droppable _)).bind fun after hafter => ?_
  rw [← List.append_assoc]
  exact hsecond hafter (hdeeper.past hv) (fun _ hc => nomatch hc) (fun h => nomatch h)
    (hsaved.past v).keepFresh hlines hmay hr hk

theorem Places.mono {ok : Prop} {may only : List (List Char) → Prop} {start : Option Nat}
    {w : List Char} {kinds : List TokenKind} (h : Places ok may I start allowed w kinds)
    (hmay : ∀ lines, only lines → may lines) : Places ok only I start allowed w kinds :=
  fun hstands hI hstart hp hidle hlines hmore hr hk =>
    h hstands hI hstart hp hidle hlines (hmay _ hmore) hr hk

end Lexer

end GrammarProfile.Yaml
