import GrammarProfile.Proofs.Tokens

/-!
Reading lists and mappings in block form from what is known of their parts.
-/
namespace GrammarProfile.Yaml.Lexer

variable {lx : Lexer} {ks ks₁ ks₂ kinds : List TokenKind} {I : List Nat} {allowed opened : Bool}
  {ok first second : Prop} {may before : List (List Char) → Prop} {column : Nat}
  {start : Option Nat} {kind : TokenKind} {v w : List Char} {lines : List (List Char)}

/-- Parts of a collection in a column, read from the first token of the first of them to the next
part of this collection or of one around it. -/
def Parts (ok : Prop) (may : List (List Char) → Prop) (I : List Nat) (column : Nat) (opened : Bool)
    (kind : TokenKind) (w : List Char) (kinds : List TokenKind) : Prop :=
  ∀ {lx : Lexer} {ks : List TokenKind} {lines : List (List Char)} {k : Nat} {r : List Char} {m : Mark},
    Awaits lx ks (columns opened column I) true none (w ++ (fill lines ++ (spaces k ++ r))) m →
    m.column = column → Deeper I column → (∀ line ∈ lines, IsFiller line) → may lines → AtToken r →
    NextPart (column :: I) k r →
    lx.Outcome ok fun after => ∃ last,
      Awaits after (ks ++ opening opened kind ++ kinds) (column :: I) true none r last ∧
        (r ≠ [] → last.column = k)

theorem deeper_cons (h : column < k) : Deeper (column :: I) k :=
  fun _ hn => Option.some.inj hn ▸ h

theorem column_past_one {c : Char} (hc : isBreak c = false) (m : Mark) :
    (m.past [c]).column = m.column + 1 := by
  rw [Mark.past_of_not_break (by simpa using hc)]
  rfl

/-- An entry of a list. -/
theorem parts_entry (h : Places ok may (column :: I) (some (column + 1)) true w kinds)
    (hw : ∀ tail, AtGap (w ++ tail)) :
    Parts ok may I column opened .blockSequence ('-' :: w) (.entry :: kinds) := by
  intro lx ks lines k r m hawaits hcolumn hI hlines hmay hr hk
  subst hcolumn
  refine (hawaits.dash hI (hw _)).outcome fun after hafter => ?_
  have hpast := column_past_one (c := '-') rfl m
  refine (h hafter (deeper_cons (by omega)) (fun c hc => Option.some.inj hc ▸ hpast) (fun _ => rfl)
    (idle_none _) hlines hmay hr hk).mono fun last hlast => ?_
  simpa using hlast

/-- A pair whose key stands before its colon. -/
theorem parts_pair (hkey : Inline first AtColon v ks₁) (hv : ∀ c ∈ v, isBreak c = false)
    (hvalue : Places second may (column :: I) none false w ks₂)
    (hw : ∀ tail, AtGap (w ++ tail)) :
    Parts ((first ∧ v.length ≤ longestKey) ∧ second) may I column opened .blockMapping (v ++ ':' :: w)
      (.key :: ks₁ ++ .value :: ks₂) := by
  intro lx ks lines k r m hawaits hcolumn hI hlines hmay hr hk
  rw [List.append_assoc, List.cons_append] at hawaits
  refine (hkey.key hv hawaits hcolumn hI (hw _)).bind fun after hafter => ?_
  have hbreaks : ∀ c ∈ v ++ [':'], isBreak c = false := by
    intro c hc
    rcases List.mem_append.1 hc with hc | hc
    · exact hv c hc
    · exact List.mem_singleton.1 hc ▸ rfl
  have hdeeper : Deeper (column :: I) (m.past (v ++ [':'])).column := by
    rw [Mark.past_of_not_break hbreaks]
    refine deeper_cons ?_
    rw [List.length_append, List.length_singleton]
    dsimp only
    omega
  refine (hvalue hafter hdeeper (fun _ hc => nomatch hc) (fun h => nomatch h) (idle_none _) hlines
    hmay hr hk).mono fun last hlast => ?_
  simpa using hlast

/-- A pair whose key and value stand after marks. -/
theorem parts_marked (hkey : Places first before (column :: I) (some (column + 1)) true v ks₁)
    (hvalue : Places second may (column :: I) (some (column + 1)) true w ks₂)
    (hv : ∀ tail, AtGap (v ++ tail)) (hw : ∀ tail, AtGap (w ++ tail))
    (hbetween : ∀ line ∈ lines, IsFiller line) (hbefore : before lines) :
    Parts (first ∧ second) may I column opened .blockMapping
      ('?' :: (v ++ (fill lines ++ (spaces column ++ ':' :: w)))) (.key :: ks₁ ++ .value :: ks₂) := by
  intro lx ks after k r m hawaits hcolumn hI hlines hmay hr hk
  subst hcolumn
  have htext : '?' :: (v ++ (fill lines ++ (spaces m.column ++ ':' :: w))) ++
      (fill after ++ (spaces k ++ r)) =
        '?' :: (v ++ (fill lines ++ (spaces m.column ++ ':' :: (w ++ (fill after ++ (spaces k ++ r)))))) := by
    simp
  rw [htext] at hawaits
  refine (hawaits.mark hI (hv _)).outcome fun marked hmarked => ?_
  have hpast := column_past_one (c := '?') rfl m
  have hnext : NextPart (m.column :: I) m.column (':' :: (w ++ (fill after ++ (spaces k ++ r)))) :=
    ⟨fun _ => ⟨_, rfl, Nat.le_refl _⟩, fun h => nomatch h⟩
  refine (hkey hmarked (deeper_cons (by omega)) (fun c hc => Option.some.inj hc ▸ hpast)
    (fun _ => rfl) (idle_none _) hbetween hbefore (atToken_cons (by decide) _) hnext).bind
      fun keyed ⟨here, hkeyed, hhere⟩ => ?_
  have hcolumn := hhere (List.cons_ne_nil _ _)
  rw [← hcolumn] at hkeyed hI
  refine (hkeyed.markColon hI (hw _)).outcome fun marked hmarked => ?_
  rw [hcolumn] at hmarked
  have hpast := column_past_one (c := ':') rfl here
  refine (hvalue hmarked (deeper_cons (by omega)) (fun c hc => Option.some.inj hc ▸ by omega)
    (fun _ => rfl) (idle_none _) hlines hmay hr hk).mono fun last hlast => ?_
  simpa using hlast

/-- Further parts, after lines without a token. -/
theorem Parts.append (hfirst : Parts first before I column opened kind v ks₁)
    (hrest : Parts second may I column true kind w ks₂) (hw : ∀ tail, AtToken (w ++ tail))
    (hne : w ≠ []) (hbetween : ∀ line ∈ lines, IsFiller line) (hbefore : before lines) :
    Parts (first ∧ second) may I column opened kind (v ++ (fill lines ++ (spaces column ++ w)))
      (ks₁ ++ ks₂) := by
  intro lx ks after k r m hawaits hcolumn hI hlines hmay hr hk
  have htext : v ++ (fill lines ++ (spaces column ++ w)) ++ (fill after ++ (spaces k ++ r)) =
      v ++ (fill lines ++ (spaces column ++ (w ++ (fill after ++ (spaces k ++ r))))) := by
    simp
  rw [htext] at hawaits
  have hne' : w ++ (fill after ++ (spaces k ++ r)) ≠ [] := List.append_ne_nil_of_left_ne_nil hne _
  have hnext : NextPart (column :: I) column (w ++ (fill after ++ (spaces k ++ r))) :=
    ⟨fun _ => ⟨_, rfl, Nat.le_refl _⟩, fun h => absurd h hne'⟩
  refine (hfirst hawaits hcolumn hI hbetween hbefore (hw _) hnext).bind
    fun middle ⟨here, hmiddle, hhere⟩ => ?_
  refine (hrest hmiddle (hhere hne') hI hlines hmay hr hk).mono fun last hlast => ?_
  simpa [opening] using hlast

theorem NextPart.inside {k : Nat} {r : List Char} (h : NextPart I k r) (hI : Deeper I column) :
    NextPart (column :: I) k r ∧ (r ≠ [] → k < column) := by
  have hlt : r ≠ [] → k < column := by
    intro hr
    obtain ⟨n, hn, hk⟩ := h.within hr
    exact Nat.lt_of_le_of_lt hk (hI n hn)
  exact ⟨⟨fun hr => ⟨column, rfl, Nat.le_of_lt (hlt hr)⟩, h.last⟩, hlt⟩

/-- The parts of a collection that nothing stands before, and its end. -/
theorem Parts.whole (h : Parts ok may I column false kind w kinds) {k : Nat} {r : List Char} {m : Mark}
    (hawaits : Awaits lx ks I true none (w ++ (fill lines ++ (spaces k ++ r))) m)
    (hcolumn : m.column = column) (hI : Deeper I column) (hlines : ∀ line ∈ lines, IsFiller line)
    (hmay : may lines) (hr : AtToken r) (hk : NextPart I k r) :
    lx.Outcome ok fun after => ∃ last,
      Awaits after (ks ++ (kind :: kinds ++ [.blockEnd])) I true none r last ∧
        (r ≠ [] → last.column = k) := by
  obtain ⟨hinside, hleft⟩ := hk.inside hI
  refine (h hawaits hcolumn hI hlines hmay hr hinside).mono fun after ⟨last, hlast, hend⟩ => ?_
  have hleft' : r = [] ∨ last.column < column := by
    by_cases hnil : r = []
    · exact .inl hnil
    · exact .inr (hend hnil ▸ hleft hnil)
  exact ⟨last, by simpa [opening] using hlast.close hleft', hend⟩

/-- A collection that begins in the line of the indicator before it. -/
theorem Parts.places_line {j : Nat} (h : Parts ok may I (column + j) false kind w kinds)
    (hw : ∀ tail, AtToken (w ++ tail)) :
    Places ok may I (some column) true (spaces j ++ w) (kind :: kinds ++ [.blockEnd]) := by
  intro lx ks p lines k r m hstands hI hstart hp _ hlines hmay hr hk
  obtain rfl := hp rfl
  have hcolumn : (m.past (spaces j)).column = column + j := by
    rw [Mark.past_spaces]
    exact congrArg (· + j) (hstart column rfl)
  have hdeeper := hI.past (not_break_spaces j)
  rw [hcolumn] at hdeeper
  rw [List.append_assoc] at hstands
  exact h.whole (hstands.awaits_line (hw _) (droppable_none _)) hcolumn hdeeper hlines hmay hr hk

/-- A new line with the first part of a collection. -/
theorem Stands.awaits_parts {p : Option PendingKey} {tail : List Char} {m : Mark}
    (h : Stands lx ks I allowed p (fill lines ++ (spaces column ++ w) ++ tail) m)
    (hlines : ∀ line ∈ lines, IsFiller line) (hne : lines ≠ []) (hw : ∀ tail, AtToken (w ++ tail))
    (hidle : Idle m p) :
    ∃ here, Awaits lx ks I true none (w ++ tail) here ∧ here.column = column := by
  rw [List.append_assoc, List.append_assoc] at h
  exact h.awaits_newLine hlines hne (hw _) hidle

/-- A collection that begins in a new line. -/
theorem Parts.places_newLine (h : Parts ok may I column false kind w kinds) (hI : Deeper I column)
    (hw : ∀ tail, AtToken (w ++ tail)) (hbetween : ∀ line ∈ lines, IsFiller line) (hne : lines ≠ [])
    (start : Option Nat) : Places ok may I start allowed (fill lines ++ (spaces column ++ w))
      (kind :: kinds ++ [.blockEnd]) := by
  intro lx ks p after k r m hstands _ _ _ hidle hlines hmay hr hk
  obtain ⟨here, hawaits, hcolumn⟩ := hstands.awaits_parts hbetween hne hw hidle
  exact h.whole hawaits hcolumn hI hlines hmay hr hk

/-- A list at the indentation of the mapping around it. -/
theorem Parts.places_indentless (h : Parts ok may I column true kind w kinds) (hI : Deeper I column)
    (hw : ∀ tail, AtToken (w ++ tail)) (hbetween : ∀ line ∈ lines, IsFiller line) (hne : lines ≠ [])
    (start : Option Nat) : Places ok may (column :: I) start allowed
      (fill lines ++ (spaces column ++ w)) kinds := by
  intro lx ks p after k r m hstands _ _ _ hidle hlines hmay hr hk
  obtain ⟨here, hawaits, hcolumn⟩ := hstands.awaits_parts hbetween hne hw hidle
  refine (h hawaits hcolumn hI hlines hmay hr hk).mono fun last hlast => ?_
  simpa [opening] using hlast

end GrammarProfile.Yaml.Lexer
