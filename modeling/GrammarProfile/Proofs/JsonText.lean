import Mathlib.Data.List.Forall2
import GrammarProfile.Proofs.QuotedText
import GrammarProfile.Proofs.Trees
import GrammarProfile.Text.Json
import GrammarProfile.Text.Names

/-!
JSON in YAML texts: strings, and lists of strings in brackets. A key that may be pending between
brackets is never required, so that nothing goes wrong there.
-/
namespace GrammarProfile.Yaml.Lexer

/-! ## Keys that can be given up -/

/-- A key that may be pending and is not required. -/
def Lenient (p : Option PendingKey) : Prop := ∀ key ∈ p, key.required = false

theorem lenient_none : Lenient none := fun _ h => nomatch h

theorem Lenient.droppable {p : Option PendingKey} (h : Lenient p) (m : Mark) : Droppable m p :=
  fun key hkey _ => h key hkey

theorem Lenient.keepFresh {p : Option PendingKey} (h : Lenient p) (m : Mark) :
    Lenient (Lexer.keepFresh m p) :=
  fun key hkey => h key (mem_of_mem_keepFresh hkey)

theorem Idle.lenient {p : Option PendingKey} {m : Mark} (h : Idle m p) : Lenient p :=
  fun key hkey => (h key hkey).1

theorem Lenient.dropKey {lx : Lexer} (h : Lenient lx.pending) :
    lx.dropKey = .ok { lx with pending := none } := by
  unfold Lexer.dropKey
  cases hp : lx.pending with
  | none => rfl
  | some key => rw [Option.any_some, h key hp, if_neg Bool.false_ne_true]

/-! ## Tokens between brackets -/

variable {lx : Lexer} {ks : List TokenKind} {I : List Nat} {allowed : Bool}
  {p q : Option PendingKey} {r tail : List Char} {m : Mark} {k : Nat}

/-- The next token between brackets. -/
theorem advance_flow {ts : List Token} {n : Nat} (hr : AtToken r) (hp : Lenient p) (hq : Lenient q) :
    advance ⟨⟨spaces k ++ r, m⟩, ts, n, I, allowed, p, [q]⟩ =
      (token ⟨⟨r, m.past (spaces k)⟩, ts, n, I, allowed, keepFresh (m.past (spaces k)) p,
        [keepFresh (m.past (spaces k)) q]⟩).bind dropStale := by
  have hskip := @skipGaps_spaces ⟨⟨spaces k ++ r, m⟩, ts, n, I, allowed, p, [q]⟩ k r m rfl hr
    (spaces k ++ r).length
  unfold advance
  rw [hskip, dropStale_flow (hp.droppable _) (hq.droppable _)]
  simp only [inFlow, List.isEmpty_cons, Bool.not_false, if_true]
  cases token _ <;> rfl

/-- A state between brackets, where no key is required. -/
def Bracketed (lx : Lexer) (ks : List TokenKind) (I : List Nat) (allowed : Bool) (r : List Char)
    (m : Mark) : Prop :=
  ∃ p q, Lenient p ∧ Idle m q ∧ InFlow lx ks I allowed p q r m

/-- A token that is read between brackets. -/
theorem Bracketed.step {w : List Char} {kind : TokenKind} {next : Bool} (hw : w ≠ [])
    (hkind : kind ≠ .streamEnd) (h : Bracketed lx ks I allowed (spaces k ++ (w ++ tail)) m)
    (hhead : AtToken (w ++ tail))
    (htoken : ∀ (m : Mark) (ts : List Token) (p q : Option PendingKey), Lenient p →
      ∃ pending, Lenient pending ∧
        token ⟨⟨w ++ tail, m⟩, ts, ts.length, I, allowed, p, [q]⟩ =
          .ok ⟨⟨tail, m.past w⟩, ⟨kind, m⟩ :: ts, ts.length + 1, I, next, pending, [q]⟩) :
    lx.Reaches fun after =>
      Bracketed after (ks ++ [kind]) I next tail (m.past (spaces k ++ w)) := by
  obtain ⟨p, q, hp, hq, ts, hks, rfl⟩ := h
  have hmark : m.past (spaces k ++ w) = (m.past (spaces k)).past w := Mark.past_append ..
  obtain ⟨pending, hpending, hread⟩ := htoken (m.past (spaces k)) ts (keepFresh (m.past (spaces k)) p)
    (keepFresh (m.past (spaces k)) q) (hp.keepFresh _)
  have hadvance := @advance_flow I allowed p q (w ++ tail) m k ts ts.length hhead hp hq.lenient
  rw [hread, ← hmark] at hadvance
  refine ⟨_, .single ⟨hadvance.trans (dropStale_flow (hpending.droppable _)
    ((hq.lenient.keepFresh _).droppable _)), ?_, ?_⟩, _, _, hpending.keepFresh _,
    ((hq.keepFresh).past _).keepFresh, ⟨kind, m.past (spaces k)⟩ :: ts, by simp [← hks], rfl⟩
  · have hpos := List.length_pos_iff.2 hw
    simp only [List.length_append]
    omega
  · simp [kinds, hkind.symm]

/-- A text between quotes, where a key may begin. -/
theorem Bracketed.quoted {single : Bool} {w cs : List Char} (hw : Quoted.Written single .run w cs)
    (h : Bracketed lx ks I true (spaces k ++ (quote single :: (w ++ [quote single]) ++ tail)) m)
    (htail : PastQuote tail) : lx.Reaches fun after =>
      Bracketed after (ks ++ [.scalar (String.ofList cs) false]) I false tail
        (m.past (spaces k ++ quote single :: (w ++ [quote single]))) := by
  refine h.step (List.cons_ne_nil _ _) (by simp) (atToken_quote _) fun m ts p q hp => ?_
  refine ⟨some ⟨false, ts.length, m⟩, fun key hkey => Option.some.inj hkey ▸ rfl, ?_⟩
  have htext : quote single :: (w ++ [quote single]) ++ tail =
      quote single :: (w ++ quote single :: tail) := by
    simp
  have htoken : token ⟨⟨quote single :: (w ++ quote single :: tail), m⟩, ts, ts.length, I, true, p,
      [q]⟩ = quotedScalar ⟨⟨quote single :: (w ++ quote single :: tail), m⟩, ts, ts.length, I, true,
        p, [q]⟩ single := by
    cases single <;> simp [token, quote, Cursor.next?, Cursor.atMarker, List.isPrefixOf]
  rw [htext, htoken, quotedScalar, keyToken, saveKey, if_pos rfl, hp.dropKey]
  simp only [Quoted.scan_written hw htail, inFlow, emit, emitAt]
  rfl

/-- The comma after a text. -/
theorem Bracketed.comma (h : Bracketed lx ks I allowed (',' :: tail) m) : lx.Reaches fun after =>
    Bracketed after (ks ++ [.flowEntry]) I true tail (m.past [',']) := by
  refine @step lx ks I allowed tail m 0 [','] .flowEntry true (List.cons_ne_nil _ _) (by simp) h
    (atToken_cons (by decide) _) fun m ts p q hp => ?_
  refine ⟨none, lenient_none, ?_⟩
  have htoken : token ⟨⟨',' :: tail, m⟩, ts, ts.length, I, allowed, p, [q]⟩ =
      plainToken ⟨⟨',' :: tail, m⟩, ts, ts.length, I, allowed, p, [q]⟩ .flowEntry true 1 := by
    simp [token, Cursor.next?, Cursor.atMarker, List.isPrefixOf]
  rw [List.singleton_append, htoken, plainToken, hp.dropKey]
  simp only [emitSkip, emit, emitAt, Cursor.skip_one (by decide : isBreak ',' = false)]

/-- The bracket that closes a list. -/
theorem Bracketed.close (h : Bracketed lx ks I allowed (']' :: tail) m) : lx.Reaches fun after =>
    ∃ q, Idle (m.past [']']) q ∧
      Stands after (ks ++ [.flowSequenceEnd]) I false q tail (m.past [']']) := by
  obtain ⟨p, q, hp, hq, ts, hks, rfl⟩ := h
  have hadvance := @advance_flow I allowed p q (']' :: tail) m 0 ts ts.length
    (atToken_cons (by decide) _) hp hq.lenient
  have hclose : closeFlow ⟨⟨']' :: tail, m⟩, ts, ts.length, I, allowed, keepFresh m p, [keepFresh m q]⟩
      .flowSequenceEnd = .ok ⟨⟨tail, m.past [']']⟩, ⟨.flowSequenceEnd, m⟩ :: ts, ts.length + 1, I,
        false, keepFresh m q, []⟩ := by
    rw [closeFlow, plainToken, (hp.keepFresh m).dropKey]
    simp only [emitSkip, emit, emitAt, Cursor.skip_one (by decide : isBreak ']' = false)]
  rw [show m.past (spaces 0) = m from rfl, token_closeBracket, hclose] at hadvance
  refine ⟨_, .single ⟨hadvance.trans (dropStale_eq rfl ((hq.lenient.keepFresh m).droppable _)), ?_, ?_⟩,
    _, (hq.keepFresh.past [']']).keepFresh, ⟨.flowSequenceEnd, m⟩ :: ts, by simp [← hks], rfl⟩
  · simp
  · simp [kinds]

/-! ## Lists -/

/-- Texts with commas between them. -/
def withCommas : List (List Char) → List Char
  | [] => []
  | w :: rest => w ++ rest.flatMap (", ".toList ++ ·)

/-- A text between double quotes. -/
def Quotes (w : List Char) (s : String) : Prop :=
  ∃ body, w = quote false :: (body ++ [quote false]) ∧ Quoted.Written false .run body s.toList

theorem Bracketed.text {w : List Char} {s : String} (hw : Quotes w s)
    (h : Bracketed lx ks I true (spaces k ++ (w ++ tail)) m) (htail : PastQuote tail) :
    lx.Reaches fun after =>
      Bracketed after (ks ++ [.scalar s false]) I false tail (m.past (spaces k ++ w)) := by
  obtain ⟨body, rfl, hbody⟩ := hw
  have htext := h.quoted hbody htail
  rwa [String.ofList_toList] at htext

/-- The texts after the first one. -/
theorem Bracketed.rest {ws : List (List Char)} {texts : List String} (hws : List.Forall₂ Quotes ws texts)
    (h : Bracketed lx ks I false (ws.flatMap (", ".toList ++ ·) ++ ']' :: tail) m) :
    lx.Reaches fun after => Bracketed after
      (ks ++ texts.flatMap fun s => [.flowEntry, .scalar s false]) I false (']' :: tail)
      (m.past (ws.flatMap (", ".toList ++ ·))) := by
  induction hws generalizing lx ks m with
  | nil =>
      refine .refl ?_
      simpa using h
  | @cons w s ws texts hw hws ih =>
      have htext : (w :: ws).flatMap (", ".toList ++ ·) ++ ']' :: tail =
          ',' :: (spaces 1 ++ (w ++ (ws.flatMap (", ".toList ++ ·) ++ ']' :: tail))) := by
        simp [spaces]
      rw [htext] at h
      have htail : PastQuote (ws.flatMap (", ".toList ++ ·) ++ ']' :: tail) := by
        cases ws <;> simp [PastQuote]
      refine h.comma.trans fun first hfirst => (hfirst.text hw htail).trans fun second hsecond =>
        (ih hsecond).mono fun last hlast => ?_
      have hmark : ((m.past [',']).past (spaces 1 ++ w)).past (ws.flatMap (", ".toList ++ ·)) =
          m.past ((w :: ws).flatMap (", ".toList ++ ·)) := by
        rw [← Mark.past_append, ← Mark.past_append, List.flatMap_cons]
        rfl
      rw [hmark] at hlast
      simpa using hlast

/-- All texts of a list. -/
theorem Bracketed.texts {ws : List (List Char)} {texts : List String} (hws : List.Forall₂ Quotes ws texts)
    (h : Bracketed lx ks I true (withCommas ws ++ ']' :: tail) m) :
    lx.Reaches fun after => ∃ next, Bracketed after (ks ++ Tree.flowKinds texts) I next (']' :: tail)
      (m.past (withCommas ws)) := by
  cases hws with
  | nil => exact .refl ⟨true, by simpa [Tree.flowKinds, withCommas] using h⟩
  | @cons w s ws texts hw hws =>
      rw [withCommas, List.append_assoc] at h
      have htail : PastQuote (ws.flatMap (", ".toList ++ ·) ++ ']' :: tail) := by
        cases ws <;> simp [PastQuote]
      refine (Bracketed.text (k := 0) hw h htail).trans fun first hfirst =>
        (hfirst.rest hws).mono fun last hlast => ⟨false, ?_⟩
      rw [show spaces 0 ++ w = w from rfl, ← Mark.past_append, List.append_assoc] at hlast
      exact hlast

/-- A list of texts in brackets at the end of its line. -/
theorem places_flow {ws : List (List Char)} {texts : List String} (hws : List.Forall₂ Quotes ws texts)
    {line : List Char} (hline : IsFiller line) (may : List (List Char) → Prop) (start : Option Nat)
    (j : Nat) : Places True may I start allowed
      (spaces j ++ ('[' :: (withCommas ws ++ ']' :: (line ++ ['\n']))))
      (Tree.flow texts).kinds := by
  intro lx ks p lines k r m hstands hI _ hp hidle hlines _ hr _
  have htext : spaces j ++ ('[' :: (withCommas ws ++ ']' :: (line ++ ['\n']))) ++
      (fill lines ++ (spaces k ++ r)) =
      spaces j ++ ('[' :: (withCommas ws ++ ']' :: (fill (line :: lines) ++ (spaces k ++ r)))) := by
    simp
  rw [htext] at hstands
  obtain ⟨q, hawaits, hq, hidle⟩ := hstands.awaits_idle (atToken_cons (by decide) _) hp hidle
  have hdeeper := hI.past (not_break_spaces j)
  have hsaved : Idle _ (saved ks _ allowed _ _) := hidle.saved hdeeper
  refine ((hawaits.openFlow (by decide) (by decide) (fun _ _ => token_openBracket) hdeeper.within hq).congr
    (iff_true_intro (hsaved.droppable _))).reaches fun first hfirst => ?_
  have hbracketed : Bracketed first _ _ true _ _ :=
    ⟨none, _, lenient_none, (hsaved.past ['[']).keepFresh, hfirst⟩
  refine (hbracketed.texts hws).trans ?_
  rintro second ⟨next, hsecond⟩
  refine hsecond.close.trans ?_
  rintro third ⟨q', hq', hthird⟩
  obtain ⟨last, hlast, hcolumn⟩ := hthird.awaits_newLine
    (fun l hl => (List.mem_cons.1 hl).elim (fun he => he ▸ hline) (hlines l))
    (List.cons_ne_nil _ _) hr hq'
  refine .refl ⟨last, ?_, fun _ => hcolumn⟩
  rw [Tree.kinds]
  simpa using hlast

end GrammarProfile.Yaml.Lexer

namespace GrammarProfile.Yaml

/-! ## Strings -/

/-- A character that may stand inside a line. -/
def isInLine (c : Char) : Bool := isAllowed c && !isBreak c

/-- Characters of one line. -/
def InLine (cs : List Char) : Prop := ∀ c ∈ cs, isInLine c = true

-- Of the characters of the list alone: what is said of all characters can be decided too.
instance (cs : List Char) : Decidable (InLine cs) :=
  List.decidableBAll (isInLine · = true) cs

theorem inLine_nil : InLine [] := fun _ h => absurd h List.not_mem_nil

@[simp] theorem inLine_cons {c : Char} {cs : List Char} :
    InLine (c :: cs) ↔ isInLine c = true ∧ InLine cs := List.forall_mem_cons

@[simp] theorem inLine_append {v w : List Char} : InLine (v ++ w) ↔ InLine v ∧ InLine w :=
  List.forall_mem_append

theorem inLine_flatMap {α : Type} {xs : List α} {f : α → List Char} (h : ∀ x ∈ xs, InLine (f x)) :
    InLine (xs.flatMap f) := by
  intro c hc
  obtain ⟨x, hx, hc⟩ := List.mem_flatMap.1 hc
  exact h x hx c hc

theorem InLine.not_break {cs : List Char} (h : InLine cs) : ∀ c ∈ cs, isBreak c = false := by
  intro c hc
  have := h c hc
  simp only [isInLine, Bool.and_eq_true, Bool.not_eq_true'] at this
  exact this.2

/-- A character that a JSON string holds so that it is read as itself: one that is escaped there, or
one that may stand inside a line. -/
def isQuotable (c : Char) : Bool := c.toNat < 0x20 || isInLine c

/-- A text that is read as itself from a JSON string. -/
def IsQuotable (s : String) : Prop := ∀ c ∈ s.toList, isQuotable c = true

instance (s : String) : Decidable (IsQuotable s) :=
  List.decidableBAll (isQuotable · = true) s.toList

theorem isQuotable_of_inLine {c : Char} (h : isInLine c = true) : isQuotable c = true := by
  rw [isQuotable, h, Bool.or_true]

theorem isQuotable_append {s t : String} : IsQuotable (s ++ t) ↔ IsQuotable s ∧ IsQuotable t := by
  rw [IsQuotable, String.toList_append]
  exact List.forall_mem_append

theorem InLine.isQuotable {s : String} (h : InLine s.toList) : IsQuotable s :=
  fun c hc => isQuotable_of_inLine (h c hc)

theorem hexValue?_hexDigit : ∀ n < 0x20,
    hexValue? ['0', '0', Text.hexDigit (n / 16), Text.hexDigit n] = some n := by decide

theorem isBreak_hexDigit (n : Nat) : isBreak (Text.hexDigit n) = false := by
  have hdigits : ∀ d < 16, isBreak (Nat.digitChar d) = false := by decide
  exact hdigits _ (Nat.mod_lt n (by decide))

theorem piece_jsonChar {c : Char} (h : isQuotable c = true) (hc : c ≠ ' ') :
    Quoted.IsPiece false (Text.jsonChar c) c := by
  unfold Text.jsonChar
  split
  · exact Quoted.piece_named (by decide) rfl
  · exact Quoted.piece_named (by decide) rfl
  · exact Quoted.piece_named (by decide) rfl
  · exact Quoted.piece_named (by decide) rfl
  · exact Quoted.piece_named (by decide) rfl
  · exact Quoted.piece_named (by decide) rfl
  · exact Quoted.piece_named (by decide) rfl
  · next hquote hslash _ _ _ _ _ =>
    split
    · next hlow =>
      refine Quoted.piece_coded (rfl : escapeMeaning? 'u' = some (.inr 4)) (by decide) rfl ?_
        (hexValue?_hexDigit _ hlow)
      simp [isBreak_hexDigit]
      decide
    · next hlow =>
      rw [isQuotable, Bool.or_eq_true, decide_eq_true_eq, isInLine, Bool.and_eq_true] at h
      obtain ⟨-, hbreak⟩ := h.resolve_left hlow
      refine Quoted.piece_double ?_ hquote hslash
      have htab : c ≠ '\t' := fun he => hlow (he ▸ by decide)
      have hnull : c ≠ '\x00' := fun he => hlow (he ▸ by decide)
      simpa [isGap, isSpacing, hc, htab, hnull] using hbreak

variable {s : String} {texts : List String}

theorem quotes_jsonString (h : IsQuotable s) :
    Lexer.Quotes (Text.jsonString s).toList s := by
  refine ⟨s.toList.flatMap Text.jsonChar, String.toList_ofList, ?_⟩
  exact Quoted.written_pieces (by decide) (fun c hc => piece_jsonChar (h c hc)) (.inl rfl)

theorem isInLine_hexDigit (n : Nat) : isInLine (Text.hexDigit n) = true := by
  have hdigits : ∀ d < 16, isInLine (Nat.digitChar d) = true := by decide
  exact hdigits _ (Nat.mod_lt n (by decide))

theorem inLine_jsonChar {c : Char} (h : isQuotable c = true) : InLine (Text.jsonChar c) := by
  unfold Text.jsonChar
  split
  iterate 7 exact (by decide)
  split
  · simp only [inLine_cons, isInLine_hexDigit]
    exact ⟨by decide, by decide, by decide, by decide, trivial, trivial, inLine_nil⟩
  · next hlow =>
    rw [isQuotable, Bool.or_eq_true, decide_eq_true_eq] at h
    exact inLine_cons.2 ⟨h.resolve_left hlow, inLine_nil⟩

theorem inLine_jsonString (h : IsQuotable s) :
    InLine (Text.jsonString s).toList := by
  have hbody := inLine_flatMap fun c hc => inLine_jsonChar (h c hc)
  simp only [Text.jsonString, String.toList_ofList, inLine_cons, inLine_append]
  exact ⟨by decide, hbody, by decide, inLine_nil⟩

/-! ## Parts with commas between them -/

theorem toList_commaSeparated (parts : List String) :
    (Text.commaSeparated parts).toList = Lexer.withCommas (parts.map String.toList) := by
  rw [Text.commaSeparated, String.toList_intercalate]
  cases parts with
  | nil => rfl
  | cons part rest =>
      induction rest generalizing part with
      | nil => simp [Lexer.withCommas]
      | cons next rest ih =>
          have hrest := ih next
          simp only [List.map_cons, Lexer.withCommas, List.flatMap_cons] at hrest ⊢
          rw [List.intercalate_cons_cons, hrest, List.append_assoc, List.append_assoc]

theorem inLine_withCommas {ws : List (List Char)} (h : ∀ w ∈ ws, InLine w) :
    InLine (Lexer.withCommas ws) := by
  cases ws with
  | nil => exact inLine_nil
  | cons w rest =>
      rw [List.forall_mem_cons] at h
      refine inLine_append.2 ⟨h.1, inLine_flatMap fun v hv => inLine_append.2 ⟨?_, h.2 v hv⟩⟩
      exact (by decide : InLine [',', ' '])

end GrammarProfile.Yaml
