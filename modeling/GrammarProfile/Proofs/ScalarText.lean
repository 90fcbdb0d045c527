import GrammarProfile.Proofs.LaidText
import GrammarProfile.Proofs.NumberText
import GrammarProfile.Proofs.QuotedText
import GrammarProfile.Proofs.TagText
import GrammarProfile.Proofs.Trees

/-!
Values without parts as they are written: on one line, unless as a literal block, and as keys before
their colon.
-/
namespace GrammarProfile.Yaml

open Text (Clean)
open Profile.Layout (EndsInNull colonNull)
open Lexer (Inline Places AtColon PastQuote)

/-! ## Characters of written texts -/

theorem clean_of_not_break {cs : List Char} (h : ∀ c ∈ cs, isBreak c = false) : Clean cs := by
  intro c hc
  have hbreak := h c hc
  constructor
  · rintro rfl; exact nomatch hbreak
  · rintro rfl; exact nomatch hbreak

theorem isBreak_of_mem_escaped {c d : Char} (hd : d ∈ escaped c) : isBreak d = false := by
  have hnamed : ∀ e ∈ "0abtnvfre\"\\NLP".toList, ∀ d ∈ ['\\', e], isBreak d = false := by
    have hall : ∀ e ∈ "0abtnvfre\"\\NLP".toList, isBreak e = false :=
      List.all_iff_forall_prop.1 (by decide)
    exact fun e he => List.forall_mem_cons.2 ⟨by decide, List.forall_mem_singleton.2 (hall e he)⟩
  have hcoded : ∀ e ∈ "xuU".toList, ∀ width : Nat, ∀ d ∈ '\\' :: e :: hexDigits width c.toNat,
      isBreak d = false := by
    have hall : ∀ e ∈ "xuU".toList, isBreak e = false := List.all_iff_forall_prop.1 (by decide)
    exact fun e he width => List.forall_mem_cons.2 ⟨by decide, List.forall_mem_cons.2
      ⟨hall e he, fun d hd => isBreak_of_mem_hexDigits hd⟩⟩
  unfold escaped at hd
  split at hd
  all_goals first
    | exact hnamed _ (by decide) d hd
    | skip
  next h₁ h₂ h₃ h₄ h₅ h₆ h₇ h₈ h₉ h₁₀ h₁₁ h₁₂ h₁₃ h₁₄ =>
    split at hd
    · obtain rfl := List.mem_singleton.1 hd
      rw [isBreak]
      simp only [Bool.or_eq_false_iff, beq_eq_false_iff_ne]
      exact ⟨⟨⟨⟨h₅, h₈⟩, h₁₂⟩, h₁₃⟩, h₁₄⟩
    · split at hd
      · exact hcoded _ (by decide) _ d hd
      · split at hd
        · exact hcoded _ (by decide) _ d hd
        · exact hcoded _ (by decide) _ d hd

theorem mem_singleQuotedBody {n : Nat} {afterBreak : Bool} {cs : List Char} {c : Char}
    (h : c ∈ singleQuotedBody n afterBreak cs) : c = ' ' ∨ c ∈ cs := by
  induction cs generalizing afterBreak with
  | nil =>
      rw [singleQuotedBody] at h
      split at h
      · exact .inl (List.eq_of_mem_replicate h)
      · exact absurd h List.not_mem_nil
  | cons d cs ih =>
      rw [singleQuotedBody] at h
      split at h
      · rcases List.mem_cons.1 h with rfl | h
        · exact .inr List.mem_cons_self
        · exact (ih h).imp id (List.mem_cons_of_mem _)
      · rcases List.mem_append.1 h with h | h
        · rcases List.mem_append.1 h with h | h
          · split at h
            · exact .inl (List.eq_of_mem_replicate h)
            · exact absurd h List.not_mem_nil
          · split at h
            · next hquote =>
              obtain rfl : c = '\'' := by simpa using h
              exact .inr (beq_iff_eq.1 hquote ▸ List.mem_cons_self)
            · exact .inr (List.mem_singleton.1 h ▸ List.mem_cons_self)
        · exact (ih h).imp id (List.mem_cons_of_mem _)

theorem mem_singleQuote {n : Nat} {cs : List Char} {c : Char} (h : c ∈ singleQuote n cs) :
    c = '\'' ∨ c = ' ' ∨ c ∈ cs := by
  rcases List.mem_cons.1 h with rfl | h
  · exact .inl rfl
  · rcases List.mem_append.1 h with h | h
    · exact .inr (mem_singleQuotedBody h)
    · exact .inl (List.mem_singleton.1 h)

/-- Where no line ends, the indentation of further lines does not matter. -/
theorem singleQuote_indent {cs : List Char} (h : ∀ c ∈ cs, isBreak c = false) (n k : Nat) :
    singleQuote n cs = singleQuote k cs := by
  have hbody : singleQuotedBody n false cs = singleQuotedBody k false cs := by
    induction cs with
    | nil => rfl
    | cons c cs ih =>
        rw [singleQuotedBody, singleQuotedBody, h c List.mem_cons_self, ih fun d hd => h d (List.mem_cons_of_mem _ hd)]
        rfl
  rw [singleQuote, singleQuote, hbody]

/-- A tag holds no gap. -/
theorem isGap_of_mem_tagText {t : String} {c : Char} (h : c ∈ tagText t) : isGap c = false := by
  have hmarks : ∀ c ∈ ";/?:@&=+$,.~*'()[]!<>%21".toList, isGap c = false :=
    List.all_iff_forall_prop.1 (by decide)
  have hword : ∀ c, isWordChar c = true → isGap c = false := by
    intro c hc
    have hbreak := (Tag.word_facts hc).2.2.2
    rw [isGap, isSpacing, hbreak]
    simp only [Bool.or_false, Bool.or_eq_false_iff, beq_eq_false_iff_ne]
    refine ⟨⟨?_, ?_⟩, ?_⟩ <;> rintro rfl <;> cases hc
  by_cases hmark : (bareTag t).toList = ['!']
  · rw [(Tag.written_mark hmark).1] at h
    have hall : ∀ c ∈ "!<%21>".toList, isGap c = false := List.all_iff_forall_prop.1 (by decide)
    exact hall c h
  · rw [(Tag.written_chars hmark).1] at h
    rcases List.mem_cons.1 h with rfl | h
    · decide
    · obtain ⟨d, -, h⟩ := List.mem_flatMap.1 h
      rw [Tag.tagChar_eq] at h
      split at h
      · next hraw =>
        obtain rfl := List.mem_singleton.1 h
        rw [Tag.isRaw, Bool.or_eq_true] at hraw
        rcases hraw with hraw | hraw
        · exact hword c hraw
        · have hall : ∀ c ∈ ";/?:@&=+$,.~*'()[]".toList, isGap c = false :=
            List.all_iff_forall_prop.1 (by decide)
          exact hall c (List.contains_iff_mem.1 hraw)
      · obtain ⟨octet, -, h⟩ := List.mem_flatMap.1 h
        rcases List.mem_cons.1 h with rfl | h
        · decide
        · exact isGap_of_mem_hexDigits h

theorem clean_tagText (t : String) : Clean (tagText t) :=
  clean_of_not_break fun _ hc => (not_gap_facts (isGap_of_mem_tagText hc)).2

/-! ## Values on one line -/

/-- A text that is read as a value where the rest of its line, but for the blanks before it, holds
nothing else. -/
structure OneLine (w : List Char) (kinds : List TokenKind) : Prop where
  head : ∀ tail, AtToken (w ++ tail)
  clean : Clean w
  null : ¬EndsInNull w
  ending : lastIs isBreak w = false
  places : ∀ {I : List Nat} {allowed : Bool} (may : List (List Char) → Prop) (start : Option Nat)
    (j : Nat), Places True may I start allowed (spaces j ++ (w ++ ['\n'])) kinds

/-- A text that is read as a key before its colon. -/
structure KeyText (ok : Prop) (w : List Char) (kinds : List TokenKind) : Prop where
  head : ∀ tail, AtToken (w ++ tail)
  breaks : ∀ c ∈ w, isBreak c = false
  inline : Inline ok AtColon w kinds

theorem OneLine.endLine {w : List Char} {kinds : List TokenKind} (h : OneLine w kinds) :
    Yaml.endLine w = w ++ ['\n'] := if_neg (by rw [h.ending]; decide)

theorem lastIs_of_not_break {cs : List Char} (h : ∀ c ∈ cs, isBreak c = false) :
    lastIs isBreak cs = false := by
  rw [lastIs]
  cases hlast : cs.getLast? with
  | none => rfl
  | some c => exact h c (List.mem_of_getLast? hlast)

variable {cs : List Char}

theorem oneLine_plain (h : IsPlain cs) : OneLine cs [.scalar (String.ofList cs) true] where
  head := Lexer.atToken_plain h
  clean := clean_of_not_break h.breaks
  null := by
    rintro ⟨key, rfl⟩
    exact absurd (hasEndingColon_append_right h.colon) (by decide)
  ending := lastIs_of_not_break h.breaks
  places := Lexer.places_plain h

theorem keyText_plain (h : IsPlain cs) : KeyText True cs [.scalar (String.ofList cs) true] :=
  ⟨Lexer.atToken_plain h, h.breaks, Lexer.inline_plain h⟩

theorem oneLine_quoted (single : Bool) {w : List Char} (h : Quoted.Written single .run w cs)
    (hw : Clean w) : OneLine (quote single :: (w ++ [quote single]))
      [.scalar (String.ofList cs) false] := by
  have hquote : ∀ single, quote single ≠ '\n' ∧ quote single ≠ '\r' ∧ quote single ≠ 'l' ∧
      isBreak (quote single) = false := by decide
  obtain ⟨hfeed, hreturn, hl, hbreak⟩ := hquote single
  have hlast : (quote single :: (w ++ [quote single])).getLast? = some (quote single) := by
    rw [← List.cons_append, List.getLast?_append]
    rfl
  refine ⟨fun _ => Lexer.atToken_quote _, Text.clean_cons.2 ⟨⟨hfeed, hreturn⟩, Text.clean_append.2
    ⟨hw, Text.clean_cons.2 ⟨⟨hfeed, hreturn⟩, Text.clean_nil⟩⟩⟩, fun hnull => ?_, ?_,
    fun may start j => Inline.places (Lexer.inline_quoted h) (fun _ => Lexer.atToken_quote _)
      isFiller_nil (Lexer.pastQuote_filler isFiller_nil) may start j⟩
  · rw [Profile.Layout.endsInNull_last hnull] at hlast
    exact hl (Option.some.inj hlast).symm
  · rw [lastIs, hlast]
    exact hbreak

theorem keyText_quoted (single : Bool) {w : List Char} (h : Quoted.Written single .run w cs)
    (hw : ∀ c ∈ w, isBreak c = false) : KeyText True (quote single :: (w ++ [quote single]))
      [.scalar (String.ofList cs) false] := by
  have hquote : isBreak (quote single) = false := by cases single <;> decide
  refine ⟨fun _ => Lexer.atToken_quote _, List.forall_mem_cons.2 ⟨hquote, List.forall_mem_append.2
    ⟨hw, List.forall_mem_singleton.2 hquote⟩⟩, ?_⟩
  intro lx ks I allowed p tail m hawaits hI hp htail
  exact Lexer.inline_quoted h hawaits hI hp htail.pastQuote

/-! ## Texts in their styles -/

/-- What the style of a text tells about it. -/
inductive Styled (cs : List Char) : Style → Prop where
  | plain (h : IsPlain cs) : Styled cs .plain
  | singleQuoted (hline : '\n' ∉ cs) (h : Style.allowsSingleQuotes cs = true) : Styled cs .singleQuoted
  | doubleQuoted : Styled cs .doubleQuoted
  | literal (hline : '\n' ∈ cs) (h : ∀ c ∈ cs, isPrintable c = true) : Styled cs .literal

theorem styled (cs : List Char) : Styled cs (Style.ofText cs) := by
  unfold Style.ofText
  split
  · next hline =>
    split
    · next hliteral =>
      refine .literal (List.contains_iff_mem.1 hline) fun c hc => ?_
      rw [Style.allowsLiteral, Bool.not_eq_true', Bool.or_eq_false_iff, Style.needsEscapes,
        Bool.or_eq_false_iff] at hliteral
      simpa using List.any_eq_false.1 hliteral.1.2 c hc
    · exact .doubleQuoted
  · next hline =>
    have hfree : '\n' ∉ cs := fun h => hline (List.contains_iff_mem.2 h)
    split
    · next hplain =>
      rw [Bool.and_eq_true, Bool.and_eq_true] at hplain
      refine .plain (isPlain_of_allowsPlain ?_ hplain.2)
      rintro rfl
      exact absurd hplain.1.1 (by decide)
    · split
      · next hsingle => exact .singleQuoted hfree hsingle
      · exact .doubleQuoted

/-- A text that is no literal block is read in one line. -/
theorem oneLine_text (h : Style.ofText cs ≠ .literal) (n : Nat) : OneLine (scalarText (n + 1) cs)
    [.scalar (String.ofList cs) (Style.ofText cs == .plain)] := by
  have hstyled := styled cs
  rw [scalarText]
  generalize Style.ofText cs = style at h hstyled
  cases hstyled with
  | plain hplain => exact oneLine_plain hplain
  | singleQuoted hline hsingle =>
      have hprintable : ∀ c ∈ cs, isPrintable c = true := by
        intro c hc
        rw [Style.allowsSingleQuotes, Bool.not_eq_true', Bool.or_eq_false_iff, Style.needsEscapes,
          Bool.or_eq_false_iff] at hsingle
        simpa using List.any_eq_false.1 hsingle.1.2 c hc
      refine oneLine_quoted true (Quoted.written_singleQuote hsingle hline n) fun c hc => ?_
      rcases mem_singleQuotedBody hc with rfl | hc
      · decide
      · refine ⟨fun h => hline (h ▸ hc), ?_⟩
        rintro rfl
        exact absurd (hprintable _ hc) (by decide)
  | doubleQuoted =>
      refine oneLine_quoted false (Quoted.written_escaped cs) (clean_of_not_break fun d hd => ?_)
      obtain ⟨c, -, hd⟩ := List.mem_flatMap.1 hd
      exact isBreak_of_mem_escaped hd
  | literal => exact absurd rfl h

/-- A text without a line end is read as a key. -/
theorem keyText_text (h : ∀ c ∈ cs, isBreak c = false) : KeyText True (scalarText 0 cs)
    [.scalar (String.ofList cs) (Style.ofText cs == .plain)] := by
  have hstyled := styled cs
  rw [scalarText]
  generalize Style.ofText cs = style at hstyled
  cases hstyled with
  | plain hplain => exact keyText_plain hplain
  | singleQuoted hline hsingle =>
      dsimp only
      rw [singleQuote_indent h 0 1]
      refine keyText_quoted true (Quoted.written_singleQuote hsingle hline 0) fun c hc => ?_
      rcases mem_singleQuotedBody hc with rfl | hc
      · decide
      · exact h c hc
  | doubleQuoted =>
      refine keyText_quoted false (Quoted.written_escaped cs) fun d hd => ?_
      obtain ⟨c, -, hd⟩ := List.mem_flatMap.1 hd
      exact isBreak_of_mem_escaped hd
  | literal hline => exact absurd (h _ hline) (by decide)

/-! ## Empty collections -/

theorem oneLine_brackets {w : List Char} {kinds : List TokenKind} (hhead : ∀ tail, AtToken (w ++ tail))
    (hbreaks : ∀ c ∈ w, isBreak c = false) (hlast : w.getLast? ≠ some 'l')
    (h : ∀ stop, Inline True stop w kinds) : OneLine w kinds where
  head := hhead
  clean := clean_of_not_break hbreaks
  null hnull := hlast (Profile.Layout.endsInNull_last hnull)
  ending := lastIs_of_not_break hbreaks
  places may start j :=
    Inline.places (h fun _ => True) hhead isFiller_nil (fun _ => trivial) may start j

theorem oneLine_emptyList : OneLine "[]".toList [.flowSequence, .flowSequenceEnd] :=
  oneLine_brackets (fun _ => atToken_cons (by decide) _) (List.all_iff_forall_prop.1 (by decide))
    (by decide) Lexer.inline_emptyList

theorem oneLine_emptyMapping : OneLine "\x7b\x7d".toList [.flowMapping, .flowMappingEnd] :=
  oneLine_brackets (fun _ => atToken_cons (by decide) _) (List.all_iff_forall_prop.1 (by decide))
    (by decide) Lexer.inline_emptyMapping

theorem keyText_emptyList : KeyText True "[]".toList [.flowSequence, .flowSequenceEnd] :=
  ⟨fun _ => atToken_cons (by decide) _, List.all_iff_forall_prop.1 (by decide), Lexer.inline_emptyList _⟩

theorem keyText_emptyMapping : KeyText True "\x7b\x7d".toList [.flowMapping, .flowMappingEnd] :=
  ⟨fun _ => atToken_cons (by decide) _, List.all_iff_forall_prop.1 (by decide),
    Lexer.inline_emptyMapping _⟩

/-! ## Tags -/

/-- A tag is read as one with a handle or without, and stands for a tag of the document's own. -/
theorem exists_tag (t : String) : ∃ hasHandle suffix,
    Tag.written t = Tree.tagKind hasHandle suffix ∧
      ∀ tag ∈ Tree.tagOf hasHandle suffix, isOwnTag tag = true := by
  by_cases hmark : (bareTag t).toList = ['!']
  · refine ⟨false, Tag.decode? ['!'.toNat], (Tag.written_mark hmark).2, fun tag htag => ?_⟩
    have hmeaning : Tag.decode? ['!'.toNat] = some "!" := rfl
    obtain rfl := Option.some.inj (hmeaning.symm.trans htag)
    decide
  · rw [(Tag.written_chars hmark).2, Tag.token]
    split
    · refine ⟨false, some "!", rfl, fun tag htag => ?_⟩
      obtain rfl := Option.some.inj htag
      decide
    · refine ⟨true, _, rfl, fun tag htag => ?_⟩
      obtain ⟨suffix, -, rfl⟩ := Option.map_eq_some_iff.1 htag
      rw [isOwnTag, String.toList_append]
      rfl

/-- A key with a tag. -/
theorem KeyText.tagged {ok : Prop} {w : List Char} {kinds : List TokenKind} (h : KeyText ok w kinds)
    (t : String) : KeyText (Tag.Readable t ∧ ok) (tagText t ++ ' ' :: w) (Tag.written t :: kinds) where
  head tail := by
    rw [List.append_assoc]
    exact Lexer.atToken_tag t _
  breaks := List.forall_mem_append.2 ⟨fun c hc => (not_gap_facts (isGap_of_mem_tagText hc)).2,
    List.forall_mem_cons.2 ⟨by decide, h.breaks⟩⟩
  inline := Inline.append (Lexer.inline_tag t) h.inline
    (fun c hc => (not_gap_facts (isGap_of_mem_tagText hc)).2) (fun _ => rfl) h.head

end GrammarProfile.Yaml
