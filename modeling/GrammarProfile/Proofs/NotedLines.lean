import GrammarProfile.Profile.Writer
import GrammarProfile.Proofs.Collections
import GrammarProfile.Proofs.JsonText
import GrammarProfile.Proofs.LaidOut
import GrammarProfile.Proofs.Meanings
import GrammarProfile.Proofs.TextualValues

/-!
Mappings that are written line by line, with comments between the lines and at their ends: which
lines are read as which pairs, and how lines are put together.
-/
namespace GrammarProfile.Yaml

open Profile.Layout
open Lexer (AtColon AtGap Inline Parts PastQuote Places Quotes)

/-! ## Words and notes -/

/-- A text that is read as itself without quotes, also as a key. -/
structure IsWord (s : String) : Prop where
  meaning : Scalar.meaning s.toList = .text
  plain : Style.allowsPlain s.toList = true
  length : s.toList.length ≤ Lexer.longestKey

instance (s : String) : Decidable (IsWord s) :=
  decidable_of_iff (Scalar.meaning s.toList = .text ∧ Style.allowsPlain s.toList = true ∧
    s.toList.length ≤ Lexer.longestKey)
    ⟨fun h => ⟨h.1, h.2.1, h.2.2⟩, fun h => ⟨h.meaning, h.plain, h.length⟩⟩

variable {s name : String}

theorem IsWord.isPlain (h : IsWord s) : IsPlain s.toList := by
  refine isPlain_of_allowsPlain (fun hnil => ?_) h.plain
  have hmeaning := h.meaning
  rw [hnil] at hmeaning
  exact absurd hmeaning (by decide)

theorem IsPlain.inLine {cs : List Char} (h : IsPlain cs) : InLine cs := by
  intro c hc
  rw [isInLine, isAllowed_of_printable (h.printable c hc), h.breaks c hc]
  rfl

theorem IsWord.inLine (h : IsWord s) : InLine s.toList := h.isPlain.inLine

theorem IsWord.means (h : IsWord s) (depth : Nat) :
    Means depth [Shape.bare (.scalar s true)] (.string s) := by
  refine .scalar fun mark => ?_
  unfold scalarValue plainValue
  rw [if_pos rfl, h.meaning]

/-- What may stand at the end of a line: nothing, or a comment after a gap. -/
structure IsNote (w : List Char) : Prop where
  filler : IsFiller w
  inLine : InLine w
  gap : ∀ tail, AtGap (w ++ '\n' :: tail)

theorem isNote_nil : IsNote [] := ⟨isFiller_nil, inLine_nil, fun _ => rfl⟩

theorem isFiller_comment (k : Nat) {cs : List Char} (h : InLine cs) :
    IsFiller (spaces k ++ '#' :: cs) := ⟨k, _, rfl, .inr ⟨cs, rfl, h.not_break⟩⟩

theorem inLine_spaces (k : Nat) : InLine (spaces k) :=
  fun _ hc => (List.eq_of_mem_replicate hc).symm ▸ rfl

theorem isNote_comment (k : Nat) {cs : List Char} (h : InLine cs) :
    IsNote (spaces (k + 1) ++ '#' :: cs) where
  filler := isFiller_comment (k + 1) h
  inLine := inLine_append.2 ⟨inLine_spaces _, inLine_cons.2 ⟨by decide, h⟩⟩
  gap _ := rfl

/-! ## Values after a colon -/

/-- What is written after the colon of a key in a column, up to the end of a line. -/
structure ValueText (depth column : Nat) (body : List Char) (v : Value) (t : Tree) : Prop where
  gap : ∀ tail, AtGap (body ++ tail)
  fits : t.Fits true
  means : Means depth (t.shapes none) v
  places : ∀ I : List Nat, Places True (fun _ => True) (column :: I) none false body t.kinds

variable {depth column : Nat} {note : List Char}

theorem valueText_null (hnote : IsNote note) :
    ValueText depth column (note ++ ['\n']) .null .absent where
  gap tail := by
    rw [List.append_assoc]
    exact hnote.gap tail
  fits := rfl
  means := .scalar fun _ => rfl
  places _ := by
    rw [Tree.kinds]
    exact Lexer.places_absent hnote.filler (fun _ => True) none

theorem valueText_true : ValueText depth column (spaces 1 ++ ("true".toList ++ ['\n'])) (.bool true)
    (.scalar "true" true) where
  gap _ := rfl
  fits := trivial
  means := .scalar fun _ => rfl
  places I := by
    have hplaces : Places True (fun _ => True) (column :: I) none false
        (spaces 1 ++ ("true".toList ++ ['\n'])) [.scalar (String.ofList "true".toList) true] :=
      Lexer.places_plain (isPlain_bool true) (fun _ => True) none 1
    rwa [String.ofList_toList] at hplaces

theorem valueText_quoted {w : List Char} (hw : Quotes w s) (hnote : IsNote note) :
    ValueText depth column (spaces 1 ++ (w ++ (note ++ ['\n']))) (.string s) (.scalar s false) where
  gap _ := rfl
  fits := trivial
  means := means_text depth s
  places I := by
    obtain ⟨body, rfl, hbody⟩ := hw
    have hinline : Inline True PastQuote (quote false :: (body ++ [quote false])) [.scalar s false] := by
      rw [← String.ofList_toList (s := s)]
      exact Lexer.inline_quoted hbody
    have hplaces : Places True (fun _ => True) (column :: I) none false
        (spaces 1 ++ (quote false :: (body ++ [quote false]) ++ (note ++ ['\n']))) [.scalar s false] :=
      Inline.places @hinline (fun _ => Lexer.atToken_quote _) hnote.filler
        (Lexer.pastQuote_filler hnote.filler) (fun _ => True) none 1
    rwa [Tree.kinds]

theorem valueText_flow {ws : List (List Char)} {texts : List String} (h : List.Forall₂ Quotes ws texts) :
    ValueText (depth + 1) column (spaces 1 ++ ('[' :: (Lexer.withCommas ws ++ ']' :: ['\n'])))
      (Profile.texts texts) (.flow texts) where
  gap _ := rfl
  fits := trivial
  means := .sequence (itemsMean_texts depth texts)
  places _ := Lexer.places_flow h isFiller_nil (fun _ => True) none 1

/-! ## Pairs -/

/-- A mapping, or null if there are no pairs. -/
def Pairs.orNull (ps : Pairs) : Value := if ps.isEmpty then .null else .mapping ps

theorem Pairs.orNull_of_ne_nil {ps : Pairs} (h : ps ≠ []) : ps.orNull = .mapping ps :=
  if_neg (by simpa using h)

/-- What is written of pairs from their first token on. -/
structure PairText (depth column : Nat) (w : List Char) (ps : Pairs) (ts : List (Tree × Tree)) :
    Prop where
  nonempty : w ≠ []
  pairs : ps ≠ []
  head : ∀ tail, AtToken (w ++ tail)
  fits : Tree.PairsFit ts
  means : PairsMean depth (Tree.pairShapes ts) ps
  parts : ∀ (I : List Nat) (opened : Bool),
    Parts True (fun _ => True) I column opened .blockMapping w (Tree.pairKinds ts)

theorem pairText_pair (hname : IsWord name) {body : List Char} {v : Value} {t : Tree}
    (h : ValueText depth column body v t) :
    PairText depth column (name.toList ++ ':' :: body) [(.string name, v)] [(.scalar name true, t)] where
  nonempty := by simp
  pairs := List.cons_ne_nil _ _
  head tail := by
    rw [List.append_assoc]
    exact Lexer.atToken_plain hname.isPlain _
  fits := ⟨trivial, h.fits, trivial⟩
  means := by
    have hpairs := PairsMean.cons (hname.means depth) h.means .nil
    simpa [Tree.pairShapes, Tree.shapes, Shape.bare] using hpairs
  parts I opened := by
    have hkey : Inline True AtColon name.toList [.scalar name true] := by
      rw [← String.ofList_toList (s := name), String.toList_ofList]
      exact Lexer.inline_plain hname.isPlain
    have hparts : Parts ((True ∧ name.toList.length ≤ Lexer.longestKey) ∧ True) (fun _ => True) I
        column opened .blockMapping (name.toList ++ ':' :: body)
        (.key :: [.scalar name true] ++ .value :: t.kinds) :=
      Lexer.parts_pair hkey hname.isPlain.breaks (h.places I) h.gap
    rw [true_and, and_true, eq_true hname.length] at hparts
    rw [Tree.pairKinds, Tree.pairKinds, Tree.kinds, List.append_nil]
    exact @hparts

/-! ## Parts of trees, put together -/

theorem Tree.pairKinds_append (ts us : List (Tree × Tree)) :
    pairKinds (ts ++ us) = pairKinds ts ++ pairKinds us := by
  induction ts with
  | nil => rfl
  | cons p rest ih => simp [pairKinds, ih]

theorem Tree.pairShapes_append (ts us : List (Tree × Tree)) :
    pairShapes (ts ++ us) = pairShapes ts ++ pairShapes us := by
  induction ts with
  | nil => rfl
  | cons p rest ih => simp [pairShapes, ih]

theorem Tree.pairsFit_append {ts us : List (Tree × Tree)} (h : PairsFit ts) (hrest : PairsFit us) :
    PairsFit (ts ++ us) := by
  induction ts with
  | nil => exact hrest
  | cons p rest ih => exact ⟨h.1, h.2.1, ih h.2.2⟩

variable {v w : List Char} {ps qs : Pairs} {ts us : List (Tree × Tree)}

/-- Further pairs, after lines without a token. -/
theorem PairText.append (h : PairText depth column v ps ts) (hrest : PairText depth column w qs us)
    {lines : List (List Char)} (hlines : ∀ line ∈ lines, IsFiller line) :
    PairText depth column (v ++ (fill lines ++ (spaces column ++ w))) (ps ++ qs) (ts ++ us) where
  nonempty := List.append_ne_nil_of_left_ne_nil h.nonempty _
  pairs := List.append_ne_nil_of_left_ne_nil h.pairs _
  head tail := by
    rw [List.append_assoc]
    exact h.head _
  fits := Tree.pairsFit_append h.fits hrest.fits
  means := by
    rw [Tree.pairShapes_append]
    exact h.means.append hrest.means
  parts I opened := by
    have hparts : Parts (True ∧ True) (fun _ => True) I column opened .blockMapping
        (v ++ (fill lines ++ (spaces column ++ w))) (Tree.pairKinds ts ++ Tree.pairKinds us) :=
      Lexer.Parts.append (h.parts I opened) (hrest.parts I true) hrest.head hrest.nonempty hlines trivial
    rw [true_and] at hparts
    rwa [Tree.pairKinds_append]

/-! ## Lines -/

/-- The text of lines. -/
def linesText (ls : List String) : List Char := fill (ls.map String.toList)

theorem linesText_append (ls ms : List String) : linesText (ls ++ ms) = linesText ls ++ linesText ms := by
  rw [linesText, List.map_append, fill_append]
  rfl

theorem linesText_cons (l : String) (ls : List String) :
    linesText (l :: ls) = l.toList ++ '\n' :: linesText ls := fill_cons ..

/-- A line without a token. -/
structure IsRemark (l : String) : Prop where
  filler : IsFiller l.toList
  inLine : InLine l.toList

/-- Lines that are read as pairs in a column, with lines without a token before and after them. -/
inductive ReadAsPairs (depth column : Nat) : List String → Pairs → Prop
  | none {ls : List String} (h : ∀ l ∈ ls, IsFiller l.toList) : ReadAsPairs depth column ls []
  | some {ls : List String} {ps : Pairs} {ts : List (Tree × Tree)} {w : List Char}
      (before after : List (List Char))
      (htext : linesText ls = fill before ++ (spaces column ++ (w ++ fill after)))
      (hbefore : ∀ line ∈ before, IsFiller line) (hafter : ∀ line ∈ after, IsFiller line)
      (h : PairText depth column w ps ts) : ReadAsPairs depth column ls ps

/-- Lines of allowed characters that are read as pairs. -/
structure PairLines (depth column : Nat) (ls : List String) (ps : Pairs) : Prop where
  inLine : ∀ l ∈ ls, InLine l.toList
  reads : ReadAsPairs depth column ls ps

theorem pairLines_remarks {ls : List String} (h : ∀ l ∈ ls, IsRemark l) : PairLines depth column ls [] :=
  ⟨fun l hl => (h l hl).inLine, .none fun l hl => (h l hl).filler⟩

variable {ls ms : List String}

theorem ReadAsPairs.append (h : ReadAsPairs depth column ls ps) (hrest : ReadAsPairs depth column ms qs) :
    ReadAsPairs depth column (ls ++ ms) (ps ++ qs) := by
  cases h with
  | none h =>
      cases hrest with
      | none hrest => exact .none (List.forall_mem_append.2 ⟨h, hrest⟩)
      | @some _ _ _ before after htext hbefore hafter hrest =>
          refine .some (ls.map String.toList ++ before) _ ?_ ?_ hafter hrest
          · rw [linesText_append, htext, fill_append, List.append_assoc]
            rfl
          · exact List.forall_mem_append.2 ⟨List.forall_mem_map.2 h, hbefore⟩
  | @some _ _ _ before after htext hbefore hafter h =>
      cases hrest with
      | none hrest =>
          rw [List.append_nil]
          refine .some _ (after ++ ms.map String.toList) ?_ hbefore ?_ h
          · rw [linesText_append, htext, fill_append]
            simp [linesText]
          · exact List.forall_mem_append.2 ⟨hafter, List.forall_mem_map.2 hrest⟩
      | @some _ _ _ between last htext' hbetween hlast hrest =>
          have hlines := List.forall_mem_append.2 ⟨hafter, hbetween⟩
          refine .some _ _ ?_ hbefore hlast (h.append hrest hlines)
          rw [linesText_append, htext, htext', fill_append]
          simp

theorem PairLines.append (h : PairLines depth column ls ps) (hrest : PairLines depth column ms qs) :
    PairLines depth column (ls ++ ms) (ps ++ qs) :=
  ⟨List.forall_mem_append.2 ⟨h.inLine, hrest.inLine⟩, h.reads.append hrest.reads⟩

/-- Lines for each of some things, in their order. -/
theorem pairLines_flatMap {α : Type} {xs : List α} {lines : α → List String} {pairs : α → Pairs}
    (h : ∀ x ∈ xs, PairLines depth column (lines x) (pairs x)) :
    PairLines depth column (xs.flatMap lines) (xs.flatMap pairs) := by
  induction xs with
  | nil => exact pairLines_remarks (List.forall_mem_nil _)
  | cons x rest ih =>
      rw [List.forall_mem_cons] at h
      exact h.1.append (ih h.2)

/-- One line, or several, for each pair. -/
theorem pairLines_map {α : Type} {xs : List α} {lines : α → List String} {pair : α → Value × Value}
    (h : ∀ x ∈ xs, PairLines depth column (lines x) [pair x]) :
    PairLines depth column (xs.flatMap lines) (xs.map pair) := by
  rw [List.map_eq_flatMap]
  exact pairLines_flatMap h

/-! ## Lines of pairs -/

section Keys

variable {l : String} {inner : Nat} {texts : List String}

/-- The lines of one pair. -/
theorem pairLines_pair (hname : IsWord name) {body : List Char} {v : Value} {t : Tree}
    (h : ValueText depth column body v t)
    (htext : linesText ls = spaces column ++ (name.toList ++ ':' :: body))
    (hinLine : ∀ l ∈ ls, InLine l.toList) : PairLines depth column ls [(.string name, v)] := by
  refine ⟨hinLine, .some [] [] ?_ (List.forall_mem_nil _) (List.forall_mem_nil _)
    (pairText_pair hname h)⟩
  simpa using htext

theorem inLine_key (hname : IsWord name) {rest : List Char} (hrest : InLine rest) :
    InLine (spaces column ++ (name.toList ++ ':' :: rest)) :=
  inLine_append.2 ⟨inLine_spaces _, inLine_append.2 ⟨hname.inLine, inLine_cons.2 ⟨by decide, hrest⟩⟩⟩

/-- The line of a key without a value. -/
theorem pairLines_null (hname : IsWord name) (hnote : IsNote note)
    (hl : l.toList = spaces column ++ (name.toList ++ ':' :: note)) :
    PairLines depth column [l] [(.string name, .null)] := by
  refine pairLines_pair hname (valueText_null hnote) ?_ (List.forall_mem_singleton.2 ?_)
  · rw [linesText_cons, hl]
    simp [linesText]
  · exact hl ▸ inLine_key hname hnote.inLine

/-- The line of a key with a text in quotes. -/
theorem pairLines_quoted (hname : IsWord name) (hs : IsQuotable s)
    (hnote : IsNote note) (hl : l.toList =
      spaces column ++ (name.toList ++ ':' :: (spaces 1 ++ ((Text.jsonString s).toList ++ note)))) :
    PairLines depth column [l] [(.string name, .string s)] := by
  refine pairLines_pair hname (valueText_quoted (quotes_jsonString hs) hnote) ?_
    (List.forall_mem_singleton.2 ?_)
  · rw [linesText_cons, hl]
    simp [linesText]
  · exact hl ▸ inLine_key hname (inLine_append.2 ⟨inLine_spaces 1,
      inLine_append.2 ⟨inLine_jsonString hs, hnote.inLine⟩⟩)

/-- The line of a key that is true. -/
theorem pairLines_true (hname : IsWord name)
    (hl : l.toList = spaces column ++ (name.toList ++ ':' :: (spaces 1 ++ "true".toList))) :
    PairLines depth column [l] [(.string name, .bool true)] := by
  refine pairLines_pair hname valueText_true ?_ (List.forall_mem_singleton.2 ?_)
  · rw [linesText_cons, hl]
    simp [linesText]
  · exact hl ▸ inLine_key hname (by decide)

/-- The line of a key with texts in brackets. -/
theorem pairLines_flow (hname : IsWord name)
    (htexts : ∀ s ∈ texts, IsQuotable s)
    (hl : l.toList = spaces column ++ (name.toList ++ ':' :: (spaces 1 ++ ('[' ::
      ((Text.commaSeparated (texts.map Text.jsonString)).toList ++ [']']))))) :
    PairLines (depth + 1) column [l] [(.string name, Profile.texts texts)] := by
  have hquotes : List.Forall₂ Quotes ((texts.map Text.jsonString).map String.toList) texts := by
    rw [List.map_map, List.forall₂_map_left_iff, List.forall₂_same]
    exact fun s hs => quotes_jsonString (htexts s hs)
  rw [toList_commaSeparated] at hl
  refine pairLines_pair hname (valueText_flow hquotes) ?_ (List.forall_mem_singleton.2 ?_)
  · rw [linesText_cons, hl]
    simp [linesText]
  · have hinner : InLine (Lexer.withCommas ((texts.map Text.jsonString).map String.toList)) := by
      refine inLine_withCommas fun w hw => ?_
      rw [List.map_map] at hw
      obtain ⟨s, hs, rfl⟩ := List.mem_map.1 hw
      exact inLine_jsonString (htexts s hs)
    refine hl ▸ inLine_key hname (inLine_append.2 ⟨inLine_spaces 1, inLine_cons.2 ⟨by decide,
      inLine_append.2 ⟨hinner, inLine_cons.2 ⟨by decide, inLine_nil⟩⟩⟩⟩)

/-! ### Mappings inside mappings -/

/-- A mapping in lines further right, after the line of its key. -/
theorem valueText_mapping (h : PairText depth inner w ps ts) (hkeys : ps.Different)
    (hinner : column < inner) (hnote : IsNote note) {lines : List (List Char)}
    (hlines : ∀ line ∈ lines, IsFiller line) :
    ValueText (depth + 1) column (fill (note :: lines) ++ (spaces inner ++ w)) (.mapping ps)
      (.mapping ts) where
  gap tail := by
    rw [fill_cons, List.append_assoc, List.append_assoc]
    exact hnote.gap _
  fits := h.fits
  means := by
    rw [Tree.shapes]
    exact .mapping h.means hkeys
  places I := by
    have hplaces : Places True (fun _ => True) (column :: I) none false
        (fill (note :: lines) ++ (spaces inner ++ w))
        (.blockMapping :: Tree.pairKinds ts ++ [.blockEnd]) :=
      Lexer.Parts.places_newLine (h.parts (column :: I) false) (Lexer.deeper_cons hinner) h.head
        (List.forall_mem_cons.2 ⟨hnote.filler, hlines⟩) (List.cons_ne_nil _ _) none
    rwa [Tree.kinds]

/-- The line of a key, and the pairs of its mapping in lines further right. Without pairs there is no
mapping. -/
theorem pairLines_section (hname : IsWord name) (hnote : IsNote note)
    (hl : l.toList = spaces column ++ (name.toList ++ ':' :: note)) (h : PairLines depth inner ls ps)
    (hinner : column < inner) (hkeys : ps.Different) :
    PairLines (depth + 1) column (l :: ls) [(.string name, ps.orNull)] := by
  refine ⟨List.forall_mem_cons.2 ⟨hl ▸ inLine_key hname hnote.inLine, h.inLine⟩, ?_⟩
  cases h.reads with
  | none hfiller =>
      refine .some [] (ls.map String.toList) ?_ (List.forall_mem_nil _)
        (List.forall_mem_map.2 hfiller) (pairText_pair hname (valueText_null hnote))
      rw [linesText_cons, hl]
      simp [linesText]
  | @some _ _ _ before after htext hbefore hafter h =>
      rw [Pairs.orNull_of_ne_nil h.pairs]
      refine .some [] _ ?_ (List.forall_mem_nil _) hafter
        (pairText_pair hname (valueText_mapping h hkeys hinner hnote hbefore))
      rw [linesText_cons, hl, htext]
      simp

/-! ### Lists -/

theorem itemsMean_words (h : ∀ s ∈ texts, IsWord s) : ItemsMean depth
    (Tree.itemShapes (texts.map fun s => .scalar s true)) (texts.map .string) := by
  induction texts with
  | nil => exact .nil
  | cons s rest ih =>
      rw [List.forall_mem_cons] at h
      have hitems := ItemsMean.cons (h.1.means depth) (ih h.2)
      rwa [List.map_cons, Tree.itemShapes, Tree.shapes]

theorem itemsFit_words (texts : List String) :
    Tree.ItemsFit (texts.map fun s => .scalar s true) := by
  induction texts with
  | nil => trivial
  | cons s rest ih => exact ⟨trivial, ih⟩

/-- What is written of words in lines of their own, after dashes. -/
theorem exists_items (hne : texts ≠ []) (h : ∀ s ∈ texts, IsWord s) {item : String → String}
    (hitem : ∀ s, (item s).toList = spaces inner ++ ('-' :: (spaces 1 ++ s.toList))) :
    ∃ w, linesText (texts.map item) = spaces inner ++ w ∧ w ≠ [] ∧ (∀ tail, AtToken (w ++ tail)) ∧
      ∀ (I : List Nat) (opened : Bool), Parts True (fun _ => True) I inner opened .blockSequence w
        (Tree.itemKinds (texts.map fun s => .scalar s true)) := by
  induction texts with
  | nil => exact absurd rfl hne
  | cons s rest ih =>
      rw [List.forall_mem_cons] at h
      have hhead : ∀ tail, AtToken ('-' :: tail) := atToken_cons (by decide)
      have hfirst : ∀ (I : List Nat) (opened : Bool), Parts True (fun _ => True) I inner opened
          .blockSequence ('-' :: (spaces 1 ++ (s.toList ++ ['\n']))) [.entry, .scalar s true] := by
        intro I opened
        have hplaces : Places True (fun _ => True) (inner :: I) (some (inner + 1)) true
            (spaces 1 ++ (s.toList ++ ['\n'])) [.scalar s true] := by
          rw [← String.ofList_toList (s := s), String.toList_ofList]
          exact Lexer.places_plain h.1.isPlain (fun _ => True) _ 1
        have hgap : ∀ tail, AtGap (spaces 1 ++ (s.toList ++ ['\n']) ++ tail) := fun _ => rfl
        exact @Lexer.parts_entry _ I opened True (fun _ => True) inner _ @hplaces hgap
      cases rest with
      | nil =>
          refine ⟨_, ?_, List.cons_ne_nil _ _, fun _ => hhead _, hfirst⟩
          simp [linesText, hitem]
      | cons next rest =>
          obtain ⟨w, htext, hw, hwhead, hparts⟩ := ih (List.cons_ne_nil _ _) h.2
          refine ⟨'-' :: (spaces 1 ++ (s.toList ++ ['\n'])) ++ (fill [] ++ (spaces inner ++ w)), ?_,
            List.cons_ne_nil _ _, fun _ => hhead _, fun I opened => ?_⟩
          · rw [List.map_cons, linesText_cons, htext, hitem]
            simp
          · have hall : Parts (True ∧ True) (fun _ => True) I inner opened .blockSequence
                ('-' :: (spaces 1 ++ (s.toList ++ ['\n'])) ++ (fill [] ++ (spaces inner ++ w)))
                ([.entry, .scalar s true] ++ Tree.itemKinds ((next :: rest).map fun s => .scalar s true)) :=
              Lexer.Parts.append (hfirst I opened) (hparts I true) hwhead hw (List.forall_mem_nil _)
                trivial
            rw [true_and] at hall
            rw [List.map_cons, Tree.itemKinds, Tree.kinds]
            exact @hall

/-- The line of a key, and the words of its list in lines further right. -/
theorem pairLines_items (hname : IsWord name) (hl : l.toList = spaces column ++ (name.toList ++ [':']))
    (hne : texts ≠ []) (h : ∀ s ∈ texts, IsWord s) {item : String → String}
    (hitem : ∀ s, (item s).toList = spaces inner ++ ('-' :: (spaces 1 ++ s.toList)))
    (hinner : column < inner) :
    PairLines (depth + 1) column (l :: texts.map item) [(.string name, Profile.texts texts)] := by
  obtain ⟨w, htext, -, hhead, hparts⟩ := exists_items hne h hitem
  have hvalue : ValueText (depth + 1) column (fill [[]] ++ (spaces inner ++ w)) (Profile.texts texts)
      (.sequence false (texts.map fun s => .scalar s true)) := by
    refine ⟨fun _ => rfl, ⟨fun hnone => absurd hnone Bool.false_ne_true, itemsFit_words texts⟩, ?_,
      fun I => ?_⟩
    · rw [Tree.shapes]
      exact .sequence (itemsMean_words h)
    · have hplaces : Places True (fun _ => True) (column :: I) none false
          (fill [[]] ++ (spaces inner ++ w)) (.blockSequence ::
            Tree.itemKinds (texts.map fun s => .scalar s true) ++ [.blockEnd]) :=
        Lexer.Parts.places_newLine (hparts (column :: I) false) (Lexer.deeper_cons hinner) hhead
          (List.forall_mem_singleton.2 isFiller_nil) (List.cons_ne_nil _ _) none
      rw [Tree.kinds, if_neg Bool.false_ne_true]
      exact @hplaces
  refine pairLines_pair hname hvalue ?_ (List.forall_mem_cons.2
    ⟨hl ▸ inLine_key hname inLine_nil, List.forall_mem_map.2 fun s hs => ?_⟩)
  · rw [linesText_cons, htext, hl]
    simp
  · rw [hitem]
    exact inLine_append.2 ⟨inLine_spaces _, inLine_cons.2 ⟨by decide,
      inLine_append.2 ⟨inLine_spaces 1, (h s hs).inLine⟩⟩⟩

end Keys

/-! ## Whole texts -/

theorem not_mark_of_filler {lines : List (List Char)} (hlines : ∀ line ∈ lines, IsFiller line)
    {tail : List Char} (htail : AtToken tail) : (fill lines ++ tail).head? ≠ some '\ufeff' := by
  cases lines with
  | nil => exact htail.no_mark
  | cons line rest =>
      obtain ⟨k, comment, rfl, hcomment⟩ := hlines line List.mem_cons_self
      rw [fill_cons]
      cases k with
      | succ k => simp [spaces_succ]
      | zero => obtain rfl | ⟨cs, rfl, -⟩ := hcomment <;> simp [spaces]

theorem isAllowed_of_mem_linesText (h : ∀ l ∈ ls, InLine l.toList) :
    ∀ c ∈ linesText ls, isAllowed c = true := by
  intro c hc
  rw [linesText, fill, List.flatMap_map] at hc
  obtain ⟨l, hl, hc⟩ := List.mem_flatMap.1 hc
  rcases List.mem_append.1 hc with hc | hc
  · have hin := h l hl c hc
    rw [isInLine, Bool.and_eq_true] at hin
    exact hin.1
  · exact List.mem_singleton.1 hc ▸ rfl

/-- A text of lines that are read as pairs is read as the mapping of these pairs. -/
theorem read_of_pairLines {text : String} (htext : text.toList = linesText ls)
    (h : PairLines depth 0 ls ps) (hne : ps ≠ []) (hkeys : ps.Different)
    (hdepth : depth + 1 ≤ depthLimit) : read text = .ok (.mapping ps) := by
  have hallowed := isAllowed_of_mem_linesText h.inLine
  rw [← htext] at hallowed
  cases h.reads with
  | none => exact absurd rfl hne
  | @some _ ts w before after hsplit hbefore hafter h =>
      have hhead : text.toList.head? ≠ some '\ufeff' := by
        rw [htext, hsplit]
        exact not_mark_of_filler hbefore (h.head _)
      have hcut : text.toList = (fill before ++ (spaces 0 ++ w)) ++ fill after := by
        rw [htext, hsplit]
        simp
      have hplaces : Places True (fun _ => True) [] (some 0) true (fill before ++ (spaces 0 ++ w))
          (.blockMapping :: Tree.pairKinds ts ++ [.blockEnd]) := by
        cases before with
        | nil =>
            have hfirst : Parts True (fun _ => True) [] (0 + 0) false .blockMapping w
                (Tree.pairKinds ts) := h.parts [] false
            have hline : Places True (fun _ => True) [] (some 0) true (spaces 0 ++ w)
                (.blockMapping :: Tree.pairKinds ts ++ [.blockEnd]) :=
              Lexer.Parts.places_line @hfirst h.head
            exact @hline
        | cons line rest =>
            exact Lexer.Parts.places_newLine (h.parts [] false) (fun _ hn => nomatch hn) h.head hbefore
              (List.cons_ne_nil _ _) _
      obtain ⟨-, tokens, htokens, hkinds⟩ | ⟨hnot, -⟩ :=
        tokens_of_places hcut @hplaces hafter trivial hallowed hhead
      · have hfits : (Tree.mapping ts).Fits false := h.fits
        obtain ⟨k, ks, hroot, hk⟩ := Tree.exists_root hfits
        have htree : tokens.map Token.kind = (Tree.mapping ts).kinds ++ [.streamEnd] := by
          rw [hkinds, Tree.kinds]
          rfl
        obtain ⟨es, hes, hdocument⟩ := ofText_of_tree htokens htree nofun hfits hroot hk
        refine read_of_means hdocument (hes ▸ ?_) hdepth
        rw [Tree.shapes]
        exact .mapping h.means hkeys
      · exact absurd trivial hnot

end GrammarProfile.Yaml
