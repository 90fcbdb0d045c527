import GrammarProfile.Proofs.Edits
import GrammarProfile.Proofs.JsonText
import GrammarProfile.Proofs.PrintedPlaces

/-!
Lists in brackets that stand on the line of their key. The outline cuts them at every comma, so it
finds their items, each where it begins, exactly if no item holds a comma in its quotes and none
begins with a blank that is part of it.
-/
namespace GrammarProfile

namespace OrderedMap

variable {α : Type} {name : String} {value : α}

theorem get?_insertAll (pairs : List (String × α)) (h : (pairs.map Prod.fst).Nodup) (m : OrderedMap α) :
    (pairs.foldl (fun m p => m.insert p.1 p.2) m).get? name = some value ↔
      (name, value) ∈ pairs ∨ name ∉ pairs.map Prod.fst ∧ m.get? name = some value := by
  induction pairs generalizing m with
  | nil => simp
  | cons p rest ih =>
      obtain ⟨hnew, hrest⟩ := List.nodup_cons.1 h
      rw [List.foldl_cons, ih hrest, get?_insert, List.map_cons, List.mem_cons, List.mem_cons, not_or]
      by_cases hname : name = p.1
      · subst hname
        rw [if_pos rfl]
        constructor
        · rintro (hmem | ⟨-, hvalue⟩)
          · exact absurd (List.mem_map_of_mem hmem) hnew
          · exact .inl (.inl (by rw [← Option.some.inj hvalue]))
        · rintro ((heq | hmem) | ⟨⟨hne, -⟩, -⟩)
          · exact .inr ⟨hnew, by rw [← heq]⟩
          · exact absurd (List.mem_map_of_mem hmem) hnew
          · exact absurd rfl hne
      · rw [if_neg hname]
        have hne : (name, value) ≠ p := fun heq => hname (congrArg Prod.fst heq)
        simp only [hne, hname, false_or, not_false_eq_true, true_and]

theorem get?_insertAll_of_not_mem {pairs : List (String × α)} (h : name ∉ pairs.map Prod.fst)
    (m : OrderedMap α) :
    (pairs.foldl (fun m p => m.insert p.1 p.2) m).get? name = m.get? name := by
  induction pairs generalizing m with
  | nil => rfl
  | cons p rest ih =>
      rw [List.map_cons, List.mem_cons, not_or] at h
      rw [List.foldl_cons, ih h.2, get?_insert, if_neg h.1]

/-- A name that only some of the pairs have, which differ in their names, has the value there. -/
theorem get?_ofList_iff {before found after : List (String × α)}
    (hbefore : name ∉ before.map Prod.fst) (hafter : name ∉ after.map Prod.fst)
    (hfound : (found.map Prod.fst).Nodup) :
    (ofList (before ++ (found ++ after))).get? name = some value ↔ (name, value) ∈ found := by
  rw [ofList, List.foldl_append, List.foldl_append, get?_insertAll_of_not_mem hafter,
    get?_insertAll found hfound, get?_insertAll_of_not_mem hbefore]
  exact or_iff_left fun h => Option.some_ne_none value h.2.symm

end OrderedMap

namespace Text

theorem byteCount_trimStart_le (cs : List Char) : byteCount (trimStart cs) ≤ byteCount cs := by
  induction cs with
  | nil => exact Nat.le_refl _
  | cons c rest ih =>
      rw [trimStart, List.dropWhile_cons]
      split
      · exact Nat.le_trans ih (Nat.le_add_left _ _)
      · exact Nat.le_refl _

end Text

namespace Profile

open Printed (itemPath)
open Yaml (InLine hasEndingColon hasNeighbours isGap isSpacing quote spaces)

/-! ## Lists as they are written -/

/-- A text that stands for itself between brackets. -/
structure IsPlainItem (text : List Char) : Prop where
  nonempty : text ≠ []
  inLine : InLine text
  head : ∀ c ∈ text.head?, isGap c = false ∧ c ∉ "?:#&*!|>'\"%@`".toList
  last : ∀ c ∈ text.getLast?, isGap c = false
  dash : ∀ rest, text = '-' :: rest → ∃ c ∈ rest.head?, isGap c = false
  inner : ∀ c ∈ text, c ∉ ",[]\x7b\x7d".toList
  colon : hasEndingColon text = false
  question : hasNeighbours (· == ':') (· == '?') text = false
  hash : hasNeighbours isGap (· == '#') text = false

/-- Whether quotes stay open up to the end of what they hold: a single quote has to be doubled, and
a double one to stand after a backslash. -/
def staysOpen : Bool → List Char → Bool
  | _, [] => true
  | true, '\'' :: '\'' :: rest => staysOpen true rest
  | true, '\'' :: _ => false
  | false, '\\' :: _ :: rest => staysOpen false rest
  | false, ['\\'] => false
  | false, '"' :: _ => false
  | single, _ :: rest => staysOpen single rest

/-- How a scalar is written in a list. -/
inductive IsItemText : List Char → Prop where
  | plain {text : List Char} (h : IsPlainItem text) : IsItemText text
  | quoted {single : Bool} {body : List Char} (hline : InLine body)
      (hopen : staysOpen single body = true) :
      IsItemText (quote single :: (body ++ [quote single]))

/-- Spaces and tabs. -/
def IsSpacing (cs : List Char) : Prop := ∀ c ∈ cs, isSpacing c = true

/-- An item of a list, with what stands around it. -/
structure FlowItem where
  before : List Char
  text : List Char
  after : List Char
  hbefore : IsSpacing before
  isText : IsItemText text
  hafter : IsSpacing after

namespace FlowItem

def written (x : FlowItem) : List Char := x.before ++ (x.text ++ x.after)

/-- The outline takes the item for one, and sees where it begins. -/
def IsSeen (x : FlowItem) : Prop := ',' ∉ x.text ∧ ∀ c ∈ x.text.head?, Text.isBlank c = false

end FlowItem

/-- Items with commas between them. -/
def itemsText : List FlowItem → List Char
  | [] => []
  | [x] => x.written
  | x :: y :: rest => x.written ++ ',' :: itemsText (y :: rest)

/-- Where the items begin. -/
def itemPlaces (line : Nat) : Nat → List FlowItem → List Location
  | _, [] => []
  | column, x :: rest =>
    ⟨line, column + Text.byteCount x.before⟩ ::
      itemPlaces line (column + Text.byteCount x.written + 1) rest

/-! ## Reading a list character by character -/

section Reading

variable (path : String) (line : Nat)

/-- What the outline finds from a place inside a list; `seen` tells whether the item there has
begun. -/
def listEntries : Nat → Nat → Bool → List Char → List Entry
  | _, _, _, [] => []
  | column, i, seen, c :: rest =>
    if c = ',' then listEntries (column + 1) (i + 1) false rest
    else if seen || Text.isBlank c then listEntries (column + c.utf8Size) i seen rest
    else (itemPath path i, ⟨line, column⟩) :: listEntries (column + c.utf8Size) i true rest

/-- Cutting at commas and numbering the pieces is reading character by character. -/
theorem itemEntries_splitAll (cs : List Char) (column i : Nat) :
    itemEntries path line column i (Text.splitAll ',' cs) = listEntries path line column i false cs := by
  -- Where the item has begun, only the pieces after the first one count.
  have hboth : ∀ (cs : List Char) (column i : Nat), ∃ piece pieces,
      Text.splitAll ',' cs = piece :: pieces ∧
      listEntries path line column i true cs =
        itemEntries path line (column + Text.byteCount piece + 1) (i + 1) pieces ∧
      listEntries path line column i false cs = itemEntries path line column i (piece :: pieces) := by
    intro cs
    induction cs with
    | nil => exact fun column i => ⟨[], [], rfl, rfl, rfl⟩
    | cons c rest ih =>
        intro column i
        by_cases hc : c = ','
        · obtain ⟨piece, pieces, hsplit, -, hfresh⟩ := ih (column + 1) (i + 1)
          refine ⟨[], piece :: pieces, by rw [Text.splitAll, if_pos hc, hsplit], ?_, ?_⟩
          · rw [listEntries, if_pos hc, hfresh]
            rfl
          · rw [listEntries, if_pos hc, hfresh]
            rfl
        · obtain ⟨piece, pieces, hsplit, hseen, hfresh⟩ := ih (column + c.utf8Size) i
          have hcolumn : column + Text.byteCount (c :: piece) + 1 =
              column + c.utf8Size + Text.byteCount piece + 1 := by
            rw [Text.byteCount]
            omega
          refine ⟨c :: piece, pieces, by rw [Text.splitAll, if_neg hc, hsplit], ?_, ?_⟩
          · rw [listEntries, if_neg hc, Bool.true_or, if_pos rfl, hseen, hcolumn]
          · rw [listEntries, if_neg hc, Bool.false_or]
            cases hblank : Text.isBlank c with
            | true =>
                have hle := Text.byteCount_trimStart_le piece
                have htrim : Text.trimStart (c :: piece) = Text.trimStart piece := by
                  rw [Text.trimStart, List.dropWhile_cons, if_pos hblank, ← Text.trimStart]
                have hplace : column + c.utf8Size + bytesBefore piece (Text.trimStart piece) =
                    column + bytesBefore (c :: piece) (Text.trimStart piece) := by
                  rw [bytesBefore, bytesBefore, Text.byteCount]
                  omega
                rw [if_pos rfl, hfresh, itemEntries, itemEntries, htrim, hcolumn]
                cases hinner : Text.trimStart piece with
                | nil => rfl
                | cons d more =>
                    rw [hinner] at hplace
                    dsimp only
                    rw [hplace]
            | false =>
                have htrim : Text.trimStart (c :: piece) = c :: piece := by
                  rw [Text.trimStart, List.dropWhile_cons, if_neg (by rw [hblank]; decide)]
                rw [if_neg Bool.false_ne_true, hseen, itemEntries, htrim, hcolumn]
                dsimp only
                rw [bytesBefore, Nat.sub_self]
                rfl
  obtain ⟨piece, pieces, hsplit, -, hfresh⟩ := hboth cs column i
  rw [hsplit, hfresh]

variable {path line}

theorem listEntries_cons {c : Char} (hc : c ≠ ',') (rest : List Char) {column i : Nat} {seen : Bool}
    (h : (seen || Text.isBlank c) = true) : listEntries path line column i seen (c :: rest) =
      listEntries path line (column + c.utf8Size) i seen rest := by
  rw [listEntries, if_neg hc, if_pos h]

/-- Nothing is found where no item begins. -/
theorem listEntries_append {cs : List Char} (hcomma : ',' ∉ cs) {seen : Bool}
    (h : ∀ c ∈ cs, (seen || Text.isBlank c) = true) (rest : List Char) (column i : Nat) :
    listEntries path line column i seen (cs ++ rest) =
      listEntries path line (column + Text.byteCount cs) i seen rest := by
  induction cs generalizing column with
  | nil => rfl
  | cons c cs ih =>
      rw [List.forall_mem_cons] at h
      rw [List.cons_append, listEntries_cons (List.ne_of_not_mem_cons hcomma).symm _ h.1,
        ih (List.not_mem_of_not_mem_cons hcomma) h.2, Text.byteCount, Nat.add_assoc]

/-- What is found later has higher numbers and stands further right. -/
theorem mem_listEntries {cs : List Char} {column i : Nat} {seen : Bool} {e : Entry}
    (he : e ∈ listEntries path line column i seen cs) : ∃ j, e.1 = itemPath path j ∧
      (if seen then i + 1 else i) ≤ j ∧ column ≤ e.2.column := by
  induction cs generalizing column i seen with
  | nil => exact absurd he List.not_mem_nil
  | cons c rest ih =>
      rw [listEntries] at he
      split at he
      · obtain ⟨j, hj, hle, hcolumn⟩ := ih he
        refine ⟨j, hj, ?_, by omega⟩
        rw [if_neg Bool.false_ne_true] at hle
        split <;> omega
      · split at he
        · obtain ⟨j, hj, hle, hcolumn⟩ := ih he
          exact ⟨j, hj, hle, by omega⟩
        · next hnot =>
          obtain ⟨rfl, -⟩ : seen = false ∧ Text.isBlank c = false := by simpa using hnot
          rcases List.mem_cons.1 he with rfl | he
          · exact ⟨i, rfl, by simp, Nat.le_refl _⟩
          · obtain ⟨j, hj, hle, hcolumn⟩ := ih he
            rw [if_pos rfl] at hle
            exact ⟨j, hj, by simp; omega, by omega⟩

/-- Something is found at or before a character that is neither a blank nor a comma. -/
theorem exists_listEntries {cs : List Char} (h : ∃ c ∈ cs, Text.isBlank c = false ∧ c ≠ ',')
    (rest : List Char) (column i : Nat) :
    ∃ e ∈ listEntries path line column i false (cs ++ rest),
      e.2.column < column + Text.byteCount cs := by
  induction cs generalizing column i with
  | nil =>
      obtain ⟨c, hc, _⟩ := h
      exact absurd hc List.not_mem_nil
  | cons c cs ih =>
      have hpos : 0 < c.utf8Size := Char.utf8Size_pos c
      rw [List.cons_append, Text.byteCount]
      by_cases hc : c = ','
      · subst hc
        have hlater : ∃ c ∈ cs, Text.isBlank c = false ∧ c ≠ ',' := by
          obtain ⟨d, hd, hblank, hne⟩ := h
          exact ⟨d, (List.mem_cons.1 hd).resolve_left hne, hblank, hne⟩
        obtain ⟨e, he, hcolumn⟩ := ih hlater (column + 1) (i + 1)
        refine ⟨e, ?_, ?_⟩
        · rwa [listEntries, if_pos rfl]
        · have hsize : (',' : Char).utf8Size = 1 := rfl
          omega
      · rw [listEntries, if_neg hc]
        cases hblank : Text.isBlank c with
        | true =>
            have hlater : ∃ c ∈ cs, Text.isBlank c = false ∧ c ≠ ',' := by
              obtain ⟨d, hd, hd'⟩ := h
              refine ⟨d, (List.mem_cons.1 hd).resolve_left ?_, hd'⟩
              rintro rfl
              exact Bool.noConfusion (hblank.symm.trans hd'.1)
            obtain ⟨e, he, hcolumn⟩ := ih hlater (column + c.utf8Size) i
            exact ⟨e, he, by omega⟩
        | false =>
            refine ⟨_, List.mem_cons_self, ?_⟩
            dsimp only
            omega

end Reading

/-! ## Items -/

theorem isBlank_of_isSpacing {c : Char} (h : isSpacing c = true) : Text.isBlank c = true := by
  rw [isSpacing, Bool.or_eq_true, beq_iff_eq, beq_iff_eq] at h
  rcases h with rfl | rfl <;> rfl

theorem ne_of_isSpacing {c d : Char} (h : isSpacing c = true) (hd : isSpacing d = false) : c ≠ d := by
  rintro rfl
  exact Bool.noConfusion (h.symm.trans hd)

namespace IsSpacing

variable {cs : List Char}

theorem not_mem (h : IsSpacing cs) {d : Char} (hd : isSpacing d = false) : d ∉ cs :=
  fun hmem => ne_of_isSpacing (h d hmem) hd rfl

theorem blank (h : IsSpacing cs) : ∀ c ∈ cs, Text.isBlank c = true :=
  fun c hc => isBlank_of_isSpacing (h c hc)

end IsSpacing

theorem not_blank_quote (single : Bool) : Text.isBlank (quote single) = false ∧ quote single ≠ ',' := by
  cases single <;> decide

/-- A text with a comma stands in quotes, so that something comes after the comma. -/
theorem IsItemText.exists_after_comma {text u v : List Char} (h : IsItemText text)
    (hsplit : text = u ++ ',' :: v) : ∃ c ∈ v, Text.isBlank c = false ∧ c ≠ ',' := by
  cases h with
  | plain h => exact absurd (by decide) (h.inner ',' (hsplit ▸ by simp))
  | @quoted single body _ _ =>
      have hlast : (u ++ ',' :: v).getLast? = some (quote single) := by
        rw [← hsplit, ← List.cons_append, List.getLast?_append]
        rfl
      rw [List.getLast?_append] at hlast
      cases v with
      | nil => exact absurd (Option.some.inj hlast).symm (not_blank_quote single).2
      | cons d more =>
          have hmem : quote single ∈ d :: more := by
            rw [List.getLast?_cons_cons] at hlast
            cases hmore : (d :: more).getLast? with
            | none => exact absurd (List.getLast?_eq_none_iff.1 hmore) (List.cons_ne_nil _ _)
            | some c =>
                rw [hmore, Option.some_or] at hlast
                exact Option.some.inj hlast ▸ List.mem_of_getLast? hmore
          exact ⟨_, hmem, not_blank_quote single⟩

theorem IsItemText.exists_cons {text : List Char} (h : IsItemText text) :
    ∃ c rest, text = c :: rest ∧ isSpacing c = false ∧ c ≠ ',' ∧ c ≠ '#' := by
  cases h with
  | plain h =>
      obtain ⟨c, rest, rfl⟩ := List.exists_cons_of_ne_nil h.nonempty
      obtain ⟨hgap, hhead⟩ := h.head c rfl
      refine ⟨c, rest, rfl, (Yaml.not_gap_facts hgap).1, ?_, ?_⟩
      · rintro rfl
        exact h.inner ',' List.mem_cons_self (by decide)
      · rintro rfl
        exact hhead (by decide)
  | @quoted single body _ _ =>
      refine ⟨_, _, rfl, ?_⟩
      cases single <;> decide

/-- A plain item is seen if it does not begin with a blank that is neither a space nor a tab. -/
theorem FlowItem.isSeen_iff_of_plain {x : FlowItem} (h : IsPlainItem x.text) :
    x.IsSeen ↔ ∀ c ∈ x.text.head?, Text.isBlank c = false :=
  and_iff_right fun hcomma => h.inner ',' hcomma (by decide)

/-- An item in quotes is seen if there is no comma in them. -/
theorem FlowItem.isSeen_iff_of_quoted {x : FlowItem} {single : Bool} {body : List Char}
    (h : x.text = quote single :: (body ++ [quote single])) : x.IsSeen ↔ ',' ∉ body := by
  obtain ⟨hblank, hcomma⟩ := not_blank_quote single
  unfold FlowItem.IsSeen
  rw [h, List.mem_cons, List.mem_append, List.mem_singleton, not_or, not_or]
  constructor
  · exact fun hseen => hseen.1.2.1
  · exact fun hbody => ⟨⟨hcomma.symm, hbody, hcomma.symm⟩, fun c hc => Option.some.inj hc ▸ hblank⟩

/-- What may stand between the last item and the bracket: nothing, or a comma and blanks. -/
def IsClosing (cs : List Char) : Prop := cs = [] ∨ ∃ blanks, IsSpacing blanks ∧ cs = ',' :: blanks

section Items

variable {path : String} {line column i : Nat} {x : FlowItem} {closing : List Char}

theorem listEntries_spacing {cs : List Char} (h : IsSpacing cs) (rest : List Char) (seen : Bool) :
    listEntries path line column i seen (cs ++ rest) =
      listEntries path line (column + Text.byteCount cs) i seen rest :=
  listEntries_append (h.not_mem (by decide)) (fun c hc => by rw [h.blank c hc, Bool.or_true]) rest _ _

theorem listEntries_closing (h : IsClosing closing) (seen : Bool) :
    listEntries path line column i seen closing = [] := by
  obtain rfl | ⟨blanks, hblanks, rfl⟩ := h
  · rfl
  · rw [listEntries, if_pos rfl, ← List.append_nil blanks, listEntries_spacing hblanks]
    rfl

/-- An item is found where it begins, if it is seen. -/
theorem listEntries_item (h : x.IsSeen) (rest : List Char) :
    listEntries path line column i false (x.written ++ rest) =
      (itemPath path i, ⟨line, column + Text.byteCount x.before⟩) ::
        listEntries path line (column + Text.byteCount x.written) i true rest := by
  obtain ⟨c, more, htext, -, hc, -⟩ := x.isText.exists_cons
  obtain ⟨hcomma, hblank⟩ := h
  rw [htext] at hcomma hblank
  have hafter : ',' ∉ more ++ x.after := by
    rw [List.mem_append, not_or]
    exact ⟨List.not_mem_of_not_mem_cons hcomma, x.hafter.not_mem (by decide)⟩
  have hbytes : column + Text.byteCount x.written =
      column + Text.byteCount x.before + c.utf8Size + Text.byteCount (more ++ x.after) := by
    rw [FlowItem.written, htext, Text.byteCount_append, List.cons_append, Text.byteCount]
    omega
  rw [FlowItem.written, List.append_assoc, listEntries_spacing x.hbefore, htext, List.cons_append,
    List.cons_append, listEntries, if_neg hc, hblank c rfl, if_neg (by decide),
    listEntries_append hafter (fun _ _ => rfl), ← hbytes, FlowItem.written, htext, List.cons_append]

end Items

/-- The entries are those of items at these places, numbered from `i` on. -/
def Lists (path : String) (i : Nat) (found : List Entry) (places : List Location) : Prop :=
  ∀ j l, (itemPath path j, l) ∈ found ↔ i ≤ j ∧ places[j - i]? = some l

section Lists

variable {path : String} {line column i : Nat} {x : FlowItem} {items : List FlowItem}
  {closing : List Char}

theorem itemPath_inj {j j' : Nat} (h : itemPath path j = itemPath path j') : j = j' :=
  Printed.itemPath_injective
    (by rw [h] : (itemPath path j).toList ++ [] = (itemPath path j').toList ++ [])

theorem mem_itemPlaces {l : Location} (h : l ∈ itemPlaces line column items) : column ≤ l.column := by
  induction items generalizing column with
  | nil => exact absurd h List.not_mem_nil
  | cons x rest ih =>
      rcases List.mem_cons.1 h with rfl | h
      · exact Nat.le_add_right _ _
      · have := ih h
        omega

theorem lists_nil : Lists path i [] [] := fun j l => by simp

theorem lists_cons {found : List Entry} {places : List Location} {l : Location}
    (hfound : ∀ e ∈ found, ∃ j, e.1 = itemPath path j ∧ i + 1 ≤ j) :
    Lists path i ((itemPath path i, l) :: found) (l :: places) ↔ Lists path (i + 1) found places := by
  have hlater : ∀ {j : Nat} {l' : Location}, (itemPath path j, l') ∈ found → i + 1 ≤ j := by
    intro j l' hmem
    obtain ⟨j', hj, hle⟩ := hfound _ hmem
    rwa [itemPath_inj hj]
  have hindex : ∀ {j : Nat}, i + 1 ≤ j → (l :: places)[j - i]? = places[j - (i + 1)]? := by
    intro j hj
    rw [show j - i = j - (i + 1) + 1 by omega, List.getElem?_cons_succ]
  constructor
  · intro h j l'
    constructor
    · intro hmem
      have hle := hlater hmem
      have hplace := ((h j l').1 (List.mem_cons_of_mem _ hmem)).2
      rw [hindex hle] at hplace
      exact ⟨hle, hplace⟩
    · rintro ⟨hle, hplace⟩
      rw [← hindex hle] at hplace
      rcases List.mem_cons.1 ((h j l').2 ⟨by omega, hplace⟩) with heq | hmem
      · have hj := itemPath_inj (Prod.mk.inj heq).1
        omega
      · exact hmem
  · intro h j l'
    by_cases hj : j = i
    · subst hj
      rw [Nat.sub_self, List.getElem?_cons_zero, List.mem_cons]
      constructor
      · rintro (heq | hmem)
        · exact ⟨Nat.le_refl _, by rw [(Prod.mk.inj heq).2]⟩
        · exact absurd (hlater hmem) (by omega)
      · rintro ⟨_, hplace⟩
        exact .inl (by rw [Option.some.inj hplace])
    · rw [List.mem_cons, h j l']
      constructor
      · rintro (heq | ⟨hle, hplace⟩)
        · exact absurd (itemPath_inj (Prod.mk.inj heq).1) hj
        · exact ⟨by omega, by rwa [hindex hle]⟩
      · rintro ⟨hle, hplace⟩
        have hle' : i + 1 ≤ j := by omega
        exact .inr ⟨hle', by rwa [hindex hle'] at hplace⟩

/-- The text after an item leads to the next one. -/
theorem exists_itemsText (hclosing : IsClosing closing) (x : FlowItem) (rest : List FlowItem) :
    ∃ tail, itemsText (x :: rest) ++ closing = x.written ++ tail ∧
      ∀ column i seen, listEntries path line column i seen tail =
        listEntries path line (column + 1) (i + 1) false (itemsText rest ++ closing) := by
  cases rest with
  | nil =>
      refine ⟨closing, rfl, fun column i seen => ?_⟩
      rw [listEntries_closing hclosing, itemsText, List.nil_append, listEntries_closing hclosing]
  | cons y rest =>
      refine ⟨',' :: (itemsText (y :: rest) ++ closing), ?_, fun column i seen => ?_⟩
      · rw [itemsText, List.append_assoc, List.cons_append]
      · rw [listEntries, if_pos rfl]

/-- An item that is not seen is not found where it begins, or a part of it is taken for another. -/
theorem not_lists (hx : ¬x.IsSeen) (tail : List Char) (places : List Location)
    (hplaces : ∀ l ∈ places, column + Text.byteCount x.written < l.column) :
    ¬Lists path i (listEntries path line column i false (x.written ++ tail))
      (⟨line, column + Text.byteCount x.before⟩ :: places) := by
  intro h
  obtain ⟨c, more, htext, -, hc, -⟩ := x.isText.exists_cons
  have hread : listEntries path line column i false (x.written ++ tail) =
      listEntries path line (column + Text.byteCount x.before) i false
        (c :: (more ++ (x.after ++ tail))) := by
    rw [FlowItem.written, List.append_assoc, listEntries_spacing x.hbefore, htext, List.append_assoc,
      List.cons_append]
  have hbytes : Text.byteCount x.written = Text.byteCount x.before +
      (c.utf8Size + Text.byteCount more + Text.byteCount x.after) := by
    rw [FlowItem.written, htext, Text.byteCount_append, Text.byteCount_append, Text.byteCount]
  rw [hread] at h
  cases hblank : Text.isBlank c with
  | true =>
      -- Whatever is found stands right of the blank with which the item begins.
      have hpos : 0 < c.utf8Size := Char.utf8Size_pos c
      have hmem := (h i ⟨line, column + Text.byteCount x.before⟩).2
        ⟨Nat.le_refl _, by rw [Nat.sub_self, List.getElem?_cons_zero]⟩
      rw [listEntries_cons hc _ (by rw [hblank]; rfl)] at hmem
      obtain ⟨_, -, -, hcolumn⟩ := mem_listEntries hmem
      dsimp only at hcolumn
      omega
  | false =>
      -- The item holds a comma, so that the rest of it is found as a further item.
      have hcomma : ',' ∈ more := by
        by_contra hnot
        refine hx ⟨?_, ?_⟩
        · rw [htext, List.mem_cons, not_or]
          exact ⟨hc.symm, hnot⟩
        · rw [htext]
          exact fun d hd => Option.some.inj hd ▸ hblank
      obtain ⟨u, v, rfl, hu⟩ := List.eq_append_cons_of_mem hcomma
      obtain ⟨e, he, hcolumn⟩ := @exists_listEntries path line _
        (x.isText.exists_after_comma (u := c :: u) htext) (x.after ++ tail)
        (column + Text.byteCount x.before + c.utf8Size + Text.byteCount u + 1) (i + 1)
      obtain ⟨j, hj, hle, -⟩ := mem_listEntries he
      rw [if_neg Bool.false_ne_true] at hle
      have hmem : (itemPath path j, e.2) ∈ listEntries path line (column + Text.byteCount x.before) i
          false (c :: (u ++ ',' :: v ++ (x.after ++ tail))) := by
        rw [listEntries, if_neg hc, hblank, if_neg (by decide), List.append_assoc, List.cons_append,
          listEntries_append hu (fun _ _ => rfl), listEntries, if_pos rfl, ← hj]
        exact List.mem_cons_of_mem _ he
      obtain ⟨-, hplace⟩ := (h j e.2).1 hmem
      rw [show j - i = j - (i + 1) + 1 by omega, List.getElem?_cons_succ] at hplace
      have hfar := hplaces e.2 (List.mem_of_getElem? hplace)
      rw [hbytes, Text.byteCount_append, Text.byteCount] at hfar
      have hsize : (',' : Char).utf8Size = 1 := rfl
      omega

theorem lists_iff (hclosing : IsClosing closing) :
    Lists path i (listEntries path line column i false (itemsText items ++ closing))
      (itemPlaces line column items) ↔ ∀ x ∈ items, x.IsSeen := by
  induction items generalizing column i with
  | nil =>
      rw [itemsText, List.nil_append, listEntries_closing hclosing, itemPlaces]
      exact iff_of_true lists_nil (List.forall_mem_nil _)
  | cons x rest ih =>
      obtain ⟨tail, htext, htail⟩ :=
        @exists_itemsText path line _ hclosing x rest
      rw [htext, itemPlaces, List.forall_mem_cons]
      by_cases hx : x.IsSeen
      · rw [listEntries_item hx, htail, lists_cons, ih]
        · exact (and_iff_right hx).symm
        · intro e he
          obtain ⟨j, hj, hle, -⟩ := mem_listEntries he
          rw [if_neg Bool.false_ne_true] at hle
          exact ⟨j, hj, hle⟩
      · refine iff_of_false (not_lists hx tail _ fun l hl => ?_) fun h => hx h.1
        have := mem_itemPlaces hl
        omega

end Lists

/-! ## The line of a list -/

/-- How a key is written that stands on a line: in quotes, without escapes, or plain. -/
inductive IsKey : List Char → List Char → Prop where
  | quoted {q : Char} {key : List Char} (hq : q = '"' ∨ q = '\'') (h : q ∉ key) :
      IsKey (q :: (key ++ [q])) key
  | plain {key : List Char} (hhead : ∃ c ∈ key.head?, Text.isBlank c = false ∧ c ∉ "\"'#[\x7b".toList)
      (hlast : Text.trimEnd key = key)
      (hcolon : ∀ a b, key = a ++ ':' :: b → ∃ c ∈ b.head?, c ≠ ' ')
      (hitem : Text.startsWith key ['-', ' '] = false)
      (hmark : Text.startsWith key "---".toList = false ∧ Text.startsWith key "...".toList = false) :
      IsKey key key

/-- A line with a key and a list. -/
structure FlowLine where
  indent : Nat
  word : List Char
  key : List Char
  isKey : IsKey word key
  /-- What stands between the space after the colon and the bracket. -/
  gap : List Char
  items : List FlowItem
  closing : List Char
  /-- What stands after the list. -/
  trailing : List Char
  nonempty : items ≠ []
  hgap : IsSpacing gap
  hclosing : IsClosing closing
  htrailing : IsSpacing trailing

namespace FlowLine

variable (l : FlowLine)

def list : List Char := '[' :: (itemsText l.items ++ l.closing ++ [']'])

def content : List Char := l.word ++ ':' :: ' ' :: (l.gap ++ l.list)

def written : List Char := spaces l.indent ++ (l.content ++ l.trailing)

/-- The column after the bracket. -/
def column : Nat := l.indent + Text.byteCount l.word + 2 + Text.byteCount l.gap + 1

/-- Where the items begin, in the line with a number. -/
def places (n : Nat) : List Location := itemPlaces n l.column l.items

end FlowLine

theorem splitColon?_plain {key : List Char}
    (h : ∀ a b, key = a ++ ':' :: b → ∃ c ∈ b.head?, c ≠ ' ') (rest : List Char) :
    splitColon? (key ++ ':' :: ' ' :: rest) = some (key, ' ' :: rest) := by
  induction key with
  | nil => rfl
  | cons c key ih =>
      have hkey := ih fun a b hab => h (c :: a) b (by rw [hab, List.cons_append])
      rw [List.cons_append, splitColon?, hkey]
      · rfl
      · rintro rfl hnil
        exact absurd hnil (by simp)
      · rintro more rfl hmore
        obtain ⟨d, hd, hne⟩ := h [] key rfl
        cases key with
        | nil => exact absurd hd (by simp)
        | cons e key => exact hne ((Option.some.inj hd).symm.trans (List.cons.inj hmore).1)

theorem splitFirst?_append {sep : Char} {cs : List Char} (h : sep ∉ cs) (rest : List Char) :
    Text.splitFirst? sep (cs ++ sep :: rest) = some (cs, rest) := by
  induction cs with
  | nil => exact if_pos rfl
  | cons c cs ih =>
      rw [List.cons_append, Text.splitFirst?, if_neg (List.ne_of_not_mem_cons h).symm,
        ih (List.not_mem_of_not_mem_cons h)]
      rfl

theorem startsWith_append {a b start : List Char} (h : Text.startsWith (a ++ b) start = true)
    (hb : ∀ c ∈ b.head?, c ∉ start) : Text.startsWith a start = true := by
  induction a generalizing start with
  | nil =>
      cases start with
      | nil => rfl
      | cons d start =>
          cases b with
          | nil => exact h
          | cons c b =>
              rw [List.nil_append, Text.startsWith, List.isPrefixOf, Bool.and_eq_true, beq_iff_eq] at h
              exact absurd (h.1 ▸ List.mem_cons_self) (hb c rfl)
  | cons c a ih =>
      cases start with
      | nil => rfl
      | cons d start =>
          rw [List.cons_append, Text.startsWith, List.isPrefixOf, Bool.and_eq_true] at h
          rw [Text.startsWith, List.isPrefixOf, Bool.and_eq_true]
          exact ⟨h.1, ih h.2 fun c hc hmem => hb c hc (List.mem_cons_of_mem _ hmem)⟩

theorem splitKey?_key {word key gap value : List Char} (hkey : IsKey word key) (hgap : IsSpacing gap)
    (hvalue : ∀ c ∈ value.head?, Text.isBlank c = false) :
    splitKey? (word ++ ':' :: ' ' :: (gap ++ value)) = some (key, value) := by
  have htrim : Text.trimStart (' ' :: (gap ++ value)) = value :=
    @Text.trimStart_append (' ' :: gap) value (List.forall_mem_cons.2 ⟨rfl, hgap.blank⟩) hvalue
  have hcolon : ∀ rest, Text.trimStart (':' :: rest) = ':' :: rest := fun _ => rfl
  cases hkey with
  | @quoted q _ hq h =>
      rw [List.cons_append, List.append_assoc, List.singleton_append]
      rcases hq with rfl | rfl
      · simp only [splitKey?, splitFirst?_append h, hcolon, htrim]
      · simp only [splitKey?, splitFirst?_append h, hcolon, htrim]
  | plain hhead hlast hcut hitem hmark =>
      obtain ⟨c, hc, -, hne⟩ := hhead
      obtain ⟨rest, rfl⟩ : ∃ rest, word = c :: rest := List.head?_eq_some_iff.1 hc
      rw [splitKey?, splitColon?_plain hcut]
      · simp only [hlast, htrim]
        split
        · next hnil => exact absurd hnil (List.cons_ne_nil _ _)
        · next hbrace => exact absurd (by rw [(List.cons.inj hbrace).1]; decide) hne
        · next hbracket => exact absurd (by rw [(List.cons.inj hbracket).1]; decide) hne
        · rfl
      · intro more hmore
        exact absurd (by rw [(List.cons.inj hmore).1]; decide) hne
      · intro more hmore
        exact absurd (by rw [(List.cons.inj hmore).1]; decide) hne

/-! ### What is no comment -/

theorem cutComment?_eq_none_iff {cs : List Char} :
    cutComment? cs = none ↔ hasNeighbours (· == ' ') (· == '#') cs = false := by
  induction cs with
  | nil => exact iff_of_true rfl rfl
  | cons c rest ih =>
      cases rest with
      | nil =>
          refine iff_of_true ?_ rfl
          rw [cutComment?]
          · rfl
          · exact fun more _ hnil => List.cons_ne_nil _ _ hnil.symm
      | cons d more =>
          rw [hasNeighbours, Bool.or_eq_false_iff, Bool.and_eq_false_imp]
          by_cases h : c = ' ' ∧ d = '#'
          · obtain ⟨rfl, rfl⟩ := h
            exact iff_of_false (Option.some_ne_none _) fun h => absurd (h.1 rfl) (by decide)
          · rw [cutComment?, Option.map_eq_none_iff, ih]
            · refine (and_iff_right fun hc => ?_).symm
              simpa using fun hd => h ⟨by simpa using hc, hd⟩
            · intro more' hc hd
              exact h ⟨hc, (List.cons.inj hd).1⟩

theorem hasNeighbours_append {p q : Char → Bool} {a b : List Char} (ha : hasNeighbours p q a = false)
    (hb : hasNeighbours p q b = false) (hhead : ∀ c ∈ b.head?, q c = false) :
    hasNeighbours p q (a ++ b) = false := by
  induction a with
  | nil => exact hb
  | cons c a ih =>
      cases a with
      | nil =>
          cases b with
          | nil => rfl
          | cons d b =>
              rw [List.singleton_append, hasNeighbours, hb, hhead d rfl]
              simp
      | cons d a =>
          rw [hasNeighbours, Bool.or_eq_false_iff] at ha
          rw [List.cons_append, List.cons_append, hasNeighbours, ha.1]
          exact ih ha.2

theorem hasNeighbours_of_not_mem {p : Char → Bool} {d : Char} {cs : List Char} (h : d ∉ cs) :
    hasNeighbours p (· == d) cs = false := by
  induction cs with
  | nil => rfl
  | cons c cs ih =>
      have hcs := List.not_mem_of_not_mem_cons h
      cases cs with
      | nil => rfl
      | cons e cs =>
          rw [hasNeighbours, ih hcs, beq_eq_false_iff_ne.2 (List.ne_of_not_mem_cons hcs).symm]
          simp

/-- No comment begins in a text, nor would one begin with it after a space. -/
structure IsUnmarked (cs : List Char) : Prop where
  inside : hasNeighbours (· == ' ') (· == '#') cs = false
  head : ∀ c ∈ cs.head?, (c == '#') = false

namespace IsUnmarked

variable {a b cs : List Char}

theorem append (ha : IsUnmarked a) (hb : IsUnmarked b) : IsUnmarked (a ++ b) where
  inside := hasNeighbours_append ha.inside hb.inside hb.head
  head := by
    cases a with
    | nil => exact hb.head
    | cons => exact ha.head

theorem of_not_mem (h : '#' ∉ cs) : IsUnmarked cs where
  inside := hasNeighbours_of_not_mem h
  head _ hc := beq_eq_false_iff_ne.2 fun heq => h (heq ▸ List.mem_of_mem_head? hc)

theorem spacing (h : IsSpacing cs) : IsUnmarked cs := of_not_mem (h.not_mem (by decide))

theorem cons {c : Char} (hc : c ≠ '#') (h : IsUnmarked cs) : IsUnmarked (c :: cs) :=
  append (a := [c]) (of_not_mem fun hmem => hc (List.mem_singleton.1 hmem).symm) h

end IsUnmarked

/-- No space stands before a number sign in the item. -/
def FlowItem.Unmarked (x : FlowItem) : Prop := hasNeighbours (· == ' ') (· == '#') x.text = false

theorem FlowItem.Unmarked.isUnmarked {x : FlowItem} (h : x.Unmarked) : IsUnmarked x.written := by
  obtain ⟨c, rest, htext, -, -, hc⟩ := x.isText.exists_cons
  have hhead : ∀ d ∈ x.text.head?, (d == '#') = false := by
    rw [htext]
    exact fun d hd => Option.some.inj hd ▸ beq_eq_false_iff_ne.2 hc
  exact (IsUnmarked.spacing x.hbefore).append
    (IsUnmarked.append ⟨h, hhead⟩ (IsUnmarked.spacing x.hafter))

theorem isUnmarked_itemsText {items : List FlowItem} (h : ∀ x ∈ items, x.Unmarked) :
    IsUnmarked (itemsText items) := by
  induction items with
  | nil => exact .of_not_mem List.not_mem_nil
  | cons x rest ih =>
      rw [List.forall_mem_cons] at h
      cases rest with
      | nil => exact h.1.isUnmarked
      | cons y rest => exact h.1.isUnmarked.append (.cons (by decide) (ih h.2))

theorem IsClosing.isUnmarked {cs : List Char} (h : IsClosing cs) : IsUnmarked cs := by
  obtain rfl | ⟨blanks, hblanks, rfl⟩ := h
  · exact .of_not_mem List.not_mem_nil
  · exact .cons (by decide) (.spacing hblanks)

/-! ### What is found in the line -/

namespace FlowLine

variable (l : FlowLine)

theorem stripComment_list (h : ∀ x ∈ l.items, x.Unmarked) : stripComment l.list = l.list := by
  have hmark : IsUnmarked l.list := .cons (by decide) (((isUnmarked_itemsText h).append
    l.hclosing.isUnmarked).append (.of_not_mem (by decide)))
  rw [stripComment, cutComment?_eq_none_iff.2 hmark.inside]
  · rfl
  · exact fun more hmore => absurd (List.cons.inj hmore).1 (by decide)
  · exact fun more hmore => absurd (List.cons.inj hmore).1 (by decide)

theorem flowItems_list (path : String) (n column : Nat) : flowItems path n column l.list =
    listEntries path n (column + 1) 0 false (itemsText l.items ++ l.closing) := by
  have htail : Text.dropTail? (itemsText l.items ++ l.closing ++ [']']) [']'] =
      some (itemsText l.items ++ l.closing) := by
    rw [Text.dropTail?, if_pos (List.isSuffixOf_iff_suffix.2 (List.suffix_append _ _)),
      List.length_append, Nat.add_sub_cancel, List.take_left']
    rfl
  have hinner : enclosed? '[' ']' l.list = some (itemsText l.items ++ l.closing) := by
    rw [list, enclosed?, if_pos (by decide), htail]
  rw [flowItems, hinner]
  exact itemEntries_splitAll ..

/-- The path of the key, inside what the lines before have opened. -/
def path (o : Outline) : String :=
  Outline.base (o.frames.dropWhile fun f => l.indent ≤ f.indent) ++ String.ofList l.key

/-- What is found in the brackets. -/
def found (o : Outline) (n : Nat) : List Entry :=
  listEntries (l.path o) n l.column 0 false (itemsText l.items ++ l.closing)

theorem key_content (h : ∀ x ∈ l.items, x.Unmarked) (o : Outline) (n : Nat) :
    (o.key n l.indent l.content).2 = (l.path o, ⟨n, l.indent⟩) :: l.found o n := by
  have hsplit : splitKey? l.content = some (l.key, l.list) :=
    splitKey?_key l.isKey l.hgap fun c hc => Option.some.inj hc ▸ rfl
  have hbytes : l.indent + bytesBefore l.content l.list =
      l.indent + Text.byteCount l.word + 2 + Text.byteCount l.gap := by
    rw [bytesBefore, content, Text.byteCount_append, Text.byteCount, Text.byteCount,
      Text.byteCount_append]
    have hcolon : (':' : Char).utf8Size = 1 ∧ (' ' : Char).utf8Size = 1 := ⟨rfl, rfl⟩
    omega
  have hlist : l.list = '[' :: (itemsText l.items ++ l.closing ++ [']']) := rfl
  rw [Outline.key, hsplit]
  simp only [l.stripComment_list h, hbytes]
  simp only [hlist]
  rw [← hlist, flowItems_list]
  unfold found path
  cases o.frames.dropWhile fun f => l.indent ≤ f.indent with
  | nil => rw [Outline.base, String.empty_append]; rfl
  | cons f frames => rfl

end FlowLine

/-- What begins lines that are not those of keys. -/
def lineMarks : List (List Char) := ["- ".toList, "---".toList, "...".toList]

theorem IsKey.exists_cons {word key : List Char} (h : IsKey word key) :
    ∃ c rest, word = c :: rest ∧ Text.isBlank c = false ∧ c ≠ '#' := by
  cases h with
  | @quoted q _ hq _ =>
      refine ⟨q, _, rfl, ?_⟩
      rcases hq with rfl | rfl <;> decide
  | plain hhead _ _ _ _ =>
      obtain ⟨c, hc, hblank, hne⟩ := hhead
      obtain ⟨rest, rfl⟩ : ∃ rest, word = c :: rest := List.head?_eq_some_iff.1 hc
      refine ⟨c, rest, rfl, hblank, ?_⟩
      rintro rfl
      exact hne (by decide)

theorem IsKey.not_mark {word key : List Char} (h : IsKey word key) :
    ∀ start ∈ lineMarks, Text.startsWith word start = false := by
  cases h with
  | @quoted q _ hq _ =>
      have hquote : ∀ start ∈ lineMarks, ∀ q ∈ ['"', '\''], ∃ d more, start = d :: more ∧ d ≠ q := by
        unfold lineMarks
        simp
      intro start hstart
      obtain ⟨d, more, rfl, hne⟩ := hquote start hstart q (by simpa using hq)
      rw [Text.startsWith, List.isPrefixOf, beq_eq_false_iff_ne.2 hne, Bool.false_and]
  | plain _ _ _ hitem hmark =>
      unfold lineMarks
      simp only [List.forall_mem_cons, List.not_mem_nil, false_imp_iff, implies_true, and_true]
      exact ⟨hitem, hmark⟩

namespace FlowLine

variable (l : FlowLine)

theorem startsWith_content {start : List Char} (h : start ∈ lineMarks) :
    Text.startsWith l.content start = false := by
  have hcolon : ∀ start ∈ lineMarks, ':' ∉ start := by decide
  have hword := l.isKey.not_mark start h
  by_contra hnot
  rw [Bool.not_eq_false] at hnot
  have hstart := startsWith_append hnot fun c hc => Option.some.inj hc ▸ hcolon start h
  rw [hword] at hstart
  cases hstart

theorem shown_content : Printed.Shown l.content where
  head := by
    obtain ⟨c, rest, hword, hc⟩ := l.isKey.exists_cons
    exact ⟨c, _, by rw [content, hword, List.cons_append], hc⟩
  last := by
    have hend : l.content =
        l.word ++ ':' :: ' ' :: (l.gap ++ '[' :: (itemsText l.items ++ l.closing)) ++ [']'] := by
      simp [content, list]
    rw [hend]
    exact Text.trimEnd_of_last List.getLast?_concat (by decide)
  noMark := ⟨l.startsWith_content (by decide), l.startsWith_content (by decide)⟩

theorem isItem_content : Profile.isItem l.content = false := by
  have hsingle : (l.content == ['-']) = false := by
    refine beq_eq_false_iff_ne.2 fun h => ?_
    have hlength := congrArg List.length h
    simp only [content, List.length_append, List.length_cons, List.length_nil] at hlength
    omega
  rw [Profile.isItem, hsingle]
  exact l.startsWith_content List.mem_cons_self

theorem line_written {o : Outline} (hscalar : ∀ b ∈ o.blockScalar, l.indent ≤ b) (n : Nat) :
    o.line n l.written = Outline.key ⟨o.frames, none⟩ n l.indent l.content := by
  have hshown := o.line_shown l.shown_content hscalar n
  rw [l.isItem_content, if_neg Bool.false_ne_true] at hshown
  rw [← hshown]
  obtain ⟨c, rest, hcontent, hblank, -⟩ := l.shown_content.head
  have hhead : ∀ d ∈ l.content.head?, d ≠ ' ' := by
    rw [hcontent]
    rintro d hd rfl
    exact Bool.noConfusion (hblank.symm.trans (by rw [Option.some.inj hd]))
  have hhead' : ∀ d ∈ (l.content ++ l.trailing).head?, d ≠ ' ' := by
    rw [hcontent] at hhead ⊢
    exact hhead
  rw [Outline.line, Outline.line, written, Outline.takeWhile_space_append hhead',
    Outline.takeWhile_space_append hhead, Outline.drop_spaces, Outline.drop_spaces,
    Text.trimEnd_append_blank _ l.htrailing.blank]

end FlowLine

/-! ## Texts with a list -/

namespace Outline

/-- What lines have opened, the first of which has the number `n`. -/
def afterLines (o : Outline) (n : Nat) : List (List Char) → Outline
  | [] => o
  | raw :: rest => (o.line n raw).1.afterLines (n + 1) rest

theorem entries_append (o : Outline) (n : Nat) (before after : List (List Char)) :
    o.entries n (before ++ after) =
      o.entries n before ++ (o.afterLines n before).entries (n + before.length) after := by
  induction before generalizing o n with
  | nil => rfl
  | cons raw rest ih =>
      have hindex : n + (rest.length + 1) = n + 1 + rest.length := by omega
      simp only [List.cons_append, entries, afterLines, ih, List.length_cons, List.append_assoc, hindex]

theorem afterLines_append (o : Outline) (n : Nat) (before after : List (List Char)) :
    o.afterLines n (before ++ after) =
      (o.afterLines n before).afterLines (n + before.length) after := by
  induction before generalizing o n with
  | nil => rfl
  | cons raw rest ih =>
      have hindex : n + (rest.length + 1) = n + 1 + rest.length := by omega
      simp only [List.cons_append, afterLines, ih, List.length_cons, hindex]

end Outline

theorem itemPath_ne (path : String) (j : Nat) : itemPath path j ≠ path := by
  intro h
  have hlength := congrArg (fun s => s.toList.length) h
  rw [Printed.toList_itemPath] at hlength
  simp at hlength

theorem nodup_listEntries {path : String} {line : Nat} (cs : List Char) (column i : Nat) (seen : Bool) :
    ((listEntries path line column i seen cs).map Prod.fst).Nodup := by
  induction cs generalizing column i seen with
  | nil => exact List.nodup_nil
  | cons c rest ih =>
      rw [listEntries]
      split
      · exact ih ..
      · split
        · exact ih ..
        · refine List.nodup_cons.2 ⟨fun hmem => ?_, ih ..⟩
          obtain ⟨e, he, hpath⟩ := List.mem_map.1 hmem
          obtain ⟨j, hj, hle, -⟩ := mem_listEntries he
          rw [if_pos rfl] at hle
          have hsame := itemPath_inj (hj.symm.trans hpath)
          omega

/-- The line stands in a text between other lines, not inside a block scalar, and no other line has
items of its key. -/
structure FlowLine.StandsIn (l : FlowLine) (text : String) (before after : List (List Char)) :
    Prop where
  lines : Text.lines text.toList = before ++ l.written :: after
  scalar : ∀ b ∈ (Outline.start.afterLines 1 before).blockScalar, l.indent ≤ b
  alone : ∀ e ∈ Outline.start.entries 1 before ++
      (Outline.start.afterLines 1 (before ++ [l.written])).entries (before.length + 2) after,
    ∀ j, e.1 ≠ itemPath (l.path (Outline.start.afterLines 1 before)) j

theorem FlowLine.StandsIn.ofText_eq {l : FlowLine} {text : String} {before after : List (List Char)}
    (h : l.StandsIn text before after) (hmark : ∀ x ∈ l.items, x.Unmarked) :
    ∃ first last : List Entry, LineIndex.ofText text = .ofList (first ++
        (l.found (Outline.start.afterLines 1 before) (before.length + 1) ++ last)) ∧
      ∀ e ∈ first ++ last, ∀ j, e.1 ≠ itemPath (l.path (Outline.start.afterLines 1 before)) j := by
  have hscalar := h.scalar
  have halone := h.alone
  have hentries : LineIndex.ofText text = .ofList (Outline.start.entries 1 before ++
      ((Outline.start.afterLines 1 before).line (before.length + 1) l.written).2 ++
        (Outline.start.afterLines 1 (before ++ [l.written])).entries (before.length + 2) after) := by
    rw [LineIndex.ofText, h.lines, Outline.entries_append, Outline.afterLines_append,
      Nat.add_comm 1, List.append_assoc]
    rfl
  generalize Outline.start.afterLines 1 (before ++ [l.written]) = later at halone hentries
  generalize Outline.start.afterLines 1 before = o at hscalar halone hentries ⊢
  have hline : (o.line (before.length + 1) l.written).2 =
      [(l.path o, ⟨before.length + 1, l.indent⟩)] ++ l.found o (before.length + 1) := by
    rw [l.line_written hscalar]
    exact l.key_content hmark ⟨o.frames, none⟩ _
  refine ⟨Outline.start.entries 1 before ++ [(l.path o, ⟨before.length + 1, l.indent⟩)],
    later.entries (before.length + 2) after, ?_, fun e he j => ?_⟩
  · rw [hentries, hline]
    simp only [List.append_assoc]
  · rw [List.append_assoc, List.mem_append, List.mem_append, List.mem_singleton] at he
    rcases he with he | rfl | he
    · exact halone e (List.mem_append_left _ he) j
    · exact (itemPath_ne _ j).symm
    · exact halone e (List.mem_append_right _ he) j

/-- The line index has all items of a list on one line, each where it begins, and no others, exactly
if each of them is seen: no comma stands in quotes and no plain item begins with a blank. What looks
like a comment in quotes is another matter, since the line is cut there. -/
theorem flow_items_located_iff {l : FlowLine} {text : String} {before after : List (List Char)}
    (h : l.StandsIn text before after) (hmark : ∀ x ∈ l.items, x.Unmarked) :
    (∀ j, (LineIndex.ofText text).get? (itemPath (l.path (Outline.start.afterLines 1 before)) j) =
      (l.places (before.length + 1))[j]?) ↔ ∀ x ∈ l.items, x.IsSeen := by
  obtain ⟨first, last, hindex, hother⟩ := h.ofText_eq hmark
  generalize Outline.start.afterLines 1 before = o at hindex hother
  have hnot : ∀ {found : List Entry} (j : Nat), found ⊆ first ++ last →
      itemPath (l.path o) j ∉ found.map Prod.fst := by
    intro found j hsub hmem
    obtain ⟨e, he, hpath⟩ := List.mem_map.1 hmem
    exact hother e (hsub he) j hpath
  have hget : ∀ j place, (LineIndex.ofText text).get? (itemPath (l.path o) j) = some place ↔
      (itemPath (l.path o) j, place) ∈ l.found o (before.length + 1) := by
    intro j place
    rw [hindex]
    exact OrderedMap.get?_ofList_iff (hnot j (List.subset_append_left _ _))
      (hnot j (List.subset_append_right _ _)) (nodup_listEntries ..)
  rw [← @lists_iff (l.path o) (before.length + 1) l.column 0 _ _ l.hclosing]
  constructor
  · intro hall j place
    rw [← FlowLine.found, ← hget, hall, Nat.sub_zero]
    exact (and_iff_right (Nat.zero_le j)).symm
  · intro hlists j
    refine Option.ext fun place => ?_
    rw [hget, FlowLine.found, hlists j place, Nat.sub_zero]
    exact and_iff_right (Nat.zero_le j)

theorem isPlainItem_letter : IsPlainItem ['c'] where
  nonempty := List.cons_ne_nil _ _
  inLine := by decide
  head c hc := by
    obtain rfl : 'c' = c := Option.some.inj hc
    decide
  last c hc := by
    obtain rfl : 'c' = c := Option.some.inj hc
    rfl
  dash rest h := absurd (List.cons.inj h).1 (by decide)
  inner := List.forall_mem_singleton.2 (by decide)
  colon := rfl
  question := rfl
  hash := rfl

/-- A line with two values, the first one in quotes. -/
def twoValues (body : List Char) (hline : InLine body) (hopen : staysOpen false body = true) :
    FlowLine where
  indent := 0
  word := "values".toList
  key := "values".toList
  isKey := .plain ⟨'v', rfl, by decide⟩ (by decide)
    (fun a b h => absurd (h ▸ List.mem_append_right a List.mem_cons_self : ':' ∈ "values".toList)
      (by decide)) (by decide) (by decide)
  gap := []
  items := [⟨[], _, [], List.forall_mem_nil _, .quoted hline hopen, List.forall_mem_nil _⟩,
    ⟨[' '], ['c'], [], List.forall_mem_singleton.2 rfl, .plain isPlainItem_letter,
      List.forall_mem_nil _⟩]
  closing := []
  trailing := []
  nonempty := List.cons_ne_nil _ _
  hgap := List.forall_mem_nil _
  hclosing := .inl rfl
  htrailing := List.forall_mem_nil _

theorem twoValues_located :
    (twoValues "a b".toList (by decide) rfl).StandsIn "values: [\"a b\", c]\n" [] [] ∧
    (∀ x ∈ (twoValues "a b".toList (by decide) rfl).items, x.Unmarked) ∧
    (∀ x ∈ (twoValues "a b".toList (by decide) rfl).items, x.IsSeen) ∧
    ∀ j, (LineIndex.ofText "values: [\"a b\", c]\n").get? (itemPath "values" j) =
      [(⟨1, 9⟩ : Location), ⟨1, 16⟩][j]? := by
  have hstands : (twoValues "a b".toList (by decide) rfl).StandsIn "values: [\"a b\", c]\n" [] [] :=
    ⟨by decide +kernel, fun _ hb => absurd hb (Option.not_mem_none _),
      fun _ he => absurd he List.not_mem_nil⟩
  have hmark : ∀ x ∈ (twoValues "a b".toList (by decide) rfl).items, x.Unmarked :=
    List.forall_mem_cons.2 ⟨rfl, List.forall_mem_singleton.2 rfl⟩
  have hseen : ∀ x ∈ (twoValues "a b".toList (by decide) rfl).items, x.IsSeen :=
    List.forall_mem_cons.2 ⟨⟨by decide, fun c hc => Option.some.inj hc ▸ rfl⟩,
      List.forall_mem_singleton.2 ⟨by decide, fun c hc => Option.some.inj hc ▸ rfl⟩⟩
  exact ⟨hstands, hmark, hseen, (flow_items_located_iff hstands hmark).2 hseen⟩

theorem comma_in_quotes_divides :
    Yaml.read "values: [\"a, b\", c]\n" =
      .ok (.mapping [(.string "values", .sequence [.string "a, b", .string "c"])]) ∧
    (LineIndex.ofText "values: [\"a, b\", c]\n").pairs =
      [("values", ⟨1, 0⟩), ("values[0]", ⟨1, 9⟩), ("values[1]", ⟨1, 13⟩), ("values[2]", ⟨1, 17⟩)] :=
  ⟨Yaml.Value.read_eq_ok rfl (by decide +kernel), by decide +kernel⟩

end Profile

end GrammarProfile
