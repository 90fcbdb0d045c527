import GrammarProfile.Proofs.Edits
import GrammarProfile.Proofs.LaidParts

/-!
What is read of a printed document once it is laid out: the same value, if all its literal blocks are
recognised.
-/
namespace GrammarProfile

/-! ## Characters of laid out texts -/

namespace Text

theorem mem_splitAll {sep : Char} {cs : List Char} :
    ∀ piece ∈ splitAll sep cs, ∀ c ∈ piece, c ∈ cs := by
  induction cs with
  | nil => simp [splitAll]
  | cons d rest ih =>
      rw [splitAll]
      split
      · exact List.forall_mem_cons.2 ⟨fun c hc => absurd hc List.not_mem_nil,
          fun piece hpiece c hc => List.mem_cons_of_mem _ (ih piece hpiece c hc)⟩
      · split
        · next hnil => exact absurd hnil (splitAll_ne_nil sep rest)
        · next piece pieces hpieces =>
          rw [hpieces] at ih
          obtain ⟨hpiece, hmore⟩ := List.forall_mem_cons.1 ih
          exact List.forall_mem_cons.2 ⟨List.forall_mem_cons.2 ⟨List.mem_cons_self,
              fun c hc => List.mem_cons_of_mem _ (hpiece c hc)⟩,
            fun piece hpiece c hc => List.mem_cons_of_mem _ (hmore piece hpiece c hc)⟩

theorem mem_dropReturn {line : List Char} {c : Char} (h : c ∈ dropReturn line) : c ∈ line := by
  unfold dropReturn at h
  split at h
  · exact List.dropLast_subset _ h
  · exact h

theorem mem_linesOfPieces {cs : List Char} {pieces : List (List Char)}
    (h : ∀ piece ∈ pieces, ∀ c ∈ piece, c ∈ cs) :
    ∀ line ∈ linesOfPieces pieces, ∀ c ∈ line, c ∈ cs := by
  induction pieces with
  | nil => exact fun _ hline => absurd hline List.not_mem_nil
  | cons piece rest ih =>
      obtain ⟨hpiece, hrest⟩ := List.forall_mem_cons.1 h
      cases rest with
      | nil =>
          rw [linesOfPieces]
          split
          · exact fun _ hline => absurd hline List.not_mem_nil
          · exact h
      | cons next more =>
          rw [linesOfPieces]
          · exact List.forall_mem_cons.2 ⟨fun c hc => hpiece c (mem_dropReturn hc), ih hrest⟩
          · exact fun hnil => by cases hnil

/-- Lines hold nothing but characters of the text. -/
theorem mem_lines {cs line : List Char} {c : Char} (hline : line ∈ lines cs) (hc : c ∈ line) : c ∈ cs :=
  mem_linesOfPieces mem_splitAll line hline c hc

/-- A text that is not empty has a line. -/
theorem lines_ne_nil {cs : List Char} (h : cs ≠ []) : lines cs ≠ [] := by
  obtain ⟨c, rest, rfl⟩ := List.exists_cons_of_ne_nil h
  obtain ⟨piece, pieces, hpieces⟩ := List.exists_cons_of_ne_nil (splitAll_ne_nil '\n' rest)
  rw [lines, splitAll, hpieces]
  split
  · simp [linesOfPieces]
  · cases pieces <;> simp [linesOfPieces]

end Text

namespace Profile.Layout

open Text (Clean)
open Yaml (fill fill_nil fill_cons)

theorem Kept.mem {line written : List Char} (h : Kept line written) {c : Char} (hc : c ∈ written) :
    c ∈ line := by
  rcases h.cases with rfl | ⟨key, rfl, rfl⟩
  · exact hc
  · rcases List.mem_append.1 hc with hc | hc
    · exact List.mem_append_left _ hc
    · exact List.mem_append_right _ (List.mem_singleton.1 hc ▸ by decide)

theorem mem_layLines {cs : List Char} {ls : List (List Char)} (h : ∀ line ∈ ls, ∀ c ∈ line, c ∈ cs)
    (s : State) : ∀ written ∈ layLines s ls, ∀ c ∈ written, c ∈ cs := by
  induction ls generalizing s with
  | nil => exact fun _ hline => absurd hline List.not_mem_nil
  | cons line rest ih =>
      obtain ⟨hline, hrest⟩ := List.forall_mem_cons.1 h
      obtain ⟨blanks, written, after, hlays⟩ := exists_lays s line
      rw [layLines, hlays.lay]
      refine List.forall_mem_append.2 ⟨List.forall_mem_append.2 ⟨fun b hb c hc => ?_,
        List.forall_mem_singleton.2 fun c hc => hline c (hlays.kept.mem hc)⟩, ih hrest after⟩
      exact absurd (hlays.blank b hb ▸ hc) List.not_mem_nil

/-- Laying out adds line feeds only. -/
theorem mem_lay {s : State} {cs : List Char} {c : Char} (h : c ∈ Layout.lay s cs) : c = '\n' ∨ c ∈ cs := by
  obtain ⟨line, hline, hc⟩ := List.mem_flatMap.1 h
  rcases List.mem_append.1 hc with hc | hc
  · exact .inr (mem_layLines (fun _ hl _ hc => Text.mem_lines hl hc) s line hline c hc)
  · exact .inl (List.mem_singleton.1 hc)

/-- What is written for a whole text. -/
theorem Tidier.Turns.whole {T : Tidier} {w : List Char} {Q : List Char → T.State → Prop}
    (h : T.Turns [] w Q) : ∃ after, Q (T.lay T.start w) after := by
  obtain ⟨blanks, written, after, hlay, hblanks, hQ⟩ := h T.start []
  obtain rfl := hblanks.2 T.quiet_start
  rw [List.append_nil, List.nil_append, fill_nil, List.nil_append, List.nil_append, T.lay_nil,
    List.append_nil] at hlay
  exact ⟨after, hlay ▸ hQ⟩

end Profile.Layout

namespace Yaml

open Profile.Layout (Tidier tidy)

/-- Where a document stands. -/
def Site.root : Site := ⟨.document, false, 0, [], [], some 0, true⟩

theorem Site.root_sound : Site.root.Sound where
  clean := Text.clean_nil
  null := fun ⟨_, h⟩ => absurd h.symm (List.append_ne_nil_of_right_ne_nil _ (by decide))
  colon h := nomatch h
  outer := .inl ⟨rfl, rfl, rfl⟩
  bare _ _ := rfl
  start _ _ := ⟨rfl, rfl⟩

theorem Site.sees_root : Site.root.Sees false false := ⟨fun h => (nomatch h), fun _ _ => rfl⟩

/-- The first token of a document. -/
theorem Tree.exists_root {t : Tree} (h : t.Fits false) : ∃ k ks, t.kinds = k :: ks ∧ IsRoot k := by
  cases t with
  | absent => exact absurd h Bool.false_ne_true
  | sequence indentless items =>
      cases indentless with
      | true => exact absurd (h.1 rfl).1 Bool.false_ne_true
      | false => exact ⟨_, _, rfl, rfl, by simp, by simp⟩
  | _ => exact ⟨_, _, rfl, rfl, by simp [tagKind], by simp [tagKind]⟩

/-- A document whose value is read, with the events of a tree. -/
theorem exists_events {T : Tidier} {ok : Prop} {shapes : List Shape} {after : T.State} {t : Tree}
    {text : String} (h : Whole .root T ok shapes text.toList after t)
    (hallowed : ∀ c ∈ text.toList, isAllowed c = true) :
    (ok ∧ text.toList ≠ [] ∧ ∃ es : List Event, List.Forall₂ Alike shapes (es.map Event.shape) ∧
      Document.ofText text = ⟨es, none, false⟩) ∨ (¬ok ∧ ∀ v, read text ≠ .ok v) := by
  have hhead : AtToken text.toList := by
    have := h.token rfl []
    rwa [List.append_nil] at this
  obtain ⟨k, ks, hkinds, hk⟩ := Tree.exists_root h.fits
  have hne : t ≠ .absent := by
    rintro rfl
    exact nomatch hkinds
  rcases tokens_of_places (List.append_nil _).symm h.places
    (fun _ hline => absurd hline List.not_mem_nil) (T.may_nil after) hallowed hhead.no_mark with
    ⟨hok, ts, htokens, hts⟩ | ⟨hok, ts, e, htokens, hend⟩
  · obtain ⟨es, hes, hdocument⟩ := ofText_of_tree htokens hts hne h.fits hkinds hk
    refine .inl ⟨hok, fun hempty => ?_, es, hes ▸ h.shapes, hdocument⟩
    have hend : (tokens "").1.map Token.kind = [.streamEnd] := by decide +kernel
    rw [← String.toList_eq_nil_iff.1 hempty, htokens, hts, hkinds] at hend
    exact absurd (List.cons.inj hend).2 (List.append_ne_nil_of_right_ne_nil _ (List.cons_ne_nil _ _))
  · exact .inr ⟨hok, read_of_unfinished htokens hend⟩

theorem EventsAlike.of_shapes {shapes : List Shape} {es es' : List Event}
    (h : List.Forall₂ Alike shapes (es.map Event.shape))
    (h' : List.Forall₂ Alike shapes (es'.map Event.shape)) : EventsAlike es es' := by
  induction shapes generalizing es es' with
  | nil =>
      obtain rfl := List.map_eq_nil_iff.1 (List.forall₂_nil_left_iff.1 h)
      obtain rfl := List.map_eq_nil_iff.1 (List.forall₂_nil_left_iff.1 h')
      exact .nil
  | cons s shapes ih =>
      obtain ⟨_, _, hs, hrest, heq⟩ := List.forall₂_cons_left_iff.1 h
      obtain ⟨_, _, hs', hrest', heq'⟩ := List.forall₂_cons_left_iff.1 h'
      obtain ⟨e, es, rfl, rfl, rfl⟩ := List.map_eq_cons_iff.1 heq
      obtain ⟨e', es', rfl, rfl, rfl⟩ := List.map_eq_cons_iff.1 heq'
      exact .cons (hs.symm.trans hs') (ih hrest hrest')

/-- Nothing is read of a text with a character that is not allowed. -/
theorem isAllowed_of_read {text : String} {v : Value} (h : read text = .ok v)
    (hhead : AtToken text.toList) : ∀ c ∈ text.toList, isAllowed c = true := by
  cases hall : text.toList.all isAllowed with
  | true => exact List.all_eq_true.1 hall
  | false =>
      have htokens := tokens_eq hhead.no_mark
      rw [hall] at htokens
      exact absurd h (read_of_unfinished htokens List.not_mem_nil v)

/-! ## Values that are the same -/

namespace Value

theorem isTagged_of_same {v w : Value} (h : v.same w = true) : v.isTagged = w.isTagged := by
  cases v <;> cases w <;> first | rfl | exact nomatch h

mutual

/-- A value that is the same as one without two tags on each other has none either. -/
theorem singleTags_of_same {v w : Value} (h : v.same w = true) (hw : w.SingleTags) : v.SingleTags := by
  match v with
  | null => exact .null
  | bool b => exact .bool b
  | number n => exact .number n
  | string s => exact .string s
  | sequence items =>
      cases hw with
      | sequence hitems => exact .sequence (singleTags_of_sameItems h hitems)
      | _ => exact nomatch h
  | mapping pairs =>
      cases hw with
      | mapping hkeys hvalues =>
          rw [same, Bool.and_eq_true] at h
          have hpairs := singleTags_of_samePairs h.2 hkeys hvalues
          exact .mapping (fun p hp => (hpairs p hp).1) fun p hp => (hpairs p hp).2
      | _ => exact nomatch h
  | tagged t v =>
      cases hw with
      | tagged u hsingle hv =>
          rw [same, Bool.and_eq_true] at h
          exact .tagged t (singleTags_of_same h.2 hsingle) ((isTagged_of_same h.2).trans hv)
      | _ => exact nomatch h

theorem singleTags_of_sameItems {vs ws : List Value} (h : sameItems vs ws = true)
    (hws : ∀ w ∈ ws, w.SingleTags) : ∀ v ∈ vs, v.SingleTags := by
  match vs, ws with
  | [], _ => exact fun _ hv => absurd hv List.not_mem_nil
  | v :: vs, [] => exact nomatch h
  | v :: vs, w :: ws =>
      rw [sameItems, Bool.and_eq_true] at h
      obtain ⟨hw, hrest⟩ := List.forall_mem_cons.1 hws
      exact List.forall_mem_cons.2 ⟨singleTags_of_same h.1 hw, singleTags_of_sameItems h.2 hrest⟩

theorem singleTags_of_samePairs {ps qs : List (Value × Value)} (h : samePairs ps qs = true)
    (hkeys : ∀ q ∈ qs, q.1.SingleTags) (hvalues : ∀ q ∈ qs, q.2.SingleTags) :
    ∀ p ∈ ps, p.1.SingleTags ∧ p.2.SingleTags := by
  match ps with
  | [] => exact fun _ hp => absurd hp List.not_mem_nil
  | (k, v) :: ps =>
      rw [samePairs, Bool.and_eq_true] at h
      obtain ⟨q, hq, hsame⟩ := List.any_eq_true.1 h.1
      rw [Bool.and_eq_true] at hsame
      exact List.forall_mem_cons.2 ⟨⟨singleTags_of_same hsame.1 (hkeys q hq),
        singleTags_of_same hsame.2 (hvalues q hq)⟩, singleTags_of_samePairs h.2 hkeys hvalues⟩

end

end Value

/-! ## Whole documents -/

section Documents

variable {v : Value}

theorem toList_render (v : Value) : v.render.toList = v.print .document 0 [] := String.toList_ofList

/-- What is read of a document as it is printed. -/
theorem whole_render (hsingle : v.SingleTags) (hseen : v.blocksSeen false false = true) :
    ∃ after t, Whole .root Tidier.untouched v.Readable (v.shapes none) v.render.toList after t := by
  rw [toList_render]
  exact ((Value.laid v hsingle).2 rfl Site.root_sound Site.sees_root hseen Tidier.untouched).whole

/-- So it is read once it is laid out. -/
theorem whole_tidy (hsingle : v.SingleTags) (hseen : v.blocksSeen false false = true)
    (hne : v.render.toList ≠ []) : ∃ after t,
      Whole .root Tidier.layout v.Readable (v.shapes none) (tidy v.render).toList after t := by
  rw [Profile.Layout.tidy_eq (Text.lines_ne_nil hne), toList_render]
  exact ((Value.laid v hsingle).2 rfl Site.root_sound Site.sees_root hseen Tidier.layout).whole

theorem isAllowed_of_mem_tidy {text : String} (hne : text.toList ≠ [])
    (h : ∀ c ∈ text.toList, isAllowed c = true) : ∀ c ∈ (tidy text).toList, isAllowed c = true := by
  intro c hc
  rw [Profile.Layout.tidy_eq (Text.lines_ne_nil hne)] at hc
  rcases Profile.Layout.mem_lay hc with rfl | hc
  · decide
  · exact h c hc

/-- Laying out a printed value that is read back does not change what is read, if every literal block
in it is recognised: it is the value of a key on the line of this key or of a mark, or an item that
begins its line, without a tag, and holds no line separators at the ends of its lines. -/
theorem read_tidy {v w : Value} (h : read v.render = .ok w) (hsame : v.same w = true)
    (hseen : v.blocksSeen false false = true) : read (tidy v.render) = .ok w := by
  have hsingle := Value.singleTags_of_same hsame (singleTags_of_read h)
  obtain ⟨after, t, ht⟩ := whole_render hsingle hseen
  have hallowed := isAllowed_of_read h (List.append_nil v.render.toList ▸ ht.token rfl [])
  obtain ⟨hok, hne, es, hes, hdocument⟩ := (exists_events ht hallowed).resolve_right fun hno => hno.2 w h
  obtain ⟨after', t', ht'⟩ := whole_tidy hsingle hseen hne
  obtain ⟨-, -, es', hes', hdocument'⟩ :=
    (exists_events ht' (isAllowed_of_mem_tidy hne hallowed)).resolve_right fun hno => hno.1 hok
  exact read_alike hdocument hdocument' (.of_shapes hes hes') h

end Documents

/-- A null, and a block that is recognised although one of its lines looks like a null. -/
def notedValue : Value :=
  .mapping [(.string "note", .string "act: null\nbill: null"), (.string "act", .null)]

theorem read_tidy_noted : read notedValue.render = .ok notedValue ∧
    read (tidy notedValue.render) = .ok notedValue := by
  have hread : read notedValue.render = .ok notedValue := Value.read_eq_ok rfl (by decide +kernel)
  exact ⟨hread, read_tidy hread (by decide +kernel) (by decide +kernel)⟩

/-- A block that is the first item of a list in a list. -/
def nestedValue : Value := .sequence [.sequence [.string "act: null\nbill: null"]]

def nestedWithoutNulls : Value := .sequence [.sequence [.string "act:\nbill:"]]

/-- Laying out changes the text of a block that begins a list in a list: its header is not recognised,
so that each of its lines that ends in a null after a colon loses this null. -/
theorem tidy_changes_nested : read nestedValue.render = .ok nestedValue ∧
    read (tidy nestedValue.render) = .ok nestedWithoutNulls ∧
    nestedValue.same nestedWithoutNulls = false :=
  ⟨Value.read_eq_ok rfl (by decide +kernel), Value.read_eq_ok rfl (by decide +kernel),
    by decide +kernel⟩

end Yaml

end GrammarProfile
