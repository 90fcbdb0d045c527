import Mathlib.Data.List.Chain
import GrammarProfile.Proofs.RenderedProfiles

/-!
What laying out keeps of any text: its lines in their order, with the lines of the block scalars that
are recognised as they are. Blank lines are put in between lines that are not empty, and nulls after a
colon are left out. Each line gets one line feed, which takes along a carriage return that ends the
line when the lines are read again.
-/
namespace GrammarProfile

namespace Text

/-- No line of a text holds a line feed. -/
theorem feed_not_mem_lines {cs line : List Char} (h : line ∈ lines cs) : '\n' ∉ line := by
  intro hfeed
  have hmem : '\n' ∈ (splitAll '\n' cs).flatten :=
    mem_linesOfPieces (fun piece hpiece c hc => List.mem_flatten_of_mem hpiece hc) line h '\n' hfeed
  obtain ⟨piece, hpiece, hin⟩ := List.mem_flatten.1 hmem
  exact not_mem_of_mem_splitAll piece hpiece hin

end Text

namespace Profile.Layout

open Yaml (fill)

/-! ## Lines with their block scalars -/

/-- A line after a header, or after lines of its block scalar, belongs to this block scalar: the header
is recognised, and the line is blank or deeper than the line of the header. -/
def GoesOn (header line : List Char) : Prop :=
  opensBlockScalar header = true ∧ (Text.trim line = [] ∨ indentOf header < indentOf line)

/-- A line outside block scalars and the block scalar that it opens, as they are laid out. -/
structure Part where
  line : List Char
  block : List (List Char)
  /-- Whether a blank line is put in before the line. -/
  setOff : Bool
  /-- The line as it is written. -/
  written : List Char
  goesOn : ∀ l ∈ block, GoesOn line l
  kept : written = line ∨ ∃ key, line = key ++ colonNull ∧ written = key ++ [':']
  apart : setOff = true → written ≠ []

namespace Part

/-- The lines of the text. -/
def source (p : Part) : List (List Char) := p.line :: p.block

/-- The lines that are written for them. -/
def result (p : Part) : List (List Char) :=
  if p.setOff then [] :: p.written :: p.block else p.written :: p.block

/-- The last line that is written. -/
def last (p : Part) : List Char := p.block.getLast?.getD p.written

/-- One part comes right before another: the block scalar of the one is over, and a blank line is put
in between them only after a line that is not empty. -/
def Before (p q : Part) : Prop := ¬GoesOn p.line q.line ∧ (q.setOff = true → p.last ≠ [])

theorem written_mem_result (p : Part) : p.written ∈ p.result := by
  rw [result]
  split <;> simp

theorem mem_result_of_mem_block {p : Part} {line : List Char} (h : line ∈ p.block) :
    line ∈ p.result := by
  rw [result]
  split <;> simp [h]

end Part

variable {ls out block : List (List Char)} {ps : List Part} {line : List Char} {s : State}

/-- The lines `out` are the lines `ls` with blank lines put in before lines outside block scalars, none
of them at the start, and with nulls left out of such lines. -/
structure LaidOut (ls out : List (List Char)) (ps : List Part) : Prop where
  source : ps.flatMap Part.source = ls
  result : ps.flatMap Part.result = out
  first : ∀ p ∈ ps.head?, p.setOff = false
  chain : ps.IsChain Part.Before

/-- Each line is written as it is or without its null. -/
theorem LaidOut.exists_written (h : LaidOut ls out ps) (hline : line ∈ ls) :
    ∃ written ∈ out, written = line ∨ ∃ key, line = key ++ colonNull ∧ written = key ++ [':'] := by
  obtain ⟨p, hp, hmem⟩ := List.mem_flatMap.1 (h.source ▸ hline)
  have hsub : ∀ l ∈ p.result, l ∈ out := fun l hl => h.result ▸ List.mem_flatMap.2 ⟨p, hp, hl⟩
  rcases List.mem_cons.1 hmem with rfl | hblock
  · exact ⟨p.written, hsub _ p.written_mem_result, p.kept⟩
  · exact ⟨line, hsub _ (Part.mem_result_of_mem_block hblock), .inl rfl⟩

theorem LaidOut.ne_nil (h : LaidOut ls out ps) (hls : ls ≠ []) : out ≠ [] := by
  obtain ⟨line, hline⟩ := List.exists_mem_of_ne_nil ls hls
  obtain ⟨written, hwritten, -⟩ := h.exists_written hline
  exact List.ne_nil_of_mem hwritten

/-! ## From line to line -/

theorem State.exists_last (h : ¬s.Quiet) : ∃ last ∈ s.last, last ≠ [] := by
  rw [State.Quiet] at h
  cases hlast : s.last with
  | none => exact absurd (by rw [hlast, Option.getD_none]) h
  | some last => exact ⟨last, rfl, by rwa [hlast, Option.getD_some] at h⟩

theorem inBlock_past {header : List Char} :
    inBlock (s.past header) line = true ↔ GoesOn header line := by
  rw [inBlock, State.past, GoesOn]
  split
  · next hopens => simp [hopens, List.isEmpty_iff]
  · next hopens => simp [hopens]

theorem bareNull_ne_nil (h : line ≠ []) : bareNull line ≠ [] := by
  rcases bareNull_cases line with hkept | ⟨key, -, hkey⟩
  · rwa [hkept]
  · rw [hkey]
    exact List.append_ne_nil_of_right_ne_nil _ (List.cons_ne_nil _ _)

/-- What becomes of the lines `ls` after a state: the lines `block` still belong to the block scalar
that is going on, and parts come after them. -/
structure Continues (s : State) (ls out block : List (List Char)) (ps : List Part) : Prop where
  source : block ++ ps.flatMap Part.source = ls
  result : block ++ ps.flatMap Part.result = out
  inside : ∀ line ∈ block, inBlock s line = true
  ended : ∀ p ∈ ps.head?, inBlock s p.line = false
  apart : ∀ p ∈ ps.head?, p.setOff = true → ∃ last ∈ block.getLast?.or s.last, last ≠ []
  chain : ps.IsChain Part.Before

theorem Continues.cons_inside (hline : inBlock s line = true)
    (h : Continues ⟨some line, s.inElements, s.block⟩ ls out block ps) :
    Continues s (line :: ls) (line :: out) (line :: block) ps where
  source := congrArg (line :: ·) h.source
  result := congrArg (line :: ·) h.result
  inside := List.forall_mem_cons.2 ⟨hline, h.inside⟩
  ended := h.ended
  apart p hp hset := by
    obtain ⟨last, hlast, hne⟩ := h.apart p hp hset
    rw [Option.or_some] at hlast
    exact ⟨last, by rwa [List.getLast?_cons, Option.some_or], hne⟩
  chain := h.chain

/-- The part that a line outside begins, with the lines that still belong to its block scalar. -/
def Part.begun (s : State) (line : List Char) {block : List (List Char)}
    (h : ∀ l ∈ block, inBlock (s.past line) l = true) : Part where
  line
  block
  setOff := setsOff s line
  written := bareNull line
  goesOn l hl := inBlock_past.1 (h l hl)
  kept := bareNull_cases line
  apart hset := bareNull_ne_nil (setsOff_apart hset).1

theorem Part.result_begun (h : ∀ l ∈ block, inBlock (s.past line) l = true) :
    (begun s line h).result =
      (if setsOff s line then [[], bareNull line] else [bareNull line]) ++ block := by
  rw [result, begun]
  split <;> rfl

theorem Continues.before_head (h : Continues (s.past line) ls out block ps) :
    ∀ q ∈ ps.head?, (Part.begun s line h.inside).Before q := by
  intro q hq
  refine ⟨fun hgoes => ?_, fun hset => ?_⟩
  · exact Bool.false_ne_true ((h.ended q hq).symm.trans (inBlock_past.2 hgoes))
  · obtain ⟨last, hlast, hne⟩ := h.apart q hq hset
    rw [State.past, Option.or_some] at hlast
    rwa [← Option.some.inj hlast] at hne

theorem Continues.cons_outside (hline : inBlock s line = false)
    (h : Continues (s.past line) ls out block ps) :
    Continues s (line :: ls)
      ((if setsOff s line then [[], bareNull line] else [bareNull line]) ++ out) []
      (Part.begun s line h.inside :: ps) where
  source := congrArg (line :: ·) h.source
  result := by
    rw [List.nil_append, List.flatMap_cons, Part.result_begun, List.append_assoc, h.result]
  inside := List.forall_mem_nil _
  ended q hq := Option.some.inj hq ▸ hline
  apart q hq hset := by
    obtain rfl := Option.some.inj hq
    exact State.exists_last (setsOff_apart hset).2
  chain := List.isChain_cons.2 ⟨h.before_head, h.chain⟩

theorem exists_continues (ls : List (List Char)) (s : State) :
    ∃ block ps, Continues s ls (layLines s ls) block ps := by
  -- From the end: a line inside joins the block that the lines after it go on with, and a line outside
  -- takes this block for the part that it begins.
  induction ls generalizing s with
  | nil => exact ⟨[], [], rfl, rfl, List.forall_mem_nil _, nofun, nofun, .nil⟩
  | cons line rest ih =>
      cases hline : inBlock s line with
      | true =>
          obtain ⟨block, ps, h⟩ := ih ⟨some line, s.inElements, s.block⟩
          rw [layLines, layLine_inside hline]
          exact ⟨line :: block, ps, h.cons_inside hline⟩
      | false =>
          obtain ⟨block, ps, h⟩ := ih (s.past line)
          rw [layLines, layLine_outside hline]
          exact ⟨[], _, h.cons_outside hline⟩

/-- At the start no block scalar is going on and nothing is written, so that all lines belong to parts
and no blank line comes first. -/
theorem exists_laidOut (ls : List (List Char)) : ∃ ps, LaidOut ls (layLines .start ls) ps := by
  obtain ⟨block, ps, h⟩ := exists_continues ls .start
  obtain rfl : block = [] :=
    List.eq_nil_iff_forall_not_mem.2 fun line hline => nomatch h.inside line hline
  refine ⟨ps, h.source, h.result, fun p hp => ?_, h.chain⟩
  rw [← Bool.not_eq_true]
  intro hset
  obtain ⟨last, hlast, -⟩ := h.apart p hp hset
  exact nomatch hlast

/-! ## Whole texts -/

section Texts

variable {text : String}

theorem lines_toList_ne_nil (h : text ≠ "") : Text.lines text.toList ≠ [] :=
  Text.lines_ne_nil fun hnil => h (String.toList_eq_nil_iff.1 hnil)

theorem feed_not_mem_layLines {cs : List Char} :
    ∀ line ∈ layLines .start (Text.lines cs), '\n' ∉ line := by
  intro line hline hfeed
  have hmem := mem_layLines (fun l hl c hc => List.mem_flatten_of_mem hl hc) .start line hline '\n' hfeed
  obtain ⟨l, hl, hin⟩ := List.mem_flatten.1 hmem
  exact Text.feed_not_mem_lines hl hin

/-- The lines that are read of a text that is laid out. -/
theorem lines_tidy (h : text ≠ "") : Text.lines (tidy text).toList =
    (layLines .start (Text.lines text.toList)).map Text.dropReturn := by
  have htidy : (tidy text).toList = fill (layLines .start (Text.lines text.toList)) :=
    tidy_eq (lines_toList_ne_nil h)
  rw [htidy, ← List.append_nil (fill _), Text.lines_pieces feed_not_mem_layLines]
  exact List.append_nil _

/-- Laying out a text puts in blank lines and leaves out nulls, and nothing else: its lines stay in
their order, those of recognised block scalars as they are, and each is written with one line feed
after it. Read again, the lines are the same, without a carriage return that ends one. -/
theorem tidy_keeps_lines (h : text ≠ "") : ∃ out ps,
    LaidOut (Text.lines text.toList) out ps ∧ out ≠ [] ∧ (∀ line ∈ out, '\n' ∉ line) ∧
      (tidy text).toList = fill out ∧ Text.lines (tidy text).toList = out.map Text.dropReturn := by
  obtain ⟨ps, hps⟩ := exists_laidOut (Text.lines text.toList)
  have hlines := lines_toList_ne_nil h
  exact ⟨_, ps, hps, hps.ne_nil hlines, feed_not_mem_layLines, tidy_eq hlines, lines_tidy h⟩

/-- A block scalar with a line like one of a null, and a section of two entries. -/
def describedEntries : String :=
  "p:\n  d: |\n    a: null\n  elements:\n    a: null\n    b: null\n"

theorem describedEntries_keeps_lines : describedEntries ≠ "" ∧
    tidy describedEntries = "p:\n  d: |\n    a: null\n\n  elements:\n    a:\n\n    b:\n" ∧
    ∃ out ps, LaidOut (Text.lines describedEntries.toList) out ps ∧ out ≠ [] ∧
      (∀ line ∈ out, '\n' ∉ line) ∧ (tidy describedEntries).toList = fill out ∧
      Text.lines (tidy describedEntries).toList = out.map Text.dropReturn :=
  ⟨by decide, by decide +kernel, tidy_keeps_lines (by decide)⟩

/-- A line that ends in a carriage return is not read again: the line feed written after it makes one
line break of the two. -/
theorem tidy_drops_return :
    ¬∃ ps, LaidOut (Text.lines "a\r\r\n".toList) (Text.lines (tidy "a\r\r\n").toList) ps := by
  rintro ⟨ps, h⟩
  have hsource : Text.lines "a\r\r\n".toList = [['a', '\r']] := by decide +kernel
  have hresult : Text.lines (tidy "a\r\r\n").toList = [['a']] := by decide +kernel
  rw [hsource, hresult] at h
  obtain ⟨written, hwritten, hkept⟩ := h.exists_written List.mem_cons_self
  obtain rfl := List.mem_singleton.1 hwritten
  rcases hkept with hsame | ⟨key, hnull, -⟩
  · exact absurd hsame (by decide)
  · exact absurd (endsInNull_last ⟨key, hnull⟩) (by decide)

/-- Without carriage returns, the lines that are read again are those that were laid out. -/
theorem laidOut_tidy (h : text ≠ "") (hreturn : '\r' ∉ text.toList) :
    ∃ ps, LaidOut (Text.lines text.toList) (Text.lines (tidy text).toList) ps := by
  have hwritten : ∀ line ∈ layLines .start (Text.lines text.toList), '\r' ∉ line := fun line hline hin =>
    hreturn (mem_layLines (fun _ hl _ hc => Text.mem_lines hl hc) .start line hline '\r' hin)
  have hsame : ∀ line ∈ layLines .start (Text.lines text.toList), Text.dropReturn line = id line := by
    intro line hline
    have hended : Text.IsLine line :=
      ⟨feed_not_mem_layLines line hline, fun hlast => hwritten line hline (List.mem_of_getLast? hlast)⟩
    exact hended.dropReturn_eq
  rw [lines_tidy h, List.map_congr_left hsame, List.map_id]
  exact exists_laidOut _

end Texts

end Profile.Layout

namespace Profile.Restriction

/-- What is written for a profile keeps the lines of its document, also as they are read again: no text
of a profile brings a carriage return into the document, where it stands escaped. -/
theorem laidOut_render {r : Restriction} (h : r.Writable) :
    ∃ ps, Layout.LaidOut (Text.lines r.document.render.toList) (Text.lines r.render.toList) ps := by
  have hne : r.document.render ≠ "" := by
    have hkey : Yaml.Value.isSimpleKey 0 (.string "profile") = true := by decide +kernel
    rw [Ne, ← String.toList_eq_nil_iff, Yaml.toList_render]
    simp [document, Yaml.Value.print, Yaml.Value.printPairs, Yaml.layParts, Yaml.Place.mapping, hkey]
  refine Layout.laidOut_tidy hne fun hreturn => ?_
  rw [Yaml.toList_render] at hreturn
  exact absurd (Yaml.Value.printable_print (textual_document h 0) .document 0 '\r' hreturn) (by decide)

end Profile.Restriction

end GrammarProfile
