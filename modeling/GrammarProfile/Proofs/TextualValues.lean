import Mathlib.Data.String.Basic
import GrammarProfile.Proofs.LaidDocuments
import GrammarProfile.Proofs.Meanings

/-!
Values of texts, booleans and nulls: what is written of such a value is read as the value, also once it
is laid out, without an assumption about the reader.
-/
namespace GrammarProfile.Yaml

open Profile.Layout (tidy)

/-! ## Characters of written texts -/

theorem isAllowed_of_printable {c : Char} (h : isPrintable c = true) : isAllowed c = true := by
  unfold isPrintable at h
  unfold isAllowed
  simp only [Bool.or_eq_true, Bool.and_eq_true, beq_iff_eq, bne_iff_ne, decide_eq_true_eq] at h ⊢
  omega

/-- Characters that can be written. -/
def Printable (cs : List Char) : Prop := ∀ c ∈ cs, isPrintable c = true

instance (cs : List Char) : Decidable (Printable cs) :=
  List.decidableBAll (isPrintable · = true) cs

theorem printable_append {cs ds : List Char} (h : Printable cs) (h' : Printable ds) : Printable (cs ++ ds) :=
  List.forall_mem_append.2 ⟨h, h'⟩

theorem printable_spaces (n : Nat) : Printable (spaces n) := fun c hc => by
  rw [List.eq_of_mem_replicate hc]
  decide

/-- The words that values without a text of their own are written as. -/
theorem printable_word : ∀ w ∈ ["null", "true", "false", "[]", "\x7b\x7d"], Printable w.toList := by
  decide

theorem printable_hexDigits {width n : Nat} {c : Char} (h : c ∈ hexDigits width n) :
    isPrintable c = true := by
  obtain ⟨d, hd, rfl⟩ := mem_hexDigits h
  have hall : ∀ d < 16, isPrintable (Nat.digitChar d).toUpper = true := by decide
  exact hall d hd

theorem printable_escaped {c d : Char} (h : d ∈ escaped c) : isPrintable d = true := by
  have hnamed : ∀ w ∈ ["\\0", "\\a", "\\b", "\\t", "\\n", "\\v", "\\f", "\\r", "\\e", "\\\"", "\\\\",
      "\\N", "\\L", "\\P"], Printable w.toList := by decide
  have hcoded : ∀ e ∈ "xuU".toList, ∀ width : Nat, d ∈ '\\' :: e :: hexDigits width c.toNat →
      isPrintable d = true := by
    have hall : ∀ e ∈ "xuU".toList, isPrintable e = true := List.all_iff_forall_prop.1 (by decide)
    intro e he width hd
    rcases List.mem_cons.1 hd with rfl | hd
    · decide
    · rcases List.mem_cons.1 hd with rfl | hd
      · exact hall _ he
      · exact printable_hexDigits hd
  unfold escaped at h
  split at h
  all_goals first
    | exact hnamed _ (by simp) d h
    | skip
  split at h
  · next hprint => exact List.mem_singleton.1 h ▸ hprint
  · split at h
    · exact hcoded _ (by decide) _ h
    · split at h
      · exact hcoded _ (by decide) _ h
      · exact hcoded _ (by decide) _ h

theorem printable_of_allowsSingleQuotes {cs : List Char} (h : Style.allowsSingleQuotes cs = true) :
    ∀ c ∈ cs, isPrintable c = true := by
  intro c hc
  rw [Style.allowsSingleQuotes, Bool.not_eq_true', Bool.or_eq_false_iff, Style.needsEscapes,
    Bool.or_eq_false_iff] at h
  simpa using List.any_eq_false.1 h.1.2 c hc

/-- A text is written with printable characters, whatever it holds. -/
theorem printable_scalarText (n : Nat) (cs : List Char) :
    Printable (scalarText n cs) := by
  have hstyled := styled cs
  rw [scalarText]
  generalize Style.ofText cs = style at hstyled
  cases hstyled with
  | plain hplain => exact hplain.printable
  | singleQuoted _ hsingle =>
      intro c hc
      rcases mem_singleQuote hc with rfl | rfl | hc
      · decide
      · decide
      · exact printable_of_allowsSingleQuotes hsingle c hc
  | doubleQuoted =>
      refine List.forall_mem_cons.2 ⟨by decide, List.forall_mem_append.2 ⟨fun d hd => ?_,
        List.forall_mem_singleton.2 (by decide)⟩⟩
      obtain ⟨c, -, hd⟩ := List.mem_flatMap.1 hd
      exact printable_escaped hd
  | literal _ hprintable =>
      refine List.forall_mem_cons.2 ⟨by decide, List.forall_mem_append.2 ⟨fun c hc => ?_,
        List.forall_mem_cons.2 ⟨by decide, fun c hc => ?_⟩⟩⟩
      · have hhints : ∀ c ∈ "2-+".toList, isPrintable c = true := List.all_iff_forall_prop.1 (by decide)
        exact hhints c (Profile.Layout.mem_literalHints hc)
      · rcases Profile.Layout.mem_literalBody hc with rfl | hc
        · decide
        · exact hprintable c hc

/-! ## Lengths of written texts -/

theorem utf8Size_facts (c : Char) : 1 ≤ c.utf8Size ∧ (0xFF < c.toNat → 2 ≤ c.utf8Size) ∧
    (0xFFFF < c.toNat → 4 ≤ c.utf8Size) := by
  have hle : ∀ a b : UInt32, (a ≤ b) = (a.toNat ≤ b.toNat) := fun _ _ => rfl
  unfold Char.utf8Size Char.toNat
  simp only [hle, UInt32.toNat_ofNatLT]
  split_ifs <;> omega

/-- An escape is at most four times as long as the character is in bytes. -/
theorem length_escaped (c : Char) : (escaped c).length ≤ 4 * c.utf8Size := by
  obtain ⟨hone, htwo, hfour⟩ := utf8Size_facts c
  unfold escaped
  split
  all_goals first
    | exact Nat.le_trans (by decide) (Nat.mul_le_mul_left 4 hone)
    | skip
  split
  · rw [List.length_singleton]
    omega
  · split
    · simp only [List.length_cons, length_hexDigits]
      omega
    · split
      · simp only [List.length_cons, length_hexDigits]
        omega
      · simp only [List.length_cons, length_hexDigits]
        omega

theorem length_singleQuotedBody {cs : List Char} (h : ∀ c ∈ cs, isBreak c = false) :
    (singleQuotedBody 0 false cs).length ≤ 2 * cs.length := by
  induction cs with
  | nil => simp [singleQuotedBody]
  | cons c cs ih =>
      obtain ⟨hc, hcs⟩ := List.forall_mem_cons.1 h
      have hrest := ih hcs
      simp only [singleQuotedBody, hc, Bool.false_eq_true, if_false, List.nil_append, List.length_append,
        List.length_cons]
      split
      · simp only [List.length_cons, List.length_nil]
        omega
      · simp only [List.length_cons, List.length_nil]
        omega

theorem length_le_utf8Len (cs : List Char) : cs.length ≤ String.utf8Len cs := by
  induction cs with
  | nil => exact Nat.zero_le _
  | cons c cs ih =>
      have hone := (utf8Size_facts c).1
      rw [List.length_cons, String.utf8Len_cons]
      omega

theorem length_flatMap_escaped (cs : List Char) :
    (cs.flatMap escaped).length ≤ 4 * String.utf8Len cs := by
  induction cs with
  | nil => exact Nat.zero_le _
  | cons c cs ih =>
      have hone := length_escaped c
      rw [List.flatMap_cons, List.length_append, String.utf8Len_cons]
      omega

/-- A text on one line is written with at most four times as many characters as it has bytes, and
quotes. -/
theorem length_scalarText {s : String} (h : ∀ c ∈ s.toList, isBreak c = false) :
    (scalarText 0 s.toList).length ≤ 4 * s.utf8ByteSize + 2 := by
  have hsize : s.utf8ByteSize = String.utf8Len s.toList := by
    rw [← String.utf8ByteSize_ofList, String.ofList_toList]
  have hlength := length_le_utf8Len s.toList
  have hstyled := styled s.toList
  rw [scalarText, hsize]
  generalize Style.ofText s.toList = style at hstyled
  cases hstyled with
  | plain => dsimp only; omega
  | singleQuoted =>
      have hbody := length_singleQuotedBody h
      simp only [singleQuote, List.length_cons, List.length_append, List.length_nil]
      omega
  | doubleQuoted =>
      have hbody := length_flatMap_escaped s.toList
      simp only [doubleQuote, List.length_cons, List.length_append, List.length_nil]
      omega
  | literal hline => exact absurd (h _ hline) (by decide)

/-! ## Values of texts -/

/-- A value without numbers and tags in which at most so many collections lie inside each other, and
all keys of a mapping are different. -/
inductive Value.Textual : Nat → Value → Prop
  | null {depth : Nat} : Textual depth .null
  | bool {depth : Nat} (b : Bool) : Textual depth (.bool b)
  | string {depth : Nat} (s : String) : Textual depth (.string s)
  | sequence {depth : Nat} {items : List Value} (h : ∀ v ∈ items, Textual depth v) :
      Textual (depth + 1) (.sequence items)
  | mapping {depth : Nat} {pairs : Pairs} (hdifferent : pairs.Different)
      (hkeys : ∀ p ∈ pairs, Textual depth p.1) (hvalues : ∀ p ∈ pairs, Textual depth p.2) :
      Textual (depth + 1) (.mapping pairs)

namespace Value

variable {depth : Nat} {v : Value}

theorem Textual.singleTags (h : v.Textual depth) : v.SingleTags := by
  induction h with
  | null => exact .null
  | bool b => exact .bool b
  | string s => exact .string s
  | sequence _ ih => exact .sequence ih
  | mapping _ _ _ ihkeys ihvalues => exact .mapping ihkeys ihvalues

/-- What would be read as another value is not written plainly. -/
theorem meaning_of_plain {cs : List Char} (h : Style.ofText cs = .plain) : Scalar.meaning cs = .text := by
  unfold Style.ofText at h
  split at h
  · split at h <;> cases h
  · split at h
    · next hplain =>
      rw [Bool.and_eq_true, Bool.and_eq_true, beq_iff_eq] at hplain
      exact hplain.1.1
    · split at h <;> cases h

theorem means_string (depth : Nat) (s : String) : Means depth ((string s).shapes none) (.string s) := by
  refine .scalar fun mark => ?_
  cases hstyle : Style.ofText s.toList == .plain with
  | false => rfl
  | true =>
      change plainValue s mark = _
      rw [plainValue, meaning_of_plain (beq_iff_eq.1 hstyle)]

mutual

/-- The events of a value of texts mean it. -/
theorem means_shapes {depth : Nat} {v : Value} (h : v.Textual depth) : Means depth (v.shapes none) v := by
  match v with
  | null => exact .scalar fun _ => rfl
  | bool b => cases b <;> exact .scalar fun _ => rfl
  | string s => exact means_string depth s
  | number x => cases h
  | tagged t v => cases h
  | sequence items =>
      cases h with
      | sequence h => exact .sequence (itemsMean_shapes h)
  | mapping pairs =>
      cases h with
      | mapping hdifferent hkeys hvalues => exact .mapping (pairsMean_shapes hkeys hvalues) hdifferent

theorem itemsMean_shapes {depth : Nat} {items : List Value} (h : ∀ v ∈ items, v.Textual depth) :
    ItemsMean depth (itemShapes items) items := by
  match items with
  | [] => exact .nil
  | v :: rest =>
      obtain ⟨hv, hrest⟩ := List.forall_mem_cons.1 h
      exact .cons (means_shapes hv) (itemsMean_shapes hrest)

theorem pairsMean_shapes {depth : Nat} {pairs : List (Value × Value)}
    (hkeys : ∀ p ∈ pairs, p.1.Textual depth) (hvalues : ∀ p ∈ pairs, p.2.Textual depth) :
    PairsMean depth (pairShapes pairs) pairs := by
  match pairs with
  | [] => exact .nil
  | (k, v) :: rest =>
      obtain ⟨hk, hkrest⟩ := List.forall_mem_cons.1 hkeys
      obtain ⟨hv, hvrest⟩ := List.forall_mem_cons.1 hvalues
      exact .cons (means_shapes hk) (means_shapes hv) (pairsMean_shapes hkrest hvrest)

end

theorem printable_bool (b : Bool) : Printable (toString b).toList := by
  cases b
  · exact printable_word "false" (by simp)
  · exact printable_word "true" (by simp)

theorem printable_simpleKeyText (h : v.Textual depth) : Printable v.simpleKeyText := by
  cases h with
  | null => exact printable_word _ (by simp)
  | bool b => exact printable_bool b
  | string s => exact printable_scalarText 0 s.toList
  | sequence => exact printable_word _ (by simp)
  | mapping => exact printable_word _ (by simp)

/-- No simple key of texts is too long to be read as one. -/
theorem Textual.length_key (h : v.Textual depth) (hsimple : v.isSimpleKey 0 = true) :
    v.simpleKeyText.length ≤ Lexer.longestKey := by
  cases h with
  | null => decide
  | bool b => cases b <;> decide
  | string s =>
      rw [isSimpleKey, Bool.and_eq_true, Bool.not_eq_true', decide_eq_true_eq] at hsimple
      have hbreaks : ∀ c ∈ s.toList, isBreak c = false := by
        simpa using List.any_eq_false.1 hsimple.1
      refine Nat.le_trans (length_scalarText hbreaks) ?_
      have hbytes := hsimple.2
      rw [keyLimit] at hbytes
      rw [Lexer.longestKey]
      omega
  | sequence => exact Nat.le_of_ble_eq_true rfl
  | mapping => exact Nat.le_of_ble_eq_true rfl

mutual

theorem readable_of_textual {depth : Nat} {v : Value} (h : v.Textual depth) : v.Readable := by
  match v with
  | null => trivial
  | bool b => trivial
  | string s => trivial
  | number x => trivial
  | tagged t v => cases h
  | sequence items =>
      cases h with
      | sequence h => exact itemsReadable_of_textual h
  | mapping pairs =>
      cases h with
      | mapping _ hkeys hvalues => exact pairsReadable_of_textual hkeys hvalues

theorem itemsReadable_of_textual {depth : Nat} {items : List Value}
    (h : ∀ v ∈ items, v.Textual depth) : ItemsReadable items := by
  match items with
  | [] => trivial
  | v :: rest =>
      obtain ⟨hv, hrest⟩ := List.forall_mem_cons.1 h
      exact ⟨readable_of_textual hv, itemsReadable_of_textual hrest⟩

theorem pairsReadable_of_textual {depth : Nat} {pairs : List (Value × Value)}
    (hkeys : ∀ p ∈ pairs, p.1.Textual depth) (hvalues : ∀ p ∈ pairs, p.2.Textual depth) :
    PairsReadable pairs := by
  match pairs with
  | [] => trivial
  | (k, v) :: rest =>
      obtain ⟨hk, hkrest⟩ := List.forall_mem_cons.1 hkeys
      obtain ⟨hv, hvrest⟩ := List.forall_mem_cons.1 hvalues
      exact ⟨⟨⟨readable_of_textual hk, hk.length_key⟩, readable_of_textual hv⟩,
        pairsReadable_of_textual hkrest hvrest⟩

end

/-! ## What is written of values of texts -/

theorem printable_lead (place : Place) : Printable place.lead := by
  cases place <;> exact List.all_iff_forall_prop.1 (by decide)

theorem printable_scalarLine (place : Place) {w : List Char} (h : Printable w) :
    Printable (place.scalarLine [] w) := by
  refine printable_append (printable_append (printable_lead place) (fun _ hc => absurd hc List.not_mem_nil)) ?_
  unfold endLine
  split
  · exact h
  · exact printable_append h (List.forall_mem_singleton.2 (by decide))

theorem printable_layParts {lead : List Char} (hlead : Printable lead) (o : Opening)
    {parts : List (List Char)} (h : ∀ part ∈ parts, Printable part) : Printable (layParts lead [] o parts) := by
  have hindented : ∀ {parts : List (List Char)}, (∀ part ∈ parts, Printable part) →
      Printable (parts.flatMap (spaces o.indent ++ ·)) := by
    intro parts h c hc
    obtain ⟨part, hpart, hc⟩ := List.mem_flatMap.1 hc
    exact printable_append (printable_spaces _) (h part hpart) c hc
  cases parts with
  | nil => exact fun _ hc => absurd hc List.not_mem_nil
  | cons first rest =>
      obtain ⟨hfirst, hrest⟩ := List.forall_mem_cons.1 h
      rw [layParts]
      split
      · exact printable_append (printable_append hlead hfirst) (hindented hrest)
      · exact List.forall_mem_cons.2 ⟨by decide, hindented h⟩

mutual

theorem printable_print {depth : Nat} {v : Value} (h : v.Textual depth) (place : Place) (indent : Nat) :
    Printable (v.print place indent []) := by
  match v with
  | null => exact printable_scalarLine place (printable_word _ (by simp))
  | bool b => exact printable_scalarLine place (printable_bool b)
  | string s => exact printable_scalarLine place (printable_scalarText _ _)
  | number x => cases h
  | tagged t v => cases h
  | sequence [] => exact printable_scalarLine place (printable_word _ (by simp))
  | sequence (item :: items) =>
      cases h with
      | sequence h => exact printable_layParts (printable_lead place) _ (printable_printItems h _)
  | mapping [] => exact printable_scalarLine place (printable_word _ (by simp))
  | mapping (pair :: pairs) =>
      cases h with
      | mapping _ hkeys hvalues =>
          exact printable_layParts (printable_lead place) _ (printable_printPairs hkeys hvalues _)

theorem printable_printItems {depth : Nat} {items : List Value} (h : ∀ v ∈ items, v.Textual depth)
    (indent : Nat) : ∀ part ∈ printItems indent items, Printable part := by
  match items with
  | [] => exact fun _ hpart => absurd hpart List.not_mem_nil
  | v :: rest =>
      obtain ⟨hv, hrest⟩ := List.forall_mem_cons.1 h
      exact List.forall_mem_cons.2 ⟨List.forall_mem_cons.2 ⟨by decide, printable_print hv _ _⟩,
        printable_printItems hrest indent⟩

theorem printable_printPairs {depth : Nat} {pairs : List (Value × Value)}
    (hkeys : ∀ p ∈ pairs, p.1.Textual depth) (hvalues : ∀ p ∈ pairs, p.2.Textual depth)
    (indent : Nat) : ∀ part ∈ printPairs indent pairs, Printable part := by
  match pairs with
  | [] => exact fun _ hpart => absurd hpart List.not_mem_nil
  | (k, v) :: rest =>
      obtain ⟨hk, hkrest⟩ := List.forall_mem_cons.1 hkeys
      obtain ⟨hv, hvrest⟩ := List.forall_mem_cons.1 hvalues
      refine List.forall_mem_cons.2 ⟨?_, printable_printPairs hkrest hvrest indent⟩
      split
      · exact printable_append (printable_simpleKeyText hk)
          (List.forall_mem_cons.2 ⟨by decide, printable_print hv _ _⟩)
      · exact List.forall_mem_cons.2 ⟨by decide, printable_append (printable_append
          (printable_print hk _ _) (printable_spaces _))
          (List.forall_mem_cons.2 ⟨by decide, printable_print hv _ _⟩)⟩

end

end Value

/-- What is written of a value of texts is read as the value once it is laid out, if every literal
block in it is recognised. -/
theorem read_tidy_textual {depth : Nat} {v : Value} (h : v.Textual depth) (hdepth : depth ≤ depthLimit)
    (hseen : v.blocksSeen false false = true) : read (tidy v.render) = .ok v := by
  have hallowed : ∀ c ∈ v.render.toList, isAllowed c = true := by
    rw [toList_render]
    exact fun c hc => isAllowed_of_printable (Value.printable_print h .document 0 c hc)
  have hok := Value.readable_of_textual h
  obtain ⟨after, t, ht⟩ := whole_render h.singleTags hseen
  obtain ⟨-, hne, -⟩ := (exists_events ht hallowed).resolve_right fun hno => hno.1 hok
  obtain ⟨after', t', ht'⟩ := whole_tidy h.singleTags hseen hne
  obtain ⟨-, -, es, hes, hdocument⟩ :=
    (exists_events ht' (isAllowed_of_mem_tidy hne hallowed)).resolve_right fun hno => hno.1 hok
  exact read_of_alike hdocument (Value.means_shapes h) hdepth hes

end GrammarProfile.Yaml
