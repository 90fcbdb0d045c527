import Mathlib.Data.Bool.AllAny
import GrammarProfile.Proofs.QuotedText
import GrammarProfile.Yaml.Printer

/-!
Reading tags: what is read for a tag that was written depends on the tag alone. The characters of a
tag that only end it elsewhere keep it from being read.
-/
namespace GrammarProfile.Yaml

/-! ## Octets of a character -/

theorem toList_loop (bytes : ByteArray) (i : Nat) (done : List UInt8) :
    ByteArray.toList.loop bytes i done = done.reverse ++ bytes.data.toList.drop i := by
  fun_induction ByteArray.toList.loop bytes i done with
  | case1 i done hlt ih =>
      have hlt' : i < bytes.data.toList.length := by simpa using hlt
      rw [ih, List.drop_eq_getElem_cons hlt']
      simp [ByteArray.get!, getElem!_pos, hlt]
  | case2 i done hge =>
      rw [List.drop_eq_nil_of_le (by simpa using hge), List.append_nil]

theorem utf8Bytes_eq (c : Char) : utf8Bytes c = (String.utf8EncodeChar c).map (·.toNat) := by
  have hbytes : (String.singleton c).toUTF8 = (String.utf8EncodeChar c).toByteArray := by
    rw [← List.utf8Encode_singleton, ← String.toByteArray_singleton]
    rfl
  rw [utf8Bytes, hbytes, ByteArray.toList, toList_loop, List.data_toByteArray]
  rfl

namespace Tag

/-- The octets of a character in UTF-8: the first announces how many follow. -/
structure AreOctets (octets : List Nat) : Prop where
  first : ∃ octet rest, octets = octet :: rest ∧ octetCount octet = rest.length + 1 ∧
    ∀ o ∈ rest, o / 0x40 = 2
  small : ∀ o ∈ octets, o < 256

theorem areOctets_utf8Bytes (c : Char) : AreOctets (utf8Bytes c) := by
  rw [utf8Bytes_eq, String.utf8EncodeChar]
  have hvalid := c.valid
  simp only [UInt32.isValidChar, Nat.isValidChar] at hvalid
  generalize c.val.toNat = v at hvalid
  refine ⟨?_, by simp only [List.forall_mem_map]; exact fun o _ => o.toNat_lt⟩
  split
  · refine ⟨v, [], by simp; omega, ?_, by simp⟩
    rw [octetCount, if_pos (by omega)]
    rfl
  · split
    · refine ⟨v / 64 % 32 + 192, [v % 64 + 128], by simp; omega, ?_, by simp; omega⟩
      rw [octetCount, if_neg (by omega), if_pos (by simp; omega)]
      rfl
    · split
      · refine ⟨v / 4096 % 16 + 224, [v / 64 % 64 + 128, v % 64 + 128], by simp; omega, ?_,
          by simp; omega⟩
        rw [octetCount, if_neg (by omega), if_neg (by simp; omega), if_pos (by simp; omega)]
        rfl
      · refine ⟨v / 262144 % 8 + 240, [v / 4096 % 64 + 128, v / 64 % 64 + 128, v % 64 + 128],
          by simp; omega, ?_, by simp; omega⟩
        rw [octetCount, if_neg (by omega), if_neg (by simp; omega), if_neg (by simp; omega),
          if_pos (by simp; omega)]
        rfl

/-! ## Characters of a tag -/

/-- Octets as they are written. -/
def escapes (octets : List Nat) : List Char := octets.flatMap fun o => '%' :: hexDigits 2 o

theorem scanOctet_escape {octet : Nat} (h : octet < 256) (r : List Char) (m : Mark) :
    scanOctet ⟨'%' :: hexDigits 2 octet ++ r, m⟩ =
      .ok (octet, ⟨r, m.past ('%' :: hexDigits 2 octet)⟩) := by
  have hlength := length_hexDigits 2 octet
  have hdigits : (hexDigits 2 octet ++ r).take 2 = hexDigits 2 octet := List.take_left' hlength
  have hskip : (⟨'%' :: hexDigits 2 octet ++ r, m⟩ : Cursor).skip 3 =
      ⟨r, m.past ('%' :: hexDigits 2 octet)⟩ := by
    have := Cursor.skip_append (w := '%' :: hexDigits 2 octet) (fun c hc => by
      rcases List.mem_cons.1 hc with rfl | hc
      · decide
      · exact isBreak_of_mem_hexDigits hc) r m
    rwa [List.length_cons, hlength] at this
  have hvalue : hexValue? (hexDigits 2 octet) = some octet := by
    rw [hexValue?_hexDigits, Nat.mod_eq_of_lt (by omega)]
  rw [scanOctet, hskip]
  simp only [List.cons_append, List.drop_one, List.tail_cons, hdigits, hlength, Cursor.next?,
    List.head?_cons, beq_self_eq_true, Bool.and_self, if_true, hvalue]

theorem scanOctets_escapes {octets : List Nat} (h : ∀ o ∈ octets, o / 0x40 = 2 ∧ o < 256)
    (r : List Char) (m : Mark) :
    scanOctets octets.length ⟨escapes octets ++ r, m⟩ =
      .ok (octets, ⟨r, m.past (escapes octets)⟩) := by
  induction octets generalizing m with
  | nil => rfl
  | cons octet rest ih =>
      have ho := h octet List.mem_cons_self
      have hrest := ih (fun o ho => h o (List.mem_cons_of_mem _ ho)) (m.past ('%' :: hexDigits 2 octet))
      have htext : escapes (octet :: rest) = ('%' :: hexDigits 2 octet) ++ escapes rest := rfl
      rw [htext, List.append_assoc, List.length_cons, scanOctets, scanOctet_escape ho.2]
      dsimp only
      rw [if_neg (by simp [ho.1]), hrest, Mark.past_append]

theorem scanEscaped_escapes {octets : List Nat} (h : AreOctets octets) (r : List Char) (m : Mark) :
    scanEscaped ⟨escapes octets ++ r, m⟩ = .ok (octets, ⟨r, m.past (escapes octets)⟩) := by
  obtain ⟨⟨octet, rest, rfl, hcount, hrest⟩, hsmall⟩ := h
  have htext : escapes (octet :: rest) = ('%' :: hexDigits 2 octet) ++ escapes rest := rfl
  rw [htext, List.append_assoc, scanEscaped, scanOctet_escape (hsmall octet List.mem_cons_self)]
  dsimp only
  rw [hcount]
  dsimp only
  rw [scanOctets_escapes fun o ho => ⟨hrest o ho, hsmall o (List.mem_cons_of_mem _ ho)⟩,
    Mark.past_append]

/-- Whether a character stands in a tag as it is. -/
def isRaw (c : Char) : Bool := isWordChar c || ";/?:@&=+$,.~*'()[]".toList.contains c

/-- Characters that stand in a tag as they are, but end it where it is read. -/
def enders : List Char := ",[]".toList

/-- What is read for a character of a tag. -/
def octetsOf (c : Char) : List Nat := if isRaw c then [c.toNat] else utf8Bytes c

theorem tagChar_eq (c : Char) : tagChar c = if isRaw c then [c] else escapes (utf8Bytes c) := rfl

theorem word_facts {c : Char} (h : isWordChar c = true) :
    isUriChar false c = true ∧ c ≠ '%' ∧ c ≠ '!' ∧ isBreak c = false := by
  refine ⟨by rw [isUriChar, h]; rfl, ?_, ?_, ?_⟩
  · rintro rfl
    exact absurd h (by decide)
  · rintro rfl
    exact absurd h (by decide)
  · rw [isBreak]
    simp only [Bool.or_eq_false_iff, beq_eq_false_iff_ne]
    refine ⟨⟨⟨⟨?_, ?_⟩, ?_⟩, ?_⟩, ?_⟩ <;> rintro rfl <;> exact absurd h (by decide)

theorem isUriChar_of_isRaw {c : Char} (h : isRaw c = true) (hc : c ∉ enders) :
    isUriChar false c = true ∧ c ≠ '%' ∧ isBreak c = false := by
  have hmarks : ∀ d ∈ ";/?:@&=+$,.~*'()[]".toList, d ∉ enders →
      isUriChar false d = true ∧ d ≠ '%' ∧ isBreak d = false :=
    List.all_iff_forall_prop.1 (by decide)
  rw [isRaw, Bool.or_eq_true] at h
  rcases h with h | h
  · obtain ⟨huri, hpercent, -, hbreak⟩ := word_facts h
    exact ⟨huri, hpercent, hbreak⟩
  · exact hmarks c (List.contains_iff_mem.1 h) hc

theorem scanUri_chars {cs : List Char} (hcs : ∀ c ∈ cs, c ∉ enders) {tail : List Char}
    (htail : ∀ c ∈ tail.head?, isUriChar false c = false) {fuel : Nat} (hfuel : cs.length < fuel)
    (done : List Nat) (m : Mark) :
    scanUri false fuel done ⟨cs.flatMap tagChar ++ tail, m⟩ =
      .ok (done ++ cs.flatMap octetsOf, ⟨tail, m.past (cs.flatMap tagChar)⟩) := by
  induction cs generalizing fuel done m with
  | nil =>
      obtain ⟨fuel, rfl⟩ := Nat.exists_eq_add_of_lt hfuel
      rw [scanUri]
      cases tail with
      | nil => simp [Cursor.next?]
      | cons c rest => simp [Cursor.next?, htail c rfl]
  | cons c cs ih =>
      obtain ⟨fuel, rfl⟩ := Nat.exists_eq_add_of_lt (Nat.zero_lt_of_lt hfuel)
      rw [List.length_cons] at hfuel
      have hrest := fun done m => ih (fun d hd => hcs d (List.mem_cons_of_mem _ hd))
        (show cs.length < 0 + fuel by omega) done m
      rw [List.flatMap_cons, List.flatMap_cons, List.append_assoc, ← List.append_assoc done,
        Mark.past_append, ← hrest]
      rw [tagChar_eq, octetsOf]
      cases hraw : isRaw c with
      | true =>
          obtain ⟨huri, hpercent, hbreak⟩ := isUriChar_of_isRaw hraw (hcs c List.mem_cons_self)
          rw [if_pos rfl, if_pos rfl, scanUri]
          simp [Cursor.next?, huri, hpercent, Cursor.skip_one hbreak]
      | false =>
          rw [if_neg Bool.false_ne_true, if_neg Bool.false_ne_true, scanUri]
          have hoctets := areOctets_utf8Bytes c
          have hnext : (⟨escapes (utf8Bytes c) ++ (cs.flatMap tagChar ++ tail), m⟩ : Cursor).next? =
              some '%' := by
            obtain ⟨⟨octet, rest, heq, -⟩, -⟩ := hoctets
            rw [heq]
            rfl
          rw [hnext]
          simp [show isUriChar false '%' = true by decide, scanEscaped_escapes hoctets]

theorem octetsOf_ne_nil (c : Char) : octetsOf c ≠ [] := by
  rw [octetsOf]
  split
  · exact List.cons_ne_nil _ _
  · obtain ⟨⟨octet, rest, heq, -⟩, -⟩ := areOctets_utf8Bytes c
    rw [heq]
    exact List.cons_ne_nil _ _

/-- How a character that is no part of a word begins. -/
theorem head_tagChar {c : Char} (h : isWordChar c = false) :
    ∃ d rest, tagChar c = d :: rest ∧ isWordChar d = false ∧ d ≠ '!' ∧ d ≠ '<' := by
  rw [tagChar_eq]
  cases hraw : isRaw c with
  | true =>
      rw [isRaw, h, Bool.false_or] at hraw
      have hmarks : ∀ d ∈ ";/?:@&=+$,.~*'()[]".toList, d ≠ '!' ∧ d ≠ '<' :=
        List.all_iff_forall_prop.1 (by decide)
      exact ⟨c, [], rfl, h, hmarks c (List.contains_iff_mem.1 hraw)⟩
  | false =>
      obtain ⟨⟨octet, rest, heq, -⟩, -⟩ := areOctets_utf8Bytes c
      rw [heq]
      exact ⟨'%', _, rfl, by decide, by decide, by decide⟩

theorem flatMap_tagChar_word {w : List Char} (h : ∀ c ∈ w, isWordChar c = true) :
    w.flatMap tagChar = w ∧ w.flatMap octetsOf = w.map Char.toNat := by
  induction w with
  | nil => exact ⟨rfl, rfl⟩
  | cons c w ih =>
      have hraw : isRaw c = true := by rw [isRaw, h c List.mem_cons_self]; rfl
      obtain ⟨h₁, h₂⟩ := ih fun d hd => h d (List.mem_cons_of_mem _ hd)
      rw [List.flatMap_cons, List.flatMap_cons, h₁, h₂, tagChar_eq, octetsOf, hraw]
      exact ⟨rfl, rfl⟩

theorem length_le_flatMap_tagChar (cs : List Char) : cs.length ≤ (cs.flatMap tagChar).length := by
  induction cs with
  | nil => exact Nat.le_refl _
  | cons c cs ih =>
      have hpos : 0 < (tagChar c).length := by
        cases hword : isWordChar c with
        | true => rw [tagChar_eq, isRaw, hword]; exact Nat.succ_pos _
        | false =>
            obtain ⟨d, rest, heq, -⟩ := head_tagChar hword
            rw [heq]
            exact Nat.succ_pos _
      rw [List.flatMap_cons, List.length_append, List.length_cons]
      omega

/-! ## Whole tags -/

/-- What may come after the characters of a tag that are read. -/
def Ends (tail : List Char) : Prop := ∀ c ∈ tail.head?, isGap c = true ∨ c ∈ enders

theorem Ends.facts {tail : List Char} (h : Ends tail) :
    ∀ c ∈ tail.head?, isUriChar false c = false ∧ isWordChar c = false ∧ c ≠ '!' ∧ c ≠ '<' := by
  have hgaps : ∀ c ∈ [' ', '\t', '\n', '\r', '\x85', '\u2028', '\u2029', '\x00'] ++ enders,
      isUriChar false c = false ∧ isWordChar c = false ∧ c ≠ '!' ∧ c ≠ '<' :=
    List.all_iff_forall_prop.1 (by decide)
  intro c hc
  refine hgaps c ?_
  rcases h c hc with hgap | hender
  · rw [isGap, isSpacing, isBreak] at hgap
    simp only [Bool.or_eq_true, beq_iff_eq] at hgap
    refine List.mem_append_left _ ?_
    simpa [or_assoc] using hgap
  · exact List.mem_append_right _ hender

/-- What is read for the characters of a tag. -/
def token (cs : List Char) : TokenKind :=
  if cs.isEmpty then .tag "" (some "!") else .tag "!" (decode? (cs.flatMap octetsOf))

theorem scanHandle_word {name r : List Char} (hname : ∀ c ∈ name, isWordChar c = true)
    (hr : ∀ c ∈ r.head?, isWordChar c = false ∧ c ≠ '!') (m : Mark) :
    scanHandle false ⟨'!' :: (name ++ r), m⟩ =
      .ok ('!' :: name, ⟨r, m.past ('!' :: name)⟩) := by
  have hnone : r.takeWhile isWordChar = [] := by
    cases r with
    | nil => rfl
    | cons c rest => exact List.takeWhile_cons_of_neg (by rw [(hr c rfl).1]; decide)
  have htaken : (name ++ r).takeWhile isWordChar = name := by
    rw [List.takeWhile_append_of_pos hname, hnone, List.append_nil]
  have hskip := Cursor.skip_append (w := '!' :: name) (fun c hc => by
    rcases List.mem_cons.1 hc with rfl | hc
    · decide
    · exact (word_facts (hname c hc)).2.2.2) r m
  have hnext : ((⟨r, m.past ('!' :: name)⟩ : Cursor).next? == some '!') = false := by
    rw [beq_eq_false_iff_ne]
    exact fun h => (hr '!' h).2 rfl
  rw [scanHandle, if_neg (by simp [Cursor.next?]), Cursor.skip_one (by decide), Cursor.takeWhile, htaken]
  have hword := Cursor.skip_append (fun c hc => (word_facts (hname c hc)).2.2.2) r (m.past ['!'])
  rw [← Mark.past_append] at hword
  dsimp only
  rw [hword, List.singleton_append, hnext]
  rfl

theorem scanShort_chars {cs : List Char} (hcs : ∀ c ∈ cs, c ∉ enders) {tail : List Char}
    (htail : Ends tail) (m : Mark) :
    ∃ handle suffix, scanShort ⟨'!' :: (cs.flatMap tagChar ++ tail), m⟩ =
        .ok (handle, suffix, ⟨tail, m.past ('!' :: cs.flatMap tagChar)⟩) ∧
      TokenKind.tag handle suffix = token cs := by
  have htails := fun c hc => (htail.facts c hc).1
  have hsplit := List.takeWhile_append_dropWhile (p := isWordChar) (l := cs)
  have hname : ∀ c ∈ cs.takeWhile isWordChar, isWordChar c = true :=
    List.all_eq_true.1 List.all_takeWhile
  have hhead : ∀ c ∈ (cs.dropWhile isWordChar).head?, isWordChar c = false := by
    intro c hc
    have := List.head?_dropWhile_not isWordChar cs
    rw [Option.mem_def.1 hc] at this
    simpa using this
  generalize cs.takeWhile isWordChar = name at hsplit hname
  generalize cs.dropWhile isWordChar = rest at hsplit hhead
  subst hsplit
  have hrest : ∀ c ∈ rest, c ∉ enders := fun c hc => hcs c (List.mem_append_right _ hc)
  have hnext : ∀ c ∈ (rest.flatMap tagChar ++ tail).head?, isWordChar c = false ∧ c ≠ '!' := by
    intro c hc
    cases rest with
    | nil => exact ⟨(htail.facts c hc).2.1, (htail.facts c hc).2.2.1⟩
    | cons d more =>
        obtain ⟨e, after, heq, hword, hmark, -⟩ := head_tagChar (hhead d rfl)
        rw [List.flatMap_cons, heq] at hc
        exact Option.some.inj hc ▸ ⟨hword, hmark⟩
  obtain ⟨hchars, hoctets⟩ := flatMap_tagChar_word hname
  have hlength : rest.length < (rest.flatMap tagChar ++ tail).length + 1 := by
    have := length_le_flatMap_tagChar rest
    rw [List.length_append]
    omega
  have hmark : (m.past ('!' :: name)).past (rest.flatMap tagChar) =
      m.past ('!' :: (name ++ rest.flatMap tagChar)) := (Mark.past_append ..).symm
  rw [List.flatMap_append, hchars, List.append_assoc, scanShort, scanHandle_word hname hnext]
  cases name with
  | nil =>
      dsimp only
      rw [scanUri_chars hrest htails hlength, hmark]
      cases rest with
      | nil => exact ⟨_, _, rfl, rfl⟩
      | cons d rest =>
          obtain ⟨octet, more, hoctet⟩ := List.exists_cons_of_ne_nil (octetsOf_ne_nil d)
          have hcons : (d :: rest).flatMap octetsOf = octet :: (more ++ rest.flatMap octetsOf) := by
            rw [List.flatMap_cons, hoctet]
            rfl
          rw [hcons]
          exact ⟨_, _, rfl, by
            rw [List.nil_append, token]
            exact hcons ▸ rfl⟩
  | cons c more =>
      have hlast : ((c :: more).getLast? == some '!') = false := by
        rw [beq_eq_false_iff_ne]
        intro h
        exact (word_facts (hname '!' (List.mem_of_getLast? h))).2.2.1 rfl
      simp only [hlast, Bool.false_eq_true, if_false, scanUri_chars hrest htails hlength, hmark]
      exact ⟨_, _, rfl, by rw [token, List.flatMap_append, hoctets]; rfl⟩

/-- Whether the tag as written is read up to its end. -/
def Readable (t : String) : Prop := ∀ c ∈ (bareTag t).toList, c ∉ enders

/-- The token that is read for a tag. -/
def written (t : String) : TokenKind :=
  match (bareTag t).toList with
  | ['!'] => .tag "" (decode? ['!'.toNat])
  | cs => token cs

theorem written_mark {t : String} (h : (bareTag t).toList = ['!']) :
    tagText t = "!<%21>".toList ∧ written t = .tag "" (decode? ['!'.toNat]) := by
  rw [tagText, written, h]
  exact ⟨rfl, rfl⟩

theorem written_chars {t : String} (h : (bareTag t).toList ≠ ['!']) :
    tagText t = '!' :: (bareTag t).toList.flatMap tagChar ∧ written t = token (bareTag t).toList := by
  constructor
  · rw [tagText]
    split
    · next heq => exact absurd heq h
    · rfl
  · rw [written]
    split
    · next heq => exact absurd heq h
    · rfl

theorem scan_short {cs : List Char} (hcs : ∀ c ∈ cs, c ∉ enders) {tail : List Char}
    (htail : Ends tail) (m : Mark) :
    scan false ⟨'!' :: (cs.flatMap tagChar ++ tail), m⟩ =
      if (⟨tail, m.past ('!' :: cs.flatMap tagChar)⟩ : Cursor).gapAfter 0 then
        .ok (token cs, ⟨tail, m.past ('!' :: cs.flatMap tagChar)⟩)
      else .error ⟨.tagEnd, some (m.past ('!' :: cs.flatMap tagChar))⟩ := by
  obtain ⟨handle, suffix, hscan, htoken⟩ := scanShort_chars hcs htail m
  have hangle : (((⟨'!' :: (cs.flatMap tagChar ++ tail), m⟩ : Cursor).rest.drop 1).head? == some '<') =
      false := by
    rw [beq_eq_false_iff_ne, List.drop_one, List.tail_cons]
    intro h
    cases cs with
    | nil => exact (htail.facts '<' h).2.2.2 rfl
    | cons c rest =>
        rw [List.flatMap_cons] at h
        cases hword : isWordChar c with
        | true =>
            rw [tagChar_eq, isRaw, hword] at h
            rw [Option.some.inj h] at hword
            exact absurd hword (by decide)
        | false =>
            obtain ⟨d, more, heq, -, -, hd⟩ := head_tagChar hword
            rw [heq] at h
            exact hd (Option.some.inj h)
  rw [scan, hangle]
  simp only [Bool.false_eq_true, if_false, hscan, Bool.false_and, Bool.or_false, ← htoken]
  rfl

/-- The tag that only its escape keeps apart from a handle. -/
theorem scan_mark {tail : List Char} (htail : tail.head?.all isGap = true) (m : Mark) :
    scan false ⟨"!<%21>".toList ++ tail, m⟩ =
      .ok (.tag "" (decode? ['!'.toNat]), ⟨tail, m.past "!<%21>".toList⟩) := by
  have huri : ∀ m : Mark, scanUri1 true ⟨'%' :: '2' :: '1' :: '>' :: tail, m⟩ =
      .ok (['!'.toNat], ⟨'>' :: tail, m.past ['%', '2', '1']⟩) := by
    intro m
    have hoctets : AreOctets ['!'.toNat] := ⟨⟨_, [], rfl, by decide, by simp⟩, by decide⟩
    have hescaped : scanEscaped ⟨'%' :: '2' :: '1' :: '>' :: tail, m⟩ =
        .ok (['!'.toNat], ⟨'>' :: tail, m.past ['%', '2', '1']⟩) :=
      scanEscaped_escapes hoctets ('>' :: tail) m
    have hscan : scanUri true (('%' :: '2' :: '1' :: '>' :: tail).length + 1) []
        ⟨'%' :: '2' :: '1' :: '>' :: tail, m⟩ =
          .ok (['!'.toNat], ⟨'>' :: tail, m.past ['%', '2', '1']⟩) := by
      rw [scanUri, hescaped]
      rfl
    rw [scanUri1, hscan]
  have hskip : (⟨"!<%21>".toList ++ tail, m⟩ : Cursor).skip 2 =
      ⟨'%' :: '2' :: '1' :: '>' :: tail, m.past ['!', '<']⟩ := rfl
  have hmark : ((m.past ['!', '<']).past ['%', '2', '1']).past ['>'] = m.past "!<%21>".toList := by
    rw [← Mark.past_append, ← Mark.past_append]
    rfl
  have hverbatim : scanVerbatim ⟨"!<%21>".toList ++ tail, m⟩ =
      .ok ("", decode? ['!'.toNat], ⟨tail, m.past "!<%21>".toList⟩) := by
    rw [scanVerbatim, hskip, huri, ← hmark]
    rfl
  rw [scan, if_pos (by rfl), hverbatim]
  exact if_pos (by rw [Bool.or_eq_true]; exact .inl htail)

/-- A tag is read up to the gap after it. -/
theorem scan_tagText {t : String} (h : Readable t) {tail : List Char}
    (htail : tail.head?.all isGap = true) (m : Mark) :
    scan false ⟨tagText t ++ tail, m⟩ = .ok (written t, ⟨tail, m.past (tagText t)⟩) := by
  by_cases hmark : (bareTag t).toList = ['!']
  · obtain ⟨htext, hkind⟩ := written_mark hmark
    rw [htext, hkind]
    exact scan_mark htail m
  · obtain ⟨htext, hkind⟩ := written_chars hmark
    have hends : Ends tail := fun c hc => by
      rw [Option.mem_def.1 hc] at htail
      exact .inl htail
    rw [htext, hkind, List.cons_append, scan_short h hends]
    exact if_pos htail

/-- A tag with a character that ends it is not read. -/
theorem scan_unreadable {t : String} (h : ¬Readable t) (tail : List Char) (m : Mark) :
    ∃ e, scan false ⟨tagText t ++ tail, m⟩ = .error e := by
  unfold Readable at h
  have hmark : (bareTag t).toList ≠ ['!'] := by
    intro hmark
    rw [hmark] at h
    exact h (List.all_iff_forall_prop.1 (by decide))
  rw [(written_chars hmark).1]
  have hsplit := List.takeWhile_append_dropWhile (p := fun c => !enders.contains c)
    (l := (bareTag t).toList)
  have hclean : ∀ c ∈ (bareTag t).toList.takeWhile (!enders.contains ·), c ∉ enders := fun c hc => by
    simpa using List.all_eq_true.1 List.all_takeWhile c hc
  cases hrest : (bareTag t).toList.dropWhile (!enders.contains ·) with
  | nil =>
      rw [hrest, List.append_nil] at hsplit
      exact absurd (hsplit ▸ hclean) h
  | cons d rest =>
      have hd : d ∈ enders := by
        have := List.head?_dropWhile_not (fun c => !enders.contains c) (bareTag t).toList
        rw [hrest] at this
        simpa using this
      have hraw : ∀ d ∈ enders, tagChar d = [d] ∧ isGap d = false :=
        List.all_iff_forall_prop.1 (by decide)
      obtain ⟨htext, hgap⟩ := hraw d hd
      rw [← hsplit, hrest, List.flatMap_append, List.flatMap_cons, htext, List.cons_append,
        List.append_assoc, List.append_assoc, scan_short hclean fun c hc => by
          obtain rfl := Option.some.inj hc
          exact .inr hd]
      exact ⟨_, if_neg (by simp [Cursor.gapAfter, hgap])⟩

end Tag

namespace Lexer

variable {lx : Lexer} {ks : List TokenKind} {I : List Nat} {allowed : Bool} {p : Option PendingKey}
  {r : List Char} {m : Mark}

theorem token_tag {ts : List Token} {n : Nat} :
    token ⟨⟨'!' :: r, m⟩, ts, n, I, allowed, p, []⟩ =
      keyToken ⟨⟨'!' :: r, m⟩, ts, n, I, allowed, p, []⟩ (Tag.scan false) := by
  simp [token, Cursor.next?, Cursor.atMarker, List.isPrefixOf, inFlow]

theorem tagText_head (t : String) : ∃ rest, tagText t = '!' :: rest := by
  by_cases h : (bareTag t).toList = ['!']
  · exact ⟨_, (Tag.written_mark h).1⟩
  · exact ⟨_, (Tag.written_chars h).1⟩

theorem atToken_tag (t : String) (tail : List Char) : AtToken (tagText t ++ tail) := by
  obtain ⟨rest, heq⟩ := tagText_head t
  rw [heq]
  exact atToken_cons (by decide) _

theorem written_goesOn (t : String) : Tag.written t ≠ .streamEnd := by
  by_cases h : (bareTag t).toList = ['!']
  · rw [(Tag.written_mark h).2]
    exact fun h => nomatch h
  · rw [(Tag.written_chars h).2, Tag.token]
    split <;> exact fun h => nomatch h

theorem inline_readable {t : String} (h : Tag.Readable t) :
    Inline True AtGap (tagText t) [Tag.written t] := by
  obtain ⟨rest, heq⟩ := tagText_head t
  refine inline_of_token (heq ▸ List.cons_ne_nil _ _) (written_goesOn t)
    fun {here ks I allowed p tail m} hhere _ htail => ?_
  obtain ⟨ts, -, rfl⟩ := hhere
  have hscan := Tag.scan_tagText h htail m
  rw [heq, List.cons_append] at hscan ⊢
  rw [token_tag, keyToken, keyToken]
  cases hsave : saveKey ⟨⟨'!' :: (rest ++ tail), m⟩, ts, ts.length, I, allowed, p, []⟩ with
  | error e => rfl
  | ok after =>
      obtain ⟨q, rfl⟩ := saveKey_eq hsave
      dsimp only
      rw [hscan]

/-- A tag, before a gap. -/
theorem inline_tag (t : String) : Inline (Tag.Readable t) AtGap (tagText t) [Tag.written t] := by
  intro lx ks I allowed p tail m h hI hp htail
  obtain ⟨rest, heq⟩ := tagText_head t
  by_cases hread : Tag.Readable t
  · exact (inline_readable hread h hI hp htail).congr (and_congr_left' (iff_of_true trivial hread))
  · refine .inr ⟨fun hok => hread hok.1, h.fails (by rw [heq]; exact List.cons_ne_nil _ _) hI
      fun here hhere => ?_⟩
    obtain ⟨ts, -, rfl⟩ := hhere
    obtain ⟨e, he⟩ := Tag.scan_unreadable hread tail m
    rw [heq, List.cons_append] at he ⊢
    rw [token_tag, keyToken]
    cases hsave : saveKey ⟨⟨'!' :: (rest ++ tail), m⟩, ts, ts.length, I, allowed, p, []⟩ with
    | error e => exact ⟨e, rfl⟩
    | ok after =>
        obtain ⟨q, rfl⟩ := saveKey_eq hsave
        dsimp only
        rw [he]
        exact ⟨e, rfl⟩

end Lexer

end GrammarProfile.Yaml
