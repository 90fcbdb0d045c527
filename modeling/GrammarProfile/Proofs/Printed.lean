import GrammarProfile.Profile.Outline
import GrammarProfile.Proofs.LaidOut

/-!
Texts printed in block style: nested mappings and lists of any indentation, with block scalars, blank
lines and comments. Each line knows the paths of the keys and items that begin in it, and no path is
that of two of them.
-/
namespace GrammarProfile

namespace Text

theorem not_isBlank_of_isAlphanum {c : Char} (h : c.isAlphanum = true) : isBlank c = false := by
  have hrange : 48 ≤ c.toNat ∧ c.toNat ≤ 122 := by
    delta Char.isAlphanum Char.isAlpha Char.isUpper Char.isLower Char.isDigit at h
    simp only [Bool.or_eq_true, Bool.and_eq_true, decide_eq_true_eq, ge_iff_le,
      UInt32.le_iff_toNat_le] at h
    simp only [Char.toNat]
    revert h
    simp
    omega
  unfold isBlank
  simp only [Bool.or_eq_false_iff, Bool.and_eq_false_imp, decide_eq_true_eq,
    decide_eq_false_iff_not, beq_eq_false_iff_ne]
  omega

theorem ne_of_isAlphanum {c d : Char} (h : c.isAlphanum = true) (hd : d.isAlphanum = false) :
    c ≠ d := by
  rintro rfl
  exact Bool.noConfusion (h.symm.trans hd)

/-- Words of characters that satisfy `p`, cut off by others, are the same in equal texts. -/
theorem eq_of_append_eq {p : Char → Bool} {w w' r r' : List Char} (hw : ∀ c ∈ w, p c = true)
    (hw' : ∀ c ∈ w', p c = true) (hr : ∀ c ∈ r.head?, p c = false)
    (hr' : ∀ c ∈ r'.head?, p c = false) (h : w ++ r = w' ++ r') : w = w' := by
  have hcut : ∀ {v s : List Char}, (∀ c ∈ v, p c = true) → (∀ c ∈ s.head?, p c = false) →
      (v ++ s).takeWhile p = v := by
    intro v s hv hs
    rw [List.takeWhile_append_of_pos hv]
    cases s with
    | nil => exact List.append_nil v
    | cons c s => rw [List.takeWhile_cons, hs c rfl, if_neg Bool.false_ne_true, List.append_nil]
  rw [← hcut hw hr, h, hcut hw' hr']

end Text

namespace Profile

open Text (IsLine)
open Yaml (spaces fill)

/-! ## Printed texts -/

namespace Printed

/-- A word of letters and digits. -/
structure Word where
  text : List Char
  nonempty : text ≠ []
  plain : ∀ c ∈ text, c.isAlphanum = true

/-- A line between keys and items that says nothing. -/
inductive Idle where
  | blank (text : List Char) (isLine : IsLine text) (blank : ∀ c ∈ text, Text.isBlank c = true)
  | comment (indent : Nat) (text : List Char) (isLine : IsLine text)

def Idle.text : Idle → List Char
  | .blank text _ _ => text
  | .comment indent text _ => spaces indent ++ '#' :: text

/-- A line of a block scalar: blank, or deeper by `step + 1` than what opens the scalar. -/
inductive ScalarLine where
  | blank (text : List Char) (isLine : IsLine text) (blank : ∀ c ∈ text, Text.isBlank c = true)
  | deeper (step : Nat) (text : List Char) (isLine : IsLine text)

def ScalarLine.text (k : Nat) : ScalarLine → List Char
  | .blank text _ _ => text
  | .deeper step text _ => spaces (k + 1 + step) ++ text

/-- A block scalar: a mark with its hints, and lines. -/
structure Scalar where
  mark : Char
  isMark : mark = '|' ∨ mark = '>'
  hints : List Char
  areHints : ∀ c ∈ hints, c = '+' ∨ c = '-' ∨ c.isDigit = true
  lines : List ScalarLine

def Scalar.header (s : Scalar) : List Char := s.mark :: s.hints

mutual
/-- What stands after a key: a nested mapping is deeper than its key by `step + 1`, a list by
`step`. -/
inductive Value where
  | empty
  | word (text : Word)
  | scalar (text : Scalar)
  | mapping (step : Nat) (above : List Idle) (pairs : Pairs)
  | list (step : Nat) (above : List Idle) (items : Items)
/-- The pairs of a mapping, at least one, with the lines between them. -/
inductive Pairs where
  | last (key : Word) (value : Value)
  | next (key : Word) (value : Value) (between : List Idle) (more : Pairs)
/-- The items of a list, at least one, with the lines between them. -/
inductive Items where
  | last (item : Item)
  | next (item : Item) (between : List Idle) (more : Items)
inductive Item where
  | word (text : Word)
  | scalar (text : Scalar)
  | mapping (pairs : Pairs)
end

/-- What stands in the line of a key, after the colon and a blank. -/
def Value.head : Value → List Char
  | .word w => w.text
  | .scalar s => s.header
  | .empty => []
  | .mapping _ _ _ => []
  | .list _ _ _ => []

/-- The content of the line of a key. -/
def keyLine (key : Word) (value : Value) : List Char :=
  key.text ++ ':' :: if value.head = [] then [] else ' ' :: value.head

def keyPath (base : String) (key : Word) : String := base ++ String.ofList key.text

def itemPath (path : String) (j : Nat) : String := path ++ "[" ++ toString j ++ "]"

def dash (i : Nat) : List Char := spaces i ++ ['-', ' ']

/-- A printed line. The paths are those of the keys and items whose content begins after the lead. -/
structure Line where
  lead : List Char
  content : List Char
  paths : List String

namespace Line

def text (l : Line) : List Char := l.lead ++ l.content

/-- What begins in a line, the number of which is `n`. -/
def entries (n : Nat) (l : Line) : List Entry :=
  l.paths.map fun path => (path, ⟨n, Text.byteCount l.lead⟩)

/-- What begins in lines, the first of which has the number `n`. -/
def allEntries (n : Nat) : List Line → List Entry
  | [] => []
  | l :: rest => l.entries n ++ allEntries (n + 1) rest

end Line

def idleLines (idle : List Idle) : List Line := idle.map fun l => ⟨[], l.text, []⟩

def scalarLines (k : Nat) (s : Scalar) : List Line := s.lines.map fun l => ⟨[], l.text k, []⟩

mutual
/-- The lines below a key in the column `k`. -/
def Value.lines (path : String) (k : Nat) : Value → List Line
  | .empty => []
  | .word _ => []
  | .scalar s => scalarLines k s
  | .mapping step above pairs =>
      idleLines above ++ pairs.lines (path ++ ".") (k + 1 + step) (spaces (k + 1 + step)) []
  | .list step above items => idleLines above ++ items.lines path (k + step) 0
/-- The lines of pairs in the column `k`; the first pair stands after `lead`, where what `paths`
name begins too. -/
def Pairs.lines (base : String) (k : Nat) (lead : List Char) (paths : List String) :
    Pairs → List Line
  | .last key value =>
      ⟨lead, keyLine key value, paths ++ [keyPath base key]⟩ :: value.lines (keyPath base key) k
  | .next key value between more =>
      ⟨lead, keyLine key value, paths ++ [keyPath base key]⟩ :: value.lines (keyPath base key) k ++
        (idleLines between ++ more.lines base k (spaces k) [])
/-- The lines of items whose dashes stand in the column `i`, the first of which has the number
`j`. -/
def Items.lines (path : String) (i j : Nat) : Items → List Line
  | .last item => item.lines (itemPath path j) i
  | .next item between more =>
      item.lines (itemPath path j) i ++ (idleLines between ++ more.lines path i (j + 1))
def Item.lines (path : String) (i : Nat) : Item → List Line
  | .word w => [⟨dash i, w.text, [path]⟩]
  | .scalar s => ⟨dash i, s.header, [path]⟩ :: scalarLines i s
  | .mapping pairs => pairs.lines (path ++ ".") (i + 2) (dash i) [path]
end

mutual
/-- The paths of all keys and items below a key. -/
def Value.paths (path : String) : Value → List String
  | .empty => []
  | .word _ => []
  | .scalar _ => []
  | .mapping _ _ pairs => pairs.paths (path ++ ".")
  | .list _ _ items => items.paths path 0
def Pairs.paths (base : String) : Pairs → List String
  | .last key value => keyPath base key :: value.paths (keyPath base key)
  | .next key value _ more =>
      keyPath base key :: value.paths (keyPath base key) ++ more.paths base
def Items.paths (path : String) (j : Nat) : Items → List String
  | .last item => itemPath path j :: item.paths (itemPath path j)
  | .next item _ more =>
      itemPath path j :: item.paths (itemPath path j) ++ more.paths path (j + 1)
def Item.paths (path : String) : Item → List String
  | .word _ => []
  | .scalar _ => []
  | .mapping pairs => pairs.paths (path ++ ".")
end

def Pairs.keys : Pairs → List (List Char)
  | .last key _ => [key.text]
  | .next key _ _ more => key.text :: more.keys

mutual
/-- The keys are distinct within each mapping. -/
def Value.Distinct : Value → Prop
  | .empty => True
  | .word _ => True
  | .scalar _ => True
  | .mapping _ _ pairs => pairs.keys.Nodup ∧ pairs.Distinct
  | .list _ _ items => items.Distinct
def Pairs.Distinct : Pairs → Prop
  | .last _ value => value.Distinct
  | .next _ value _ more => value.Distinct ∧ more.Distinct
def Items.Distinct : Items → Prop
  | .last item => item.Distinct
  | .next item _ more => item.Distinct ∧ more.Distinct
def Item.Distinct : Item → Prop
  | .word _ => True
  | .scalar _ => True
  | .mapping pairs => pairs.keys.Nodup ∧ pairs.Distinct
end

end Printed

/-- A mapping printed in the column `indent`, with the lines above and below it. -/
structure Printed where
  indent : Nat
  above : List Printed.Idle
  pairs : Printed.Pairs
  below : List Printed.Idle

namespace Printed

def lines (d : Printed) : List Line :=
  idleLines d.above ++ d.pairs.lines "" d.indent (spaces d.indent) [] ++ idleLines d.below

def text (d : Printed) : String := String.ofList (fill (d.lines.map Line.text))

/-- The paths of the keys and items, each with the place at which it was printed. -/
def places (d : Printed) : List Entry := Line.allEntries 1 d.lines

/-- The keys are distinct within each mapping. -/
def Distinct (d : Printed) : Prop := d.pairs.keys.Nodup ∧ d.pairs.Distinct

/-! ## The paths are distinct -/

@[simp] theorem paths_idleLines (idle : List Idle) : (idleLines idle).flatMap Line.paths = [] := by
  simp [idleLines]

@[simp] theorem paths_scalarLines (k : Nat) (s : Scalar) :
    (scalarLines k s).flatMap Line.paths = [] := by
  simp [scalarLines]

mutual
theorem Value.paths_lines (path : String) (k : Nat) :
    ∀ v : Value, (v.lines path k).flatMap Line.paths = v.paths path
  | .empty => rfl
  | .word _ => rfl
  | .scalar s => paths_scalarLines k s
  | .mapping step above pairs => by
      simp [Value.lines, Value.paths, Pairs.paths_lines]
  | .list step above items => by
      simp [Value.lines, Value.paths, Items.paths_lines]
theorem Pairs.paths_lines (base : String) (k : Nat) (lead : List Char) (paths : List String) :
    ∀ p : Pairs, (p.lines base k lead paths).flatMap Line.paths = paths ++ p.paths base
  | .last key value => by
      simp [Pairs.lines, Pairs.paths, Value.paths_lines]
  | .next key value between more => by
      simp [Pairs.lines, Pairs.paths, Value.paths_lines,
        Pairs.paths_lines]
theorem Items.paths_lines (path : String) (i j : Nat) :
    ∀ l : Items, (l.lines path i j).flatMap Line.paths = l.paths path j
  | .last item => by simp [Items.lines, Items.paths, Item.paths_lines]
  | .next item between more => by
      simp [Items.lines, Items.paths, Item.paths_lines,
        Items.paths_lines]
theorem Item.paths_lines (path : String) (i : Nat) :
    ∀ l : Item, (l.lines path i).flatMap Line.paths = path :: l.paths path
  | .word _ => rfl
  | .scalar s => by simp [Item.lines, Item.paths]
  | .mapping pairs => by simp [Item.lines, Item.paths, Pairs.paths_lines]
end

/-- What may follow a whole key or item in a path. -/
def Divides (rest : List Char) : Prop := ∀ c ∈ rest.head?, c = '.' ∨ c = '['

theorem divides_nil : Divides [] := fun _ h => absurd h (Option.not_mem_none _)

theorem divides_dot (rest : List Char) : Divides ('.' :: rest) :=
  fun _ h => .inl (Option.some.inj h).symm

theorem divides_bracket (rest : List Char) : Divides ('[' :: rest) :=
  fun _ h => .inr (Option.some.inj h).symm

theorem toList_keyPath (base : String) (key : Word) :
    (keyPath base key).toList = base.toList ++ key.text := by
  simp [keyPath]

theorem toList_itemPath (path : String) (j : Nat) :
    (itemPath path j).toList = path.toList ++ '[' :: (Nat.toDigits 10 j ++ [']']) := by
  simp [itemPath, toString, Nat.repr]

theorem keyPath_of_divides {base : String} {key key' : Word} {rest rest' : List Char}
    (hrest : Divides rest) (hrest' : Divides rest')
    (h : (keyPath base key).toList ++ rest = (keyPath base key').toList ++ rest') :
    key.text = key'.text := by
  rw [toList_keyPath, toList_keyPath, List.append_assoc, List.append_assoc,
    List.append_cancel_left_eq] at h
  have hend : ∀ {r : List Char}, Divides r → ∀ c ∈ r.head?, c.isAlphanum = false :=
    fun hr c hc => (hr c hc).elim (fun e => e ▸ rfl) fun e => e ▸ rfl
  exact Text.eq_of_append_eq key.plain key'.plain (hend hrest) (hend hrest') h

theorem itemPath_injective {path : String} {j j' : Nat} {rest rest' : List Char}
    (h : (itemPath path j).toList ++ rest = (itemPath path j').toList ++ rest') : j = j' := by
  simp only [toList_itemPath, List.append_assoc, List.cons_append, List.append_cancel_left_eq,
    List.cons.injEq, true_and, List.nil_append] at h
  have hdigits : ∀ n : Nat, ∀ c ∈ Nat.toDigits 10 n, c.isDigit = true :=
    fun n c hc => Nat.isDigit_of_mem_toDigits (by decide) (by decide) hc
  have hbracket : ∀ (r : List Char), ∀ c ∈ (']' :: r).head?, c.isDigit = false :=
    fun r c hc => Option.some.inj hc ▸ rfl
  have heq := Text.eq_of_append_eq (hdigits j) (hdigits j') (hbracket rest) (hbracket rest') h
  calc j
    _ = Nat.ofDigitChars 10 (Nat.toDigits 10 j) 0 := Nat.ofDigitChars_ten_toDigits.symm
    _ = Nat.ofDigitChars 10 (Nat.toDigits 10 j') 0 := by rw [heq]
    _ = j' := Nat.ofDigitChars_ten_toDigits

/-- A path below another one. -/
def Below (path q : String) : Prop :=
  ∃ rest, q.toList = path.toList ++ rest ∧ rest ≠ [] ∧ Divides rest

theorem Below.ne {path : String} (h : Below path path) : False := by
  obtain ⟨rest, heq, hne, -⟩ := h
  exact hne (List.append_cancel_left (heq.symm.trans (List.append_nil _).symm))

theorem below_mapping {path : String} {key : Word} {rest : List Char} {q : String}
    (h : q.toList = (keyPath (path ++ ".") key).toList ++ rest) : Below path q :=
  ⟨'.' :: (key.text ++ rest), by simp [h, toList_keyPath], List.cons_ne_nil _ _, divides_dot _⟩

theorem below_list {path : String} {j : Nat} {rest : List Char} {q : String}
    (h : q.toList = (itemPath path j).toList ++ rest) : Below path q :=
  ⟨'[' :: (Nat.toDigits 10 j ++ ']' :: rest), by simp [h, toList_itemPath], List.cons_ne_nil _ _,
    divides_bracket _⟩

mutual
theorem Value.below_of_mem {path q : String} : ∀ v : Value, q ∈ v.paths path → Below path q
  | .empty, h => absurd h List.not_mem_nil
  | .word _, h => absurd h List.not_mem_nil
  | .scalar _, h => absurd h List.not_mem_nil
  | .mapping _ _ pairs, h => by
      obtain ⟨key, -, rest, heq, -⟩ := pairs.below_of_mem h
      exact below_mapping heq
  | .list _ _ items, h => by
      obtain ⟨j, -, rest, heq⟩ := items.below_of_mem h
      exact below_list heq
theorem Pairs.below_of_mem {base q : String} : ∀ p : Pairs, q ∈ p.paths base →
    ∃ key : Word, key.text ∈ p.keys ∧ ∃ rest, q.toList = (keyPath base key).toList ++ rest ∧
      Divides rest
  | .last key value, h => by
      obtain rfl | h := List.mem_cons.1 h
      · exact ⟨key, List.mem_singleton_self _, [], (List.append_nil _).symm, divides_nil⟩
      · obtain ⟨rest, heq, -, hrest⟩ := value.below_of_mem h
        exact ⟨key, List.mem_singleton_self _, rest, heq, hrest⟩
  | .next key value _ more, h => by
      obtain rfl | h := List.mem_cons.1 h
      · exact ⟨key, List.mem_cons_self, [], (List.append_nil _).symm, divides_nil⟩
      · obtain h | h := List.mem_append.1 h
        · obtain ⟨rest, heq, -, hrest⟩ := value.below_of_mem h
          exact ⟨key, List.mem_cons_self, rest, heq, hrest⟩
        · obtain ⟨key', hkey, hrest⟩ := more.below_of_mem h
          exact ⟨key', List.mem_cons_of_mem _ hkey, hrest⟩
theorem Items.below_of_mem {path q : String} {j : Nat} : ∀ l : Items, q ∈ l.paths path j →
    ∃ n, j ≤ n ∧ ∃ rest, q.toList = (itemPath path n).toList ++ rest
  | .last item, h => by
      obtain rfl | h := List.mem_cons.1 h
      · exact ⟨j, Nat.le_refl _, [], (List.append_nil _).symm⟩
      · obtain ⟨rest, heq, -⟩ := item.below_of_mem h
        exact ⟨j, Nat.le_refl _, rest, heq⟩
  | .next item _ more, h => by
      obtain rfl | h := List.mem_cons.1 h
      · exact ⟨j, Nat.le_refl _, [], (List.append_nil _).symm⟩
      · obtain h | h := List.mem_append.1 h
        · obtain ⟨rest, heq, -⟩ := item.below_of_mem h
          exact ⟨j, Nat.le_refl _, rest, heq⟩
        · obtain ⟨n, hn, hrest⟩ := more.below_of_mem h
          exact ⟨n, Nat.le_of_succ_le hn, hrest⟩
theorem Item.below_of_mem {path q : String} : ∀ l : Item, q ∈ l.paths path → Below path q
  | .word _, h => absurd h List.not_mem_nil
  | .scalar _, h => absurd h List.not_mem_nil
  | .mapping pairs, h => by
      obtain ⟨key, -, rest, heq, -⟩ := pairs.below_of_mem h
      exact below_mapping heq
end

mutual
theorem Value.nodup_paths (path : String) : ∀ v : Value, v.Distinct → (v.paths path).Nodup
  | .empty, _ => List.nodup_nil
  | .word _, _ => List.nodup_nil
  | .scalar _, _ => List.nodup_nil
  | .mapping _ _ pairs, h => pairs.nodup_paths _ h.1 h.2
  | .list _ _ items, h => items.nodup_paths path 0 h
theorem Pairs.nodup_paths (base : String) :
    ∀ p : Pairs, p.keys.Nodup → p.Distinct → (p.paths base).Nodup
  | .last key value, _, h =>
      List.nodup_cons.2 ⟨fun hin => (value.below_of_mem hin).ne, value.nodup_paths _ h⟩
  | .next key value _ more, hkeys, h => by
      obtain ⟨hkey, hkeys⟩ := List.nodup_cons.1 hkeys
      have hown : (keyPath base key :: value.paths (keyPath base key)).Nodup :=
        List.nodup_cons.2 ⟨fun hin => (value.below_of_mem hin).ne, value.nodup_paths _ h.1⟩
      refine List.nodup_append.2 ⟨hown, more.nodup_paths base hkeys h.2, ?_⟩
      rintro q hq _ hmore rfl
      obtain ⟨key', hkey', rest', heq', hrest'⟩ := more.below_of_mem hmore
      obtain ⟨rest, heq, hrest⟩ : ∃ rest, q.toList = (keyPath base key).toList ++ rest ∧
          Divides rest := by
        obtain rfl | hq := List.mem_cons.1 hq
        · exact ⟨[], (List.append_nil _).symm, divides_nil⟩
        · obtain ⟨rest, heq, -, hrest⟩ := value.below_of_mem hq
          exact ⟨rest, heq, hrest⟩
      exact hkey (keyPath_of_divides hrest hrest' (heq.symm.trans heq') ▸ hkey')
theorem Items.nodup_paths (path : String) (j : Nat) :
    ∀ l : Items, l.Distinct → (l.paths path j).Nodup
  | .last item, h => List.nodup_cons.2 ⟨fun hin => (item.below_of_mem hin).ne, item.nodup_paths _ h⟩
  | .next item _ more, h => by
      have hown : (itemPath path j :: item.paths (itemPath path j)).Nodup :=
        List.nodup_cons.2 ⟨fun hin => (item.below_of_mem hin).ne, item.nodup_paths _ h.1⟩
      refine List.nodup_append.2 ⟨hown, more.nodup_paths path (j + 1) h.2, ?_⟩
      rintro q hq _ hmore rfl
      obtain ⟨n, hn, rest', heq'⟩ := more.below_of_mem hmore
      obtain ⟨rest, heq⟩ : ∃ rest, q.toList = (itemPath path j).toList ++ rest := by
        obtain rfl | hq := List.mem_cons.1 hq
        · exact ⟨[], (List.append_nil _).symm⟩
        · obtain ⟨rest, heq, -⟩ := item.below_of_mem hq
          exact ⟨rest, heq⟩
      exact Nat.not_succ_le_self n (itemPath_injective (heq.symm.trans heq') ▸ hn)
theorem Item.nodup_paths (path : String) : ∀ l : Item, l.Distinct → (l.paths path).Nodup
  | .word _, _ => List.nodup_nil
  | .scalar _, _ => List.nodup_nil
  | .mapping pairs, h => pairs.nodup_paths _ h.1 h.2
end

end Printed

end Profile

end GrammarProfile
