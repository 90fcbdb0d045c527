import GrammarProfile.Yaml.Reader

/-!
Trees of nodes as they are written, the tokens that they are written with, and the events that are
read from these tokens.
-/
namespace GrammarProfile.Yaml

/-- A node as it is written. -/
inductive Tree where
  /-- Nothing. -/
  | absent
  | scalar (text : String) (isPlain : Bool)
  /-- Quoted texts in brackets. -/
  | flow (texts : List String)
  | emptyMapping
  /-- A list in block form, possibly without an indentation of its own. -/
  | sequence (indentless : Bool) (items : List Tree)
  | mapping (pairs : List (Tree × Tree))
  /-- A node after a tag, which has a handle or none. -/
  | tagged (hasHandle : Bool) (suffix : Option String) (tree : Tree)
  deriving Inhabited

/-- What is read of an event apart from its place. -/
structure Shape where
  kind : EventKind
  tag : Option String
  anchor : Option Nat
  deriving DecidableEq, Repr

def Event.shape (e : Event) : Shape := ⟨e.kind, e.tag, e.anchor⟩

/-- An event without a tag. -/
def Shape.bare (kind : EventKind) : Shape := ⟨kind, none, none⟩

namespace Tree

def tagKind (hasHandle : Bool) (suffix : Option String) : TokenKind :=
  .tag (if hasHandle then "!" else "") suffix

/-- The tag that a handle and a suffix stand for. -/
def tagOf (hasHandle : Bool) (suffix : Option String) : Option String :=
  if hasHandle then suffix.map ("!" ++ ·) else suffix

/-- Texts with commas between them. -/
def flowKinds : List String → List TokenKind
  | [] => []
  | s :: rest => .scalar s false :: rest.flatMap fun s => [.flowEntry, .scalar s false]

mutual

/-- The kinds of the tokens that a node is written with. -/
def kinds : Tree → List TokenKind
  | absent => []
  | scalar text isPlain => [.scalar text isPlain]
  | flow texts => .flowSequence :: (flowKinds texts ++ [.flowSequenceEnd])
  | emptyMapping => [.flowMapping, .flowMappingEnd]
  | sequence indentless items =>
    if indentless then itemKinds items else .blockSequence :: (itemKinds items ++ [.blockEnd])
  | mapping pairs => .blockMapping :: (pairKinds pairs ++ [.blockEnd])
  | tagged hasHandle suffix tree => tagKind hasHandle suffix :: kinds tree

def itemKinds : List Tree → List TokenKind
  | [] => []
  | t :: rest => .entry :: (kinds t ++ itemKinds rest)

def pairKinds : List (Tree × Tree) → List TokenKind
  | [] => []
  | (k, v) :: rest => .key :: (kinds k ++ .value :: (kinds v ++ pairKinds rest))

end

mutual

/-- The events of a node that has a tag or none. -/
def shapes (tag : Option String) : Tree → List Shape
  | absent => [⟨.scalar "" true, tag, none⟩]
  | scalar text isPlain => [⟨.scalar text isPlain, tag, none⟩]
  | flow texts =>
    ⟨.sequence, tag, none⟩ :: (texts.map (fun s => Shape.bare (.scalar s false)) ++
      [Shape.bare .sequenceEnd])
  | emptyMapping => [⟨.mapping, tag, none⟩, Shape.bare .mappingEnd]
  | sequence _ items => ⟨.sequence, tag, none⟩ :: (itemShapes items ++ [Shape.bare .sequenceEnd])
  | mapping pairs => ⟨.mapping, tag, none⟩ :: (pairShapes pairs ++ [Shape.bare .mappingEnd])
  | tagged hasHandle suffix tree => shapes (tagOf hasHandle suffix) tree

def itemShapes : List Tree → List Shape
  | [] => []
  | t :: rest => shapes none t ++ itemShapes rest

def pairShapes : List (Tree × Tree) → List Shape
  | [] => []
  | (k, v) :: rest => shapes none k ++ (shapes none v ++ pairShapes rest)

end

def isTagged : Tree → Bool
  | tagged _ _ _ => true
  | _ => false

mutual

/-- Whether a node is read as it is written: where nothing is written, a tag or the mark of a key or
value is before it, and only after such a mark a list may be without indentation. -/
def Fits (inPair : Bool) : Tree → Prop
  | absent => inPair = true
  | scalar _ _ => True
  | flow _ => True
  | emptyMapping => True
  | sequence indentless items =>
    (indentless = true → inPair = true ∧ items ≠ []) ∧ ItemsFit items
  | mapping pairs => PairsFit pairs
  | tagged _ _ tree => tree.isTagged = false ∧ (tree = absent ∨ Fits inPair tree)

def ItemsFit : List Tree → Prop
  | [] => True
  | t :: rest => Fits false t ∧ ItemsFit rest

def PairsFit : List (Tree × Tree) → Prop
  | [] => True
  | (k, v) :: rest => Fits true k ∧ Fits true v ∧ PairsFit rest

end

end Tree

namespace Parse

variable {α β : Type} {ks ks₁ ks₂ : List TokenKind} {ss ss₁ ss₂ : List Shape}
  {F F₁ : TokenKind → Prop}

/-- The tokens that remain and the events so far, in a document without directives and anchors. -/
def source (failure : Error) (ts : List Token) (es : List Event) : Source :=
  ⟨ts, failure, defaultHandles, [], es⟩

theorem run_bind (p : Parse α) (f : α → Parse β) (s : Source) :
    (p >>= f).run s = match p.run s with
      | (.ok a, after) => (f a).run after
      | (.error e, after) => (.error e, after) := by
  change (ExceptT.bindCont f (p.run s).1) (p.run s).2 = _
  cases h : p.run s with
  | mk r after => cases r <;> rfl

/-- Tokens of some kinds are read as events, before a token of a kind that satisfies `F`. -/
def Reads (p : Parse Unit) (ks : List TokenKind) (ss : List Shape) (F : TokenKind → Prop) : Prop :=
  ∀ (failure : Error) (ts : List Token) (next : Token) (rest : List Token) (es : List Event),
    ts.map Token.kind = ks → F next.kind →
    ∃ es' : List Event, es'.map Event.shape = ss ∧
      p.run (source failure (ts ++ next :: rest) es) =
        (.ok (), source failure (next :: rest) (es'.reverse ++ es))

/-- Whether a kind is the first of some, or comes after them. -/
def Begins (ks : List TokenKind) (F : TokenKind → Prop) (k : TokenKind) : Prop :=
  match ks with
  | [] => F k
  | first :: _ => k = first

theorem Reads.bind {p q : Parse Unit} (hp : Reads p ks₁ ss₁ F₁) (hq : Reads q ks₂ ss₂ F)
    (hF : ∀ k, Begins ks₂ F k → F₁ k) : Reads (p >>= fun _ => q) (ks₁ ++ ks₂) (ss₁ ++ ss₂) F := by
  intro failure ts next rest es hts hnext
  obtain ⟨ts₁, ts₂, rfl, hts₁, hts₂⟩ := List.map_eq_append_iff.1 hts
  cases ts₂ with
  | nil =>
      obtain rfl := hts₂
      obtain ⟨es₁, hes₁, hrun₁⟩ := hp failure ts₁ next rest es hts₁ (hF _ hnext)
      obtain ⟨es₂, hes₂, hrun₂⟩ := hq failure [] next rest (es₁.reverse ++ es) rfl hnext
      rw [List.nil_append] at hrun₂
      refine ⟨es₁ ++ es₂, by rw [List.map_append, hes₁, hes₂], ?_⟩
      rw [List.append_nil, run_bind, hrun₁]
      dsimp only
      rw [hrun₂, List.reverse_append, List.append_assoc]
  | cons t ts₂ =>
      obtain ⟨k, ks₂, rfl, -, -⟩ : ∃ k ks, ks₂ = k :: ks ∧ t.kind = k ∧ ts₂.map Token.kind = ks :=
        ⟨_, _, hts₂.symm, rfl, rfl⟩
      have hk : t.kind = k := (List.cons.inj hts₂).1
      obtain ⟨es₁, hes₁, hrun₁⟩ :=
        hp failure ts₁ t (ts₂ ++ next :: rest) es hts₁ (hF _ hk)
      obtain ⟨es₂, hes₂, hrun₂⟩ := hq failure (t :: ts₂) next rest (es₁.reverse ++ es) hts₂ hnext
      refine ⟨es₁ ++ es₂, by rw [List.map_append, hes₁, hes₂], ?_⟩
      rw [List.append_assoc, List.cons_append, run_bind, hrun₁]
      dsimp only
      rw [← List.cons_append, hrun₂, List.reverse_append, List.append_assoc]

/-- The next token is looked at. -/
theorem reads_peek {f : Token → Parse Unit}
    (h : ∀ t : Token, Begins ks F t.kind → Reads (f t) ks ss F) : Reads (peek >>= f) ks ss F := by
  intro failure ts next rest es hts hnext
  cases ts with
  | nil =>
      obtain rfl := hts
      obtain ⟨es', hes, hrun⟩ := h next hnext failure [] next rest es rfl hnext
      exact ⟨es', hes, (run_bind _ _ _).trans hrun⟩
  | cons t ts =>
      obtain rfl := hts
      obtain ⟨es', hes, hrun⟩ := h t rfl failure (t :: ts) next rest es rfl hnext
      exact ⟨es', hes, (run_bind _ _ _).trans hrun⟩

theorem reads_advance (k : TokenKind) (F : TokenKind → Prop) : Reads advance [k] [] F := by
  intro failure ts next rest es hts _
  obtain ⟨t, ts, rfl, -, hnil⟩ := List.map_eq_cons_iff.1 hts
  obtain rfl := List.map_eq_nil_iff.1 hnil
  exact ⟨[], rfl, rfl⟩

theorem reads_emit (kind : EventKind) (mark : Mark) (F : TokenKind → Prop) :
    Reads (emit kind mark) [] [Shape.bare kind] F := by
  intro failure ts next rest es hts _
  obtain rfl := List.map_eq_nil_iff.1 hts
  exact ⟨[⟨kind, none, none, mark⟩], rfl, rfl⟩

theorem reads_emitNode (kind : EventKind) {p : Properties} (hp : p.anchor = none) (mark : Mark)
    (F : TokenKind → Prop) : Reads (emitNode kind p mark) [] [⟨kind, p.tag, none⟩] F := by
  intro failure ts next rest es hts _
  obtain rfl := List.map_eq_nil_iff.1 hts
  refine ⟨[⟨kind, p.tag, none, mark⟩], rfl, ?_⟩
  obtain ⟨anchor, hasTag, tag, m, tagMark⟩ := p
  obtain rfl : anchor = none := hp
  rfl

theorem Reads.afterAdvance {q : Parse Unit} (h : Reads q ks ss F) (k : TokenKind) :
    Reads (advance >>= fun _ => q) (k :: ks) ss F :=
  (reads_advance k fun _ => True).bind h fun _ _ => trivial

theorem Reads.afterEmit {q : Parse Unit} (h : Reads q ks ss F) (kind : EventKind) (mark : Mark) :
    Reads (emit kind mark >>= fun _ => q) ks (Shape.bare kind :: ss) F :=
  (reads_emit kind mark fun _ => True).bind h fun _ _ => trivial

theorem Reads.afterNode {q : Parse Unit} (h : Reads q ks ss F) (kind : EventKind) {p : Properties}
    (hp : p.anchor = none) (mark : Mark) :
    Reads (emitNode kind p mark >>= fun _ => q) ks (⟨kind, p.tag, none⟩ :: ss) F :=
  (reads_emitNode kind hp mark fun _ => True).bind h fun _ _ => trivial

/-! ## Nodes -/

/-- The rest of a node after its properties. -/
def content (fuel : Nat) (block indentless : Bool) (p : Properties) : Parse Unit := do
  let t ← peek
  let mark := p.mark.getD t.mark
  let isBare := p.anchor.isNone && !p.hasTag
  match t.kind, block with
  | .scalar text isPlain, _ =>
    emitNode (.scalar text isPlain) p mark
    advance
  | .flowSequence, _ =>
    emitNode .sequence p mark
    advance
    flowItems fuel true
  | .flowMapping, _ =>
    emitNode .mapping p mark
    advance
    flowPairs fuel true
  | .blockSequence, true =>
    emitNode .sequence p mark
    advance
    blockEntries fuel
  | .blockMapping, true =>
    emitNode .mapping p mark
    advance
    blockPairs fuel
  | kind, _ =>
    if indentless && kind == .entry then
      emitNode .sequence p mark
      indentlessEntries fuel
    else if isBare then failAt t.mark .noContent
    else emitNode (.scalar "" true) p mark

/-- The properties of a node without any. -/
def noProperties : Properties := ⟨none, false, none, none, none⟩

/-- The properties of a node with a tag. -/
def tagProperties (tag : Option String) (mark : Mark) : Properties :=
  ⟨none, true, tag, some mark, some mark⟩

/-- Kinds of tokens that are no properties of a node and do not stand for one. -/
def IsContent (k : TokenKind) : Prop :=
  (∀ name, k ≠ .alias name) ∧ (∀ name, k ≠ .anchor name) ∧ ∀ handle suffix, k ≠ .tag handle suffix

variable {fuel : Nat} {block indentless : Bool} {k : TokenKind}

theorem run_node {t : Token} {s : Source} (hs : s.tokens.head? = some t)
    (ht : ∀ name, t.kind ≠ .alias name) :
    (node (fuel + 1) block indentless).run s =
      (properties >>= content fuel block indentless).run s := by
  have hpeek : peek.run s = (.ok t, s) := by
    obtain ⟨u, us, hus⟩ : ∃ u us, s.tokens = u :: us := by
      cases htokens : s.tokens with
      | nil => rw [htokens] at hs; cases hs
      | cons u us => exact ⟨u, us, rfl⟩
    rw [hus] at hs
    obtain rfl := Option.some.inj hs
    obtain ⟨tokens, failure, handles, anchors, events⟩ := s
    obtain rfl := hus
    rfl
  rw [node, run_bind, hpeek]
  dsimp only
  split
  · next name h => exact absurd h (ht name)
  · rfl

theorem run_properties_none {t : Token} (ht : IsContent t.kind) (failure : Error) (ts : List Token)
    (es : List Event) :
    properties.run (source failure (t :: ts) es) = (.ok noProperties, source failure (t :: ts) es) := by
  rw [properties, run_bind, show peek.run (source failure (t :: ts) es) =
    (.ok t, source failure (t :: ts) es) from rfl]
  dsimp only
  split
  · next name h => exact absurd h (ht.2.1 name)
  · next handle suffix h => exact absurd h (ht.2.2 handle suffix)
  · rfl

theorem run_properties_tag {t u : Token} {hasHandle : Bool} {suffix : Option String}
    (ht : t.kind = Tree.tagKind hasHandle suffix) (hu : ∀ name, u.kind ≠ .anchor name)
    (failure : Error) (ts : List Token) (es : List Event) :
    properties.run (source failure (t :: u :: ts) es) =
      (.ok (tagProperties (Tree.tagOf hasHandle suffix) t.mark), source failure (u :: ts) es) := by
  rw [properties, run_bind, show peek.run (source failure (t :: u :: ts) es) =
    (.ok t, source failure (t :: u :: ts) es) from rfl]
  simp only [ht, Tree.tagKind]
  rw [run_bind, show advance.run (source failure (t :: u :: ts) es) =
    (.ok (), source failure (u :: ts) es) from rfl]
  dsimp only
  rw [run_bind, show peek.run (source failure (u :: ts) es) =
    (.ok u, source failure (u :: ts) es) from rfl]
  dsimp only
  split
  · next name h => exact absurd h (hu name)
  · cases hasHandle <;> rfl

theorem reads_node_bare (hk : IsContent k)
    (h : Reads (content fuel block indentless noProperties) (k :: ks) ss F) :
    Reads (node (fuel + 1) block indentless) (k :: ks) ss F := by
  intro failure ts next rest es hts hnext
  obtain ⟨t, ts, rfl, rfl, -⟩ := List.map_eq_cons_iff.1 hts
  obtain ⟨es', hes, hrun⟩ := h failure (t :: ts) next rest es hts hnext
  refine ⟨es', hes, ?_⟩
  rw [run_node rfl hk.1, List.cons_append, run_bind, run_properties_none hk]
  exact hrun

theorem reads_node_tag {hasHandle : Bool} {suffix : Option String}
    (hF : ∀ k, Begins ks F k → ∀ name, k ≠ .anchor name)
    (h : ∀ mark, Reads (content fuel block indentless
      (tagProperties (Tree.tagOf hasHandle suffix) mark)) ks ss F) :
    Reads (node (fuel + 1) block indentless) (Tree.tagKind hasHandle suffix :: ks) ss F := by
  intro failure ts next rest es hts hnext
  obtain ⟨t, ts, rfl, ht, rfl⟩ := List.map_eq_cons_iff.1 hts
  obtain ⟨es', hes, hrun⟩ := h t.mark failure ts next rest es rfl hnext
  refine ⟨es', hes, ?_⟩
  rw [run_node rfl (by rw [ht]; exact fun _ h => nomatch h), List.cons_append, run_bind]
  cases ts with
  | nil =>
      rw [List.nil_append, run_properties_tag ht (hF _ hnext)]
      exact hrun
  | cons u ts =>
      rw [List.cons_append, run_properties_tag ht (hF _ rfl)]
      exact hrun

/-- What may come after a node; an entry would belong to a list without indentation. -/
def Follows (inPair : Bool) (k : TokenKind) : Prop :=
  endsPair k = true ∨ k = .streamEnd ∨ (inPair = false ∧ k = .entry)

theorem endsPair_iff : endsPair k = true ↔ k = .key ∨ k = .value ∨ k = .blockEnd := by
  simp [endsPair, or_assoc]

theorem Follows.not_anchor {inPair : Bool} (h : Follows inPair k) : ∀ name, k ≠ .anchor name := by
  rintro name rfl
  simp [Follows, endsPair] at h

variable {p : Properties}

theorem content_scalar (hp : p.anchor = none) (text : String) (isPlain : Bool) :
    Reads (content fuel block indentless p) [.scalar text isPlain] [⟨.scalar text isPlain, p.tag, none⟩]
      F := by
  refine reads_peek fun t ht => ?_
  simp only [show t.kind = _ from ht]
  exact (reads_advance _ F).afterNode _ hp _

theorem content_absent (hp : p.anchor = none) (htag : p.hasTag = true) {inPair : Bool} :
    Reads (content fuel true inPair p) [] [⟨.scalar "" true, p.tag, none⟩] (Follows inPair) := by
  refine reads_peek fun t ht => ?_
  have hnode := reads_emitNode (.scalar "" true) hp (p.mark.getD t.mark) (Follows inPair)
  change Follows inPair t.kind at ht
  rw [Follows, endsPair_iff] at ht
  rcases ht with (h | h | h) | h | ⟨rfl, h⟩ <;> simpa [h, htag] using hnode

theorem content_emptyMapping (hp : p.anchor = none) :
    Reads (content (fuel + 1) block indentless p) [.flowMapping, .flowMappingEnd]
      [⟨.mapping, p.tag, none⟩, Shape.bare .mappingEnd] F := by
  refine reads_peek fun t ht => ?_
  simp only [show t.kind = _ from ht]
  refine (Reads.afterAdvance ?_ _).afterNode _ hp _
  rw [flowPairs]
  refine reads_peek fun u hu => ?_
  rw [show u.kind = _ from hu, if_neg (by decide)]
  refine reads_peek fun u hu => ?_
  simp only [show u.kind = _ from hu]
  exact (reads_advance _ F).afterEmit _ _

theorem content_blockSequence (hp : p.anchor = none) (h : Reads (blockEntries fuel) ks ss F) :
    Reads (content fuel true indentless p) (.blockSequence :: ks) (⟨.sequence, p.tag, none⟩ :: ss) F := by
  refine reads_peek fun t ht => ?_
  simp only [show t.kind = _ from ht]
  exact (h.afterAdvance _).afterNode _ hp _

theorem content_blockMapping (hp : p.anchor = none) (h : Reads (blockPairs fuel) ks ss F) :
    Reads (content fuel true indentless p) (.blockMapping :: ks) (⟨.mapping, p.tag, none⟩ :: ss) F := by
  refine reads_peek fun t ht => ?_
  simp only [show t.kind = _ from ht]
  exact (h.afterAdvance _).afterNode _ hp _

theorem content_indentless (hp : p.anchor = none)
    (h : Reads (indentlessEntries fuel) (.entry :: ks) ss F) :
    Reads (content fuel true true p) (.entry :: ks) (⟨.sequence, p.tag, none⟩ :: ss) F := by
  refine reads_peek fun t ht => ?_
  simp only [show t.kind = _ from ht]
  exact h.afterNode _ hp _

theorem content_flow (hp : p.anchor = none) (h : Reads (flowItems fuel true) ks ss F) :
    Reads (content fuel block indentless p) (.flowSequence :: ks) (⟨.sequence, p.tag, none⟩ :: ss) F := by
  refine reads_peek fun t ht => ?_
  simp only [show t.kind = _ from ht]
  exact (h.afterAdvance _).afterNode _ hp _

/-! ## Parts of collections -/

theorem entries_nil : Reads (blockEntries (fuel + 1)) [.blockEnd] [Shape.bare .sequenceEnd] F := by
  rw [blockEntries]
  refine reads_peek fun t ht => ?_
  simp only [show t.kind = _ from ht]
  exact (reads_advance _ F).afterEmit _ _

/-- Kinds of tokens that begin a node in which something is written. -/
def IsHead (k : TokenKind) : Prop := endsEntry k = false ∧ k ≠ .flowEntry ∧ k ≠ .flowSequenceEnd

theorem entries_cons {kt : List TokenKind} (hnode : Reads (node fuel true false) (k :: kt) ss₁ (Follows false))
    (hk : IsHead k) (hrest : Reads (blockEntries fuel) ks ss₂ F)
    (hF : ∀ k, Begins ks F k → Follows false k) :
    Reads (blockEntries (fuel + 1)) (.entry :: ((k :: kt) ++ ks)) (ss₁ ++ ss₂) F := by
  rw [blockEntries]
  refine reads_peek fun t ht => ?_
  simp only [show t.kind = _ from ht]
  refine (reads_peek fun u hu => ?_).afterAdvance _
  have hu : u.kind = k := hu
  have hne : (u.kind == .entry || u.kind == .blockEnd) = false := by
    have := hk.1
    simp only [endsEntry, endsPair, Bool.or_eq_false_iff] at this
    rw [hu, this.1, this.2.2]
    rfl
  rw [hne]
  exact hnode.bind hrest hF

theorem indentless_nil (hF : ∀ k, F k → k ≠ .entry) :
    Reads (indentlessEntries (fuel + 1)) [] [Shape.bare .sequenceEnd] F := by
  rw [indentlessEntries]
  refine reads_peek fun t ht => ?_
  rw [if_neg (by simpa using hF _ ht)]
  exact reads_emit _ _ _

theorem indentless_cons {kt : List TokenKind}
    (hnode : Reads (node fuel true false) (k :: kt) ss₁ (Follows false)) (hk : IsHead k)
    (hrest : Reads (indentlessEntries fuel) ks ss₂ F) (hF : ∀ k, Begins ks F k → Follows false k) :
    Reads (indentlessEntries (fuel + 1)) (.entry :: ((k :: kt) ++ ks)) (ss₁ ++ ss₂) F := by
  rw [indentlessEntries]
  refine reads_peek fun t ht => ?_
  rw [if_pos (by rw [show t.kind = _ from ht]; rfl)]
  refine (reads_peek fun u hu => ?_).afterAdvance _
  rw [show u.kind = k from hu, hk.1]
  exact hnode.bind hrest hF

theorem part_absent (first : TokenKind) :
    Reads (blockPart (fuel + 1)) [first] [Shape.bare (.scalar "" true)] (endsPair · = true) := by
  rw [blockPart]
  refine (reads_peek fun u hu => ?_).afterAdvance _
  have hu : endsPair u.kind = true := hu
  rw [if_pos hu]
  exact reads_emit _ _ _

theorem part_node {kt : List TokenKind} (first : TokenKind)
    (hnode : Reads (node fuel true true) (k :: kt) ss (Follows true)) (hk : endsPair k = false) :
    Reads (blockPart (fuel + 1)) (first :: k :: kt) ss (endsPair · = true) := by
  rw [blockPart]
  refine (reads_peek fun u hu => ?_).afterAdvance _
  rw [show u.kind = k from hu, hk]
  intro failure ts next rest es hts hnext
  exact hnode failure ts next rest es hts (.inl hnext)

theorem pairs_nil : Reads (blockPairs (fuel + 1)) [.blockEnd] [Shape.bare .mappingEnd] F := by
  rw [blockPairs]
  refine reads_peek fun t ht => ?_
  simp only [show t.kind = _ from ht]
  exact (reads_advance _ F).afterEmit _ _

theorem pairs_cons {kk kv : List TokenKind} (hkey : Reads (blockPart fuel) (.key :: kk) ss₁ (endsPair · = true))
    (hvalue : Reads (blockPart fuel) (.value :: kv) ss₂ (endsPair · = true))
    (hrest : Reads (blockPairs fuel) ks ss F) (hF : ∀ k, Begins ks F k → endsPair k = true) :
    Reads (blockPairs (fuel + 1)) (.key :: (kk ++ .value :: (kv ++ ks))) (ss₁ ++ (ss₂ ++ ss)) F := by
  rw [blockPairs]
  refine reads_peek fun t ht => ?_
  simp only [show t.kind = _ from ht]
  refine hkey.bind (reads_peek fun u hu => ?_) fun k hk => ?_
  · rw [if_pos (by rw [show u.kind = _ from hu]; rfl)]
    exact hvalue.bind hrest hF
  · rw [show k = .value from hk]
    rfl

/-! ## Texts in brackets -/

theorem isContent_scalar (text : String) (isPlain : Bool) : IsContent (.scalar text isPlain) :=
  ⟨fun _ h => (nomatch h), fun _ h => (nomatch h), fun _ _ h => nomatch h⟩

theorem node_quoted (text : String) :
    Reads (node (fuel + 1) block indentless) [.scalar text false] [Shape.bare (.scalar text false)] F :=
  reads_node_bare (isContent_scalar text false) (content_scalar rfl text false)

theorem flow_end (isFirst : Bool) :
    Reads (flowItems (fuel + 1) isFirst) [.flowSequenceEnd] [Shape.bare .sequenceEnd] F := by
  rw [flowItems]
  refine reads_peek fun t ht => ?_
  rw [show t.kind = _ from ht, if_neg (by simp)]
  refine reads_peek fun u hu => ?_
  simp only [show u.kind = _ from hu]
  exact (reads_advance _ F).afterEmit _ _

theorem flow_rest (texts : List String) {fuel : Nat} (hfuel : texts.length + 1 < fuel) :
    Reads (flowItems fuel false)
      ((texts.flatMap fun s => [.flowEntry, .scalar s false]) ++ [.flowSequenceEnd])
      (texts.map (fun s => Shape.bare (.scalar s false)) ++ [Shape.bare .sequenceEnd]) F := by
  induction texts generalizing fuel with
  | nil =>
      obtain ⟨fuel, rfl⟩ := Nat.exists_eq_add_of_lt (Nat.zero_lt_of_lt hfuel)
      exact flow_end false
  | cons s texts ih =>
      rw [List.length_cons] at hfuel
      obtain ⟨fuel, rfl⟩ : ∃ f, fuel = f + 1 + 1 := ⟨fuel - 2, by omega⟩
      have hrest := ih (show texts.length + 1 < fuel + 1 by omega)
      rw [flowItems]
      refine reads_peek fun t ht => ?_
      rw [show t.kind = .flowEntry from ht, if_pos (by rfl), if_pos (by rfl)]
      refine Reads.afterAdvance (reads_peek fun u hu => ?_) _
      simp only [show u.kind = _ from hu]
      exact (node_quoted s).bind hrest fun _ _ => trivial

theorem flow_items (texts : List String) {fuel : Nat} (hfuel : texts.length + 1 < fuel) :
    Reads (flowItems fuel true) (Tree.flowKinds texts ++ [.flowSequenceEnd])
      (texts.map (fun s => Shape.bare (.scalar s false)) ++ [Shape.bare .sequenceEnd]) F := by
  cases texts with
  | nil =>
      obtain ⟨fuel, rfl⟩ := Nat.exists_eq_add_of_lt (Nat.zero_lt_of_lt hfuel)
      exact flow_end true
  | cons s texts =>
      rw [List.length_cons] at hfuel
      obtain ⟨fuel, rfl⟩ : ∃ f, fuel = f + 1 + 1 := ⟨fuel - 2, by omega⟩
      have hrest := flow_rest (F := F) texts (show texts.length + 1 < fuel + 1 by omega)
      rw [flowItems]
      refine reads_peek fun t ht => ?_
      rw [show t.kind = .scalar s false from ht, if_neg (by simp)]
      refine reads_peek fun u hu => ?_
      simp only [show u.kind = .scalar s false from hu]
      exact (node_quoted s).bind hrest fun _ _ => trivial

end Parse

namespace Tree

open Parse

variable {F : TokenKind → Prop}

theorem length_le_flowKinds (texts : List String) : texts.length ≤ (flowKinds texts).length := by
  have hrest : ∀ rest : List String, rest.length ≤
      (rest.flatMap fun s => [TokenKind.flowEntry, .scalar s false]).length := by
    intro rest
    induction rest with
    | nil => exact Nat.le_refl _
    | cons s rest ih =>
        rw [List.flatMap_cons, List.length_append, List.length_cons, List.length_cons]
        omega
  cases texts with
  | nil => exact Nat.le_refl _
  | cons s rest => exact Nat.succ_le_succ (hrest rest)

/-- The first token of a node in which something is written. -/
theorem kinds_head {t : Tree} {inPair : Bool} (hne : t ≠ absent) (hfits : t.Fits inPair) :
    ∃ k ks, t.kinds = k :: ks ∧ (∀ name, k ≠ .anchor name) ∧ (t.isTagged = false → IsContent k) ∧
      endsPair k = false ∧ (inPair = false → IsHead k) := by
  cases t with
  | absent => exact absurd rfl hne
  | scalar text isPlain =>
      exact ⟨_, _, rfl, by simp, fun _ => isContent_scalar text isPlain, by simp [endsPair],
        fun _ => by simp [IsHead, endsEntry, endsPair]⟩
  | flow texts =>
      exact ⟨.flowSequence, _, rfl, by simp, fun _ => by simp [IsContent], by decide,
        fun _ => by simp [IsHead, endsEntry, endsPair]⟩
  | emptyMapping =>
      exact ⟨.flowMapping, _, rfl, by simp, fun _ => by simp [IsContent], by decide,
        fun _ => by simp [IsHead, endsEntry, endsPair]⟩
  | sequence indentless items =>
      cases indentless with
      | false =>
          exact ⟨.blockSequence, _, rfl, by simp, fun _ => by simp [IsContent], by decide,
            fun _ => by simp [IsHead, endsEntry, endsPair]⟩
      | true =>
          obtain ⟨hpair, hitems⟩ := hfits.1 rfl
          obtain ⟨item, rest, rfl⟩ := List.exists_cons_of_ne_nil hitems
          exact ⟨.entry, _, rfl, by simp, fun _ => by simp [IsContent], by decide,
            fun h => absurd (hpair.symm.trans h) (by decide)⟩
  | mapping pairs =>
      exact ⟨.blockMapping, _, rfl, by simp, fun _ => by simp [IsContent], by decide,
        fun _ => by simp [IsHead, endsEntry, endsPair]⟩
  | tagged hasHandle suffix tree =>
      exact ⟨_, _, rfl, by simp [tagKind], fun h => (nomatch h), by simp [tagKind, endsPair],
        fun _ => by simp [IsHead, tagKind, endsEntry, endsPair]⟩

/-- A node without a tag is read as its events, in which the tag before it is put. -/
def ContentRead (t : Tree) : Prop :=
  ∀ {inPair : Bool} {fuel : Nat} {p : Properties}, t.isTagged = false → p.anchor = none →
    (t = absent → p.hasTag = true) → (t ≠ absent → t.Fits inPair) → 2 * t.kinds.length < fuel →
    Reads (content fuel true inPair p) t.kinds (t.shapes p.tag) (Follows inPair)

/-- A node in which something is written is read as its events. -/
def NodeRead (t : Tree) : Prop :=
  ∀ {inPair : Bool} {fuel : Nat}, t ≠ absent → t.Fits inPair → 2 * t.kinds.length + 1 < fuel →
    Reads (node fuel true inPair) t.kinds (t.shapes none) (Follows inPair)

theorem ContentRead.node {t : Tree} (h : t.ContentRead) (htag : t.isTagged = false) : t.NodeRead := by
  intro inPair fuel hne hfits hfuel
  obtain ⟨fuel, rfl⟩ := Nat.exists_eq_add_of_lt (Nat.zero_lt_of_lt hfuel)
  have hread : Reads (content (0 + fuel) true inPair noProperties) t.kinds (t.shapes none)
      (Follows inPair) :=
    h htag rfl (fun h => absurd h hne) (fun _ => hfits) (by omega)
  obtain ⟨k, ks, heq, -, hcontent, -⟩ := kinds_head hne hfits
  rw [heq] at hread ⊢
  exact reads_node_bare (hcontent htag) hread

theorem ContentRead.tagged {t : Tree} (h : t.ContentRead) (hasHandle : Bool) (suffix : Option String) :
    (tagged hasHandle suffix t).NodeRead := by
  intro inPair fuel _ hfits hfuel
  obtain ⟨htag, hfits⟩ := hfits
  obtain ⟨fuel, rfl⟩ := Nat.exists_eq_add_of_lt (Nat.zero_lt_of_lt hfuel)
  rw [kinds, List.length_cons] at hfuel
  refine reads_node_tag (fun k hk => ?_) fun mark => ?_
  · by_cases hne : t = absent
    · subst hne
      exact Follows.not_anchor hk
    · obtain ⟨first, ks, heq, hanchor, -⟩ := kinds_head hne (hfits.resolve_left hne)
      rw [heq] at hk
      exact (show k = first from hk) ▸ hanchor
  · exact h htag rfl (fun _ => rfl) (fun hne => hfits.resolve_left hne) (by omega)

/-- How a node is read, after its tag and with it. -/
structure IsRead (t : Tree) : Prop where
  content : t.ContentRead
  node : t.NodeRead

theorem ContentRead.isRead {t : Tree} (h : t.ContentRead) (htag : t.isTagged = false) : t.IsRead :=
  ⟨h, h.node htag⟩

theorem begins_items (items : List Tree) {k : TokenKind} (h : Begins (itemKinds items ++ [.blockEnd]) F k) :
    Follows false k := by
  cases items with
  | nil => exact .inl ((show k = .blockEnd from h) ▸ rfl)
  | cons t rest => exact .inr (.inr ⟨rfl, h⟩)

theorem begins_indentless (items : List Tree) {k : TokenKind} (hF : ∀ k, F k → Follows true k)
    (h : Begins (itemKinds items) F k) : Follows false k := by
  cases items with
  | nil => exact (hF k h).imp id (Or.imp id fun h => absurd h.1 (by decide))
  | cons t rest => exact .inr (.inr ⟨rfl, h⟩)

theorem begins_pairs (pairs : List (Tree × Tree)) {k : TokenKind}
    (h : Begins (pairKinds pairs ++ [.blockEnd]) F k) : endsPair k = true := by
  cases pairs with
  | nil => exact (show k = .blockEnd from h) ▸ rfl
  | cons pair rest => exact (show k = .key from h) ▸ rfl

/-- A key or value, after its mark. -/
theorem IsRead.part {t : Tree} (h : t.IsRead) (hfits : t.Fits true) (first : TokenKind) {fuel : Nat}
    (hfuel : 2 * t.kinds.length + 2 < fuel) :
    Reads (blockPart fuel) (first :: t.kinds) (t.shapes none) (endsPair · = true) := by
  obtain ⟨fuel, rfl⟩ := Nat.exists_eq_add_of_lt (Nat.zero_lt_of_lt hfuel)
  by_cases hne : t = absent
  · subst hne
    exact part_absent first
  · have hnode : Reads (Parse.node (0 + fuel) true true) t.kinds (t.shapes none) (Follows true) :=
      h.node hne hfits (by omega)
    obtain ⟨k, ks, heq, -, -, hk, -⟩ := kinds_head hne hfits
    rw [heq] at hnode ⊢
    exact part_node first hnode hk

mutual

/-- Every node is read as its events. -/
theorem isRead : (t : Tree) → t.IsRead
  | absent => ContentRead.isRead (fun _ hp htag _ _ => content_absent hp (htag rfl)) rfl
  | scalar text isPlain => ContentRead.isRead (fun _ hp _ _ _ => content_scalar hp text isPlain) rfl
  | flow texts => by
      refine ContentRead.isRead (fun {_ _ _} _ hp _ _ hfuel => ?_) rfl
      refine content_flow hp (flow_items texts ?_)
      have hlength := length_le_flowKinds texts
      rw [kinds, List.length_cons, List.length_append, List.length_singleton] at hfuel
      omega
  | emptyMapping => by
      refine ContentRead.isRead (fun {_ fuel _} _ hp _ _ hfuel => ?_) rfl
      obtain ⟨fuel, rfl⟩ := Nat.exists_eq_add_of_lt (Nat.zero_lt_of_lt hfuel)
      exact content_emptyMapping hp
  | sequence indentless items => by
      refine ContentRead.isRead (fun {inPair _ _} _ hp _ hfits hfuel => ?_) rfl
      obtain ⟨hindentless, hitems⟩ := hfits (by simp)
      cases indentless with
      | false =>
          rw [kinds, if_neg Bool.false_ne_true, List.length_cons, List.length_append,
            List.length_singleton] at hfuel
          exact content_blockSequence hp ((items_read items _ _ hitems).1 (by omega))
      | true =>
          obtain ⟨rfl, hne⟩ := hindentless rfl
          have hread := (items_read items (Follows true) _ hitems).2 hfuel fun _ h => h
          obtain ⟨item, rest, rfl⟩ := List.exists_cons_of_ne_nil hne
          exact content_indentless hp hread
  | mapping pairs => by
      refine ContentRead.isRead (fun {_ _ _} _ hp _ hfits hfuel => ?_) rfl
      rw [kinds, List.length_cons, List.length_append, List.length_singleton] at hfuel
      exact content_blockMapping hp (pairs_read pairs _ _ (hfits (by simp)) (by omega))
  | tagged hasHandle suffix tree =>
      { content := fun htag => nomatch htag
        node := ContentRead.tagged (isRead tree).content hasHandle suffix }

theorem items_read (items : List Tree) (F : TokenKind → Prop) (fuel : Nat) (hfits : ItemsFit items) :
    (2 * (itemKinds items).length + 1 < fuel →
      Reads (blockEntries fuel) (itemKinds items ++ [.blockEnd])
        (itemShapes items ++ [Shape.bare .sequenceEnd]) F) ∧
    (2 * (itemKinds items).length < fuel → (∀ k, F k → Follows true k) →
      Reads (indentlessEntries fuel) (itemKinds items)
        (itemShapes items ++ [Shape.bare .sequenceEnd]) F) := by
  match items with
  | [] =>
      refine ⟨fun hfuel => ?_, fun hfuel hF => ?_⟩
      all_goals obtain ⟨fuel, rfl⟩ := Nat.exists_eq_add_of_lt (Nat.zero_lt_of_lt hfuel)
      · exact entries_nil
      · refine indentless_nil fun k hk he => ?_
        subst he
        simpa [Follows, endsPair] using hF _ hk
  | t :: rest =>
      obtain ⟨ht, hrest⟩ := hfits
      have hne : t ≠ absent := by
        rintro rfl
        exact absurd ht Bool.false_ne_true
      obtain ⟨k, ks, heq, -, -, -, hhead⟩ := kinds_head hne ht
      have hnode : ∀ fuel, 2 * t.kinds.length + 1 < fuel →
          Reads (node fuel true false) t.kinds (t.shapes none) (Follows false) :=
        fun _ hfuel => (isRead t).node hne ht hfuel
      refine ⟨fun hfuel => ?_, fun hfuel hF => ?_⟩
      all_goals
        obtain ⟨fuel, rfl⟩ := Nat.exists_eq_add_of_lt (Nat.zero_lt_of_lt hfuel)
        rw [itemKinds, List.length_cons, List.length_append] at hfuel
      · have hitems := (items_read rest F (0 + fuel) hrest).1 (by omega)
        have ht := hnode (0 + fuel) (by omega)
        rw [itemKinds, itemShapes, List.cons_append, List.append_assoc, List.append_assoc]
        rw [heq] at ht ⊢
        exact entries_cons ht (hhead rfl) hitems fun _ => begins_items rest
      · have hitems := (items_read rest F (0 + fuel) hrest).2 (by omega) hF
        have ht := hnode (0 + fuel) (by omega)
        rw [itemKinds, itemShapes, List.append_assoc]
        rw [heq] at ht ⊢
        exact indentless_cons ht (hhead rfl) hitems fun _ => begins_indentless rest hF

theorem pairs_read (pairs : List (Tree × Tree)) (F : TokenKind → Prop) (fuel : Nat)
    (hfits : PairsFit pairs)
    (hfuel : 2 * (pairKinds pairs).length + 1 < fuel) :
    Reads (blockPairs fuel) (pairKinds pairs ++ [.blockEnd])
      (pairShapes pairs ++ [Shape.bare .mappingEnd]) F := by
  match pairs with
  | [] =>
      obtain ⟨fuel, rfl⟩ := Nat.exists_eq_add_of_lt (Nat.zero_lt_of_lt hfuel)
      exact pairs_nil
  | (k, v) :: rest =>
      obtain ⟨hk, hv, hrest⟩ := hfits
      obtain ⟨fuel, rfl⟩ := Nat.exists_eq_add_of_lt (Nat.zero_lt_of_lt hfuel)
      rw [pairKinds] at hfuel
      simp only [List.length_cons, List.length_append] at hfuel
      have hpairs := pairs_read rest F (0 + fuel) hrest (by omega)
      have hkey : Reads (blockPart (0 + fuel)) (.key :: k.kinds) (k.shapes none) (endsPair · = true) :=
        (isRead k).part hk .key (by omega)
      have hvalue : Reads (blockPart (0 + fuel)) (.value :: v.kinds) (v.shapes none)
          (endsPair · = true) :=
        (isRead v).part hv .value (by omega)
      rw [pairKinds, pairShapes]
      simp only [List.cons_append, List.append_assoc]
      exact pairs_cons hkey hvalue hpairs fun _ => begins_pairs rest

end

end Tree

end GrammarProfile.Yaml
