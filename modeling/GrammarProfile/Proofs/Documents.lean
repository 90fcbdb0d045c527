import Mathlib.Data.List.Forall2
import GrammarProfile.Proofs.Tokens
import GrammarProfile.Proofs.Trees

/-!
Reading whole documents: a text whose tokens are those of a tree is read as the events of this tree,
a text that is not cut into tokens to its end is not read, and what a document stands for does not
depend on whether its nulls are written.
-/
namespace GrammarProfile.Yaml

/-! ## Tokens are used up -/

/-- No alias has a tag. -/
def AliasesBare (es : List Event) : Prop := ∀ e ∈ es, ∀ id, e.kind = .alias id → e.tag = none

theorem AliasesBare.cons {es : List Event} (h : AliasesBare es) {e : Event}
    (he : ∀ id, e.kind = .alias id → e.tag = none) : AliasesBare (e :: es) :=
  List.forall_mem_cons.2 ⟨he, h⟩

namespace Parse

variable {α β : Type}

/-- Reading only takes tokens away, and puts no tag on an alias. -/
structure Kept (before after : Source) : Prop where
  tokens : after.tokens <:+ before.tokens
  aliases : AliasesBare before.events → AliasesBare after.events

theorem Kept.refl (s : Source) : Kept s s := ⟨List.suffix_refl _, id⟩

theorem Kept.trans {s s' s'' : Source} (h : Kept s s') (h' : Kept s' s'') : Kept s s'' :=
  ⟨h'.tokens.trans h.tokens, h'.aliases ∘ h.aliases⟩

def Proper (p : Parse α) : Prop := ∀ s : Source, Kept s (p.run s).2

theorem Proper.bind {p : Parse α} {f : α → Parse β} (hp : Proper p) (hf : ∀ a, Proper (f a)) :
    Proper (p >>= f) := by
  intro s
  have hfirst := hp s
  rw [run_bind]
  generalize p.run s = result at hfirst
  obtain ⟨r, after⟩ := result
  cases r with
  | error e => exact hfirst
  | ok a => exact hfirst.trans (hf a after)

theorem proper_pure (a : α) : Proper (pure a : Parse α) := Kept.refl

theorem proper_failAt (mark : Mark) (p : Problem) : Proper (failAt mark p : Parse α) := Kept.refl

theorem proper_peek : Proper peek := by
  intro s
  obtain ⟨tokens, failure, handles, anchors, events⟩ := s
  cases tokens <;> exact Kept.refl _

theorem proper_advance : Proper advance := fun s => ⟨List.drop_suffix 1 s.tokens, id⟩

theorem proper_get : Proper (get : Parse Source) := Kept.refl

theorem proper_modify {f : Source → Source} (h : ∀ s, Kept s (f s)) :
    Proper (modify f : Parse Unit) := h

theorem proper_emit (kind : EventKind) (mark : Mark) : Proper (emit kind mark) :=
  proper_modify fun _ => ⟨List.suffix_refl _, fun h => h.cons fun _ _ => rfl⟩

theorem proper_emitNode {kind : EventKind} (hkind : ∀ id, kind ≠ .alias id) (p : Properties)
    (mark : Mark) : Proper (emitNode kind p mark) := by
  refine proper_modify fun s => ?_
  split
  · exact ⟨List.suffix_refl _, fun h => h.cons fun id hid => absurd hid (hkind id)⟩
  · exact ⟨List.suffix_refl _, fun h => h.cons fun id hid => absurd hid (hkind id)⟩

theorem proper_resolveTag (handle : String) (suffix : Option String) (mark : Mark) :
    Proper (resolveTag handle suffix mark) := by
  unfold resolveTag
  split
  · exact proper_pure _
  · refine proper_get.bind fun s => ?_
    split
    · exact proper_pure _
    · exact proper_failAt _ _

theorem proper_properties : Proper properties := by
  unfold properties
  refine proper_peek.bind fun first => ?_
  split
  · refine proper_advance.bind fun _ => proper_peek.bind fun second => ?_
    split
    · exact proper_advance.bind fun _ => proper_peek.bind fun _ =>
        (proper_resolveTag _ _ _).bind fun _ => proper_pure _
    · exact proper_pure _
  · refine proper_advance.bind fun _ => proper_peek.bind fun second => ?_
    split
    · exact proper_advance.bind fun _ => proper_peek.bind fun _ =>
        (proper_resolveTag _ _ _).bind fun _ => proper_pure _
    · exact (proper_resolveTag _ _ _).bind fun _ => proper_pure _
  · exact proper_pure _

/-- All the readers of nodes only take tokens away. -/
structure AllProper (fuel : Nat) : Prop where
  node : ∀ block indentless, Proper (node fuel block indentless)
  entries : Proper (blockEntries fuel)
  indentless : Proper (indentlessEntries fuel)
  part : Proper (blockPart fuel)
  pairs : Proper (blockPairs fuel)
  flowValue : ∀ closing, Proper (flowValue fuel closing)
  flowItems : ∀ isFirst, Proper (flowItems fuel isFirst)
  flowPairs : ∀ isFirst, Proper (flowPairs fuel isFirst)

theorem AllProper.content {fuel : Nat} (h : AllProper fuel) (block indentless : Bool) (p : Properties) :
    Proper (content fuel block indentless p) := by
  unfold Parse.content
  refine proper_peek.bind fun t => ?_
  split
  · exact (proper_emitNode (by simp) _ _).bind fun _ => proper_advance
  · exact (proper_emitNode (by simp) _ _).bind fun _ => proper_advance.bind fun _ => h.flowItems _
  · exact (proper_emitNode (by simp) _ _).bind fun _ => proper_advance.bind fun _ => h.flowPairs _
  · exact (proper_emitNode (by simp) _ _).bind fun _ => proper_advance.bind fun _ => h.entries
  · exact (proper_emitNode (by simp) _ _).bind fun _ => proper_advance.bind fun _ => h.pairs
  · split
    · exact (proper_emitNode (by simp) _ _).bind fun _ => h.indentless
    · dsimp only
      split
      · exact proper_failAt _ _
      · exact proper_emitNode (by simp) _ _

/-- An item between brackets, or their end. -/
theorem proper_flowItem {fuel : Nat} (h : AllProper fuel) : Proper (do
    let t ← peek
    match t.kind with
    | .flowSequenceEnd =>
      emit .sequenceEnd t.mark
      advance
    | .key =>
      emit .mapping t.mark
      advance
      let next ← peek
      if endsFlowKey .flowSequenceEnd next.kind then
        advance
        emitEmpty next.mark
      else node fuel false false
      flowValue fuel .flowSequenceEnd
      emit .mappingEnd t.mark
      flowItems fuel false
    | _ =>
      node fuel false false
      flowItems fuel false) := by
  refine proper_peek.bind fun t => ?_
  split
  · exact (proper_emit _ _).bind fun _ => proper_advance
  · refine (proper_emit _ _).bind fun _ => proper_advance.bind fun _ => proper_peek.bind fun next => ?_
    have hlast := (h.flowValue .flowSequenceEnd).bind fun _ =>
      (proper_emit .mappingEnd t.mark).bind fun _ => h.flowItems false
    split
    · exact proper_advance.bind fun _ => (proper_emit _ _).bind fun _ => hlast
    · exact (h.node _ _).bind fun _ => hlast
  · exact (h.node _ _).bind fun _ => h.flowItems _

/-- A pair between braces, or their end. -/
theorem proper_flowPair {fuel : Nat} (h : AllProper fuel) : Proper (do
    let t ← peek
    match t.kind with
    | .flowMappingEnd =>
      emit .mappingEnd t.mark
      advance
    | .key =>
      advance
      let next ← peek
      if endsFlowKey .flowMappingEnd next.kind then emitEmpty next.mark
      else node fuel false false
      flowValue fuel .flowMappingEnd
      flowPairs fuel false
    | _ =>
      node fuel false false
      let next ← peek
      emitEmpty next.mark
      flowPairs fuel false) := by
  refine proper_peek.bind fun t => ?_
  split
  · exact (proper_emit _ _).bind fun _ => proper_advance
  · refine proper_advance.bind fun _ => proper_peek.bind fun next => ?_
    have hlast := (h.flowValue .flowMappingEnd).bind fun _ => h.flowPairs false
    split
    · exact (proper_emit _ _).bind fun _ => hlast
    · exact (h.node _ _).bind fun _ => hlast
  · exact (h.node _ _).bind fun _ => proper_peek.bind fun _ =>
      (proper_emit _ _).bind fun _ => h.flowPairs _

theorem allProper (fuel : Nat) : AllProper fuel := by
  induction fuel with
  | zero =>
      have hnone : Proper (pure () : Parse Unit) := proper_pure ()
      constructor <;> intros <;> exact hnone
  | succ fuel ih =>
      refine ⟨fun block indentless => ?_, ?_, ?_, ?_, ?_, fun closing => ?_, fun isFirst => ?_,
        fun isFirst => ?_⟩
      · rw [node]
        refine proper_peek.bind fun first => ?_
        split
        · refine proper_get.bind fun s => ?_
          split
          · exact (proper_emit _ _).bind fun _ => proper_advance
          · exact proper_failAt _ _
        · exact proper_properties.bind (ih.content block indentless)
      · rw [blockEntries]
        refine proper_peek.bind fun t => ?_
        split
        · refine proper_advance.bind fun _ => proper_peek.bind fun next => ?_
          split
          · exact (proper_emit _ _).bind fun _ => ih.entries
          · exact (ih.node _ _).bind fun _ => ih.entries
        · exact (proper_emit _ _).bind fun _ => proper_advance
        · exact proper_failAt _ _
      · rw [indentlessEntries]
        refine proper_peek.bind fun t => ?_
        split
        · refine proper_advance.bind fun _ => proper_peek.bind fun next => ?_
          split
          · exact (proper_emit _ _).bind fun _ => ih.indentless
          · exact (ih.node _ _).bind fun _ => ih.indentless
        · exact proper_emit _ _
      · rw [blockPart]
        refine proper_advance.bind fun _ => proper_peek.bind fun next => ?_
        split
        · exact proper_emit _ _
        · exact ih.node _ _
      · rw [blockPairs]
        refine proper_peek.bind fun t => ?_
        split
        · refine ih.part.bind fun _ => proper_peek.bind fun next => ?_
          split
          · exact ih.part.bind fun _ => ih.pairs
          · exact (proper_emit _ _).bind fun _ => ih.pairs
        · exact (proper_emit _ _).bind fun _ => proper_advance
        · exact proper_failAt _ _
      · rw [flowValue]
        refine proper_peek.bind fun t => ?_
        split
        · refine proper_advance.bind fun _ => proper_peek.bind fun next => ?_
          split
          · exact proper_emit _ _
          · exact ih.node _ _
        · exact proper_emit _ _
      · rw [flowItems]
        refine proper_peek.bind fun t => ?_
        split
        · split
          · exact proper_advance.bind fun _ => proper_flowItem ih
          · exact (proper_failAt _ _).bind fun _ => proper_flowItem ih
        · exact proper_flowItem ih
      · rw [flowPairs]
        refine proper_peek.bind fun t => ?_
        split
        · split
          · exact proper_advance.bind fun _ => proper_flowPair ih
          · exact (proper_failAt _ _).bind fun _ => proper_flowPair ih
        · exact proper_flowPair ih

theorem proper_directives (fuel : Nat) (hasVersion : Bool) : Proper (directives fuel hasVersion) := by
  induction fuel generalizing hasVersion with
  | zero => exact proper_pure ()
  | succ fuel ih =>
      rw [directives]
      refine proper_peek.bind fun t => ?_
      split
      · split
        · exact proper_failAt _ _
        · split
          · exact proper_failAt _ _
          · exact proper_advance.bind fun _ => ih _
      · intro s
        have hnext := proper_advance.bind fun _ => ih hasVersion
        rw [run_bind, show (get : Parse Source).run s = (.ok s, s) from rfl]
        dsimp only
        split
        · exact proper_failAt _ _ s
        · rename_i handle start _ _
          have hset : Kept s { s with handles := (handle, start) :: s.handles } :=
            ⟨List.suffix_refl _, id⟩
          exact hset.trans (hnext _)
      · exact proper_modify fun _ => ⟨List.suffix_refl _, id⟩

theorem proper_document (fuel : Nat) : Proper (document fuel) := by
  have hlast : Proper (do
      let last ← peek
      if last.kind == .documentEnd then advance) := by
    refine proper_peek.bind fun last => ?_
    split
    · exact proper_advance
    · exact proper_pure ()
  rw [document]
  refine proper_peek.bind fun t => ?_
  split
  · exact proper_pure ()
  · refine (proper_directives _ _).bind fun _ => ?_
    split
    · exact ((allProper fuel).node _ _).bind fun _ => hlast
    · refine proper_peek.bind fun next => ?_
      have hcontent : Proper (do
          advance
          let content ← peek
          if endsDocument content.kind then emitEmpty content.mark else node fuel true false
          let last ← peek
          if last.kind == .documentEnd then advance) := by
        refine proper_advance.bind fun _ => proper_peek.bind fun content => ?_
        split
        · exact (proper_emit _ _).bind fun _ => hlast
        · exact ((allProper fuel).node _ _).bind fun _ => hlast
      split
      · exact (proper_failAt _ _).bind fun _ => hcontent
      · exact hcontent

end Parse

/-! ## The tokens of a text -/

theorem AtToken.no_mark {r : List Char} (h : AtToken r) : r.head? ≠ some '\ufeff' := fun hr =>
  absurd (h _ hr) (by decide)

/-- A text without a byte order mark is cut into tokens from its first character on. -/
theorem tokens_eq {text : String} (hhead : text.toList.head? ≠ some '\ufeff') :
    tokens text = if !text.toList.all isAllowed then ([], some ⟨.controlCharacter, some ⟨0, 0, 0⟩⟩)
      else Lexer.run (text.toList.length + 1) (.start text.toList) := by
  unfold tokens
  cases htext : text.toList with
  | nil => rfl
  | cons c rest =>
      have hc : c ≠ '\ufeff' := by
        rintro rfl
        rw [htext] at hhead
        exact hhead rfl
      dsimp only
      split
      · next h => exact absurd (List.cons.inj h).1 hc
      · rfl

theorem tokens_eq_run {text : String} (hallowed : ∀ c ∈ text.toList, isAllowed c = true)
    (hhead : text.toList.head? ≠ some '\ufeff') :
    tokens text = Lexer.run (text.toList.length + 1) (.start text.toList) := by
  rw [tokens_eq hhead, List.all_eq_true.2 hallowed]
  rfl

/-- The tokens of a text that is a node and lines without a token, or where cutting it into tokens ends
too early. -/
theorem tokens_of_places {ok : Prop} {may : List (List Char) → Prop} {kinds : List TokenKind}
    {text : String} {w : List Char} {lines : List (List Char)} (htext : text.toList = w ++ fill lines)
    (h : Lexer.Places ok may [] (some 0) true w kinds) (hlines : ∀ line ∈ lines, IsFiller line)
    (hmay : may lines) (hallowed : ∀ c ∈ text.toList, isAllowed c = true)
    (hhead : text.toList.head? ≠ some '\ufeff') :
    (ok ∧ ∃ ts, tokens text = (ts, none) ∧ ts.map Token.kind = kinds ++ [.streamEnd]) ∨
      (¬ok ∧ ∃ ts e, tokens text = (ts, some e) ∧ .streamEnd ∉ ts.map Token.kind) := by
  rw [tokens_eq_run hallowed hhead]
  have hstart : Lexer.Stands (.start text.toList) [] [] true none
      (w ++ (fill lines ++ (spaces 0 ++ []))) ⟨0, 0, 0⟩ := by
    refine ⟨[], rfl, ?_⟩
    simp [Lexer.start, Cursor.start, spaces, htext]
  have hfuel : (Lexer.start text.toList).cursor.rest.length < text.toList.length + 1 :=
    Nat.lt_succ_self _
  have hfresh : TokenKind.streamEnd ∉ (Lexer.start text.toList).kinds := List.not_mem_nil
  rcases h hstart (fun _ hn => by cases hn) (fun c hc => Option.some.inj hc) (fun _ => rfl)
    (Lexer.idle_none _) hlines hmay atToken_nil ⟨fun h => absurd rfl h, fun _ => rfl⟩
    with ⟨hok, after, hsteps, last, hafter, -⟩ | ⟨hnot, after, hsteps, e, he⟩
  · refine .inl ⟨hok, ?_⟩
    obtain ⟨left, hleft, hrun, -⟩ := Lexer.run_of_steps hsteps hfresh hfuel
    obtain ⟨left, rfl⟩ := Nat.exists_eq_add_of_lt (Nat.zero_lt_of_lt hleft)
    rw [hrun, Nat.zero_add]
    exact hafter.run_eq left
  · refine .inr ⟨hnot, ?_⟩
    obtain ⟨left, hleft, hrun, hgoesOn⟩ := Lexer.run_of_steps hsteps hfresh hfuel
    obtain ⟨left, rfl⟩ := Nat.exists_eq_add_of_lt (Nat.zero_lt_of_lt hleft)
    refine ⟨after.settled, e, ?_, fun hend => hgoesOn ?_⟩
    · rw [hrun, Nat.zero_add, Lexer.run_succ, he]
    · obtain ⟨t, ht, hkind⟩ := List.mem_map.1 hend
      rw [Lexer.kinds, ← hkind]
      exact List.mem_map_of_mem
        (List.mem_reverse.2 (List.mem_of_mem_drop (List.mem_reverse.1 ht)))

/-! ## Texts that are not cut into tokens to their end -/

/-- The tokens after a document are not at the end of a text if this end is not among them. -/
theorem followed_of_unfinished {ts left : List Token} (hleft : left <:+ ts)
    (hend : .streamEnd ∉ ts.map Token.kind) :
    (match left.dropWhile fun t => t.kind == .documentEnd with
      | t :: _ => t.kind != .streamEnd
      | [] => true) = true := by
  cases hrest : left.dropWhile fun t => t.kind == .documentEnd with
  | nil => rfl
  | cons t rest =>
      have hmem : t ∈ ts := by
        refine hleft.subset ((List.dropWhile_suffix fun t => t.kind == TokenKind.documentEnd).subset ?_)
        rw [hrest]
        exact List.mem_cons_self
      dsimp only
      rw [bne_iff_ne]
      exact fun h => hend (h ▸ List.mem_map_of_mem hmem)

/-- Where the end of a text is not among its tokens, it has no value. -/
theorem read_of_unfinished {text : String} {ts : List Token} {e : Error}
    (htokens : tokens text = (ts, some e)) (hend : .streamEnd ∉ ts.map Token.kind) (v : Value) :
    read text ≠ .ok v := by
  have hproper := Parse.proper_document (4 * ts.length + 8) ⟨ts, e, [], [], []⟩
  have hdocument : (Document.ofText text).isFollowed = true := by
    rw [Document.ofText, htokens]
    dsimp only [Option.getD_some]
    generalize (Parse.document (4 * ts.length + 8)).run ⟨ts, e, [], [], []⟩ = result at hproper
    obtain ⟨r, after⟩ := result
    have hfollowed := followed_of_unfinished hproper.tokens hend
    cases r <;> exact hfollowed
  unfold read
  dsimp only
  split
  · exact fun h => by cases h
  · rw [if_pos hdocument]
    exact fun h => by cases h

/-! ## Texts whose tokens are those of a tree -/

/-- Kinds of tokens that do not begin a document as such. -/
def IsRoot (k : TokenKind) : Prop :=
  Parse.isDirective k = false ∧ k ≠ .documentStart ∧ k ≠ .streamEnd

theorem Parse.run_directives {t : Token} (ht : Parse.isDirective t.kind = false) (fuel : Nat)
    (failure : Error) (ts : List Token) :
    (Parse.directives (fuel + 1) false).run ⟨t :: ts, failure, [], [], []⟩ =
      (.ok (), Parse.source failure (t :: ts) []) := by
  rw [Parse.directives, Parse.run_bind, show Parse.peek.run ⟨t :: ts, failure, [], [], []⟩ =
    (.ok t, ⟨t :: ts, failure, [], [], []⟩) from rfl]
  dsimp only
  split
  · next h => exact absurd ht (by simp [h, Parse.isDirective])
  · next h => exact absurd ht (by simp [h, Parse.isDirective])
  · rfl

/-- A text with the tokens of a tree is one document, with the events of this tree. -/
theorem ofText_of_tree {text : String} {ts : List Token} {t : Tree} {k : TokenKind}
    {ks : List TokenKind} (htokens : tokens text = (ts, none))
    (hts : ts.map Token.kind = t.kinds ++ [.streamEnd]) (hne : t ≠ .absent) (hfits : t.Fits false)
    (hkinds : t.kinds = k :: ks) (hk : IsRoot k) :
    ∃ es : List Event, es.map Event.shape = t.shapes none ∧
      Document.ofText text = ⟨es, none, false⟩ := by
  obtain ⟨before, lasts, rfl, hbefore, hlasts⟩ := List.map_eq_append_iff.1 hts
  obtain ⟨last, rfl, hlast⟩ := List.map_eq_singleton_iff.1 hlasts
  obtain ⟨first, more, rfl⟩ : ∃ first more, before = first :: more := by
    cases before with
    | nil => rw [hkinds] at hbefore; exact nomatch hbefore
    | cons first more => exact ⟨first, more, rfl⟩
  have hfirst : first.kind = k := by
    rw [hkinds] at hbefore
    exact (List.cons.inj hbefore).1
  have hlength : t.kinds.length = (first :: more).length := by rw [← hbefore, List.length_map]
  have hfuel : 2 * t.kinds.length + 1 < 4 * (first :: more ++ [last]).length + 8 := by
    rw [List.length_append, ← hlength]
    omega
  generalize hf : 4 * (first :: more ++ [last]).length + 8 = fuel at hfuel
  obtain ⟨es, hes, hnode⟩ := (Tree.isRead t).node hne hfits hfuel ⟨.noContent, none⟩ (first :: more)
    last [] [] hbefore (.inr (.inl hlast))
  have hdocument : (Parse.document fuel).run ⟨first :: more ++ [last], ⟨.noContent, none⟩, [], [], []⟩ =
      (.ok (), Parse.source ⟨.noContent, none⟩ [last] (es.reverse ++ [])) := by
    obtain ⟨fuel, rfl⟩ : ∃ f, fuel = f + 1 := ⟨fuel - 1, by omega⟩
    rw [Parse.document, Parse.run_bind, show Parse.peek.run ⟨first :: more ++ [last], ⟨.noContent, none⟩,
      [], [], []⟩ = (.ok first, ⟨first :: more ++ [last], ⟨.noContent, none⟩, [], [], []⟩) from rfl]
    dsimp only
    rw [if_neg (by simpa [hfirst] using hk.2.2), Parse.run_bind, List.cons_append,
      Parse.run_directives (hfirst ▸ hk.1)]
    dsimp only
    rw [if_pos (by simp [hfirst, hk.1, hk.2.1]), Parse.run_bind, ← List.cons_append, hnode]
    dsimp only
    rw [Parse.run_bind, show Parse.peek.run (Parse.source ⟨.noContent, none⟩ [last] (es.reverse ++ [])) =
      (.ok last, Parse.source ⟨.noContent, none⟩ [last] (es.reverse ++ [])) from rfl]
    dsimp only
    rw [if_neg (by simp [hlast])]
    rfl
  refine ⟨es, hes, ?_⟩
  rw [Document.ofText, htokens]
  dsimp only [Option.getD_none]
  rw [hf, hdocument]
  simp [Parse.source, hlast]

/-! ## Nulls that are not written -/

/-- A null, whether it is written or not. -/
def IsNull (k : EventKind) : Prop := k = .scalar "null" true ∨ k = .scalar "" true

/-- Whether two events are read alike: they are the same, or nulls. -/
inductive Alike : Shape → Shape → Prop where
  | same {s : Shape} (h : ∀ id, s.kind ≠ .alias id) : Alike s s
  | null {k k' : EventKind} {tag : Option String} {anchor : Option Nat} (hk : IsNull k)
      (hk' : IsNull k') (htag : ∀ t ∈ tag, isOwnTag t = true) :
      Alike ⟨k, tag, anchor⟩ ⟨k', tag, anchor⟩

theorem Alike.tag {s s' : Shape} (h : Alike s s') : s'.tag = s.tag := by
  cases h <;> rfl

theorem Alike.kind {s s' : Shape} (h : Alike s s') :
    s'.kind = s.kind ∧ (∀ id, s.kind ≠ .alias id) ∨
      IsNull s.kind ∧ IsNull s'.kind ∧ ∀ t ∈ s.tag, isOwnTag t = true := by
  cases h with
  | same h => exact .inl ⟨rfl, h⟩
  | null hk hk' htag => exact .inr ⟨hk, hk', htag⟩

theorem Alike.symm {s s' : Shape} (h : Alike s s') : Alike s' s := by
  cases h with
  | same h => exact .same h
  | null hk hk' htag => exact .null hk' hk htag

theorem Alike.trans {s s' s'' : Shape} (h : Alike s s') (h' : Alike s' s'') : Alike s s'' := by
  cases h with
  | same => exact h'
  | null hk hk' htag =>
      cases h' with
      | same => exact .null hk hk' htag
      | null _ hk'' _ => exact .null hk hk'' htag

theorem IsNull.ne {k other : EventKind} (h : IsNull k) (hother : ∀ text isPlain, other ≠ .scalar text isPlain) :
    k ≠ other := by
  rintro rfl
  rcases h with h | h
  · exact hother _ _ h
  · exact hother _ _ h

/-- The ends of collections are alike only to themselves. -/
theorem Alike.beq {s s' : Shape} (h : Alike s s') {k : EventKind}
    (hk : ∀ text isPlain, k ≠ .scalar text isPlain) : (s'.kind == k) = (s.kind == k) := by
  rcases h.kind with ⟨heq, -⟩ | ⟨h₁, h₂, -⟩
  · rw [heq]
  · rw [beq_eq_false_iff_ne.2 (h₁.ne hk), beq_eq_false_iff_ne.2 (h₂.ne hk)]

/-- Events that are read alike one by one. -/
def EventsAlike (es es' : List Event) : Prop :=
  List.Forall₂ (fun e e' => Alike e.shape e'.shape) es es'

/-- The value of a scalar does not depend on its place. -/
theorem scalarValue_mark (tag : Option String) (text : String) (isPlain : Bool) (m m' : Mark) :
    (scalarValue tag text isPlain m).toOption = (scalarValue tag text isPlain m').toOption := by
  have hplain : (plainValue text m).toOption = (plainValue text m').toOption := by
    unfold plainValue
    cases Scalar.meaning text.toList <;> rfl
  unfold scalarValue
  dsimp only
  split
  · cases isPlain
    · rfl
    · exact hplain
  · cases Scalar.bool? text.toList <;> rfl
  · cases Scalar.whole? text.toList with
    | none => rfl
    | some meaning => cases meaning <;> rfl
  · cases Scalar.float? text.toList <;> rfl
  · cases Scalar.isNull text.toList <;> rfl
  · rfl

namespace Document

/-- What is read of events is read of events like these, too. -/
structure ReadsAlike (d d' : Document) (fuel : Nat) : Prop where
  value : ∀ {depth : Nat} {inTag : Bool} {es es' : List Event} {jumps : Nat} {r : Reading Value},
    EventsAlike es es' → d.readValue fuel depth inTag es jumps = .ok r →
    ∃ rest, d'.readValue fuel depth inTag es' jumps = .ok ⟨r.part, rest, r.jumps⟩ ∧
      EventsAlike r.rest rest
  items : ∀ {depth : Nat} {es es' : List Event} {jumps : Nat} {r : Reading (List Value)},
    EventsAlike es es' → d.readItems fuel depth es jumps = .ok r →
    ∃ rest, d'.readItems fuel depth es' jumps = .ok ⟨r.part, rest, r.jumps⟩ ∧
      EventsAlike r.rest rest
  pairs : ∀ {depth : Nat} {mark mark' : Mark} {done : Pairs} {es es' : List Event} {jumps : Nat}
    {r : Reading Pairs}, EventsAlike es es' → d.readPairs fuel depth mark done es jumps = .ok r →
    ∃ rest, d'.readPairs fuel depth mark' done es' jumps = .ok ⟨r.part, rest, r.jumps⟩ ∧
      EventsAlike r.rest rest

/-- A scalar that is read as a value is read as it in another place, and a null is one however it is
written. -/
theorem scalar_alike {tag : Option String} {text text' : String} {isPlain isPlain' : Bool}
    {m m' : Mark} {v : Value} (h : scalarValue tag text isPlain m = .ok v)
    (halike : text' = text ∧ isPlain' = isPlain ∨
      tag = none ∧ IsNull (.scalar text isPlain) ∧ IsNull (.scalar text' isPlain')) :
    scalarValue tag text' isPlain' m' = .ok v := by
  obtain ⟨rfl, rfl⟩ | ⟨rfl, hnull, hnull'⟩ := halike
  · have hmark := scalarValue_mark tag text' isPlain' m m'
    rw [h] at hmark
    cases hother : scalarValue tag text' isPlain' m' with
    | error e => rw [hother] at hmark; exact nomatch hmark
    | ok w => rw [hother] at hmark; exact congrArg _ (Option.some.inj hmark).symm
  · have hvalue : ∀ {text : String} {isPlain : Bool} {m : Mark}, IsNull (.scalar text isPlain) →
        scalarValue none text isPlain m = .ok .null := by
      rintro text isPlain m (hkind | hkind)
      · obtain ⟨rfl, rfl⟩ := EventKind.scalar.inj hkind
        rfl
      · obtain ⟨rfl, rfl⟩ := EventKind.scalar.inj hkind
        rfl
    rw [hvalue hnull']
    exact (hvalue hnull).symm.trans h

theorem readsAlike (d d' : Document) (fuel : Nat) : ReadsAlike d d' fuel := by
  induction fuel with
  | zero =>
      refine ⟨fun _ h => ?_, fun _ h => ?_, fun _ h => ?_⟩
      · rw [readValue] at h; cases h
      · rw [readItems] at h; cases h
      · rw [readPairs] at h; cases h
  | succ fuel ih =>
      refine ⟨fun {depth inTag es es' jumps r} halike h => ?_, fun halike h => ?_,
        fun halike h => ?_⟩
      · cases halike with
        | nil => rw [readValue] at h; cases h
        | @cons e e' es es' he hes =>
            have htag : e'.tag = e.tag := he.tag
            have hwhole : EventsAlike (e :: es) (e' :: es') := .cons he hes
            have hkind : e'.kind = e.kind ∧ (∀ id, e.kind ≠ .alias id) ∨
                IsNull e.kind ∧ IsNull e'.kind ∧ ∀ t ∈ e.tag, isOwnTag t = true := he.kind
            have hsameKind : ∀ {k : EventKind}, (∀ text isPlain, k ≠ .scalar text isPlain) →
                e.kind = k → e'.kind = k := by
              intro k hk heq
              rcases hkind with ⟨hsame, -⟩ | ⟨hnull, -⟩
              · exact hsame.trans heq
              · exact absurd heq (hnull.ne hk)
            rw [readValue] at h ⊢
            rw [htag]
            split at h
            · next _ tag hown =>
              rw [hown]
              dsimp only
              split at h
              · next r hr =>
                obtain ⟨rest, hr', hrest⟩ := ih.value hwhole hr
                rw [hr']
                cases h
                exact ⟨rest, rfl, hrest⟩
              · cases h
            · next id hown halias =>
              rcases hkind with ⟨-, hnot⟩ | ⟨hnull, -⟩
              · exact absurd halias (hnot id)
              · exact absurd halias (hnull.ne fun _ _ h => by cases h)
            · next text isPlain hown hscalar =>
              obtain ⟨text', isPlain', hscalar', hsame⟩ : ∃ text' isPlain',
                  e'.kind = .scalar text' isPlain' ∧ (text' = text ∧ isPlain' = isPlain ∨
                    (if inTag = true then none else e.tag) = none ∧ IsNull (.scalar text isPlain) ∧
                      IsNull (.scalar text' isPlain')) := by
                rcases hkind with ⟨hsame, -⟩ | ⟨hnull, hnull', htags⟩
                · exact ⟨text, isPlain, hsame.trans hscalar, .inl ⟨rfl, rfl⟩⟩
                · have htagless : (if inTag = true then none else e.tag) = none := by
                    -- A tag of the document's own would have been read before.
                    cases inTag with
                    | true => rfl
                    | false =>
                        cases hetag : e.tag with
                        | none => rfl
                        | some t =>
                            rw [if_neg Bool.false_ne_true, hetag, Option.filter_some,
                              if_pos (htags t hetag)] at hown
                            cases hown
                  obtain ⟨text', hscalar'⟩ : ∃ text', e'.kind = .scalar text' true := by
                    rcases hnull' with h | h
                    · exact ⟨_, h⟩
                    · exact ⟨_, h⟩
                  exact ⟨text', true, hscalar', .inr ⟨htagless, hscalar ▸ hnull, hscalar' ▸ hnull'⟩⟩
              rw [hown, hscalar']
              dsimp only at h ⊢
              cases hv : scalarValue (if inTag = true then none else e.tag) text isPlain e.mark with
              | error err => rw [hv] at h; cases h
              | ok v =>
                  rw [hv] at h
                  rw [scalar_alike hv hsame]
                  cases h
                  exact ⟨es', rfl, hes⟩
            · next hown hsequence =>
              rw [hown, hsameKind (k := .sequence) (fun _ _ h => by cases h) hsequence]
              dsimp only
              split at h
              · cases h
              · next hdepth =>
                rw [if_neg hdepth]
                split at h
                · next r hr =>
                  obtain ⟨rest, hr', hrest⟩ := ih.items hes hr
                  rw [hr']
                  cases h
                  exact ⟨rest, rfl, hrest⟩
                · cases h
            · next hown hmapping =>
              rw [hown, hsameKind (k := .mapping) (fun _ _ h => by cases h) hmapping]
              dsimp only
              split at h
              · cases h
              · next hdepth =>
                rw [if_neg hdepth]
                split at h
                · next r hr =>
                  obtain ⟨rest, hr', hrest⟩ := ih.pairs hes hr
                  rw [hr']
                  cases h
                  exact ⟨rest, rfl, hrest⟩
                · cases h
            · cases h
            · cases h
      · cases halike with
        | nil => rw [readItems] at h; cases h
        | @cons e e' es es' he hes =>
            have hkind : (e'.kind == .sequenceEnd) = (e.kind == .sequenceEnd) :=
              Alike.beq he fun _ _ h => by cases h
            rw [readItems] at h ⊢
            rw [hkind]
            split at h
            · next hend =>
              rw [if_pos hend]
              cases h
              exact ⟨es', rfl, hes⟩
            · next hend =>
              rw [if_neg hend]
              split at h
              · cases h
              · next v hv =>
                obtain ⟨rest, hv', hrest⟩ := ih.value (.cons he hes) hv
                rw [hv']
                dsimp only
                split at h
                · cases h
                · next r hr =>
                  obtain ⟨last, hr', hlast⟩ := ih.items hrest hr
                  rw [hr']
                  cases h
                  exact ⟨last, rfl, hlast⟩
      · cases halike with
        | nil => rw [readPairs] at h; cases h
        | @cons e e' es es' he hes =>
            have hkind : (e'.kind == .mappingEnd) = (e.kind == .mappingEnd) :=
              Alike.beq he fun _ _ h => by cases h
            rw [readPairs] at h ⊢
            rw [hkind]
            split at h
            · next hend =>
              rw [if_pos hend]
              cases h
              exact ⟨es', rfl, hes⟩
            · next hend =>
              rw [if_neg hend]
              split at h
              · cases h
              · next k hk =>
                obtain ⟨middle, hk', hmiddle⟩ := ih.value (.cons he hes) hk
                rw [hk']
                dsimp only
                split at h
                · cases h
                · next hnew =>
                  rw [if_neg hnew]
                  split at h
                  · cases h
                  · next v hv =>
                    obtain ⟨rest, hv', hrest⟩ := ih.value hmiddle hv
                    rw [hv']
                    exact ih.pairs hrest h

end Document

/-- Documents that end where their text does have the same value where their events are read alike. -/
theorem value_alike {es es' : List Event} (halike : EventsAlike es es') {v : Value}
    (h : (⟨es, none, false⟩ : Document).value = .ok v) :
    (⟨es', none, false⟩ : Document).value = .ok v := by
  have hlength := halike.length_eq
  rw [Document.value] at h ⊢
  cases halike with
  | nil => exact h
  | cons he hes =>
      rw [if_neg (by simp)] at h ⊢
      split at h
      · cases h
      · next r hr =>
        obtain ⟨rest, hr', -⟩ := (Document.readsAlike _ ⟨_, none, false⟩ _).value (.cons he hes) hr
        rw [hlength] at hr'
        rw [hr']
        exact h

/-- Texts whose documents have like events stand for the same value. -/
theorem read_alike {text text' : String} {es es' : List Event}
    (hread : Document.ofText text = ⟨es, none, false⟩)
    (hread' : Document.ofText text' = ⟨es', none, false⟩) (halike : EventsAlike es es') {v : Value}
    (h : read text = .ok v) : read text' = .ok v := by
  unfold read at h ⊢
  rw [hread] at h
  rw [hread']
  dsimp only at h ⊢
  split at h
  · cases h
  · next w hw =>
    rw [value_alike halike hw]
    exact h

end GrammarProfile.Yaml
