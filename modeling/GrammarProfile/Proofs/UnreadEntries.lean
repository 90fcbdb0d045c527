import GrammarProfile.Proofs.Unordered

/-!
What a profile writes under a name that the grammar does not know is not looked at. Profiles that
differ only there have the same findings about names, containment, values and strictness, and each
such name is reported once.
-/
namespace GrammarProfile.Validation

open GrammarProfile.Grammar (Element Model)
open GrammarProfile.Profile

/-- Profiles with the same entries and document types that say the same about the elements of a
grammar. -/
structure AgreeOnElements (m : Model) (p q : Restriction) : Prop where
  documentTypes : p.documentTypes = q.documentTypes
  names : p.elements.keys = q.elements.keys
  entries : ∀ n, m.hasElement n = true → p.elements.get? n = q.elements.get? n

/-- A profile without one of its entries. -/
def withoutEntry (p : Restriction) (name : String) : Restriction :=
  { p with elements := p.elements.erase name }

section

variable {m : Model} {p q : Restriction} {index : LineIndex} {name : String} {d : Diagnostic}

theorem element?_eq_none (h : m.hasElement name = false) : m.element? name = none := by
  refine OrderedMap.get?_eq_none_iff.2 fun hmem => ?_
  rw [Model.hasElement, OrderedMap.contains_iff.2 hmem] at h
  cases h

namespace AgreeOnElements

theorem symm (h : AgreeOnElements m p q) : AgreeOnElements m q p :=
  ⟨h.documentTypes.symm, h.names.symm, fun n hn => (h.entries n hn).symm⟩

/-- The entries stand side by side. -/
theorem forall₂ (h : AgreeOnElements m p q) :
    List.Forall₂ (fun x y => x.1 = y.1 ∧ (m.hasElement x.1 = true → x = y))
      p.elements.pairs q.elements.pairs := by
  have hnames : List.Forall₂ (fun x y => x.1 = y.1) p.elements.pairs q.elements.pairs := by
    have hkeys := h.names
    rwa [OrderedMap.keys, OrderedMap.keys, ← List.forall₂_eq_eq_eq, List.forall₂_map_left_iff,
      List.forall₂_map_right_iff] at hkeys
  rw [List.forall₂_iff_zip] at hnames ⊢
  refine ⟨hnames.1, fun {x y} hmem => ?_⟩
  have hname : x.1 = y.1 := hnames.2 hmem
  refine ⟨hname, fun hknown => Prod.ext hname ?_⟩
  have hx := OrderedMap.get?_eq_some_iff.2 (List.of_mem_zip hmem).1
  have hy := OrderedMap.get?_eq_some_iff.2 (List.of_mem_zip hmem).2
  rw [h.entries x.1 hknown, hname, hy] at hx
  exact (Option.some.inj hx).symm

theorem declares_eq (h : AgreeOnElements m p q) :
    (⟨m, p, index⟩ : Subject).declares = (⟨m, q, index⟩ : Subject).declares := by
  funext n
  unfold Subject.declares
  rw [Bool.eq_iff_iff, OrderedMap.contains_iff, OrderedMap.contains_iff, h.names]

theorem knownElements_eq (h : AgreeOnElements m p q) :
    (⟨m, p, index⟩ : Subject).knownElements = (⟨m, q, index⟩ : Subject).knownElements := by
  unfold Subject.knownElements
  dsimp only
  have hpairs := h.forall₂
  generalize p.elements.pairs = left, q.elements.pairs = right at hpairs ⊢
  induction hpairs with
  | nil => rfl
  | @cons x y _ _ hxy _ ih =>
      cases hknown : m.hasElement x.1 with
      | true =>
          obtain rfl := hxy.2 hknown
          simp only [List.filter_cons, hknown, ih]
      | false =>
          simp only [List.filter_cons, ← hxy.1, hknown, Bool.false_eq_true, if_false, ih]

/-! ## One category after the other -/

theorem vocabulary_eq (h : AgreeOnElements m p q) :
    Vocabulary.check ⟨m, p, index⟩ = Vocabulary.check ⟨m, q, index⟩ := by
  have htypes : Vocabulary.documentTypes ⟨m, p, index⟩ = Vocabulary.documentTypes ⟨m, q, index⟩ := by
    unfold Vocabulary.documentTypes
    dsimp only
    rw [h.documentTypes]
    rfl
  unfold Vocabulary.check
  rw [htypes]
  congr 1
  dsimp only
  have hpairs := h.forall₂
  generalize p.elements.pairs = left, q.elements.pairs = right at hpairs ⊢
  induction hpairs with
  | nil => rfl
  | @cons x y _ _ hxy _ ih =>
      have hentry : Vocabulary.entry ⟨m, p, index⟩ x.1 x.2 =
          Vocabulary.entry ⟨m, q, index⟩ y.1 y.2 := by
        cases hknown : m.hasElement x.1 with
        | true =>
            obtain rfl := hxy.2 hknown
            rfl
        | false =>
            -- Of an unknown element only the name is looked at.
            unfold Vocabulary.entry
            dsimp only
            rw [← hxy.1, element?_eq_none hknown]
            rfl
      rw [List.flatMap_cons, List.flatMap_cons, hentry, ih]

theorem containment_eq (h : AgreeOnElements m p q) :
    Containment.check ⟨m, p, index⟩ = Containment.check ⟨m, q, index⟩ := by
  rw [Containment.check_eq, Containment.check_eq, h.knownElements_eq]
  rfl

theorem datatype_eq (h : AgreeOnElements m p q) :
    Datatype.check ⟨m, p, index⟩ = Datatype.check ⟨m, q, index⟩ := by
  rw [Datatype.check_eq, Datatype.check_eq, h.knownElements_eq]
  rfl

theorem strictness_eq (h : AgreeOnElements m p q) :
    Strictness.check ⟨m, p, index⟩ = Strictness.check ⟨m, q, index⟩ := by
  have hdeclares := @declares_eq _ _ _ index h
  have hentry : Strictness.entry ⟨m, p, index⟩ = Strictness.entry ⟨m, q, index⟩ := by
    funext name rule
    unfold Strictness.entry Strictness.undeclared
    rw [hdeclares]
    rfl
  have hchain : Strictness.missingChain ⟨m, p, index⟩ = Strictness.missingChain ⟨m, q, index⟩ := by
    funext documentType
    unfold Strictness.missingChain
    rw [hdeclares]
    rfl
  unfold Strictness.check
  rw [h.knownElements_eq, hentry, hchain]
  dsimp only
  rw [h.documentTypes]

end AgreeOnElements

/-! ## What is reported of an unknown entry -/

theorem elementPath_ne {a n between : String} (h : 0 < between.length) :
    elementPath a ≠ elementPath n ++ between ++ a := by
  intro heq
  have hlength := congrArg String.length heq
  unfold elementPath at hlength
  rw [String.length_append, String.length_append, String.length_append, String.length_append]
    at hlength
  omega

/-- A name that an entry refers to stands at the place of the entry of this name only if it is a
part, and is itself written as the place of one. -/
theorem exists_partPath_of_reference {n path : String} {rule : ElementRule}
    (h : (name, path) ∈ Vocabulary.references n rule) (hpath : path = elementPath name) :
    ∃ i, elementPath name = partPath n i := by
  obtain ⟨c, -, hc⟩ | ⟨c, -, hc⟩ | ⟨x, -, hx⟩ := Vocabulary.mem_references.1 h
  · obtain ⟨rfl, rfl⟩ := Prod.mk.inj hc
    exact absurd hpath.symm (elementPath_ne (by decide))
  · obtain ⟨rfl, rfl⟩ := Prod.mk.inj hc
    have hplace : alternativePath n c = elementPath n ++ (".children." ++ choiceKey ++ ".") ++ c := by
      simp only [alternativePath, String.append_assoc]
    rw [hplace] at hpath
    exact absurd hpath.symm (elementPath_ne (by decide))
  · obtain ⟨rfl, rfl⟩ := Prod.mk.inj hx
    exact ⟨x.2, hpath.symm⟩

theorem sameFinding_unknownElement {s : Subject} {a b path path' : String}
    (h : sameFinding (Vocabulary.unknownElement s a path) (Vocabulary.unknownElement s b path') = true) :
    a = b ∧ path = path' := by
  obtain ⟨-, hpath, hmessage⟩ := sameFinding_iff.1 h
  unfold Vocabulary.unknownElement at hpath hmessage
  rw [report_path, report_path] at hpath
  rw [report_message, report_message, String.append_left_inj, String.append_right_inj] at hmessage
  exact ⟨hmessage, hpath⟩

/-- Nothing else that the vocabulary reports is the finding of an unknown entry. -/
theorem exists_partPath_of_repeated {s : Subject}
    (hd : d ∈ Vocabulary.check s) (hname : name ∉ s.profile.elements.keys)
    (hsame : sameFinding (Vocabulary.unknownElement s name (elementPath name)) d = true) :
    ∃ n i, elementPath name = partPath n i := by
  have hrule : d.ruleId = "vocabulary.unknown-element" := by
    rw [← (sameFinding_iff.1 hsame).1, Vocabulary.unknownElement, report_ruleId]
  obtain hd | hd := List.mem_append.1 hd
  · exact absurd hd ((Vocabulary.reports_documentTypes s).not_mem hrule (by decide))
  · obtain ⟨⟨n, rule⟩, hmem, hd⟩ := List.mem_flatMap.1 hd
    dsimp only at hd
    unfold Vocabulary.entry at hd
    split at hd
    · obtain rfl := List.mem_singleton.1 hd
      obtain ⟨rfl, -⟩ := sameFinding_unknownElement hsame
      exact absurd (OrderedMap.mem_keys_of_mem hmem) hname
    · obtain hd | hd := List.mem_append.1 hd
      · exact absurd hd ((Vocabulary.reports_attributes s n rule _).not_mem hrule (by decide))
      · obtain ⟨⟨c, path⟩, hr, rfl⟩ := List.mem_map.1 hd
        obtain ⟨rfl, hpath⟩ := sameFinding_unknownElement hsame
        obtain ⟨i, hi⟩ := exists_partPath_of_reference (List.mem_filter.1 hr).1 hpath.symm
        exact ⟨n, i, hi⟩

theorem pairs_withoutEntry {before after : List (String × ElementRule)} {rule : ElementRule}
    (h : p.elements.pairs = before ++ (name, rule) :: after) :
    (withoutEntry p name).elements.pairs = before ++ after := by
  have hnodup := p.elements.distinct
  rw [h, List.map_append, List.map_cons, List.nodup_middle, List.nodup_cons, ← List.map_append] at hnodup
  have hother : ∀ x ∈ before ++ after, (x.1 != name) = true := by
    intro x hx
    rw [bne_iff_ne]
    rintro rfl
    exact hnodup.1 (List.mem_map.2 ⟨x, hx, rfl⟩)
  show p.elements.pairs.filter (fun x => x.1 != name) = before ++ after
  rw [h, List.filter_append, List.filter_cons_of_neg (by simp), ← List.filter_append,
    List.filter_eq_self.2 hother]

/-- An unknown entry adds one finding, and this is all that the vocabulary reports of it. -/
theorem vocabulary_withoutEntry (hname : name ∈ p.elements.keys) (hunknown : m.hasElement name = false) :
    ∃ before after, Vocabulary.check ⟨m, p, index⟩ =
        before ++ Vocabulary.unknownElement ⟨m, p, index⟩ name (elementPath name) :: after ∧
      Vocabulary.check ⟨m, withoutEntry p name, index⟩ = before ++ after := by
  obtain ⟨rule, hmem⟩ := OrderedMap.exists_of_mem_keys hname
  obtain ⟨before, after, hpairs⟩ := List.append_of_mem hmem
  have hentry : Vocabulary.entry ⟨m, p, index⟩ name rule =
      [Vocabulary.unknownElement ⟨m, p, index⟩ name (elementPath name)] := by
    unfold Vocabulary.entry
    dsimp only
    rw [element?_eq_none hunknown]
  refine ⟨Vocabulary.documentTypes ⟨m, p, index⟩ ++
      before.flatMap fun x => Vocabulary.entry ⟨m, p, index⟩ x.1 x.2,
    after.flatMap fun x => Vocabulary.entry ⟨m, p, index⟩ x.1 x.2, ?_, ?_⟩
  · unfold Vocabulary.check
    dsimp only
    rw [hpairs, List.flatMap_append, List.flatMap_cons, hentry, List.append_assoc,
      List.singleton_append]
  · unfold Vocabulary.check
    dsimp only
    rw [pairs_withoutEntry hpairs, List.flatMap_append, ← List.append_assoc]
    rfl

/-- What is written under a name that is no element of the grammar changes no finding about names,
containment, values and strictness. Such an entry is reported once, as an unknown element at its
place, and without the entry this finding is all that is missing. -/
theorem unknown_entries_unread (h : AgreeOnElements m p q) (index : LineIndex) :
    (∀ c ∈ [Category.vocabulary, .containment, .datatype, .strictness],
      c.check ⟨m, p, index⟩ = c.check ⟨m, q, index⟩) ∧
    ∀ r, r = p ∨ r = q → ∀ name ∈ r.elements.keys, m.hasElement name = false →
      ∃ d before after,
        d = (⟨m, r, index⟩ : Subject).report .error "vocabulary.unknown-element"
          ("profile.elements." ++ name) ("'" ++ name ++ "' is not a known AKN element") ∧
        Category.vocabulary.check ⟨m, r, index⟩ = before ++ d :: after ∧
        Category.vocabulary.check ⟨m, withoutEntry r name, index⟩ = before ++ after ∧
        ∀ k ∈ before ++ after, sameFinding d k = true →
          ∃ n i, "profile.elements." ++ name = partPath n i := by
  refine ⟨?_, fun r _ name hname hunknown => ?_⟩
  · simp only [List.forall_mem_cons, List.not_mem_nil, false_implies, implies_true, and_true]
    exact ⟨h.vocabulary_eq, h.containment_eq, h.datatype_eq, h.strictness_eq⟩
  · obtain ⟨before, after, hcheck, hwithout⟩ :=
      @vocabulary_withoutEntry _ _ index _ hname hunknown
    refine ⟨_, before, after, rfl, hcheck, hwithout, fun k hk hsame => ?_⟩
    rw [← hwithout] at hk
    refine @exists_partPath_of_repeated name _ _ hk (fun hmem => ?_) hsame
    obtain ⟨rule, hrule⟩ := OrderedMap.exists_of_mem_keys hmem
    exact absurd (List.mem_filter.1 hrule).2 (by simp)

end

/-! ## A profile with an entry for an unknown element -/

def pageGrammar : Model where
  elements := ⟨[("page", ⟨"page", "Page", none, [], [⟨"line", .one, none, []⟩], [], [], ""⟩)], by decide⟩
  enums := ∅
  root := some "page"

/-- A page that holds verses, and what is said of verses. -/
def versesWith (verse : ElementRule) : Restriction :=
  { Restriction.empty with
    documentTypes := ["page"]
    elements := ⟨[("page", { ElementRule.empty with parts := ["verse"] }), ("verse", verse)],
      (by decide : ["page", "verse"].Nodup)⟩ }

/-- Verses of which much is said. -/
def fullVerse : ElementRule :=
  { ElementRule.empty with
    attributes := ⟨[("rhyme", ⟨true, ["aabb"]⟩)], by decide⟩
    children := ⟨[("page", some "2..1"), ("foot", none)], by decide⟩
    parts := ["verse", "verse"]
    declaresChoice := true }

theorem agreeOnElements_versesWith (a b : ElementRule) :
    AgreeOnElements pageGrammar (versesWith a) (versesWith b) := by
  refine ⟨rfl, rfl, fun n hn => ?_⟩
  have hpage : "page" = n := by simpa [pageGrammar, Model.hasElement, OrderedMap.contains] using hn
  subst hpage
  rfl

theorem unread_verses :
    AgreeOnElements pageGrammar (versesWith fullVerse) (versesWith .empty) ∧
    "verse" ∈ (versesWith fullVerse).elements.keys ∧ pageGrammar.hasElement "verse" = false ∧
    Category.strictness.check ⟨pageGrammar, versesWith fullVerse, ∅⟩ =
      Category.strictness.check ⟨pageGrammar, versesWith .empty, ∅⟩ ∧
    ∃ d before after, d.path = "profile.elements.verse" ∧
      Category.vocabulary.check ⟨pageGrammar, versesWith fullVerse, ∅⟩ = before ++ d :: after := by
  have hagree := agreeOnElements_versesWith fullVerse .empty
  have hkey : "verse" ∈ (versesWith fullVerse).elements.keys := by decide
  have hunknown : pageGrammar.hasElement "verse" = false := by decide
  obtain ⟨hsame, honce⟩ := unknown_entries_unread hagree ∅
  obtain ⟨d, before, after, rfl, hcheck, -⟩ := honce _ (.inl rfl) "verse" hkey hunknown
  exact ⟨hagree, hkey, hunknown, hsame .strictness (by decide), _, before, after, report_path .., hcheck⟩

end GrammarProfile.Validation
