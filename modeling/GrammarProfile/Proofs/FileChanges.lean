import GrammarProfile.CommandLine
import GrammarProfile.Proofs.OrderedMap
import GrammarProfile.Proofs.TextParts

/-!
What runs do to files. A run that fails changes none; one that succeeds changes at most the file that
its command is to write, which then holds the text that the command makes, and prints this text if
there is no such file.
-/
namespace GrammarProfile

namespace Files

variable {files after : Files} {path text : String}

/-! ## Places -/

/-- A name between slashes. -/
def IsPart (part : String) : Prop := '/' ∉ part.toList

theorem isPart_of_mem_parts : ∀ part ∈ parts path, IsPart part := by
  intro part hpart
  obtain ⟨piece, hpiece, rfl⟩ := List.mem_map.1 hpart
  rw [IsPart, String.toList_ofList]
  exact Text.not_mem_of_mem_splitAll piece hpiece

theorem parts_intercalate {place : List String} (hne : place ≠ []) (h : ∀ part ∈ place, IsPart part) :
    parts (String.intercalate "/" place) = place := by
  have hsplit : ∀ (place : List String), place ≠ [] → (∀ part ∈ place, IsPart part) →
      Text.splitAll '/' (['/'].intercalate (place.map String.toList)) = place.map String.toList := by
    intro place hne h
    induction place with
    | nil => exact absurd rfl hne
    | cons part rest ih =>
        obtain ⟨hpart, hrest⟩ := List.forall_mem_cons.1 h
        cases rest with
        | nil => exact (congrArg _ (List.append_nil _)).trans (Text.splitAll_of_not_mem hpart)
        | cons next more =>
            have hmore := ih (List.cons_ne_nil _ _) hrest
            rw [List.map_cons] at hmore
            rw [List.map_cons, List.map_cons, List.intercalate_cons_cons, List.append_assoc,
              List.singleton_append, Text.splitAll_append hpart, hmore]
  have hslash : "/".toList = ['/'] := rfl
  rw [parts, String.toList_intercalate, hslash, hsplit place hne h, List.map_map]
  exact (List.map_congr_left fun part _ => String.ofList_toList).trans (List.map_id place)

/-- Every place above is a directory. -/
def HasParents (files : Files) (place : List String) : Prop :=
  ∀ above, above <+: place → above.length < place.length → files.isDirectory above = true

/-- A path that can be followed leads through directories, along names. -/
theorem follow?_parents {here rest place : List String} (hhere : files.HasParents here)
    (hparts : ∀ part ∈ here ++ rest, IsPart part) (h : files.follow? here rest = some place) :
    files.HasParents place ∧ ∀ part ∈ place, IsPart part := by
  have hskip : ∀ {here rest : List String} {part : String} (name : String), part ∈ here ++ rest →
      part ∈ here ++ name :: rest := fun name hpart =>
    (List.mem_append.1 hpart).elim (List.mem_append_left _) fun hpart =>
      List.mem_append_right _ (List.mem_cons_of_mem name hpart)
  fun_induction follow? files here rest with
  | case1 here =>
      obtain rfl := Option.some.inj h
      exact ⟨hhere, fun part hpart => hparts part (List.mem_append_left _ hpart)⟩
  | case2 => exact nomatch h
  | case3 here rest _ ih => exact ih hhere (fun part hpart => hparts part (hskip "" hpart)) h
  | case4 here rest _ ih => exact ih hhere (fun part hpart => hparts part (hskip "." hpart)) h
  | case5 => exact nomatch h
  | case6 here rest _ _ ih =>
      refine ih (fun above habove hlt => ?_) (fun part hpart => hparts part ?_) h
      · refine hhere above (habove.trans here.dropLast_prefix) ?_
        exact Nat.lt_of_lt_of_le hlt here.dropLast_prefix.length_le
      · rcases List.mem_append.1 hpart with hpart | hpart
        · exact List.mem_append_left _ (here.dropLast_prefix.subset hpart)
        · exact List.mem_append_right _ (List.mem_cons_of_mem _ hpart)
  | case7 here rest hdirectory name _ _ _ ih =>
      refine ih (fun above habove hlt => ?_) (fun part hpart => hparts part ?_) h
      · rcases List.prefix_concat_iff.1 habove with rfl | habove
        · exact absurd hlt (Nat.lt_irrefl _)
        · rcases Nat.lt_or_ge above.length here.length with hlt | hge
          · exact hhere above habove hlt
          · obtain rfl := habove.eq_of_length_le hge
            simpa using hdirectory
      · rwa [List.append_assoc] at hpart

theorem hasParents_of_locate? {key : String} (h : files.locate? path = some key) :
    files.HasParents (parts key) := by
  unfold locate? at h
  split at h
  · exact nomatch h
  · obtain ⟨place, hplace, rfl⟩ := Option.map_eq_some_iff.1 h
    have htop : files.HasParents [] := fun above _ hlt => absurd hlt (Nat.not_lt_zero _)
    obtain ⟨hparents, hparts⟩ := follow?_parents htop isPart_of_mem_parts hplace
    by_cases hne : place = []
    · subst hne
      intro above _ hlt
      obtain rfl := List.length_eq_zero_iff.1 (Nat.lt_one_iff.1 hlt)
      rfl
    · rwa [parts_intercalate hne hparts]

/-! ## Writing -/

theorem isDirectory_iff {place : List String} : files.isDirectory place = true ↔
    place = [] ∨ ∃ key ∈ files.entries.keys, place <+: parts key ∧ place.length < (parts key).length := by
  rw [isDirectory, Bool.or_eq_true, List.isEmpty_iff, List.any_eq_true]
  simp only [Bool.and_eq_true, List.isPrefixOf_iff_prefix, decide_eq_true_eq]

section Write

variable {key : String} (hparents : files.HasParents (parts key)) (content : Option String)

include hparents

/-- A file in a directory that is there makes no new directory. -/
theorem isDirectory_insert (place : List String) :
    isDirectory ⟨files.entries.insert key content⟩ place = files.isDirectory place := by
  have hkeys : ∀ k, k ∈ (files.entries.insert key content).keys ↔ k ∈ files.entries.keys ∨ k = key := by
    intro k
    rw [OrderedMap.keys_insert]
    split
    · next hmem => exact ⟨.inl, fun hk => hk.elim id fun heq => heq ▸ hmem⟩
    · rw [List.mem_append, List.mem_singleton]
  rw [Bool.eq_iff_iff, isDirectory_iff]
  constructor
  · rintro (rfl | ⟨k, hk, habove, hlt⟩)
    · rfl
    · rcases (hkeys k).1 hk with hk | rfl
      · exact isDirectory_iff.2 (.inr ⟨k, hk, habove, hlt⟩)
      · exact hparents place habove hlt
  · rw [isDirectory_iff]
    exact Or.imp_right fun ⟨k, hk, hbelow⟩ => ⟨k, (hkeys k).2 (.inl hk), hbelow⟩

theorem follow?_insert (here rest : List String) :
    follow? ⟨files.entries.insert key content⟩ here rest = files.follow? here rest := by
  fun_induction follow? files here rest with
  | case1 => rfl
  | case2 here part rest hnone =>
      unfold follow?
      rw [isDirectory_insert hparents, if_pos hnone]
  | case3 here rest hdirectory ih =>
      rw [follow?, isDirectory_insert hparents, if_neg hdirectory]
      exact ih
  | case4 here rest hdirectory ih =>
      rw [follow?, isDirectory_insert hparents, if_neg hdirectory]
      exact ih
  | case5 here rest hdirectory htop =>
      rw [follow?, isDirectory_insert hparents, if_neg hdirectory]
      exact if_pos htop
  | case6 here rest hdirectory htop ih =>
      rw [follow?, isDirectory_insert hparents, if_neg hdirectory]
      exact (if_neg htop).trans ih
  | case7 here rest hdirectory name _ _ _ ih =>
      rw [follow?, isDirectory_insert hparents, if_neg hdirectory]
      all_goals assumption

theorem locate?_insert (path : String) :
    locate? ⟨files.entries.insert key content⟩ path = files.locate? path := by
  rw [locate?, locate?, follow?_insert hparents]

end Write

/-- After a change, the path finds this text, and no other file has changed. -/
structure ChangedOnly (files : Files) (path text : String) (after : Files) : Prop where
  written : after.read path = .ok text
  others : ∀ other, files.locate? other ≠ files.locate? path → after.read other = files.read other
  kept : ∀ key, files.locate? path ≠ some key → after.entries.get? key = files.entries.get? key

theorem ChangedOnly.refl (h : files.read path = .ok text) : files.ChangedOnly path text files where
  written := h
  others _ _ := rfl
  kept _ _ := rfl

/-- Whether a text can be written there. -/
def CanWrite (files : Files) (path : String) : Prop :=
  ∃ key, files.locate? path = some key ∧ namesFile path = true ∧ files.isDirectory (parts key) = false

theorem write_eq_ok_iff : files.write path text = .ok after ↔
    files.CanWrite path ∧
      ∃ key, files.locate? path = some key ∧ after = ⟨files.entries.insert key (some text)⟩ := by
  unfold write CanWrite
  cases files.locate? path with
  | none => simp
  | some key =>
      simp only [Option.some.injEq, exists_eq_left']
      split
      · next hwrite =>
        rw [Bool.and_eq_true, Bool.not_eq_true'] at hwrite
        rw [Except.ok.injEq, eq_comm, and_iff_right hwrite]
      · next hwrite =>
        rw [Bool.and_eq_true, Bool.not_eq_true'] at hwrite
        exact iff_of_false (fun h => nomatch h) fun h => hwrite h.1

theorem changedOnly_of_write (h : files.write path text = .ok after) :
    files.ChangedOnly path text after := by
  obtain ⟨-, key, hkey, rfl⟩ := write_eq_ok_iff.1 h
  have hparents := hasParents_of_locate? hkey
  refine ⟨?_, fun other hother => ?_, fun k hk => ?_⟩
  · rw [read, locate?_insert hparents, hkey, Option.bind_some, OrderedMap.get?_insert, if_pos rfl]
  · rw [read, read, locate?_insert hparents]
    cases hlocated : files.locate? other with
    | none => rfl
    | some k =>
        have hne : k ≠ key := by
          rintro rfl
          exact hother (hlocated.trans hkey.symm)
        rw [Option.bind_some, Option.bind_some, OrderedMap.get?_insert, if_neg hne]
  · rw [OrderedMap.get?_insert, if_neg]
    rintro rfl
    exact hk hkey

end Files

namespace CommandLine

open GrammarProfile.Grammar (Model)

variable {files : Files} {grammar : Model} {config : Config}

/-! ## What a command makes -/

namespace Invocation

/-- The path of the grammar, unless it is the one that comes with the program. -/
def grammarPath? (i : Invocation) (config : Config) : Option String :=
  i.grammar.or (config.grammar.map fun path => Files.besides (i.config.getD "") path)

/-- The configuration that is asked for. -/
def Configured (i : Invocation) (files : Files) (config : Config) : Prop :=
  match i.config with
  | none => config = .standard
  | some path => ∃ text, files.read path = .ok text ∧ Config.ofText? text = some config

/-- The grammar that is asked for; `bundled` is the one that comes with the program. -/
def grammarFrom (i : Invocation) (bundled : Except Grammar.Error Model) (files : Files)
    (config : Config) : Except Grammar.Error Model :=
  match i.grammarPath? config with
  | none => bundled
  | some path => Model.ofFile none (files.read path)

/-- The files hold the configuration and the grammar that are asked for. -/
structure Ready (i : Invocation) (files : Files) (config : Config) (grammar : Model) : Prop where
  configured : i.Configured files config
  loaded : i.grammarFrom Model.akomaNtoso files config = .ok grammar

end Invocation

namespace Command

/-- The text that a command makes. Validation succeeds only if the profile is valid, and an edit
makes the new text of a profile out of the old one. -/
def Makes (grammar : Model) (config : Config) (files : Files) (text : String) : Command → Prop
  | validate profile format minimum =>
    ∃ content, files.read profile = .ok content ∧
      let settings : Validation.Settings :=
        { Validation.Settings.standard with minimum := (minimum.or config.minimum).getD .info }
      let report := Validation.report settings grammar profile content
      report.isValid = true ∧ text = format.show report
  | generate documentType _ options => Cascade.scaffoldText grammar options documentType = .ok text
  | edit profile change _ =>
    ∃ old, files.read profile = .ok old ∧ change.apply grammar config old = .ok text
  | elements => text = listed grammar.elementNames
  | documentTypes => text = listed grammar.documentTypes

/-- The file that a command is to write. -/
def target? : Command → Option String
  | generate _ output _ => output
  | edit profile _ true => some profile
  | _ => none

/-- The text goes into the file that the command is to write and nowhere else, or is printed. -/
def Delivers (c : Command) (text : String) (files after : Files) (output : String) : Prop :=
  match c.target? with
  | some path => files.ChangedOnly path text after ∧ output = ""
  | none => after = files ∧ output = text

/-- Nothing prevents the text from going where it should: an edit that changes nothing does not even
write the profile. -/
def CanDeliver (files : Files) (text : String) : Command → Prop
  | generate _ (some path) _ => files.CanWrite path
  | edit profile _ true => files.read profile = .ok text ∨ files.CanWrite profile
  | _ => True

end Command

/-! ## Runs -/

/-- A run that fails leaves the files as they are. -/
theorem Task.files_of_code {t : Task} (h : (t.run files).1.code ≠ 0) : (t.run files).2 = files := by
  induction t with
  | finish o => rfl
  | write path text =>
      rw [run] at h ⊢
      cases hwrite : files.write path text with
      | ok after =>
          rw [hwrite] at h
          exact absurd rfl h
      | error e => rfl
  | read path next ih => exact ih _ h

theorem Task.changedOnly_of_code {path text : String} (h : ((write path text).run files).1.code = 0) :
    files.ChangedOnly path text ((write path text).run files).2 ∧
      ((write path text).run files).1.output = "" := by
  rw [run] at h ⊢
  cases hwrite : files.write path text with
  | error e =>
      rw [hwrite] at h
      exact absurd h Nat.one_ne_zero
  | ok after => exact ⟨Files.changedOnly_of_write hwrite, rfl⟩

theorem Task.code_of_canWrite {path text : String} (h : files.CanWrite path) :
    ((write path text).run files).1.code = 0 := by
  obtain ⟨key, hkey, hplace⟩ := h
  rw [run, Files.write_eq_ok_iff.2 ⟨⟨key, hkey, hplace⟩, key, hkey, rfl⟩]
  rfl

namespace Command

variable {c : Command}

/-- A command that succeeds has made a text and delivered it. -/
theorem delivers_of_code (h : ((c.task grammar config).run files).1.code = 0) :
    ∃ text, c.Makes grammar config files text ∧ c.Delivers text files
      ((c.task grammar config).run files).2 ((c.task grammar config).run files).1.output := by
  cases c with
  | validate profile format minimum =>
      rw [task, Task.run] at h ⊢
      cases hread : files.read profile with
      | error e =>
          rw [hread] at h
          exact absurd h Nat.one_ne_zero
      | ok content =>
          rw [hread] at h
          refine ⟨_, ⟨content, hread, ?_, rfl⟩, rfl, rfl⟩
          by_contra hinvalid
          exact absurd (h.symm.trans (if_neg hinvalid)) (by decide)
  | generate documentType output options =>
      rw [task] at h ⊢
      cases htext : Cascade.scaffoldText grammar options documentType with
      | error e =>
          rw [htext] at h
          exact absurd h Nat.one_ne_zero
      | ok text =>
          rw [htext] at h
          refine ⟨text, htext, ?_⟩
          cases output with
          | none => exact ⟨rfl, rfl⟩
          | some path => exact Task.changedOnly_of_code h
  | edit profile change inPlace =>
      rw [task, Task.run] at h ⊢
      cases hread : files.read profile with
      | error e =>
          rw [hread] at h
          exact absurd h Nat.one_ne_zero
      | ok old =>
          rw [hread] at h
          dsimp only at h ⊢
          cases hchange : change.apply grammar config old with
          | error e =>
              rw [hchange] at h
              exact absurd h Nat.one_ne_zero
          | ok new =>
              rw [hchange] at h
              refine ⟨new, ⟨old, hread, hchange⟩, ?_⟩
              dsimp only at h ⊢
              rw [finishEdit] at h ⊢
              cases inPlace with
              | false => exact ⟨rfl, rfl⟩
              | true =>
                  rw [if_pos rfl] at h ⊢
                  split at h
                  · next hsame =>
                    rw [if_pos hsame]
                    rw [beq_iff_eq] at hsame
                    exact ⟨.refl (hsame ▸ hread), rfl⟩
                  · next hnew =>
                    rw [if_neg hnew]
                    exact Task.changedOnly_of_code h
  | elements => exact ⟨_, rfl, rfl, rfl⟩
  | documentTypes => exact ⟨_, rfl, rfl, rfl⟩

/-- A command that can make and deliver a text succeeds. -/
theorem code_of_canDeliver {text : String} (hmakes : c.Makes grammar config files text)
    (hdeliver : c.CanDeliver files text) : ((c.task grammar config).run files).1.code = 0 := by
  cases c with
  | validate profile format minimum =>
      obtain ⟨content, hread, hvalid, -⟩ := hmakes
      rw [task, Task.run, hread]
      exact if_pos hvalid
  | generate documentType output options =>
      rw [task, show Cascade.scaffoldText grammar options documentType = .ok text from hmakes]
      cases output with
      | none => rfl
      | some path => exact Task.code_of_canWrite hdeliver
  | edit profile change inPlace =>
      obtain ⟨old, hread, hchange⟩ := hmakes
      rw [task, Task.run, hread]
      dsimp only
      rw [hchange]
      dsimp only
      rw [finishEdit]
      cases inPlace with
      | false => rfl
      | true =>
          rw [if_pos rfl]
          split
          · rfl
          · next hnew =>
            rcases hdeliver with hsame | hwrite
            · exact absurd (beq_iff_eq.2 (Except.ok.inj (hsame.symm.trans hread))) hnew
            · exact Task.code_of_canWrite hwrite
  | elements => rfl
  | documentTypes => rfl

end Command

namespace Invocation

variable {i : Invocation}

/-- The task with a configuration, over any bundled grammar. -/
def taskOver (i : Invocation) (bundled : Except Grammar.Error Model) (config : Config) : Task :=
  match i.grammarPath? config with
  | some path =>
    .read path fun content =>
      match Model.ofFile none content with
      | .error e => .fail (.grammar path e)
      | .ok grammar => i.command.task grammar config
  | none =>
    match bundled with
    | .error e => .fail (.bundledGrammar e)
    | .ok grammar => i.command.task grammar config

theorem taskWith_eq (config : Config) : i.taskWith config = i.taskOver Model.akomaNtoso config := by
  unfold taskWith taskOver grammarPath?
  -- The grammars stay closed: comparing the two sides would load them.
  generalize Model.akomaNtoso = bundled
  generalize Model.ofFile none = load
  cases i.grammar with
  | none => rfl
  | some path => rfl

section Over

variable {bundled : Except Grammar.Error Model}

theorem run_taskOver (h : i.grammarFrom bundled files config = .ok grammar) :
    (i.taskOver bundled config).run files = (i.command.task grammar config).run files := by
  unfold taskOver
  unfold grammarFrom at h
  cases hpath : i.grammarPath? config with
  | none =>
      rw [hpath] at h
      dsimp only at h
      rw [h]
  | some path =>
      rw [hpath] at h
      dsimp only at h
      rw [Task.run, h]

theorem exists_grammar_of_code (h : ((i.taskOver bundled config).run files).1.code = 0) :
    ∃ grammar, i.grammarFrom bundled files config = .ok grammar := by
  unfold taskOver at h
  unfold grammarFrom
  cases hpath : i.grammarPath? config with
  | none =>
      rw [hpath] at h
      cases bundled with
      | error e => exact absurd h Nat.one_ne_zero
      | ok grammar => exact ⟨grammar, rfl⟩
  | some path =>
      rw [hpath] at h
      dsimp only at h ⊢
      rw [Task.run] at h
      cases hgrammar : Model.ofFile none (files.read path) with
      | error e =>
          rw [hgrammar] at h
          exact absurd h Nat.one_ne_zero
      | ok grammar => exact ⟨grammar, rfl⟩

end Over

theorem run_of_configured (h : i.Configured files config) :
    i.task.run files = (i.taskWith config).run files := by
  unfold Configured at h
  rw [task]
  cases hpath : i.config with
  | none =>
      rw [hpath] at h
      exact h ▸ rfl
  | some path =>
      rw [hpath] at h
      obtain ⟨text, hread, hconfig⟩ := h
      dsimp only
      rw [Task.run, hread]
      dsimp only
      rw [hconfig]

theorem exists_configured_of_code (h : (i.task.run files).1.code = 0) :
    ∃ config, i.Configured files config := by
  unfold Configured
  rw [task] at h
  cases hpath : i.config with
  | none => exact ⟨_, rfl⟩
  | some path =>
      rw [hpath] at h
      dsimp only at h ⊢
      rw [Task.run] at h
      cases hread : files.read path with
      | error e =>
          rw [hread] at h
          exact absurd h Nat.one_ne_zero
      | ok text =>
          rw [hread] at h
          dsimp only at h
          cases hconfig : Config.ofText? text with
          | none =>
              rw [hconfig] at h
              exact absurd h Nat.one_ne_zero
          | some config => exact ⟨config, text, rfl, hconfig⟩

/-- With its configuration and its grammar, a run is that of the command. -/
theorem run_of_ready (h : i.Ready files config grammar) :
    i.task.run files = (i.command.task grammar config).run files := by
  rw [run_of_configured h.configured, taskWith_eq, run_taskOver h.loaded]

theorem exists_ready_of_code (h : (i.task.run files).1.code = 0) :
    ∃ config grammar, i.Ready files config grammar := by
  obtain ⟨config, hconfig⟩ := exists_configured_of_code h
  rw [run_of_configured hconfig, taskWith_eq] at h
  obtain ⟨grammar, hgrammar⟩ := exists_grammar_of_code h
  exact ⟨config, grammar, hconfig, hgrammar⟩

end Invocation

/-- A schema with one element, beside a profile. -/
def actAlone : Files :=
  ⟨.ofList [("act.xsd", some ("<xsd:schema xmlns:xsd=\"http://www.w3.org/2001/XMLSchema\">" ++
      "<xsd:element name=\"act\"/></xsd:schema>")),
    ("acts.yaml", some "profile:\n  elements:\n    act:\n")]⟩

end CommandLine

end GrammarProfile
