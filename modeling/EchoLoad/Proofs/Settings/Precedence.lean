import EchoLoad.Proofs.Settings.Options
import EchoLoad.Proofs.Toml.Names
import EchoLoad.Settings.File
import Mathlib

/-!
# Which level of logging is taken

The options of the program and a settings file may both say how much is logged. `FileLevel` is what the
text of a file says about it: the value of its section `logging`, or the default level.

> `NodeOptions.merge_logLevel`: a level that the own options choose is taken, unless it is the default
> one; then, as without any, the level of the file is.

Whether a level was chosen is not kept, only which one, so the default level cannot be chosen against a
file that sets another one.
-/

namespace EchoLoad

open Toml

/-! ## Sections -/

namespace Field

variable {α β : Type} {fields : List (Field α)} {name : String} {part : α → β} {entries : Entries}
  {x after : α}

/-- Only the field of a name changes a part of the section. -/
def Only (fields : List (Field α)) (name : String) (part : α → β) : Prop :=
  ∀ f ∈ fields, f.name ≠ name → ∀ {item x after}, f.set item x = some after → part after = part x

theorem setNamed_of_not_mem (honly : Only fields name part) (hname : name ∉ entries.map Prod.fst)
    (h : setNamed fields entries x = some after) : part after = part x := by
  induction entries generalizing x with
  | nil =>
    cases h
    rfl
  | cons entry entries ih =>
    obtain ⟨other, item⟩ := entry
    rw [List.map_cons, List.mem_cons, not_or] at hname
    obtain ⟨hother, hrest⟩ := hname
    rw [setNamed] at h
    split at h
    next => exact ih hrest h
    next f hfound =>
      split at h
      next => cases h
      next y hset =>
        have hfield := List.find?_some hfound
        have hf : f.name ≠ name := fun hf => hother (hf.symm.trans (of_decide_eq_true hfield))
        rw [ih hrest h, honly f (List.mem_of_find?_eq_some hfound) hf hset]

/-- The item of a name that stands once is what its part is set to. -/
theorem setNamed_of_mem {f : Field α} {item : Item} (honly : Only fields name part)
    (hfield : fields.find? (fun f => f.name = name) = some f) (hnames : (entries.map Prod.fst).Nodup)
    (hmem : (name, item) ∈ entries) (h : setNamed fields entries x = some after) :
    ∃ before set, f.set item before = some set ∧ part before = part x ∧ part after = part set := by
  induction entries generalizing x with
  | nil => cases hmem
  | cons entry entries ih =>
    obtain ⟨other, item'⟩ := entry
    obtain ⟨hother, hnames⟩ := List.nodup_cons.mp hnames
    rw [setNamed] at h
    rcases List.mem_cons.mp hmem with heq | hmem
    · -- the name comes here, and by `hother` not again
      cases heq
      rw [hfield] at h
      simp only at h
      split at h
      next => cases h
      next y hset => exact ⟨x, y, hset, rfl, setNamed_of_not_mem honly hother h⟩
    · have hne : other ≠ name := fun hname => hother (List.mem_map.mpr ⟨_, hmem, hname.symm⟩)
      split at h
      next => exact ih hnames hmem h
      next g hfound =>
        split at h
        next => cases h
        next y hset =>
          have hg := List.find?_some hfound
          have hg : g.name ≠ name := fun hg' => hne ((of_decide_eq_true hg).symm.trans hg')
          obtain ⟨before, set, hbefore, hpart, hafter⟩ := ih hnames hmem h
          refine ⟨before, set, hbefore, ?_, hafter⟩
          rw [hpart, honly g (List.mem_of_find?_eq_some hfound) hg hset]

end Field

/-! ## What a file says -/

/-- A section sets the level of logging: under its name, or as the first value of an array. -/
inductive SetsLevel : Item → String → Prop
  | named {form : Toml.Form} {entries : Entries} {level : String}
      (h : ("level", Item.string level) ∈ entries) : SetsLevel (.table form entries) level
  | first (level : String) (rest : List Item) : SetsLevel (.array (.string level :: rest)) level

/-- The level that the text of a settings file stands for: the one that it sets, or the default one. -/
inductive FileLevel (text : String) : String → Prop
  | set {entries : Entries} {item : Item} {level : String} (document : Toml.document? text = some entries)
      (present : ("logging", item) ∈ entries) (sets : SetsLevel item level) : FileLevel text level
  | unset {entries : Entries} (document : Toml.document? text = some entries)
      (silent : ∀ item, ("logging", item) ∈ entries → ∀ level, ¬ SetsLevel item level) :
    FileLevel text defaultLogLevel

theorem SetsLevel.unique {item : Item} {level other : String} (hdistinct : item.Distinct)
    (h : SetsLevel item level) (hother : SetsLevel item other) : level = other := by
  cases h with
  | named h =>
    cases hother with
    | named hother => exact Item.string.inj ((Entries.distinct_of_table hdistinct).unique h hother)
  | first =>
    cases hother
    rfl

/-- A text stands for one level only, since no name stands twice in it. -/
theorem FileLevel.unique {text level other : String} (h : FileLevel text level)
    (hother : FileLevel text other) : level = other := by
  cases h with
  | set hdocument hpresent hsets =>
    have hdistinct := Toml.distinct_of_document? hdocument
    cases hother with
    | set hdocument' hpresent' hsets' =>
      cases hdocument.symm.trans hdocument'
      cases hdistinct.unique hpresent hpresent'
      exact hsets.unique (hdistinct.within _ hpresent) hsets'
    | unset hdocument' hsilent =>
      cases hdocument.symm.trans hdocument'
      exact absurd hsets (hsilent _ hpresent level)
  | unset hdocument hsilent =>
    cases hother with
    | set hdocument' hpresent' hsets' =>
      cases hdocument.symm.trans hdocument'
      exact absurd hsets' (hsilent _ hpresent' other)
    | unset => rfl

namespace SettingsFile

theorem text?_eq_some_iff {item : Item} {text : String} : text? item = some text ↔ item = .string text := by
  cases item <;> simp [text?]

/-- The only field of the section takes a string, and becomes it. -/
theorem set_level {f : Field String} (hf : f ∈ loggingFields) {item : Item} {before level : String}
    (h : f.set item before = some level) : f.name = "level" ∧ item = .string level := by
  cases List.mem_singleton.mp hf
  obtain ⟨text, htext, rfl⟩ := Option.map_eq_some_iff.mp h
  exact ⟨rfl, text?_eq_some_iff.mp htext⟩

theorem setInOrder_logging {items : List Item} {before level : String}
    (h : Field.setInOrder loggingFields items before = some level) :
    items = [] ∧ level = before ∨ ∃ rest, items = .string level :: rest := by
  cases items with
  | nil =>
    cases h
    exact .inl ⟨rfl, rfl⟩
  | cons item rest =>
    unfold loggingFields Field.setInOrder at h
    split at h
    next => cases h
    next text hset =>
      cases h
      obtain ⟨-, rfl⟩ := set_level List.mem_cons_self hset
      exact .inr ⟨rest, rfl⟩

theorem setNamed_logging {entries : Entries} {before level : String} (hdistinct : entries.Distinct)
    (h : Field.setNamed loggingFields entries before = some level) :
    ("level", Item.string level) ∈ entries ∨ level = before ∧ "level" ∉ entries.map Prod.fst := by
  have honly : Field.Only loggingFields "level" (id : String → String) := by
    intro f hf hname
    cases List.mem_singleton.mp hf
    exact absurd rfl hname
  by_cases hname : "level" ∈ entries.map Prod.fst
  · obtain ⟨⟨_, item⟩, hmem, rfl⟩ := List.mem_map.mp hname
    obtain ⟨_, text, hset, -, rfl⟩ := Field.setNamed_of_mem honly rfl hdistinct.names hmem h
    obtain ⟨-, rfl⟩ := set_level List.mem_cons_self hset
    exact .inl hmem
  · exact .inr ⟨Field.setNamed_of_not_mem honly hname h, hname⟩

/-- The section `logging` gives the level that it sets, or leaves the one before. -/
theorem apply_logging {item : Item} {before level : String} (hdistinct : item.Distinct)
    (h : Field.apply loggingFields item before = some level) :
    SetsLevel item level ∨ level = before ∧ ∀ other, ¬ SetsLevel item other := by
  cases item with
  | table form entries =>
    rcases setNamed_logging (Entries.distinct_of_table hdistinct) h with hmem | ⟨hlevel, hname⟩
    · exact .inl (.named hmem)
    · refine .inr ⟨hlevel, fun other hsets => ?_⟩
      cases hsets with
      | named hmem => exact hname (List.mem_map.mpr ⟨_, hmem, rfl⟩)
  | array items =>
    rcases setInOrder_logging h with ⟨rfl, hlevel⟩ | ⟨rest, rfl⟩
    · exact .inr ⟨hlevel, fun other hsets => by cases hsets⟩
    · exact .inl (.first level rest)
  | tables items =>
    rcases setInOrder_logging h with ⟨-, hlevel⟩ | ⟨rest, hitems⟩
    · exact .inr ⟨hlevel, fun other hsets => by cases hsets⟩
    · -- tables are no strings, so the field has no value to take
      have hstring : Item.string level ∈ items.map (Item.table .header) := hitems ▸ List.mem_cons_self
      obtain ⟨_, -, heq⟩ := List.mem_map.mp hstring
      cases heq
  | moment text =>
    cases h
    exact .inr ⟨rfl, fun other hsets => by cases hsets⟩
  | string text => cases h
  | integer n => cases h
  | real x => cases h
  | boolean b => cases h

theorem only_logging : Field.Only sections "logging" FileSettings.logLevel := by
  intro f hf hname item x after h
  simp only [sections, List.mem_cons, List.not_mem_nil, or_false] at hf
  rcases hf with rfl | rfl | rfl | rfl
  · obtain ⟨c, -, rfl⟩ := Option.map_eq_some_iff.mp h
    rfl
  · obtain ⟨c, -, rfl⟩ := Option.map_eq_some_iff.mp h
    rfl
  · obtain ⟨c, -, rfl⟩ := Option.map_eq_some_iff.mp h
    rfl
  · exact absurd rfl hname

end SettingsFile

theorem FileSettings.fileLevel {text : String} {file : FileSettings} (h : ofText? text = some file) :
    FileLevel text file.logLevel := by
  unfold ofText? at h
  split at h
  next => cases h
  next entries hdocument =>
    have hdistinct := Toml.distinct_of_document? hdocument
    by_cases hname : "logging" ∈ entries.map Prod.fst
    · obtain ⟨⟨_, item⟩, hmem, rfl⟩ := List.mem_map.mp hname
      obtain ⟨before, after, hset, hbefore, hafter⟩ :=
        Field.setNamed_of_mem SettingsFile.only_logging rfl hdistinct.names hmem h
      obtain ⟨level, hlevel, rfl⟩ := Option.map_eq_some_iff.mp hset
      rw [hafter]
      rcases SettingsFile.apply_logging (hdistinct.within _ hmem) hlevel with hsets | ⟨rfl, hsilent⟩
      · exact .set hdocument hmem hsets
      · rw [hbefore]
        refine .unset hdocument fun other hother => ?_
        cases hdistinct.unique hmem hother
        exact hsilent
    · rw [Field.setNamed_of_not_mem SettingsFile.only_logging hname h]
      exact .unset hdocument fun item hmem => absurd (List.mem_map.mpr ⟨_, hmem, rfl⟩) hname

/-! ## What is taken -/

namespace NodeOptions

/-- **A level that the own options choose is taken, but the default one gives way to the file.** Without a
choice the level is that of the file. -/
theorem merge_logLevel {words : List String} {o : NodeOptions} {text : String} {file : FileSettings}
    (hwords : ofWords words = .ok o) (htext : FileSettings.ofText? text = some file) :
    ∃ inFile, (∀ level, FileLevel text level ↔ level = inFile) ∧
      (∀ level, Chooses "log-level" words level →
        (o.merge file).logLevel = if level = defaultLogLevel then inFile else level) ∧
      ((∀ level, ¬ Chooses "log-level" words level) → (o.merge file).logLevel = inFile) := by
  have hfile := FileSettings.fileLevel htext
  obtain ⟨hchosen, hunchosen⟩ := ofWords_logLevel hwords
  refine ⟨file.logLevel, fun level => ⟨fun h => h.unique hfile, fun h => h ▸ hfile⟩, ?_, ?_⟩
  · intro level hchooses
    rw [merge, hchosen level hchooses, ite_not]
  · intro hnone
    simp only [merge, hunchosen hnone, ne_eq, not_true_eq_false, if_false]

theorem ofText?_warn :
    FileSettings.ofText? "[logging]\nlevel = \"warn\"" = some { logLevel := "warn" } := by
  have hdocument : Toml.document? "[logging]\nlevel = \"warn\"" =
      some [("logging", .table .header [("level", .string "warn")])] := by cbv
  rw [FileSettings.ofText?, hdocument]
  rfl

/-- A level chosen behind another option is taken, whatever the command says. -/
theorem merge_logLevel_debug :
    ∃ o file, ofWords ["-c", "file", "--log-level=debug", "server", "--log-level", "error"] = .ok o ∧
      FileSettings.ofText? "[logging]\nlevel = \"warn\"" = some file ∧
      (o.merge file).logLevel = "debug" := by
  have hwords : ofWords ["-c", "file", "--log-level=debug", "server", "--log-level", "error"] =
      .ok ⟨some "file", "debug", ["server", "--log-level", "error"]⟩ := rfl
  obtain ⟨inFile, -, hchosen, -⟩ := merge_logLevel hwords ofText?_warn
  have hchooses : Chooses "log-level"
      ["-c", "file", "--log-level=debug", "server", "--log-level", "error"] "debug" :=
    .later (.short "file") (.here ["server", "--log-level", "error"] (.attached (.inr rfl) "debug"))
  exact ⟨_, _, hwords, ofText?_warn, (hchosen "debug" hchooses).trans (if_neg (by decide))⟩

/-- The default level, chosen against a file that sets another one, is not taken. -/
theorem merge_default_logLevel :
    ∃ o file, ofWords ["--log-level", "info"] = .ok o ∧ Chooses "log-level" ["--log-level", "info"] "info" ∧
      FileSettings.ofText? "[logging]\nlevel = \"warn\"" = some file ∧
      (o.merge file).logLevel = "warn" ∧ (o.merge file).logLevel ≠ "info" :=
  ⟨{}, { logLevel := "warn" }, rfl, .here [] (.apart (.inr rfl) "info"), ofText?_warn, rfl, by decide⟩

end NodeOptions

end EchoLoad
