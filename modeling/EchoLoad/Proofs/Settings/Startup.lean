import EchoLoad.Proofs.Settings.Options

/-!
# The command among the words of a start

The program's own options and its command share one list of words. `OwnOptions` are own options one after
the other, with the names and the values that they give; what stands behind them is the command.

> `run_own_of_free`: an own option that is new takes effect, and the words behind it are read as if they
> came first.
> `ofWords_command`: own options that each stand once are accepted, whatever words follow, if the first of
> these is free. These words are the command, as they are, and the options are those in front of it.

Behind the first word of the command no word is looked at again, so that a later one may look like an option
of the program, or like the separator.
-/

namespace EchoLoad.NodeOptions

open Arguments

/-- Own options one after the other, with the names and the values that they give. No value is empty, and
none that is a word of its own has a hyphen in front. -/
inductive OwnOptions : List String → List (String × String) → Prop
  | nil : OwnOptions [] []
  | cons {front rest : List String} {name value : String} {chosen : List (String × String)}
      (own : Own front name value) (some_text : value ≠ "")
      (free : value ∈ front → value.toList.head? ≠ some '-') (h : OwnOptions rest chosen) :
      OwnOptions (front ++ rest) ((name, value) :: chosen)

variable {o x : NodeOptions} {seen front rest command : List String} {name value : String}
  {chosen : List (String × String)}

theorem OwnOptions.known (h : OwnOptions front chosen) :
    ∀ c ∈ chosen, c.1 = "config" ∨ c.1 = "log-level" := by
  induction h with
  | nil => exact List.forall_mem_nil _
  | cons own _ _ _ ih => exact List.forall_mem_cons.mpr ⟨own.known, ih⟩

/-! ## Options take effect -/

/-- An own option that is new takes effect with any value that is not empty. -/
theorem carryOut_own_of_ne {option : Named NodeOptions} (known : name = "config" ∨ name = "log-level")
    (hoption : grammar.long? name = some option) (htext : value ≠ "") (hnew : name ∉ seen) :
    (Reading.idle o seen).carryOut option value = .ok (.idle (o.put name value) (name :: seen)) := by
  rcases known with rfl | rfl
  · cases hoption
    have hpath : Value.path value = .ok value := by
      rw [Value.path, if_neg (by simpa using htext)]
    exact Reading.carryOut_yields (r := .idle o seen) (.reading hpath _ _ _ _) hnew
  · cases hoption
    exact Reading.carryOut_yields (r := .idle o seen) (.reading rfl _ _ _ _) hnew

/-- The value behind an own option is taken, and the option could take effect at once. -/
theorem run_awaiting_of_free {option : Named NodeOptions} (known : name = "config" ∨ name = "log-level")
    (hoption : grammar.long? name = some option) (htext : value ≠ "")
    (hfree : value.toList.head? ≠ some '-') (hnew : name ∉ seen)
    (hrun : Reading.run grammar rest (.idle (o.put name value) (name :: seen)) = .ok x) :
    Reading.run grammar (value :: rest) ⟨o, seen, .awaiting option, false, false⟩ = .ok x := by
  have hstep : Reading.step grammar ⟨o, seen, .awaiting option, false, false⟩ value =
      .ok ⟨o, seen, .valued option value, false, false⟩ := by
    rw [Reading.step, if_neg Bool.false_ne_true, Shape.of_plain hfree]
    rfl
  rw [Reading.run_cons hstep, Reading.run_valued rfl]
  exact ⟨_, carryOut_own_of_ne known hoption htext hnew, hrun⟩

/-- An own option that is new takes effect, and the words behind it are read as if they came first. -/
theorem run_own_of_free (hown : Own front name value) (htext : value ≠ "")
    (hfree : value ∈ front → value.toList.head? ≠ some '-') (hnew : name ∉ seen)
    (hrun : Reading.run grammar rest (.idle (o.put name value) (name :: seen)) = .ok x) :
    Reading.run grammar (front ++ rest) (.idle o seen) = .ok x := by
  obtain ⟨hname, option, hoption, htakes⟩ := long?_of_known hown.known
  have hcarry := carryOut_own_of_ne (o := o) hown.known hoption htext hnew
  cases hown with
  | apart known =>
    rw [List.cons_append, Reading.run_cons (step_apart hname hoption htakes)]
    exact run_awaiting_of_free known hoption htext (hfree (by simp)) hnew hrun
  | attached known =>
    rw [List.cons_append, Reading.run_cons ((step_attached hname hoption htakes value).trans hcarry)]
    exact hrun
  | short =>
    have hwaits : (Reading.idle o seen).step grammar "-c" = .ok ⟨o, seen, .awaiting option, false, false⟩ :=
      step_cluster hoption (List.forall_mem_nil _)
    rw [List.cons_append, Reading.run_cons hwaits]
    exact run_awaiting_of_free (.inl rfl) hoption htext (hfree (by simp)) hnew hrun
  | @cluster chars hchars known =>
    have hstep : (Reading.idle o seen).step grammar (String.ofList ('-' :: 'c' :: chars)) =
        .ok (.idle (o.put "config" (String.ofList chars)) ("config" :: seen)) := by
      rw [step_cluster hoption known, if_neg hchars, hcarry]
    rw [List.cons_append, Reading.run_cons hstep]
    exact hrun

/-! ## The command -/

/-- Words of which the first is free are the command. -/
theorem run_words (hfree : ∀ word ∈ command.head?, word.toList.head? ≠ some '-') :
    Reading.run grammar command (.idle o seen) = .ok { o with command := o.command ++ command } := by
  cases command with
  | nil =>
    rw [List.append_nil]
    rfl
  | cons word words =>
    have hplain := Shape.of_plain (hfree word rfl)
    refine run_free ?_
    rw [Reading.step, Reading.idle, if_neg Bool.false_ne_true, hplain]
    exact push_command word

/-- The options once some of them took effect, one after the other. -/
def putAll (o : NodeOptions) (chosen : List (String × String)) : NodeOptions :=
  chosen.foldl (fun o c => o.put c.1 c.2) o

/-- Own options in front of a command take effect, and what follows them is the command. -/
theorem run_ownOptions (hown : OwnOptions front chosen)
    (hfree : ∀ word ∈ command.head?, word.toList.head? ≠ some '-') :
    ∀ {o : NodeOptions} {seen : List String}, (chosen.map Prod.fst).Nodup →
      (∀ c ∈ chosen, c.1 ∉ seen) →
      Reading.run grammar (front ++ command) (.idle o seen) =
        .ok { o.putAll chosen with command := (o.putAll chosen).command ++ command } := by
  -- over the options in front; that no name comes twice keeps each of them new when its turn comes
  induction hown with
  | nil =>
    intro o seen _ _
    exact run_words hfree
  | @cons front rest name value chosen own some_text free h ih =>
    intro o seen honce hnew
    obtain ⟨hfirst, honce⟩ := List.nodup_cons.mp honce
    obtain ⟨hname, hnew⟩ := List.forall_mem_cons.mp hnew
    rw [List.append_assoc]
    exact run_own_of_free own some_text free hname (ih honce (Reading.forall_new_cons hfirst hnew))

/-- Where each name stands once, what the options hold is what its name gives. -/
theorem putAll_eq (hknown : ∀ c ∈ chosen, c.1 = "config" ∨ c.1 = "log-level")
    (honce : (chosen.map Prod.fst).Nodup) (o : NodeOptions) :
    o.putAll chosen =
      ⟨(chosen.lookup "config").or o.file, (chosen.lookup "log-level").getD o.logLevel, o.command⟩ := by
  induction chosen generalizing o with
  | nil => rfl
  | cons c chosen ih =>
    obtain ⟨name, value⟩ := c
    obtain ⟨hfirst, hrest⟩ := List.nodup_cons.mp honce
    obtain ⟨hname, hothers⟩ := List.forall_mem_cons.mp hknown
    -- no option behind gives this name again, so its value stays
    have hnone : chosen.lookup name = none := by
      rw [List.lookup_eq_none_iff]
      intro c hc
      rw [bne_iff_ne]
      exact fun heq => hfirst (List.mem_map.mpr ⟨c, hc, heq.symm⟩)
    have hput : o.putAll ((name, value) :: chosen) = (o.put name value).putAll chosen := rfl
    rw [hput, ih hothers hrest]
    rcases hname with rfl | rfl
    · rw [hnone]
      rfl
    · rw [hnone]
      rfl

/-- **Own options never take a word of the command.** Each standing once, they are accepted with whatever
follows them, if the first word of it is free: the command is these words as they are, and the file and the
level are those that the options in front give. -/
theorem ofWords_command (hown : OwnOptions front chosen) (honce : (chosen.map Prod.fst).Nodup)
    (hfree : ∀ word ∈ command.head?, word.toList.head? ≠ some '-') :
    ∃ o, ofWords (front ++ command) = .ok o ∧
      o.command = command ∧ (∀ file, (o.merge file).command = command) ∧
      o.file = chosen.lookup "config" ∧
      o.logLevel = (chosen.lookup "log-level").getD defaultLogLevel := by
  have hrun : Reading.run grammar (front ++ command) (.idle {} []) =
      .ok { putAll {} chosen with command := (putAll {} chosen).command ++ command } :=
    run_ownOptions hown hfree honce fun _ _ => List.not_mem_nil
  rw [putAll_eq hown.known honce {}, Option.or_none, List.nil_append] at hrun
  exact ⟨_, hrun, rfl, fun _ => rfl, rfl, rfl⟩

/-- The words of a message that look like options of the program are words of the message. -/
theorem ofWords_command_log :
    OwnOptions ["-c", "node.toml", "--log-level=--help"]
        [("config", "node.toml"), ("log-level", "--help")] ∧
      ofWords ["-c", "node.toml", "--log-level=--help",
          "log", "--config", "other.toml", "--log-level=debug", "--help", "--version", "--"] =
        .ok ⟨some "node.toml", "--help",
          ["log", "--config", "other.toml", "--log-level=debug", "--help", "--version", "--"]⟩ := by
  have hown : OwnOptions ["-c", "node.toml", "--log-level=--help"]
      [("config", "node.toml"), ("log-level", "--help")] :=
    .cons (.short "node.toml") (by decide) (fun _ => by decide)
      (.cons (.attached (.inr rfl) "--help") (by decide) (by decide) .nil)
  have hfree : ∀ word ∈
      ["log", "--config", "other.toml", "--log-level=debug", "--help", "--version", "--"].head?,
      word.toList.head? ≠ some '-' := by decide
  obtain ⟨o, hread, hcommand, -, hfile, hlevel⟩ := ofWords_command hown (by decide) hfree
  obtain ⟨file, level, words⟩ := o
  cases hcommand
  cases hfile
  cases hlevel
  exact ⟨hown, hread⟩

end EchoLoad.NodeOptions
