import EchoLoad.Command.Words
import EchoLoad.Proofs.Arguments.Pending

/-!
# The program's own options

The words that the program is started with are its own options and then a command, which starts with
the first word that is no option of the program (`exists_own`). `Chooses` says which value the own options
give to a name, by the words alone and not by a reader.

> `ofWords_logLevel`: where words are accepted, the level of logging is the one that the own options
> choose, and the default one if they choose none.
-/

namespace EchoLoad.NodeOptions

open Arguments

/-- One of the program's own options, as it stands among the words, with its long name and its value. -/
inductive Own : List String → String → String → Prop
  /-- `--config FILE`, `--log-level LEVEL` -/
  | apart {name : String} (known : name = "config" ∨ name = "log-level") (value : String) :
    Own ["--" ++ name, value] name value
  /-- `--config=FILE`, `--log-level=LEVEL` -/
  | attached {name : String} (known : name = "config" ∨ name = "log-level") (value : String) :
    Own ["--" ++ name ++ "=" ++ value] name value
  /-- `-c FILE` -/
  | short (value : String) : Own ["-c", value] "config" value
  /-- `-cFILE`, if every letter of the file is a short name itself; any other such word is free -/
  | cluster {chars : List Char} (some_char : chars ≠ []) (known : ∀ c ∈ chars, c ∈ ['c', 'h', 'V']) :
    Own [String.ofList ('-' :: 'c' :: chars)] "config" (String.ofList chars)

/-- The own options among some words give a value to a name: it stands in one of them, and only own
options stand in front of it. -/
inductive Chooses (name : String) : List String → String → Prop
  | here {front : List String} {value : String} (rest : List String) (h : Own front name value) :
    Chooses name (front ++ rest) value
  | later {front rest : List String} {other value' value : String} (h : Own front other value')
      (hrest : Chooses name rest value) : Chooses name (front ++ rest) value

/-- The options once one of them took effect. -/
def put (o : NodeOptions) (name value : String) : NodeOptions :=
  if name = "config" then { o with file := some value } else { o with logLevel := value }

theorem Own.ne_nil {front : List String} {name value : String} (h : Own front name value) : front ≠ [] := by
  cases h <;> exact List.cons_ne_nil _ _

theorem Own.known {front : List String} {name value : String} (h : Own front name value) :
    name = "config" ∨ name = "log-level" := by
  cases h with
  | apart known => exact known
  | attached known => exact known
  | short => exact .inl rfl
  | cluster => exact .inl rfl

/-! ## What an own option does -/

variable {o x : NodeOptions} {seen front rest words : List String} {name value : String}

theorem long?_of_known (known : name = "config" ∨ name = "log-level") :
    IsName name ∧ ∃ option, grammar.long? name = some option ∧ option.takesValue = true := by
  rcases known with rfl | rfl
  · exact ⟨by decide, _, rfl, rfl⟩
  · exact ⟨by decide, _, rfl, rfl⟩

theorem carryOut_own {option : Named NodeOptions} {r : Reading NodeOptions}
    (known : name = "config" ∨ name = "log-level") (hoption : grammar.long? name = some option)
    (h : (Reading.idle o seen).carryOut option value = .ok r) :
    name ∉ seen ∧ r = .idle (o.put name value) (name :: seen) := by
  rcases known with rfl | rfl
  · cases hoption
    obtain ⟨hnew, path, hpath, rfl⟩ := Reading.carryOut_reading h
    refine ⟨hnew, ?_⟩
    unfold Value.path at hpath
    split at hpath
    · cases hpath
    · cases hpath
      rfl
  · cases hoption
    obtain ⟨hnew, level, hlevel, rfl⟩ := Reading.carryOut_reading h
    cases hlevel
    exact ⟨hnew, rfl⟩

/-- What is left to read after an own option whose value stands in a word of its own. -/
theorem run_own_awaiting {option : Named NodeOptions} (known : name = "config" ∨ name = "log-level")
    (hoption : grammar.long? name = some option)
    (h : Reading.run grammar words ⟨o, seen, .awaiting option, false, false⟩ = .ok x) :
    ∃ value rest, words = value :: rest ∧ name ∉ seen ∧
      Reading.run grammar rest (.idle (o.put name value) (name :: seen)) = .ok x := by
  obtain ⟨-, value, rest, rfl, hrun⟩ := Reading.run_awaiting rfl h
  obtain ⟨r₀, hsettle, hrun⟩ := (Reading.run_valued rfl).mp hrun
  obtain ⟨hnew, rfl⟩ := carryOut_own known hoption hsettle
  exact ⟨value, rest, rfl, hnew, hrun⟩

theorem step_apart {option : Named NodeOptions} (hname : IsName name)
    (hoption : grammar.long? name = some option) (htakes : option.takesValue = true) :
    (Reading.idle o seen).step grammar ("--" ++ name) = .ok ⟨o, seen, .awaiting option, false, false⟩ := by
  have hshape : Shape.of ("--" ++ name) = .long name none := Shape.of_written (w := ⟨name, none⟩) hname
  rw [Reading.step, Reading.idle, if_neg Bool.false_ne_true, hshape]
  simp only [Reading.readLong, hoption, htakes, Reading.await, Reading.settle]

theorem step_attached {option : Named NodeOptions} (hname : IsName name)
    (hoption : grammar.long? name = some option) (htakes : option.takesValue = true) (value : String) :
    (Reading.idle o seen).step grammar ("--" ++ name ++ "=" ++ value) =
      (Reading.idle o seen).carryOut option value :=
  Reading.step_written (w := ⟨name, some value⟩) hname hoption htakes rfl rfl

theorem short?_cases {c : Char} {option : Named NodeOptions} (h : grammar.short? c = some option) :
    c = 'c' ∧ grammar.long? "config" = some option ∨
      (c = 'h' ∨ c = 'V') ∧ ∃ refusal, option.effect = .halt refusal := by
  have hmem : option ∈ grammar.named := List.mem_of_find?_eq_some h
  have hfound := List.find?_some h
  have hc : option.short = some c := of_decide_eq_true hfound
  simp only [grammar, List.mem_cons, List.not_mem_nil, or_false] at hmem
  rcases hmem with rfl | rfl | rfl | rfl <;> cases hc
  · exact .inl ⟨rfl, rfl⟩
  · exact .inr ⟨.inl rfl, _, rfl⟩
  · exact .inr ⟨.inr rfl, _, rfl⟩

theorem short?_isSome_iff {c : Char} : (grammar.short? c).isSome = true ↔ c ∈ ['c', 'h', 'V'] := by
  constructor
  · intro h
    obtain ⟨option, hoption⟩ := Option.isSome_iff_exists.mp h
    rcases short?_cases hoption with ⟨rfl, -⟩ | ⟨rfl | rfl, -⟩ <;> decide
  · simp only [List.mem_cons, List.not_mem_nil, or_false]
    rintro (rfl | rfl | rfl) <;> rfl

/-- A word of short names that are all known, of which the first takes the rest as its value. -/
theorem step_cluster {option : Named NodeOptions} {chars : List Char}
    (hoption : grammar.long? "config" = some option) (known : ∀ c ∈ chars, c ∈ ['c', 'h', 'V']) :
    (Reading.idle o seen).step grammar (String.ofList ('-' :: 'c' :: chars)) =
      if chars = [] then .ok ⟨o, seen, .awaiting option, false, false⟩
      else (Reading.idle o seen).carryOut option (String.ofList chars) := by
  have hshort : grammar.short? 'c' = some option := by
    cases hoption
    rfl
  have htakes : option.takesValue = true := by
    cases hoption
    rfl
  have hshape : Shape.of (String.ofList ('-' :: 'c' :: chars)) = .cluster ('c' :: chars) := by
    simp [Shape.of]
  have hknown : ('c' :: chars).any (fun c => (grammar.short? c).isNone) = false := by
    rw [List.any_eq_false]
    intro c hc
    have hc : c ∈ ['c', 'h', 'V'] := by
      rcases List.mem_cons.mp hc with rfl | hc
      · decide
      · exact known c hc
    simp [Option.isSome_iff_ne_none.mp (short?_isSome_iff.mpr hc)]
  rw [Reading.step, Reading.idle, if_neg Bool.false_ne_true, hshape]
  simp only [hknown, Bool.and_false, Bool.false_eq_true, if_false]
  rw [Reading.readCluster, hshort]
  simp only [htakes, if_true]
  cases chars with
  | nil => rfl
  | cons c chars =>
    have hmark : c ≠ '=' := by
      rintro rfl
      exact absurd (known '=' List.mem_cons_self) (by decide)
    simp [hmark, Reading.react, Reading.settle]

/-- An own option takes effect before the words behind it are read. -/
theorem run_own (hown : Own front name value)
    (h : Reading.run grammar (front ++ rest) (.idle o seen) = .ok x) :
    name ∉ seen ∧ Reading.run grammar rest (.idle (o.put name value) (name :: seen)) = .ok x := by
  obtain ⟨hname, option, hoption, htakes⟩ := long?_of_known hown.known
  cases hown with
  | apart known =>
    obtain ⟨r, hstep, hrun⟩ := Reading.run_cons_eq_ok.mp h
    rw [step_apart hname hoption htakes] at hstep
    cases hstep
    obtain ⟨_, _, hwords, hnew, hrun⟩ := run_own_awaiting known hoption hrun
    cases hwords
    exact ⟨hnew, hrun⟩
  | attached known =>
    obtain ⟨r, hstep, hrun⟩ := Reading.run_cons_eq_ok.mp h
    rw [step_attached hname hoption htakes] at hstep
    obtain ⟨hnew, rfl⟩ := carryOut_own known hoption hstep
    exact ⟨hnew, hrun⟩
  | short =>
    obtain ⟨r, hstep, hrun⟩ := Reading.run_cons_eq_ok.mp h
    have hwaits : (Reading.idle o seen).step grammar "-c" = .ok ⟨o, seen, .awaiting option, false, false⟩ :=
      step_cluster hoption (List.forall_mem_nil _)
    cases hwaits.symm.trans hstep
    obtain ⟨_, _, hwords, hnew, hrun⟩ := run_own_awaiting (.inl rfl) hoption hrun
    cases hwords
    exact ⟨hnew, hrun⟩
  | cluster hchars known =>
    obtain ⟨r, hstep, hrun⟩ := Reading.run_cons_eq_ok.mp h
    rw [step_cluster hoption known, if_neg hchars] at hstep
    obtain ⟨hnew, rfl⟩ := carryOut_own (.inl rfl) hoption hstep
    exact ⟨hnew, hrun⟩

/-! ## Where the command starts -/

/-- The values of the program are its command, and all words from the first one on belong to it. -/
theorem positional_command : ∃ p, grammar.positional = some p ∧ p.many = true ∧ p.verbatim = true ∧
    ∀ words o, p.set words o = .ok { o with command := o.command ++ words } :=
  ⟨_, rfl, rfl, rfl, fun _ _ => rfl⟩

theorem push_command {trailing : Bool} (word : String) :
    Reading.push grammar ⟨o, seen, .nothing, false, trailing⟩ word =
      .ok ⟨o, seen, .values [word], true, true⟩ := by
  obtain ⟨p, hvalues, -, hverbatim, -⟩ := positional_command
  rw [Reading.push_first hvalues, hverbatim, Bool.or_true]

theorem run_command (front : List String) :
    Reading.run grammar words ⟨o, seen, .values front, true, true⟩ =
      .ok { o with command := o.command ++ (front ++ words) } := by
  obtain ⟨p, hvalues, hmany, hverbatim, hset⟩ := positional_command
  rw [Reading.run_values hvalues hmany hverbatim, hset]

/-- A free word starts the command, and every word behind it belongs to the command. -/
theorem run_free {word : String} (h : (Reading.idle o seen).step grammar word =
      .ok ⟨o, seen, .values [word], true, true⟩) :
    Reading.run grammar (word :: words) (.idle o seen) =
      .ok { o with command := o.command ++ (word :: words) } := by
  rw [Reading.run_cons h, run_command, List.singleton_append]

/-- Behind the separator every word belongs to the command. -/
theorem run_separator :
    Reading.run grammar words ⟨o, seen, .nothing, false, true⟩ =
      .ok { o with command := o.command ++ words } := by
  cases words with
  | nil =>
    rw [List.append_nil]
    rfl
  | cons word words =>
    have hstep : Reading.step grammar ⟨o, seen, .nothing, false, true⟩ word =
        .ok ⟨o, seen, .values [word], true, true⟩ := by
      rw [Reading.step, if_pos rfl, push_command]
    rw [Reading.run_cons hstep, run_command, List.singleton_append]

theorem long?_cases {option : Named NodeOptions} (h : grammar.long? name = some option) :
    (name = "config" ∨ name = "log-level") ∨ ∃ refusal, option.effect = .halt refusal := by
  have hname := Grammar.long_of_long? h
  have hmem : option ∈ grammar.named := List.mem_of_find?_eq_some h
  simp only [grammar, List.mem_cons, List.not_mem_nil, or_false] at hmem
  rcases hmem with rfl | rfl | rfl | rfl
  · exact .inl (.inl hname.symm)
  · exact .inl (.inr hname.symm)
  · exact .inr ⟨_, rfl⟩
  · exact .inr ⟨_, rfl⟩

theorem takesValue_halt {option : Named NodeOptions} {refusal : Refusal}
    (h : option.effect = .halt refusal) : option.takesValue = false := by
  rw [Named.takesValue, h]

/-- An option that shows something ends the reading. -/
theorem react_halt {option : Named NodeOptions} {r : Reading NodeOptions} {refusal : Refusal} {text : String}
    (h : option.effect = .halt refusal) : Reading.react grammar (.idle o seen) option text ≠ .ok r := by
  intro hreact
  rw [Reading.react, Reading.settle_idle rfl] at hreact
  simp only [Reading.carryOut, h] at hreact
  cases hreact

/-- The words from an option with a long name on, if they are accepted. -/
theorem exists_own_long {word : String} {option : Named NodeOptions} {value : Option String}
    {r : Reading NodeOptions} (hshape : Shape.of word = .long name value)
    (hoption : grammar.long? name = some option)
    (hstep : Reading.readLong grammar (.idle o seen) word name value = .ok r)
    (hrun : Reading.run grammar words r = .ok x) :
    ∃ front name value rest, word :: words = front ++ rest ∧ Own front name value := by
  have hword := Shape.eq_word hshape
  unfold Reading.readLong at hstep
  rw [hoption] at hstep
  simp only at hstep
  rcases long?_cases hoption with known | ⟨refusal, heffect⟩
  · -- without `=` the value is the word behind, which is there because the words are accepted
    cases value with
    | some text => exact ⟨_, name, text, words, by rw [hword]; rfl, .attached known text⟩
    | none =>
      obtain ⟨-, option', hoption', htakes⟩ := long?_of_known known
      cases hoption.symm.trans hoption'
      rw [htakes] at hstep
      cases hstep
      obtain ⟨-, text, rest, rfl, -⟩ := Reading.run_awaiting rfl hrun
      exact ⟨_, name, text, rest, by rw [hword]; rfl, .apart known text⟩
  · rw [takesValue_halt heffect] at hstep
    cases value with
    | some text => cases hstep
    | none => exact absurd hstep (react_halt heffect)

/-- The words from an option with a short name on, if they are accepted. -/
theorem exists_own_cluster {word : String} {chars : List Char} {r : Reading NodeOptions}
    (hshape : Shape.of word = .cluster chars) (known : ∀ c ∈ chars, c ∈ ['c', 'h', 'V'])
    (hstep : Reading.readCluster grammar (.idle o seen) chars = .ok r)
    (hrun : Reading.run grammar words r = .ok x) :
    ∃ front name value rest, word :: words = front ++ rest ∧ Own front name value := by
  obtain ⟨hchars, hword⟩ := Shape.eq_cluster hshape
  obtain ⟨c, chars, rfl⟩ := List.exists_cons_of_ne_nil hchars
  obtain ⟨hc, hrest⟩ := List.forall_mem_cons.mp known
  obtain ⟨option, hoption⟩ := Option.isSome_iff_exists.mp (short?_isSome_iff.mpr hc)
  rcases short?_cases hoption with ⟨rfl, hlong⟩ | ⟨-, refusal, heffect⟩
  · cases chars with
    | nil =>
      cases hlong
      cases hstep
      obtain ⟨-, text, rest, rfl, -⟩ := Reading.run_awaiting rfl hrun
      exact ⟨_, _, text, rest, by rw [hword]; rfl, .short text⟩
    | cons c chars => exact ⟨_, _, _, words, by rw [hword]; rfl, .cluster (List.cons_ne_nil c chars) hrest⟩
  · unfold Reading.readCluster at hstep
    rw [hoption] at hstep
    simp only at hstep
    rw [takesValue_halt heffect, if_neg Bool.false_ne_true] at hstep
    split at hstep
    · cases hstep
    next hreact => exact absurd hreact (react_halt heffect)

/-- Words that are accepted are an own option with words behind it, or the command. -/
theorem exists_own {word : String} (h : Reading.run grammar (word :: words) (.idle o seen) = .ok x) :
    (∃ front name value rest, word :: words = front ++ rest ∧ Own front name value) ∨
      x.logLevel = o.logLevel := by
  have hcommand (hpush : (Reading.idle o seen).step grammar word = Reading.push grammar (.idle o seen) word) :
      x.logLevel = o.logLevel := by
    rw [Reading.idle, push_command] at hpush
    rw [run_free hpush] at h
    cases h
    rfl
  obtain ⟨r, hstep, hrun⟩ := Reading.run_cons_eq_ok.mp h
  rw [Reading.step, Reading.idle, if_neg Bool.false_ne_true] at hstep hcommand
  cases hshape : Shape.of word with
  | separator =>
    rw [hshape] at hstep
    cases hstep
    rw [run_separator] at hrun
    cases hrun
    exact .inr rfl
  | plain => exact .inr (hcommand (by rw [hshape]; rfl))
  | long name value =>
    rw [hshape] at hstep hcommand
    cases hoption : grammar.long? name with
    | none => exact .inr (hcommand (by simp only [Reading.readLong, hoption]; rfl))
    | some option => exact .inl (exists_own_long hshape hoption hstep hrun)
  | cluster chars =>
    rw [hshape] at hstep hcommand
    cases hunknown : chars.any fun c => (grammar.short? c).isNone with
    | true => exact .inr (hcommand (by simp only [hunknown]; rfl))
    | false =>
      have known : ∀ c ∈ chars, c ∈ ['c', 'h', 'V'] := by
        intro c hc
        rw [← short?_isSome_iff]
        have hsome := List.any_eq_false.mp hunknown c hc
        rwa [Bool.not_eq_true, Option.isNone_eq_false_iff] at hsome
      simp only [hunknown, Bool.and_false, Bool.false_eq_true, if_false] at hstep
      exact .inl (exists_own_cluster hshape known hstep hrun)

/-! ## The level of logging -/

/-- The level is that of the record, or an own option chooses it that is new. -/
theorem run_logLevel (h : Reading.run grammar words (.idle o seen) = .ok x) :
    x.logLevel = o.logLevel ∨ "log-level" ∉ seen ∧ Chooses "log-level" words x.logLevel := by
  -- an own option is one word or two, so the induction is on how many words are left
  induction hlength : words.length using Nat.strong_induction_on generalizing words o seen with
  | _ n ih =>
  subst hlength
  cases words with
  | nil =>
    cases h
    exact .inl rfl
  | cons word words =>
    rcases exists_own h with ⟨front, name, value, rest, hwords, hown⟩ | hsame
    · have hshorter : rest.length < (word :: words).length := by
        have hfront := List.length_pos_iff.mpr hown.ne_nil
        rw [hwords, List.length_append]
        omega
      rw [hwords] at h ⊢
      obtain ⟨hnew, hrun⟩ := run_own hown h
      have hrest := ih rest.length hshorter hrun rfl
      rcases hown.known with rfl | rfl
      · rcases hrest with hlevel | ⟨hfresh, hchooses⟩
        · exact .inl hlevel
        · exact .inr ⟨fun hmem => hfresh (List.mem_cons_of_mem _ hmem), .later hown hchooses⟩
      · -- the name is seen now, so nothing behind can choose again
        rcases hrest with hlevel | ⟨hfresh, -⟩
        · have hvalue : x.logLevel = value := hlevel
          exact .inr ⟨hnew, hvalue ▸ .here rest hown⟩
        · exact absurd List.mem_cons_self hfresh
    · exact .inl hsame

/-- What the own options choose is what is read. -/
theorem Chooses.logLevel_eq {level : String} (hchooses : Chooses "log-level" words level) :
    ∀ {o : NodeOptions} {seen : List String}, Reading.run grammar words (.idle o seen) = .ok x →
      x.logLevel = level := by
  induction hchooses with
  | here rest hown =>
    intro o seen h
    obtain ⟨-, hrun⟩ := run_own hown h
    rcases run_logLevel hrun with hlevel | ⟨hfresh, -⟩
    · exact hlevel
    · exact absurd List.mem_cons_self hfresh
  | later hown _ ih =>
    intro o seen h
    obtain ⟨-, hrun⟩ := run_own hown h
    exact ih hrun

theorem ofWords_logLevel (h : ofWords words = .ok x) :
    (∀ level, Chooses "log-level" words level → x.logLevel = level) ∧
      ((∀ level, ¬ Chooses "log-level" words level) → x.logLevel = defaultLogLevel) := by
  have hrun : Reading.run grammar words (.idle {} []) = .ok x := h
  refine ⟨fun level hchooses => hchooses.logLevel_eq hrun, fun hnone => ?_⟩
  rcases run_logLevel hrun with hlevel | ⟨-, hchooses⟩
  · exact hlevel
  · exact absurd hchooses (hnone x.logLevel)

end EchoLoad.NodeOptions
