import EchoLoad.Command.Words
import EchoLoad.Proofs.Arguments.Reading
import EchoLoad.Proofs.Decimal.Literals
import EchoLoad.Proofs.Text.Fields

/-!
# Commands that were written are read back

A command is written as its name and what follows it: its options in any order, each in one word, or its
values (`Command.WrittenAs`).

> `Command.ofWords_writtenAs`: whatever way a command is written, it is what its words are read as.

For the two commands with options, `only names` is the command as it stands when the options with these
names were read and the others were not; each option takes it one name further (`writes_only`), and with
all names it is the command itself (`only_eq`).
-/

namespace EchoLoad

open Arguments

/-! ## Texts of values -/

namespace Arguments

theorem Value.count_natText {n : Nat} (h : n ≤ Decimal.maxWord) : count (Decimal.natText n) = .ok n := by
  rw [count, number, Decimal.unsigned?_natText h]

theorem Value.upTo_natText {high n : Nat} (h : n ≤ high) : upTo high (Decimal.natText n) = .ok n := by
  have hsigned : Decimal.signed? 0 high (Decimal.natText n) = some (n : Int) :=
    Decimal.signed?_natText (Int.natCast_nonneg n) (by omega)
  rw [upTo, number, hsigned]
  rfl

/-- The options of a table that are there. An entry is the name of an option and, if it is there, the text
of its value or nothing. -/
def Written.present (table : List (String × Option (Option String))) : List Written :=
  table.filterMap fun entry => entry.2.map (.mk entry.1)

namespace Written

variable {table : List (String × Option (Option String))}

theorem mem_present {w : Written} : w ∈ present table ↔ (w.name, some w.value) ∈ table := by
  obtain ⟨name, value⟩ := w
  simp only [present, List.mem_filterMap, Option.map_eq_some_iff, mk.injEq, Prod.exists]
  constructor
  · rintro ⟨_, _, hmem, _, rfl, rfl, rfl⟩
    exact hmem
  · intro hmem
    exact ⟨name, some value, hmem, value, rfl, rfl, rfl⟩

/-- No option is there twice if the table has none twice. -/
theorem nodup_present (h : (table.map Prod.fst).Nodup) : ((present table).map name).Nodup := by
  refine h.sublist ?_
  induction table with
  | nil => exact .slnil
  | cons entry table ih =>
    obtain ⟨name, text⟩ := entry
    have ih := ih (List.nodup_cons.mp h).2
    cases text with
    | none => exact ih.cons name
    | some value => exact ih.cons_cons name

end Written

namespace Grammar.Writes

variable {α β : Type} {g : Grammar α} {image : List String → α} {name : String} {short : Option Char}

/-- An option that reads what its text says, and puts it where the image has it with its name. -/
theorem reading {read : String → Except Refusal β} {put : β → α → α} {x : Option β} {text : β → String}
    (hname : IsName name) (hoption : g.long? name = some (.reading name short read put))
    (hread : ∀ y ∈ x, read (text y) = .ok y)
    (hput : ∀ y, x = some y → ∀ seen, put y (image seen) = image (name :: seen)) :
    ∀ value ∈ x.map (fun y => some (text y)), g.Writes image ⟨name, value⟩ := by
  intro value hvalue
  obtain ⟨y, hy, rfl⟩ := Option.map_eq_some_iff.mp hvalue
  refine ⟨hname, _, hoption, fun seen _ => ?_⟩
  rw [← hput y hy seen]
  exact .reading (hread y hy) name short put (image seen)

theorem count {put : Nat → α → α} {x : Option Nat} (hname : IsName name)
    (hoption : g.long? name = some (.reading name short Value.count put))
    (hrange : ∀ n ∈ x, n ≤ Decimal.maxWord)
    (hput : ∀ n, x = some n → ∀ seen, put n (image seen) = image (name :: seen)) :
    ∀ value ∈ x.map (fun n => some (Decimal.natText n)), g.Writes image ⟨name, value⟩ :=
  reading hname hoption (fun n hn => Value.count_natText (hrange n hn)) hput

theorem upTo {high : Nat} {put : Nat → α → α} {x : Option Nat} (hname : IsName name)
    (hoption : g.long? name = some (.reading name short (Value.upTo high) put))
    (hrange : ∀ n ∈ x, n ≤ high)
    (hput : ∀ n, x = some n → ∀ seen, put n (image seen) = image (name :: seen)) :
    ∀ value ∈ x.map (fun n => some (Decimal.natText n)), g.Writes image ⟨name, value⟩ :=
  reading hname hoption (fun n hn => Value.upTo_natText (hrange n hn)) hput

theorem protocol {put : Protocol → α → α} {x : Option Protocol} (hname : IsName name)
    (hoption : g.long? name = some (.reading name short (Value.choice (Protocol.ofName? false)) put))
    (hput : ∀ p, x = some p → ∀ seen, put p (image seen) = image (name :: seen)) :
    ∀ value ∈ x.map (fun p => some p.name), g.Writes image ⟨name, value⟩ :=
  reading hname hoption (fun p _ => by rw [Value.choice, Protocol.ofName?_name]) hput

end Grammar.Writes

/-- The options of a table that are there, in any order, are read into the image of their names. -/
theorem Grammar.read_present {α : Type} {g : Grammar α} {image : List String → α}
    {table : List (String × Option (Option String))} {order : List Written}
    (hbare : g.positional = none) (hnodup : (table.map Prod.fst).Nodup)
    (hwrites : ∀ entry ∈ table, ∀ value ∈ entry.2, g.Writes image ⟨entry.1, value⟩)
    (horder : order.Perm (Written.present table)) :
    ∃ names, (∀ entry ∈ table, entry.2.isSome = true → entry.1 ∈ names) ∧
      g.read (image []) (order.map Written.word) = .ok (image names) := by
  -- only membership is asked of the order, and that a name stands once
  have hmem (w : Written) : w ∈ order ↔ (w.name, some w.value) ∈ table :=
    horder.mem_iff.trans Written.mem_present
  refine ⟨(order.map Written.name).reverse, ?_, ?_⟩
  · intro entry hentry hsome
    obtain ⟨value, hvalue⟩ := Option.isSome_iff_exists.mp hsome
    have hthere : ⟨entry.1, value⟩ ∈ order := (hmem _).mpr (hvalue ▸ hentry)
    exact List.mem_reverse.mpr (List.mem_map_of_mem hthere)
  · refine Grammar.read_written hbare (fun w hw => hwrites _ ((hmem w).mp hw) w.value rfl) ?_
    exact (horder.map Written.name).nodup_iff.mpr (Written.nodup_present hnodup)

end Arguments

/-- A field that is there only with its name stays what it is. -/
theorem ite_of_isSome {α : Type} {p : Prop} [Decidable p] {x : Option α} (h : x.isSome = true → p) :
    (if p then x else none) = x := by
  cases x with
  | none => exact ite_self none
  | some y => exact if_pos (h rfl)

/-! ## The command that starts client ports -/

namespace ClientCommand

/-- The options of a command, with their texts; `bandwidth` is how a bandwidth is written. -/
def table (bandwidth : Float → String) (c : ClientCommand) : List (String × Option (Option String)) :=
  [ ("protocol", c.protocol.map fun p => some p.name),
    ("ports", c.ports.map fun n => some (Decimal.natText n)),
    ("port-receivers", c.receivers.map fun n => some (Decimal.natText n)),
    ("client-max", c.clientMax.map fun n => some (Decimal.natText n)),
    ("server-hosts", c.hosts.map fun hosts => some (",".intercalate hosts)),
    ("first-port", c.firstPort.map fun n => some (Decimal.natText n)),
    ("server-ports", c.serverPorts.map fun n => some (Decimal.natText n)),
    ("net-bw", c.netBw.map fun x => some (bandwidth x)),
    ("workload", c.workload.map some),
    ("no-trunc", if c.noTruncate then some none else none),
    ("seed", c.seed.map fun n => some (Decimal.natText n)) ]

/-- Every number is one of its type, the hosts are at least one and can be told apart, and a bandwidth is
written as a number that is read as it. -/
structure Writable (bandwidth : Float → String) (c : ClientCommand) : Prop where
  ports : ∀ n ∈ c.ports, n ≤ Decimal.maxWord
  receivers : ∀ n ∈ c.receivers, n ≤ Decimal.maxWord
  clientMax : ∀ n ∈ c.clientMax, n ≤ UInt32.size - 1
  hosts : ∀ hosts ∈ c.hosts, hosts ≠ [] ∧ ∀ host ∈ hosts, ',' ∉ host.toList
  firstPort : ∀ n ∈ c.firstPort, n ≤ UInt16.size - 1
  serverPorts : ∀ n ∈ c.serverPorts, n ≤ Decimal.maxWord
  netBw : ∀ x ∈ c.netBw, Decimal.double? (bandwidth x) = some x
  seed : ∀ n ∈ c.seed, n ≤ Decimal.maxWord

/-- The command without the options whose names are not among some. -/
def only (c : ClientCommand) (names : List String) : ClientCommand where
  protocol := if "protocol" ∈ names then c.protocol else none
  ports := if "ports" ∈ names then c.ports else none
  receivers := if "port-receivers" ∈ names then c.receivers else none
  clientMax := if "client-max" ∈ names then c.clientMax else none
  hosts := if "server-hosts" ∈ names then c.hosts else none
  firstPort := if "first-port" ∈ names then c.firstPort else none
  serverPorts := if "server-ports" ∈ names then c.serverPorts else none
  netBw := if "net-bw" ∈ names then c.netBw else none
  workload := if "workload" ∈ names then c.workload else none
  noTruncate := decide ("no-trunc" ∈ names) && c.noTruncate
  seed := if "seed" ∈ names then c.seed else none

theorem only_eq {bandwidth : Float → String} {c : ClientCommand} {names : List String}
    (h : ∀ entry ∈ c.table bandwidth, entry.2.isSome = true → entry.1 ∈ names) : c.only names = c := by
  simp only [table, List.forall_mem_cons, Option.isSome_map] at h
  obtain ⟨protocol, ports, receivers, clientMax, hosts, firstPort, serverPorts, netBw, workload, flag,
    seed, -⟩ := h
  have hflag : (decide ("no-trunc" ∈ names) && c.noTruncate) = c.noTruncate := by
    cases hc : c.noTruncate with
    | false => exact Bool.and_false _
    | true => simpa [hc] using flag
  simp only [only, ite_of_isSome protocol, ite_of_isSome ports, ite_of_isSome receivers,
    ite_of_isSome clientMax, ite_of_isSome hosts, ite_of_isSome firstPort, ite_of_isSome serverPorts,
    ite_of_isSome netBw, ite_of_isSome workload, hflag, ite_of_isSome seed]

theorem writes_hosts {c : ClientCommand}
    (h : ∀ hosts ∈ c.hosts, hosts ≠ [] ∧ ∀ host ∈ hosts, ',' ∉ host.toList) :
    ∀ value ∈ c.hosts.map fun hosts => some (",".intercalate hosts),
      grammar.Writes c.only ⟨"server-hosts", value⟩ := by
  intro value hvalue
  obtain ⟨hosts, hhosts, rfl⟩ := Option.map_eq_some_iff.mp hvalue
  obtain ⟨hne, hseparate⟩ := h hosts hhosts
  have hfields : Text.fieldsOf ',' (",".intercalate hosts) = hosts :=
    Text.fieldsOf_eq_iff.mpr ⟨hne, rfl, hseparate⟩
  have hname : IsName "server-hosts" := by decide
  refine ⟨hname, hostsOption, rfl, fun seen hnew => .values ?_⟩
  -- this option adds to the hosts named before, and it stands once, so there are none
  simp [only, hnew, hfields, hhosts]

theorem writes_noTruncate (c : ClientCommand) :
    ∀ value ∈ (if c.noTruncate then some none else none : Option (Option String)),
      grammar.Writes c.only ⟨"no-trunc", value⟩ := by
  intro value hvalue
  obtain ⟨hflag, hvalue⟩ := Option.ite_none_right_eq_some.mp hvalue
  cases hvalue
  refine ⟨by decide, _, rfl, fun seen hnew => ?_⟩
  have hnext : c.only ("no-trunc" :: seen) = { c.only seen with noTruncate := true } := by
    simp [only, hflag]
  rw [hnext]
  exact .flag _ (c.only seen)

theorem writes_only {bandwidth : Float → String} {c : ClientCommand} (h : c.Writable bandwidth) :
    ∀ entry ∈ c.table bandwidth, ∀ value ∈ entry.2, grammar.Writes c.only ⟨entry.1, value⟩ := by
  simp only [table, List.forall_mem_cons]
  refine ⟨?protocol, ?ports, ?receivers, ?clientMax, writes_hosts h.hosts, ?firstPort, ?serverPorts,
    ?netBw, ?workload, writes_noTruncate c, ?seed, List.forall_mem_nil _⟩
  case protocol => exact .protocol (by decide) rfl fun p hp seen => by simp [only, hp]
  case ports => exact .count (by decide) rfl h.ports fun n hn seen => by simp [only, hn]
  case receivers => exact .count (by decide) rfl h.receivers fun n hn seen => by simp [only, hn]
  case clientMax => exact .upTo (by decide) rfl h.clientMax fun n hn seen => by simp [only, hn]
  case firstPort => exact .upTo (by decide) rfl h.firstPort fun n hn seen => by simp [only, hn]
  case serverPorts => exact .count (by decide) rfl h.serverPorts fun n hn seen => by simp [only, hn]
  case netBw =>
    refine .reading (by decide) rfl (fun x hx => ?_) fun x hx seen => by simp [only, hx]
    rw [Value.number, h.netBw x hx]
  case workload => exact .reading (by decide) rfl (fun _ _ => rfl) fun x hx seen => by simp [only, hx]
  case seed => exact .count (by decide) rfl h.seed fun n hn seen => by simp [only, hn]

theorem read_order {bandwidth : Float → String} {c : ClientCommand} {order : List Written}
    (h : c.Writable bandwidth) (horder : order.Perm (Written.present (c.table bandwidth))) :
    grammar.read {} (order.map Written.word) = .ok c := by
  have hempty : c.only [] = {} := by simp [only]
  have hnodup : ((c.table bandwidth).map Prod.fst).Nodup := by simp [table]
  obtain ⟨names, hnames, hread⟩ := Grammar.read_present rfl hnodup (writes_only h) horder
  rw [← hempty, hread, only_eq hnames]

end ClientCommand

/-! ## The command that starts server ports -/

namespace ServerCommand

/-- The options of a command, with their texts. -/
def table (c : ServerCommand) : List (String × Option (Option String)) :=
  [ ("protocol", c.protocol.map fun p => some p.name),
    ("ports", c.ports.map fun n => some (Decimal.natText n)),
    ("first-port", c.firstPort.map fun n => some (Decimal.natText n)),
    ("port-threads", c.threads.map fun n => some (Decimal.natText n)) ]

/-- Every number is one of its type. -/
structure Writable (c : ServerCommand) : Prop where
  ports : ∀ n ∈ c.ports, n ≤ Decimal.maxWord
  firstPort : ∀ n ∈ c.firstPort, n ≤ UInt16.size - 1
  threads : ∀ n ∈ c.threads, n ≤ Decimal.maxWord

/-- The command without the options whose names are not among some. -/
def only (c : ServerCommand) (names : List String) : ServerCommand where
  protocol := if "protocol" ∈ names then c.protocol else none
  ports := if "ports" ∈ names then c.ports else none
  firstPort := if "first-port" ∈ names then c.firstPort else none
  threads := if "port-threads" ∈ names then c.threads else none

theorem only_eq {c : ServerCommand} {names : List String}
    (h : ∀ entry ∈ c.table, entry.2.isSome = true → entry.1 ∈ names) : c.only names = c := by
  simp only [table, List.forall_mem_cons, Option.isSome_map] at h
  obtain ⟨protocol, ports, firstPort, threads, -⟩ := h
  simp only [only, ite_of_isSome protocol, ite_of_isSome ports, ite_of_isSome firstPort,
    ite_of_isSome threads]

theorem writes_only {c : ServerCommand} (h : c.Writable) :
    ∀ entry ∈ c.table, ∀ value ∈ entry.2, grammar.Writes c.only ⟨entry.1, value⟩ := by
  simp only [table, List.forall_mem_cons]
  refine ⟨?protocol, ?ports, ?firstPort, ?threads, List.forall_mem_nil _⟩
  case protocol => exact .protocol (by decide) rfl fun p hp seen => by simp [only, hp]
  case ports => exact .count (by decide) rfl h.ports fun n hn seen => by simp [only, hn]
  case firstPort => exact .upTo (by decide) rfl h.firstPort fun n hn seen => by simp [only, hn]
  case threads => exact .count (by decide) rfl h.threads fun n hn seen => by simp [only, hn]

theorem read_order {c : ServerCommand} {order : List Written} (h : c.Writable)
    (horder : order.Perm (Written.present c.table)) :
    grammar.read {} (order.map Written.word) = .ok c := by
  have hempty : c.only [] = {} := by simp [only]
  have hnodup : (c.table.map Prod.fst).Nodup := by simp [table]
  obtain ⟨names, hnames, hread⟩ := Grammar.read_present rfl hnodup (writes_only h) horder
  rw [← hempty, hread, only_eq hnames]

end ServerCommand

/-! ## All commands -/

namespace StopTarget

theorem mapM_name (targets : List StopTarget) :
    (targets.map name).mapM (Arguments.Value.choice ofName?) = .ok targets := by
  induction targets with
  | nil => rfl
  | cons target targets ih =>
    have htarget : Value.choice ofName? target.name = .ok target := by
      rw [Value.choice, ofName?_name]
    rw [List.map_cons, List.mapM_cons, htarget, ih]
    rfl

theorem isFree_name (target : StopTarget) : target.name.toList.head? ≠ some '-' := by
  cases target <;> decide

theorem read_names {targets : List StopTarget} (h : targets ≠ []) :
    grammar.read [] (targets.map name) = .ok targets := by
  obtain ⟨target, targets, rfl⟩ := List.exists_cons_of_ne_nil h
  have hfree : ∀ word ∈ targets.map name, word.toList.head? ≠ some '-' := by
    intro word hword
    obtain ⟨t, -, rfl⟩ := List.mem_map.mp hword
    exact t.isFree_name
  rw [List.map_cons, Grammar.read_values rfl target.isFree_name (.inr rfl) (.inr hfree), ← List.map_cons]
  simp only [mapM_name]
  rfl

end StopTarget

theorem fileGrammar_read {file : String} (hne : file ≠ "") (hfree : file.toList.head? ≠ some '-') :
    fileGrammar.read "" [file] = .ok file := by
  rw [Grammar.read_values rfl hfree (.inl rfl) (.inr (List.forall_mem_nil _))]
  simp only [Value.path, String.isEmpty_iff, if_neg hne]

theorem messageGrammar_read {words : List String} (h : ∃ word ∈ words.head?, word.toList.head? ≠ some '-') :
    messageGrammar.read [] words = .ok words := by
  obtain ⟨word, hword, hfree⟩ := h
  obtain ⟨rest, rfl⟩ := List.head?_eq_some_iff.mp hword
  rw [Grammar.read_values rfl hfree (.inr rfl) (.inl rfl)]
  rfl

namespace Command

/-- What a command must be so that it can be written: there is something to stop or to log, a file has a
name, and what comes first behind the name of the command is not taken for an option. -/
def Writable (bandwidth : Float → String) : Command → Prop
  | client c => c.Writable bandwidth
  | server c => c.Writable
  | stop targets => targets ≠ []
  | dumpTimes file => file ≠ "" ∧ file.toList.head? ≠ some '-'
  | log words => ∃ word ∈ words.head?, word.toList.head? ≠ some '-'
  | exit => True

/-- The lists of words that a command is written as: its name, and its options in some order or its
values. -/
inductive WrittenAs (bandwidth : Float → String) : Command → List String → Prop
  | client {c : ClientCommand} {order : List Written}
      (h : order.Perm (Written.present (c.table bandwidth))) :
      WrittenAs bandwidth (.client c) ("client" :: order.map Written.word)
  | server {c : ServerCommand} {order : List Written} (h : order.Perm (Written.present c.table)) :
      WrittenAs bandwidth (.server c) ("server" :: order.map Written.word)
  | stop (targets : List StopTarget) :
      WrittenAs bandwidth (.stop targets) ("stop" :: targets.map StopTarget.name)
  | dumpTimes (file : String) : WrittenAs bandwidth (.dumpTimes file) ["dump-times", file]
  | log (words : List String) : WrittenAs bandwidth (.log words) ("log" :: words)
  | exit : WrittenAs bandwidth .exit ["exit"]

theorem ofWords_cons {name : String} {read : List String → Except Refusal Command} {words : List String}
    {command : Command} (hread : reader? name = some read) (hname : name ≠ "--" ∧ name ≠ "help")
    (h : read words = .ok command) : ofWords (name :: words) = .ok command := by
  obtain ⟨hseparator, hhelp⟩ := hname
  rw [ofWords, hread]
  · exact h
  · exact fun hname _ => hseparator hname
  · exact fun _ _ hname _ => hseparator hname
  · exact hhelp

/-- **Whatever way a command is written, it is what its words are read as.** The order of its options makes
no difference. -/
theorem ofWords_writtenAs {bandwidth : Float → String} {command : Command} {words : List String}
    (hwritable : command.Writable bandwidth) (h : command.WrittenAs bandwidth words) :
    ofWords words = .ok command := by
  cases h with
  | client horder =>
    have hread := ClientCommand.read_order hwritable horder
    exact ofWords_cons rfl (by decide) (congrArg (Except.map client) hread)
  | server horder =>
    have hread := ServerCommand.read_order hwritable horder
    exact ofWords_cons rfl (by decide) (congrArg (Except.map server) hread)
  | stop targets =>
    have hread := StopTarget.read_names hwritable
    exact ofWords_cons rfl (by decide) (congrArg (Except.map stop) hread)
  | dumpTimes file =>
    have hread := fileGrammar_read hwritable.1 hwritable.2
    exact ofWords_cons rfl (by decide) (congrArg (Except.map dumpTimes) hread)
  | log words =>
    have hread := messageGrammar_read hwritable
    exact ofWords_cons rfl (by decide) (congrArg (Except.map log) hread)
  | exit => rfl

/-- Options in an order of their own: two hosts, a bandwidth, a workload that looks like an option, and
the flag. -/
theorem ofWords_writtenAs_shuffled :
    ofWords ["client", "--workload=--seed=3", "--net-bw=0.5", "--no-trunc", "--ports=18446744073709551615",
        "--server-hosts=localhost,::1", "--protocol=stream"] =
      .ok (.client
        { protocol := some .stream, ports := some 18446744073709551615, hosts := some ["localhost", "::1"]
          netBw := some (Decimal.Numeral.toDouble false ⟨5, -1⟩), workload := some "--seed=3"
          noTruncate := true }) := by
  have hbandwidth : Decimal.double? "0.5" = some (Decimal.Numeral.toDouble false ⟨5, -1⟩) := rfl
  let bandwidth : Float → String := fun _ => "0.5"
  let c : ClientCommand :=
    { protocol := some .stream, ports := some 18446744073709551615, hosts := some ["localhost", "::1"]
      netBw := some (Decimal.Numeral.toDouble false ⟨5, -1⟩), workload := some "--seed=3", noTruncate := true }
  have hwritable : (Command.client c).Writable bandwidth :=
    { ports := by rintro n ⟨⟩; decide
      receivers := by rintro n ⟨⟩
      clientMax := by rintro n ⟨⟩
      hosts := by rintro hosts ⟨⟩; decide
      firstPort := by rintro n ⟨⟩
      serverPorts := by rintro n ⟨⟩
      netBw := by rintro x ⟨⟩; exact hbandwidth
      seed := by rintro n ⟨⟩ }
  have horder : List.Perm
      [⟨"workload", some "--seed=3"⟩, ⟨"net-bw", some "0.5"⟩, ⟨"no-trunc", none⟩,
        ⟨"ports", some "18446744073709551615"⟩, ⟨"server-hosts", some "localhost,::1"⟩,
        ⟨"protocol", some "stream"⟩]
      (Written.present (c.table bandwidth)) := by decide +kernel
  exact ofWords_writtenAs hwritable (.client horder)

end Command

end EchoLoad
