import EchoLoad.Node.Execute
import EchoLoad.Proofs.Stats.Reporting

/-!
# The ports of a node

Commands start and stop the ports of a node, and a port gets its number from the ports that there are
when it is started. Reports are only made of ports that were there at the report before.

> `Node.run_registry`: the ports are numbered in order from zero on, as many as were started since they
> were stopped last, and a reporter that has a baseline took it from these same ports.

What a command can make of a node is said once (`Node.Carried`). Each command that changes which ports
there are resets the reporter, so that a baseline is younger than the last such command.
-/

namespace EchoLoad

/-! ## Starting ports -/

theorem ClientPort.id_start {h : Host} {id : Nat} {o : ClientOptions} {servers : List SocketAddress}
    {p : ClientPort} (hstart : start h id o servers = .ok p) : p.id = id := by
  unfold start at hstart
  split at hstart
  next => cases hstart
  next =>
    split at hstart
    next => cases hstart
    next =>
      cases hstart
      rfl

theorem ServerPort.id_start {h : Host} {live : List ServerPort} {id : Nat} {port : UInt16}
    {o : ServerOptions} {p : ServerPort} (hstart : start h live id port o = .ok p) : p.id = id := by
  unfold start at hstart
  split at hstart
  next => cases hstart
  next =>
    split at hstart
    next => cases hstart
    next =>
      split at hstart
      next => cases hstart
      next =>
        cases hstart
        rfl

namespace Node

/-- A client port has started, and the others follow. -/
theorem startClients_succ {h : Host} {o : ClientOptions} {servers : List SocketAddress}
    {index count : Nat} {n last : Node} {port : ClientPort} {result : Except CommandError Unit}
    {log : List LogLine} (hstart : ClientPort.start h index o servers = .ok port)
    (hrest : startClients h o servers (index + 1) count { n with clients := n.clients ++ [port] } =
      (result, last, log)) :
    startClients h o servers index (count + 1) n =
      (result, last, createdLines o index servers.length ++ log) := by
  rw [startClients, hstart]
  dsimp only
  rw [hrest]

/-- Client ports get the next numbers, or the program ends. -/
theorem startClients_cases (h : Host) (o : ClientOptions) (servers : List SocketAddress) (count : Nat) :
    ∀ (index : Nat) (n : Node),
      (∃ e, (startClients h o servers index count n).1 = .error e ∧ e.isFatal = true) ∨
        (startClients h o servers index count n).1 = .ok () ∧
          ∃ ports : List ClientPort, ports.map (·.id) = List.range' index count ∧
            (startClients h o servers index count n).2.1 =
              { n with clients := n.clients ++ ports } := by
  induction count with
  | zero => exact fun index n => .inr ⟨rfl, [], rfl, by rw [List.append_nil]; rfl⟩
  | succ count ih =>
    intro index n
    cases hstart : ClientPort.start h index o servers with
    | error e =>
      left
      rw [startClients, hstart]
      cases e with
      | system e => exact ⟨_, rfl, rfl⟩
      | oversized => exact ⟨_, rfl, rfl⟩
    | ok port =>
      have hlater := ih (index + 1) { n with clients := n.clients ++ [port] }
      -- the result is taken apart before it is compared, since its log holds what the ports draw
      rcases hrest : startClients h o servers (index + 1) count
        { n with clients := n.clients ++ [port] } with ⟨result, last, log⟩
      rw [hrest] at hlater
      rw [startClients_succ hstart hrest]
      rcases hlater with hfatal | ⟨hok, ports, hids, hnode⟩
      · exact .inl hfatal
      · refine .inr ⟨hok, port :: ports, ?_, ?_⟩
        · rw [List.map_cons, hids, ClientPort.id_start hstart, List.range'_succ]
        · have hlast : last = _ := hnode
          show last = _
          rw [hlast, List.append_assoc]
          rfl

/-- A server port has started, and the others follow. -/
theorem startServers_succ {h : Host} {o : ServerOptions} {lowest : UInt16} {offset count : Nat}
    {n last : Node} {port : ServerPort} {result : Except CommandError Unit} {log : List LogLine}
    (hstart : ServerPort.start h n.servers n.servers.length (serverPortNumber lowest offset) o =
      .ok port)
    (hrest : startServers h o lowest (offset + 1) count { n with servers := n.servers ++ [port] } =
      (result, last, log)) :
    startServers h o lowest offset (count + 1) n =
      (result, last, port.startedLine o.threads :: log) := by
  rw [startServers, hstart]
  dsimp only
  rw [hrest]

/-- Server ports get the next numbers, or the program ends. -/
theorem startServers_cases (h : Host) (o : ServerOptions) (lowest : UInt16) (count : Nat) :
    ∀ (offset : Nat) (n : Node),
      (∃ e, (startServers h o lowest offset count n).1 = .error e ∧ e.isFatal = true) ∨
        (startServers h o lowest offset count n).1 = .ok () ∧
          ∃ ports : List ServerPort, ports.map (·.id) = List.range' n.servers.length count ∧
            (startServers h o lowest offset count n).2.1 =
              { n with servers := n.servers ++ ports } := by
  induction count with
  | zero => exact fun offset n => .inr ⟨rfl, [], rfl, by rw [List.append_nil]; rfl⟩
  | succ count ih =>
    intro offset n
    cases hstart : ServerPort.start h n.servers n.servers.length (serverPortNumber lowest offset) o with
    | error e =>
      left
      rw [startServers, hstart]
      cases e with
      | system e => exact ⟨_, rfl, rfl⟩
      | oversized => exact ⟨_, rfl, rfl⟩
    | ok port =>
      have hlater := ih (offset + 1) { n with servers := n.servers ++ [port] }
      rcases hrest : startServers h o lowest (offset + 1) count
        { n with servers := n.servers ++ [port] } with ⟨result, last, log⟩
      rw [hrest] at hlater
      rw [startServers_succ hstart hrest]
      rcases hlater with hfatal | ⟨hok, ports, hids, hnode⟩
      · exact .inl hfatal
      · refine .inr ⟨hok, port :: ports, ?_, ?_⟩
        · have hlength : (n.servers ++ [port]).length = n.servers.length + 1 := List.length_append
          rw [List.map_cons, hids, ServerPort.id_start hstart, hlength, List.range'_succ]
        · have hlast : last = _ := hnode
          show last = _
          rw [hlast, List.append_assoc]
          rfl

end Node

/-! ## What a command makes of a node -/

/-- All of a client port but its counters. -/
def ClientPort.identity (p : ClientPort) : Nat × Bool := (p.id, p.isSending)

/-- All of a server port but its counters. -/
def ServerPort.identity (p : ServerPort) : Nat × Protocol × SocketAddress :=
  (p.id, p.protocol, p.address)

namespace Node

theorem identity_withStats (ports : List ClientPort) (stats : List ClientStats) :
    (withStats ports stats).map ClientPort.identity = ports.map ClientPort.identity := by
  induction ports generalizing stats with
  | nil => cases stats <;> rfl
  | cons p ports ih =>
    cases stats with
    | nil => rfl
    | cons s stats => exact congrArg (p.identity :: ·) (ih stats)

/-- How many ports are started beside so many live ones when so many are asked for. Their numbers go up to
the machine word that the two add up to: there are none if the sum goes round. -/
def newPorts (live asked : Nat) : Nat := (live + asked) % UInt64.size - live

theorem newPorts_of_lt {live asked : Nat} (h : live + asked < UInt64.size) :
    newPorts live asked = asked := by
  rw [newPorts, Nat.mod_eq_of_lt h, Nat.add_sub_cancel_left]

theorem newPorts_zero (live : Nat) : newPorts live 0 = 0 := Nat.sub_eq_zero_of_le (Nat.mod_le _ _)

/-- A command that does not end the program makes this of a node. -/
inductive Carried (n : Node) : Command → Node → Prop
  /-- the name of the workload is none -/
  | refused {c : ClientCommand} {e : WorkloadError}
      (hname : c.resolve n.settings.client n.settings.stats = .error e) : Carried n (.client c) n
  | clients {c : ClientCommand} {o : ClientOptions} {t : ServerTargets} {ports : List ClientPort}
      {info : DumpInfo} (hoptions : c.resolve n.settings.client n.settings.stats = .ok (o, t))
      (hids : ports.map (·.id) =
        List.range' n.clients.length (newPorts n.clients.length o.ports)) :
      Carried n (.client c)
        { n with
          clients := n.clients ++ ports
          reporter := n.reporter.reset
          lastClient := some info }
  | servers {c : ServerCommand} {ports : List ServerPort}
      (hids : ports.map (·.id) =
        List.range' n.servers.length (c.portCount n.settings.server)) :
      Carried n (.server c) { n with servers := n.servers ++ ports, reporter := n.reporter.reset }
  | stopped (targets : List StopTarget) :
      Carried n (.stop targets) (targets.foldl stop n).resetReports
  /-- the samples of some ports are gone -/
  | dumped {path : String} {clients : List ClientPort}
      (hsame : clients.map ClientPort.identity = n.clients.map ClientPort.identity) :
      Carried n (.dumpTimes path) { n with clients := clients }
  | logged (words : List String) : Carried n (.log words) n
  | left : Carried n .exit n

theorem executeClient_carried (h : Host) (n : Node) (c : ClientCommand)
    (hgoes : ∀ e, (n.executeClient h c).result = .error e → e.isFatal = false) :
    n.Carried (.client c) (n.executeClient h c).node := by
  unfold executeClient at hgoes ⊢
  cases hoptions : c.resolve n.settings.client n.settings.stats with
  | error e => exact .refused hoptions
  | ok options =>
    obtain ⟨o, t⟩ := options
    rw [hoptions] at hgoes
    dsimp only at hgoes ⊢
    cases hservers : t.resolve h with
    | error e =>
      rw [hservers] at hgoes
      cases e with
      | noAddress host e => cases hgoes _ rfl
      | oversized => cases hgoes _ rfl
    | ok servers =>
      rw [hservers] at hgoes
      dsimp only at hgoes ⊢
      cases hword : h.machine.word "add" (n.clients.length + o.ports) with
      | error c =>
        rw [hword] at hgoes
        cases hgoes _ rfl
      | ok stop =>
        rw [hword] at hgoes
        dsimp only at hgoes ⊢
        obtain rfl := h.machine.eq_of_word hword
        have hstarted := startClients_cases h o servers (newPorts n.clients.length o.ports)
          n.clients.length n
        unfold newPorts at hstarted
        rcases hports : startClients h o servers n.clients.length
          ((n.clients.length + o.ports) % UInt64.size - n.clients.length) n with ⟨result, last, log⟩
        rw [hports] at hgoes hstarted
        rcases hstarted with ⟨e, he, hfatal⟩ | ⟨hok, ports, hids, hnode⟩
        · obtain rfl : result = .error e := he
          have hlive := hgoes e rfl
          rw [hfatal] at hlive
          cases hlive
        · obtain rfl : result = .ok () := hok
          obtain rfl : last = _ := hnode
          exact .clients hoptions hids

theorem executeServer_carried (h : Host) (n : Node) (c : ServerCommand)
    (hgoes : ∀ e, (n.executeServer h c).result = .error e → e.isFatal = false) :
    n.Carried (.server c) (n.executeServer h c).node := by
  unfold executeServer at hgoes ⊢
  cases hoptions : c.resolve n.settings.server with
  | error e =>
    rw [hoptions] at hgoes
    cases hgoes _ rfl
  | ok o =>
    rw [hoptions] at hgoes
    dsimp only at hgoes ⊢
    have hstarted := startServers_cases h o (c.lowestPort n.settings.server)
      (c.portCount n.settings.server) 0 n
    rcases hports : startServers h o (c.lowestPort n.settings.server) 0
      (c.portCount n.settings.server) n with ⟨result, last, log⟩
    rw [hports] at hgoes hstarted
    rcases hstarted with ⟨e, he, hfatal⟩ | ⟨hok, ports, hids, hnode⟩
    · obtain rfl : result = .error e := he
      have hlive := hgoes e rfl
      rw [hfatal] at hlive
      cases hlive
    · obtain rfl : result = .ok () := hok
      obtain rfl : last = _ := hnode
      exact .servers hids

theorem execute_carried (h : Host) (file : String → FileOutcome) (time : String) (n : Node) (c : Command)
    (hgoes : ∀ e, (n.execute h file time c).result = .error e → e.isFatal = false) :
    n.Carried c (n.execute h file time c).node := by
  cases c with
  | client c => exact executeClient_carried h n c hgoes
  | server c => exact executeServer_carried h n c hgoes
  | stop targets => exact .stopped targets
  | dumpTimes path =>
    have hnode : (n.execute h file time (.dumpTimes path)).node =
        { n with
          clients := withStats n.clients
            (Dump.run (file path) time n.dumpInfo n.clientStats).clients } := by
      unfold execute executeDump
      dsimp only
      split <;> rfl
    rw [hnode]
    exact .dumped (identity_withStats ..)
  | log words => exact .logged words
  | exit => exact .left

end Node

/-! ## Whole runs -/

/-- What happens to a node. -/
inductive NodeEvent
  /-- a command is carried out on a host, with what happens to the file of a dump, and a time -/
  | executed (h : Host) (file : String → FileOutcome) (time : String) (c : Command)
  | reported (now : Nat)
  /-- the counters of a client port are others now -/
  | clientCounted (port : Nat) (stats : ClientStats)
  /-- the counters of a server port are others now -/
  | serverCounted (port : Nat) (stats : List ServerStats)

namespace NodeEvent

/-- The client ports that it asks for. -/
def askedClients (s : Settings) : NodeEvent → Nat
  | executed _ _ _ (.client c) =>
    match c.resolve s.client s.stats with
    | .ok (o, _) => o.ports
    | .error _ => 0
  | _ => 0

/-- The server ports that it starts. -/
def startedServers (s : Settings) : NodeEvent → Nat
  | executed _ _ _ (.server c) => c.portCount s.server
  | _ => 0

def stops (target : StopTarget) : NodeEvent → Bool
  | executed _ _ _ (.stop targets) => targets.contains target
  | _ => false

/-- Whether it is a command that starts or stops ports. One with a workload that is none starts none. -/
def changesRoles (s : Settings) : NodeEvent → Bool
  | executed _ _ _ (.client c) => (c.resolve s.client s.stats).toBool
  | executed _ _ _ (.server _) => true
  | executed _ _ _ (.stop _) => true
  | _ => false

def isReport : NodeEvent → Bool
  | reported _ => true
  | _ => false

theorem unchanged {s : Settings} {e : NodeEvent} (h : e.changesRoles s = false) :
    (∀ target, e.stops target = false) ∧ e.askedClients s = 0 ∧ e.startedServers s = 0 := by
  cases e with
  | executed host file time c =>
    cases c with
    | client c =>
      refine ⟨fun _ => rfl, ?_, rfl⟩
      have hrefused : (c.resolve s.client s.stats).toBool = false := h
      cases hoptions : c.resolve s.client s.stats with
      | error e => simp only [askedClients, hoptions]
      | ok options =>
        rw [hoptions] at hrefused
        cases hrefused
    | server c => cases h
    | stop targets => cases h
    | _ => exact ⟨fun _ => rfl, rfl, rfl⟩
  | _ => exact ⟨fun _ => rfl, rfl, rfl⟩

end NodeEvent

/-- The client ports that were asked for since the client ports were stopped last. -/
def askedCount (s : Settings) (events : List NodeEvent) : Nat :=
  total ((events.rtakeWhile (!·.stops .clients)).map (·.askedClients s))

/-- The client ports that were started since the client ports were stopped last. -/
def clientCount (s : Settings) (events : List NodeEvent) : Nat :=
  events.foldl
    (fun live e => if e.stops .clients then 0 else live + Node.newPorts live (e.askedClients s)) 0

/-- The server ports that were started since the server ports were stopped last. -/
def serverCount (s : Settings) (events : List NodeEvent) : Nat :=
  total ((events.rtakeWhile (!·.stops .servers)).map (·.startedServers s))

theorem total_rtakeWhile_concat (stops : NodeEvent → Bool) (started : NodeEvent → Nat)
    (events : List NodeEvent) (e : NodeEvent) :
    total (((events ++ [e]).rtakeWhile (!stops ·)).map started) =
      if stops e then 0 else total ((events.rtakeWhile (!stops ·)).map started) + started e := by
  rw [List.rtakeWhile_concat]
  by_cases hstops : stops e = true
  · simp only [hstops, Bool.not_true, Bool.false_eq_true, if_false, if_true]
    rfl
  · simp only [hstops, Bool.not_false, if_true, Bool.false_eq_true, if_false, List.map_append,
      total_append]
    rfl

theorem clientCount_concat (s : Settings) (events : List NodeEvent) (e : NodeEvent) :
    clientCount s (events ++ [e]) =
      if e.stops .clients then 0
      else clientCount s events + Node.newPorts (clientCount s events) (e.askedClients s) :=
  List.foldl_concat ..

theorem clientCount_of_unasked {s : Settings} {e : NodeEvent} (events : List NodeEvent)
    (hstops : e.stops .clients = false) (hasked : e.askedClients s = 0) :
    clientCount s (events ++ [e]) = clientCount s events := by
  rw [clientCount_concat, hstops, hasked, Node.newPorts_zero]
  rfl

/-- All client ports that were asked for were started, if they can be numbered. -/
theorem clientCount_eq (s : Settings) (events : List NodeEvent)
    (hcount : askedCount s events < UInt64.size) : clientCount s events = askedCount s events := by
  induction events using List.reverseRecOn with
  | nil => rfl
  | append_singleton events e ih =>
    rw [askedCount, total_rtakeWhile_concat] at hcount ⊢
    rw [clientCount_concat]
    by_cases hstops : e.stops .clients = true
    · rw [if_pos hstops, if_pos hstops]
    · rw [if_neg hstops] at hcount
      have hbefore := ih (Nat.lt_of_le_of_lt (Nat.le_add_right _ _) hcount)
      rw [if_neg hstops, if_neg hstops, hbefore]
      exact congrArg _ (Node.newPorts_of_lt hcount)

namespace Node

/-- The node after it; none if the program has ended. -/
def step? (n : Node) : NodeEvent → Option Node
  | .executed h file time c =>
    let done := n.execute h file time c
    match done.result with
    | .error e => if e.isFatal then none else some done.node
    | .ok _ => some done.node
  | .reported now => some (n.report now).2
  | .clientCounted port stats =>
    some { n with clients := n.clients.modify port fun p => { p with stats := stats } }
  | .serverCounted port stats =>
    some { n with servers := n.servers.modify port fun p => { p with stats := stats } }

def run? (n : Node) (events : List NodeEvent) : Option Node := events.foldlM step? n

theorem run?_concat {n m : Node} {events : List NodeEvent} {e : NodeEvent}
    (h : n.run? (events ++ [e]) = some m) : ∃ k, n.run? events = some k ∧ k.step? e = some m := by
  rw [run?, List.foldlM_append] at h
  obtain ⟨k, hk, hstep⟩ := Option.bind_eq_some_iff.mp h
  exact ⟨k, hk, by simpa using hstep⟩

theorem carried_of_step? {n m : Node} {h : Host} {file : String → FileOutcome} {time : String}
    {c : Command} (hstep : n.step? (.executed h file time c) = some m) : n.Carried c m := by
  have hcarried := execute_carried h file time n c
  unfold step? at hstep
  dsimp only at hstep
  split at hstep
  next e he =>
    split at hstep
    next => cases hstep
    next hlive =>
      obtain rfl := Option.some.inj hstep
      refine hcarried fun e' he' => ?_
      rw [he] at he'
      cases he'
      exact Bool.eq_false_iff.mpr hlive
  next flow hflow =>
    obtain rfl := Option.some.inj hstep
    refine hcarried fun e he => ?_
    rw [hflow] at he
    cases he

/-- The node reported last at a tick, before which it had the ports that it has now; they were neither
started nor stopped since. -/
structure ReportedAt (settings : Settings) (events earlier later : List NodeEvent) (before n : Node)
    (t : Nat) : Prop where
  split : events = earlier ++ .reported t :: later
  reached : run? (.new settings) earlier = some before
  quiet : ∀ e ∈ later, e.changesRoles settings = false ∧ e.isReport = false
  totals : n.reporter.last = .of before.clientStats before.serverStats
  clients : n.clients.map ClientPort.identity = before.clients.map ClientPort.identity
  servers : n.servers.map ServerPort.identity = before.servers.map ServerPort.identity

/-- What holds of a node after all that happened. -/
structure Registered (settings : Settings) (events : List NodeEvent) (n : Node) : Prop where
  settings_eq : n.settings = settings
  clients : n.clients.map (·.id) = List.range (clientCount settings events)
  servers : n.servers.map (·.id) = List.range (serverCount settings events)
  unreported : n.reporter.lastTime = none ↔
    ∀ e ∈ events.rtakeWhile (!·.changesRoles settings), e.isReport = false
  baseline : ∀ t, n.reporter.lastTime = some t →
    ∃ earlier later before, ReportedAt settings events earlier later before n t

variable {settings : Settings} {events : List NodeEvent} {n m : Node} {e : NodeEvent}

/-- The ports are still those of the last report. -/
theorem ReportedAt.concat {earlier later : List NodeEvent} {before : Node} {t : Nat}
    (hlast : ReportedAt settings events earlier later before n t)
    (hroles : e.changesRoles settings = false) (hreport : e.isReport = false)
    (hreporter : m.reporter = n.reporter)
    (hclients : m.clients.map ClientPort.identity = n.clients.map ClientPort.identity)
    (hservers : m.servers.map ServerPort.identity = n.servers.map ServerPort.identity) :
    ReportedAt settings (events ++ [e]) earlier (later ++ [e]) before m t where
  split := by
    rw [hlast.split, List.append_assoc]
    rfl
  reached := hlast.reached
  quiet := by
    rw [List.forall_mem_append, List.forall_mem_singleton]
    exact ⟨hlast.quiet, hroles, hreport⟩
  totals := by
    rw [hreporter]
    exact hlast.totals
  clients := hclients.trans hlast.clients
  servers := hservers.trans hlast.servers

/-- No port is started or stopped, and nothing is reported. -/
theorem Registered.quiet (hn : n.Registered settings events) (hroles : e.changesRoles settings = false)
    (hreport : e.isReport = false) (hsettings : m.settings = n.settings)
    (hreporter : m.reporter = n.reporter)
    (hclients : m.clients.map ClientPort.identity = n.clients.map ClientPort.identity)
    (hservers : m.servers.map ServerPort.identity = n.servers.map ServerPort.identity) :
    m.Registered settings (events ++ [e]) := by
  obtain ⟨hstops, hnoClients, hnoServers⟩ := NodeEvent.unchanged hroles
  refine ⟨hsettings.trans hn.settings_eq, ?_, ?_, ?_, ?_⟩
  · have hids := congrArg (List.map Prod.fst) hclients
    rw [List.map_map, List.map_map] at hids
    rw [clientCount_of_unasked events (hstops .clients) hnoClients]
    exact hids.trans hn.clients
  · have hids := congrArg (List.map Prod.fst) hservers
    rw [List.map_map, List.map_map] at hids
    rw [serverCount, total_rtakeWhile_concat, hstops, hnoServers]
    exact hids.trans hn.servers
  · rw [hreporter, hn.unreported, List.rtakeWhile_concat, hroles, Bool.not_false, if_pos rfl,
      List.forall_mem_append, List.forall_mem_singleton]
    exact ⟨fun h => ⟨h, hreport⟩, fun h => h.1⟩
  · intro t ht
    rw [hreporter] at ht
    obtain ⟨earlier, later, before, hlast⟩ := hn.baseline t ht
    exact ⟨earlier, later ++ [e], before,
      hlast.concat hroles hreport hreporter hclients hservers⟩

/-- Targets are stopped in any order, and again if they are named again. -/
theorem foldl_stop (targets : List StopTarget) :
    ∀ n : Node, (targets.foldl stop n).settings = n.settings ∧
      (targets.foldl stop n).clients.map (·.id) =
        (if targets.contains .clients then [] else n.clients.map (·.id)) ∧
      (targets.foldl stop n).servers.map (·.id) =
        (if targets.contains .servers then [] else n.servers.map (·.id)) := by
  induction targets with
  | nil => exact fun n => ⟨rfl, rfl, rfl⟩
  | cons target targets ih =>
    intro n
    obtain ⟨hsettings, hclients, hservers⟩ := ih (n.stop target)
    rw [List.foldl_cons]
    cases target with
    | clients =>
      refine ⟨hsettings, hclients.trans ?_, hservers.trans ?_⟩
      · simp [stop]
      · simp [stop]
    | senders =>
      have hids : (n.clients.map ClientPort.stopSender).map (·.id) = n.clients.map (·.id) :=
        List.map_map
      refine ⟨hsettings, hclients.trans ?_, hservers.trans ?_⟩
      · simp [stop, hids]
      · simp [stop]
    | servers =>
      refine ⟨hsettings, hclients.trans ?_, hservers.trans ?_⟩
      · simp [stop]
      · simp [stop]

theorem range_append (k count : Nat) : List.range k ++ List.range' k count = List.range (k + count) := by
  rw [List.range_eq_range', List.range_eq_range', ← List.range'_append_1, Nat.zero_add]

/-- Nothing was reported since ports were started or stopped. -/
theorem registered_reset (hsettings : n.settings = settings) (hreset : n.reporter.lastTime = none)
    (hlast : events.rtakeWhile (!·.changesRoles settings) = [])
    (hclients : n.clients.map (·.id) = List.range (clientCount settings events))
    (hservers : n.servers.map (·.id) = List.range (serverCount settings events)) :
    n.Registered settings events := by
  refine ⟨hsettings, hclients, hservers, ?_, fun t ht => ?_⟩
  · rw [hlast]
    exact ⟨fun _ => List.forall_mem_nil _, fun _ => hreset⟩
  · rw [hreset] at ht
    cases ht

theorem rtakeWhile_changesRoles (hroles : e.changesRoles settings = true) :
    (events ++ [e]).rtakeWhile (!·.changesRoles settings) = [] := by
  rw [List.rtakeWhile_concat, hroles]
  rfl

theorem Registered.carried (hn : n.Registered settings events) {h : Host} {file : String → FileOutcome}
    {time : String} {c : Command} (hc : n.Carried c m) :
    m.Registered settings (events ++ [.executed h file time c]) := by
  have hsettings := hn.settings_eq
  subst hsettings
  cases hc with
  | refused hname =>
    refine hn.quiet ?_ rfl rfl rfl rfl rfl
    simp only [NodeEvent.changesRoles, hname]
    rfl
  | @clients c o t ports info hoptions hids =>
    have hroles : (NodeEvent.executed h file time (.client c)).changesRoles n.settings = true := by
      simp only [NodeEvent.changesRoles, hoptions]
      rfl
    refine registered_reset rfl rfl (rtakeWhile_changesRoles hroles) ?_ ?_
    · have hasked : (NodeEvent.executed h file time (.client c)).askedClients n.settings = o.ports := by
        simp only [NodeEvent.askedClients, hoptions]
      have hlength : n.clients.length = clientCount n.settings events := by
        simpa using congrArg List.length hn.clients
      rw [clientCount_concat, hasked, List.map_append, hids, hn.clients, hlength]
      exact range_append ..
    · rw [serverCount, total_rtakeWhile_concat]
      exact hn.servers
  | @servers c ports hids =>
    refine registered_reset rfl rfl (rtakeWhile_changesRoles rfl) ?_ ?_
    · rw [clientCount_of_unasked events rfl rfl]
      exact hn.clients
    · have hlength : n.servers.length = serverCount n.settings events := by
        simpa using congrArg List.length hn.servers
      rw [serverCount, total_rtakeWhile_concat, List.map_append, hids, hn.servers, hlength]
      exact range_append ..
  | stopped targets =>
    obtain ⟨hsettings, hclients, hservers⟩ := foldl_stop targets n
    refine registered_reset hsettings rfl (rtakeWhile_changesRoles rfl) (hclients.trans ?_) (hservers.trans ?_)
    · rw [clientCount_concat, hn.clients]
      show _ = List.range (if targets.contains .clients then _ else _ + newPorts _ 0)
      rw [newPorts_zero]
      split <;> rfl
    · rw [serverCount, total_rtakeWhile_concat, hn.servers]
      show _ = List.range (if targets.contains .servers then _ else _)
      split <;> rfl
  | dumped hsame => exact hn.quiet rfl rfl rfl rfl hsame rfl
  | logged words => exact hn.quiet rfl rfl rfl rfl rfl rfl
  | left => exact hn.quiet rfl rfl rfl rfl rfl rfl

/-- What holds after all that happened before holds after one more thing. -/
theorem Registered.step (hrun : run? (.new settings) events = some n)
    (hn : n.Registered settings events) (hstep : n.step? e = some m) :
    m.Registered settings (events ++ [e]) := by
  cases e with
  | executed h file time c => exact hn.carried (carried_of_step? hstep)
  | reported now =>
    obtain rfl := Option.some.inj hstep
    refine ⟨hn.settings_eq, ?_, ?_, ?_, ?_⟩
    · rw [clientCount_of_unasked events rfl rfl]
      exact hn.clients
    · rw [serverCount, total_rtakeWhile_concat]
      exact hn.servers
    · constructor
      · intro h
        cases h
      · intro h
        have hnone := h (.reported now) (by simp [NodeEvent.changesRoles])
        cases hnone
    · intro t ht
      obtain rfl : now = t := Option.some.inj ht
      exact ⟨events, [], n, rfl, hrun, List.forall_mem_nil _, rfl, rfl, rfl⟩
  | clientCounted port stats =>
    obtain rfl := Option.some.inj hstep
    have hkept (p : ClientPort) : ClientPort.identity { p with stats := stats } = p.identity := rfl
    exact hn.quiet rfl rfl rfl rfl (map_modify_of_eq hkept n.clients port) rfl
  | serverCounted port stats =>
    obtain rfl := Option.some.inj hstep
    have hkept (p : ServerPort) : ServerPort.identity { p with stats := stats } = p.identity := rfl
    exact hn.quiet rfl rfl rfl rfl rfl (map_modify_of_eq hkept n.servers port)

theorem registered_run (settings : Settings) (events : List NodeEvent) :
    ∀ {n : Node}, run? (.new settings) events = some n → n.Registered settings events := by
  induction events using List.reverseRecOn with
  | nil =>
    intro n hn
    obtain rfl := Option.some.inj hn
    exact registered_reset rfl rfl rfl rfl rfl
  | append_singleton events e ih =>
    intro n hn
    obtain ⟨before, hbefore, hstep⟩ := run?_concat hn
    exact (ih hbefore).step hbefore hstep

/-- A client command is refused for its workload if that is none, and for nothing else. -/
theorem executeClient_refused_iff {h : Host} {n : Node} {c : ClientCommand} {e : WorkloadError} :
    (n.executeClient h c).result = .error (.workload e) ↔
      Workload.ofName (c.workloadName n.settings.client) = .error e := by
  unfold executeClient ClientCommand.resolve
  cases hname : Workload.ofName (c.workloadName n.settings.client) with
  | error e' =>
    constructor
    · intro h
      cases h
      rfl
    · intro h
      cases h
      rfl
  | ok w =>
    refine ⟨fun hrefused => ?_, nofun⟩
    dsimp only at hrefused
    split at hrefused
    next => cases hrefused
    next => cases hrefused
    next servers hservers =>
      split at hrefused
      next => cases hrefused
      next stop hstop =>
        have hstarted := startClients_cases h (c.options n.settings.client n.settings.stats w) servers
          (stop - n.clients.length) n.clients.length n
        split at hrefused
        next e' last log hports =>
          rw [hports] at hstarted
          rcases hstarted with ⟨e'', he, hfatal⟩ | ⟨hok, -⟩
          · cases he
            cases hrefused
            cases hfatal
          · cases hok
        next => cases hrefused

/-- **The ports of a node, and what is reported of them.** Commands are carried out on any hosts, none of
which ends the program, reports are made, and the counters of the ports move on as they like. Then the
client ports are numbered in order from zero on, as many as client commands started since the client ports
were stopped last, which are all that they asked for if these can be numbered; and so are the server ports,
as many as server commands asked for. A client command is refused if its workload is none; it then changes
nothing and does not end the program. A report is only a baseline if there was none since ports were started
or stopped last. A baseline is from the last report: all that is remembered is what the ports had counted
then, one total for each server port, and they are the ports that there are now, as no command has started
or stopped any in between. -/
theorem run_registry {settings : Settings} {events : List NodeEvent} {n : Node}
    (hrun : run? (.new settings) events = some n) :
    n.clients.map (·.id) = List.range (clientCount settings events) ∧
    (askedCount settings events < UInt64.size →
      clientCount settings events = askedCount settings events) ∧
    n.servers.map (·.id) = List.range (serverCount settings events) ∧
    (∀ (h : Host) (file : String → FileOutcome) (time : String) (c : ClientCommand) (e : WorkloadError),
      ((n.execute h file time (.client c)).result = .error (.workload e) ↔
        Workload.ofName (c.workloadName settings.client) = .error e) ∧
      ((n.execute h file time (.client c)).result = .error (.workload e) →
        (n.execute h file time (.client c)).node = n ∧
          n.step? (.executed h file time (.client c)) = some n)) ∧
    (∀ now, (n.report now).1 = none ↔
      ∀ e ∈ events.rtakeWhile (!·.changesRoles settings), e.isReport = false) ∧
    ∀ t, n.reporter.lastTime = some t →
      n.reporter.last.perServer.length = n.servers.length ∧
      ∃ earlier later before, events = earlier ++ .reported t :: later ∧
        run? (.new settings) earlier = some before ∧
        (∀ e ∈ later, e.changesRoles settings = false ∧ e.isReport = false) ∧
        n.reporter.last = .of before.clientStats before.serverStats ∧
        n.clients.map ClientPort.identity = before.clients.map ClientPort.identity ∧
        n.servers.map ServerPort.identity = before.servers.map ServerPort.identity := by
  have hn := registered_run settings events hrun
  refine ⟨hn.clients, clientCount_eq settings events, hn.servers, ?_,
    fun now => Option.map_eq_none_iff.trans hn.unreported, ?_⟩
  · intro h file time c e
    have hrefused : (n.execute h file time (.client c)).result = .error (.workload e) ↔
        Workload.ofName (c.workloadName n.settings.client) = .error e := executeClient_refused_iff
    constructor
    · rw [← hn.settings_eq]
      exact hrefused
    · intro hresult
      have hnode : (n.execute h file time (.client c)).node = n := by
        show (n.executeClient h c).node = n
        unfold executeClient ClientCommand.resolve
        rw [hrefused.mp hresult]
        rfl
      refine ⟨hnode, ?_⟩
      unfold step?
      dsimp only
      rw [hresult, hnode]
      rfl
  · intro t ht
    obtain ⟨earlier, later, before, hlast⟩ := hn.baseline t ht
    refine ⟨?_, earlier, later, before, hlast.split, hlast.reached, hlast.quiet, hlast.totals,
      hlast.clients, hlast.servers⟩
    have hlength : n.servers.length = before.servers.length := by
      simpa using congrArg List.length hlast.servers
    rw [hlast.totals, hlength]
    show ((before.servers.map _).map _).length = _
    rw [List.length_map, List.length_map]

/-- Three ports of each kind are stopped after a report and two of each are started. A command that asks for
as many client ports as there are numbers starts none, where the sum of these and the live ones goes round.
There is another report, and then a client command whose workload is none. -/
def twoPorts : List NodeEvent :=
  let carry (c : Command) : NodeEvent := .executed .isolated (fun _ => .good) "" c
  let goingRound : Host := { Host.isolated with machine := ⟨true, fun _ => true⟩ }
  [carry (.server { ports := some 3 }), carry (.client { ports := some 3 }), .reported 10,
   carry (.stop [.servers, .clients]), carry (.client { ports := some 2 }),
   carry (.server { ports := some 2 }), .serverCounted 1 [⟨5, 100⟩],
   .executed goingRound (fun _ => .good) "" (.client { ports := some (UInt64.size - 1) }),
   .reported 20, carry (.client { workload := some "none" })]

/-- The two ports of each kind are numbered from zero on, and the baseline was taken from them. -/
theorem run_registry_two :
    ∃ n, run? (.new {}) twoPorts = some n ∧ n.clients.map (·.id) = [0, 1] ∧
      n.servers.map (·.id) = [0, 1] ∧ n.reporter.lastTime = some 20 ∧
      n.reporter.last.perServer.length = 2 := by
  have hrun : run? (.new {}) twoPorts = some _ := rfl
  obtain ⟨hclients, -, hservers, -, -, hbaseline⟩ := run_registry hrun
  have hclientCount : clientCount {} twoPorts = 2 := rfl
  have hserverCount : serverCount {} twoPorts = 2 := rfl
  rw [hclientCount] at hclients
  rw [hserverCount] at hservers
  have hlength := congrArg List.length hservers
  rw [List.length_map] at hlength
  exact ⟨_, hrun, hclients, hservers, rfl, (hbaseline 20 rfl).1.trans hlength⟩

end Node

end EchoLoad
