import EchoLoad.Node.Execute
import Mathlib.Data.List.Nodup

/-!
# The order of servers

A client tells its servers apart by their places in a list, and a server command starts its ports one after
the other. The two orders fit together.

> `ServerTargets.resolve_hostMajor`: in the list, the ports of a host follow each other in the order in which
> the host starts them, and the hosts follow each other in the order of the command.

Room for the whole list is made before any host is looked at, so that a list that memory does not hold breaks
the program off whatever the hosts are (`resolve_oversized`). The number of servers is a machine word: where it
goes round, there is room for too few, and the list grows until memory holds no more of it. What is added to a
list, and that a list never has more items than there is memory for, is said by `addHosts_added`.
-/

namespace EchoLoad

/-! ## Port numbers -/

theorem toNat_portAt (first : UInt16) (offset : Nat) :
    (portAt first offset).toNat = (first.toNat + offset) % UInt16.size := by
  rw [portAt, UInt16.toNat_add, UInt16.toNat_ofNat', Nat.add_mod_mod]

/-- Ports that go round are different as long as they go round less than once. -/
theorem portAt_inj {first : UInt16} {i j : Nat} (hi : i < UInt16.size) (hj : j < UInt16.size)
    (h : portAt first i = portAt first j) : i = j := by
  have hnumbers := congrArg UInt16.toNat h
  rw [toNat_portAt, toNat_portAt] at hnumbers
  unfold UInt16.size at hi hj hnumbers
  omega

/-! ## The list of servers -/

namespace ServerTargets

variable {h : Host} {t : ServerTargets}

/-- The written form of an address of the kind that servers have. -/
def IsV4 (name : String) : Prop := (IpAddress.ofText? name).map IpAddress.isV4 = some true

/-- The written form of an address of the other kind. -/
def IsV6 (name : String) : Prop := (IpAddress.ofText? name).map IpAddress.isV4 = some false

theorem addressOf_v4 {name : String} {ip : IpAddress} (literal : IpAddress.ofText? name = some ip)
    (hv4 : ip.isV4 = true) : addressOf h name = .ok ip := by
  unfold addressOf Host.addressesOf
  rw [literal]
  simp only [List.find?_cons, hv4]

theorem addressOf_v6 {name : String} {ip : IpAddress} (literal : IpAddress.ofText? name = some ip)
    (hv6 : ip.isV4 = false) :
    addressOf h name = .error (.noAddress name (.described .notFound "no IPv4 address")) := by
  unfold addressOf Host.addressesOf
  rw [literal]
  simp only [List.find?_cons, hv6, List.find?_nil]

/-- The ports of one host. -/
def portsOf (ip : IpAddress) (first : UInt16) (ports : Nat) : List SocketAddress :=
  (List.range ports).map fun p => ⟨ip, portAt first p⟩

/-- The servers at some addresses. -/
def serversAt (t : ServerTargets) (ips : List IpAddress) : List SocketAddress :=
  ips.flatMap fun ip => portsOf ip t.firstPort t.ports

/-- The bytes of a list of all servers. -/
def bytes (t : ServerTargets) : Nat := t.hosts.length * t.ports * Memory.addressSize

/-- A server of a host is added, and the others follow. -/
theorem addPorts_succ {first : UInt16} {name : String} {ip : IpAddress}
    (haddress : addressOf h name = .ok ip) (offset count : Nat) (g : Growing SocketAddress) :
    addPorts h first name offset (count + 1) g =
      match g.push h.machine Memory.addressSize ⟨ip, portAt first offset⟩ with
      | .error c => .error (.oversized (c := c))
      | .ok g' => addPorts h first name (offset + 1) count g' := by
  rw [addPorts, haddress]
  show ((ResolveError.unbroken (g.push _ _ _)).bind _ : Except ResolveError _) = _
  cases g.push h.machine Memory.addressSize ⟨ip, portAt first offset⟩ <;> rfl

/-- The servers of a host are added, unless the room at the beginning was too small for them. -/
theorem addPorts_cases {first : UInt16} {name : String} {ip : IpAddress}
    (haddress : addressOf h name = .ok ip) (count : Nat) :
    ∀ (offset : Nat) {g : Growing SocketAddress}, g.Sound Memory.addressSize →
      (∃ g', addPorts h first name offset count g = .ok g' ∧ g'.Sound Memory.addressSize ∧
        g.room ≤ g'.room ∧
        g'.items.toList = g.items.toList ++
          (List.range' offset count).map fun p => ⟨ip, portAt first p⟩) ∨
      g.room < g.items.size + count ∧
        ∃ c, addPorts h first name offset count g = .error (.oversized (c := c)) := by
  induction count with
  | zero => exact fun offset g hg => .inl ⟨g, rfl, hg, Nat.le_refl _, (List.append_nil _).symm⟩
  | succ count ih =>
    intro offset g hg
    rw [addPorts_succ haddress]
    cases hpush : g.push h.machine Memory.addressSize ⟨ip, portAt first offset⟩ with
    | error c =>
      have hfull := Growing.room_of_push_error hpush
      exact .inr ⟨by omega, c, rfl⟩
    | ok next =>
      obtain ⟨hnext, hitems, hroom⟩ := Growing.push_sound hg hpush
      have hsize : next.items.size = g.items.size + 1 := by rw [hitems, Array.size_push]
      rcases ih (offset + 1) hnext with ⟨g', hrest, hg', hroom', hitems'⟩ | ⟨hshort, c, hrest⟩
      · refine .inl ⟨g', hrest, hg', Nat.le_trans hroom hroom', ?_⟩
        rw [hitems', hitems, Array.toList_push, List.append_assoc]
        rfl
      · exact .inr ⟨by omega, c, hrest⟩

/-- What comes of adding the servers of some hosts to a list. -/
inductive Added (t : ServerTargets) (names : List String) (ips : List IpAddress)
    (g : Growing SocketAddress) : Except ResolveError (Growing SocketAddress) → Prop
  /-- all are added -/
  | all {g' : Growing SocketAddress} (v4 : ∀ ip ∈ ips, ip.isV4 = true)
      (items : g'.items.toList = g.items.toList ++ t.serversAt ips)
      (sound : g'.Sound Memory.addressSize) : Added t names ips g (.ok g')
  /-- this host is the first of the wrong kind -/
  | odd {before : List String} {name : String} {after : List String}
      (split : names = before ++ name :: after) (v4 : ∀ other ∈ before, IsV4 other) (v6 : IsV6 name) :
      Added t names ips g (.error (.noAddress name (.described .notFound "no IPv4 address")))
  /-- the room at the beginning was too small, and memory holds no more -/
  | full {c : Breakdown} (short : g.room < g.items.size + names.length * t.ports) :
      Added t names ips g (.error (.oversized (c := c)))

theorem length_portsOf (ip : IpAddress) (first : UInt16) (ports : Nat) :
    (portsOf ip first ports).length = ports := by
  rw [portsOf, List.length_map, List.length_range]

/-- The servers of a host that is of the right kind are added, and then those of the others. -/
theorem Added.cons {name : String} {names : List String} {ip : IpAddress} {ips : List IpAddress}
    {g next : Growing SocketAddress} {r : Except ResolveError (Growing SocketAddress)}
    (literal : IpAddress.ofText? name = some ip) (hv4 : ip.isV4 = true) (hroom : g.room ≤ next.room)
    (hitems : next.items.toList = g.items.toList ++ portsOf ip t.firstPort t.ports)
    (hrest : t.Added names ips next r) : t.Added (name :: names) (ip :: ips) g r := by
  cases hrest with
  | all v4 items sound =>
    refine .all (List.forall_mem_cons.mpr ⟨hv4, v4⟩) ?_ sound
    rw [items, hitems, List.append_assoc]
    rfl
  | odd split v4 v6 =>
    refine .odd (congrArg (List.cons name) split) (List.forall_mem_cons.mpr ⟨?_, v4⟩) v6
    rw [IsV4, literal, Option.map_some, hv4]
  | full short =>
    have hsize := congrArg List.length hitems
    rw [List.length_append, length_portsOf, Array.length_toList, Array.length_toList] at hsize
    refine .full ?_
    rw [List.length_cons, Nat.succ_mul]
    omega

/-- **Hosts are looked at in order**, up to the first that is of the wrong kind. -/
theorem addHosts_added {names : List String} {ips : List IpAddress} (hports : 1 ≤ t.ports)
    (literal : names.map IpAddress.ofText? = ips.map some) {g : Growing SocketAddress}
    (hg : g.Sound Memory.addressSize) : t.Added names ips g (addHosts h t names g) := by
  induction names generalizing ips g with
  | nil =>
    obtain rfl : ips = [] := List.map_eq_nil_iff.mp literal.symm
    exact .all (fun ip hip => absurd hip List.not_mem_nil) (List.append_nil _).symm hg
  | cons name names ih =>
    cases ips with
    | nil => cases literal
    | cons ip ips =>
      obtain ⟨hname, hnames⟩ := List.cons.inj literal
      unfold addHosts
      cases hkind : ip.isV4 with
      | false =>
        -- this host is looked up for its first port, and the ones behind it are not looked at
        have hadd : addPorts h t.firstPort name 0 t.ports g =
            .error (.noAddress name (.described .notFound "no IPv4 address")) := by
          obtain ⟨count, hcount⟩ := Nat.exists_eq_add_of_le' hports
          rw [hcount, addPorts, addressOf_v6 hname hkind]
          rfl
        rw [hadd]
        have hbefore : ∀ other ∈ ([] : List String), IsV4 other := fun other hother =>
          absurd hother List.not_mem_nil
        refine .odd (List.nil_append (name :: names)).symm hbefore ?_
        rw [IsV6, hname, Option.map_some, hkind]
      | true =>
        rcases addPorts_cases (addressOf_v4 (h := h) hname hkind) t.ports 0 hg with
          ⟨next, hadd, hnext, hroom, hitems⟩ | ⟨hshort, c, hadd⟩
        · rw [hadd]
          rw [← List.range_eq_range'] at hitems
          exact .cons hname hkind hroom hitems (ih hnames hnext)
        · rw [hadd]
          refine .full ?_
          rw [List.length_cons, Nat.succ_mul]
          omega

theorem getElem?_portsOf {ip : IpAddress} {first : UInt16} {ports p : Nat} (hp : p < ports) :
    (portsOf ip first ports)[p]? = some ⟨ip, portAt first p⟩ := by
  rw [portsOf, List.getElem?_map, List.getElem?_range hp]
  rfl

theorem nodup_portsOf (ip : IpAddress) (first : UInt16) {ports : Nat} (h : ports ≤ UInt16.size) :
    (portsOf ip first ports).Nodup := by
  refine List.Nodup.map_on ?_ List.nodup_range
  intro i hi j hj heq
  rw [List.mem_range] at hi hj
  exact portAt_inj (by omega) (by omega) (SocketAddress.mk.inj heq).2

theorem length_serversAt (t : ServerTargets) (ips : List IpAddress) :
    (t.serversAt ips).length = ips.length * t.ports := by
  induction ips with
  | nil => exact (Nat.zero_mul _).symm
  | cons ip ips ih =>
    unfold serversAt at ih ⊢
    rw [List.flatMap_cons, List.length_append, length_portsOf, ih, List.length_cons, Nat.succ_mul,
      Nat.add_comm]

/-- The ports of each host take up as many places. -/
theorem getElem?_serversAt {ips : List IpAddress} {ip : IpAddress} {p : Nat} (hp : p < t.ports) :
    ∀ {i : Nat}, ips[i]? = some ip →
      (t.serversAt ips)[i * t.ports + p]? = some ⟨ip, portAt t.firstPort p⟩ := by
  induction ips with
  | nil => exact fun hi => nomatch hi
  | cons first ips ih =>
    intro i hi
    rw [serversAt, List.flatMap_cons]
    cases i with
    | zero =>
      cases hi
      rw [Nat.zero_mul, Nat.zero_add, List.getElem?_append_left (by rw [length_portsOf]; exact hp)]
      exact getElem?_portsOf hp
    | succ i =>
      -- the place lies behind the ports of the first host
      have hplace : (i + 1) * t.ports + p = t.ports + (i * t.ports + p) := by
        rw [Nat.succ_mul]
        omega
      rw [List.getElem?_append_right (by rw [length_portsOf, hplace]; omega), length_portsOf, hplace,
        Nat.add_sub_cancel_left]
      exact ih hi

theorem nodup_serversAt {ips : List IpAddress} (hports : t.ports ≤ UInt16.size) (hips : ips.Nodup) :
    (t.serversAt ips).Nodup := by
  refine List.nodup_flatMap.mpr ⟨fun ip _ => nodup_portsOf ip t.firstPort hports, hips.imp ?_⟩
  intro ip other hne a ha hother
  obtain ⟨p, -, rfl⟩ := List.mem_map.mp ha
  obtain ⟨q, -, heq⟩ := List.mem_map.mp hother
  exact hne (SocketAddress.mk.inj heq).1.symm

end ServerTargets

/-! ## The ports of a server command -/

theorem ServerPort.address_start {h : Host} {live : List ServerPort} {id : Nat} {port : UInt16}
    {o : ServerOptions} {p : ServerPort} (hstart : start h live id port o = .ok p) :
    p.address = ⟨o.bind, port⟩ := by
  unfold start at hstart
  split at hstart
  next => cases hstart
  next =>
    split at hstart
    next => cases hstart
    next =>
      split at hstart
      next => cases hstart
      next =>
        cases hstart
        rfl

namespace Node

/-- The ports that started have the numbers that follow each other, whether all started or not. -/
theorem startServers_ports (h : Host) (o : ServerOptions) (lowest : UInt16) (count : Nat) :
    ∀ (offset : Nat) (n : Node), ∃ started : List ServerPort,
      (startServers h o lowest offset count n).2.1.servers = n.servers ++ started ∧
      ((startServers h o lowest offset count n).1 = .ok () → started.length = count) ∧
      ∀ (p : Nat) (port : ServerPort), started[p]? = some port →
        port.address = ⟨o.bind, serverPortNumber lowest (offset + p)⟩ := by
  induction count with
  | zero => exact fun offset n => ⟨[], (List.append_nil _).symm, fun _ => rfl, fun _ _ hp => nomatch hp⟩
  | succ count ih =>
    intro offset n
    unfold startServers
    dsimp only
    split
    next e hstart => exact ⟨[], (List.append_nil _).symm, nofun, fun _ _ hp => nomatch hp⟩
    next hstart => exact ⟨[], (List.append_nil _).symm, nofun, fun _ _ hp => nomatch hp⟩
    next first hstart =>
      obtain ⟨started, hservers, hcount, hports⟩ := ih (offset + 1)
        { n with servers := n.servers ++ [first] }
      refine ⟨first :: started, ?_, fun hok => congrArg (· + 1) (hcount hok), ?_⟩
      · rw [← List.append_cons] at hservers
        exact hservers
      · intro p port hp
        -- the first port was started here, the others with the offset one higher
        cases p with
        | zero =>
          cases hp
          exact ServerPort.address_start hstart
        | succ p =>
          rw [hports p port hp, Nat.add_right_comm]
          rfl

theorem serverPortNumber_of_ne_zero {lowest : UInt16} (h : lowest ≠ 0) (offset : Nat) :
    serverPortNumber lowest offset = portAt lowest offset := if_neg h

/-- A server command with a port to begin with starts ports that follow each other from there on. -/
theorem execute_server_ports (h : Host) (file : String → FileOutcome) (time : String) (n : Node)
    (c : ServerCommand) (hfixed : c.lowestPort n.settings.server ≠ 0) :
    let r := n.execute h file time (.server c)
    ∃ started : List ServerPort, r.node.servers = n.servers ++ started ∧
      (r.result = .ok .continue → started.length = c.portCount n.settings.server) ∧
      ∀ (p : Nat) (port : ServerPort), started[p]? = some port →
        port.address.port = portAt (c.lowestPort n.settings.server) p := by
  show ∃ started : List ServerPort, (n.executeServer h c).node.servers = n.servers ++ started ∧
    ((n.executeServer h c).result = .ok .continue → _) ∧ _
  unfold executeServer
  split
  next e he => exact ⟨[], (List.append_nil _).symm, nofun, fun _ _ hp => nomatch hp⟩
  next o ho =>
    have hrun := startServers_ports h o (c.lowestPort n.settings.server)
      (c.portCount n.settings.server) 0 n
    dsimp only
    generalize startServers h o (c.lowestPort n.settings.server) 0 (c.portCount n.settings.server) n =
      run at hrun ⊢
    obtain ⟨result, last, log⟩ := run
    obtain ⟨started, hservers, hcount, hports⟩ := hrun
    have hnumbers (p : Nat) (port : ServerPort) (hp : started[p]? = some port) :
        port.address.port = portAt (c.lowestPort n.settings.server) p := by
      rw [hports p port hp, Nat.zero_add]
      exact serverPortNumber_of_ne_zero hfixed p
    cases result with
    | error e => exact ⟨started, hservers, nofun, hnumbers⟩
    | ok done => exact ⟨started, hservers, fun _ => hcount rfl, hnumbers⟩

end Node

/-! ## Both orders -/

namespace ServerTargets

variable {h : Host} {t : ServerTargets} {ips : List IpAddress}

/-- The first host of the wrong kind is named. -/
def NamesFirstV6 (t : ServerTargets) (r : Except ResolveError (List SocketAddress)) : Prop :=
  ∃ before name after, t.hosts = before ++ name :: after ∧ (∀ other ∈ before, IsV4 other) ∧ IsV6 name ∧
    r = .error (.noAddress name (.described .notFound "no IPv4 address"))

/-- A host of the wrong kind has an address of that kind. -/
theorem exists_v6 (literal : t.hosts.map IpAddress.ofText? = ips.map some) {name : String}
    (hname : name ∈ t.hosts) (hv6 : IsV6 name) : ∃ ip ∈ ips, ip.isV4 = false := by
  have hmem := List.mem_map_of_mem (f := IpAddress.ofText?) hname
  rw [literal] at hmem
  obtain ⟨ip, hip, hsome⟩ := List.mem_map.mp hmem
  rw [IsV6, ← hsome, Option.map_some, Option.some.injEq] at hv6
  exact ⟨ip, hip, hv6⟩

/-- Room for some servers was made, and the servers are added. -/
theorem resolve_of_room {room : Nat} {g : Growing SocketAddress}
    (hword : h.machine.word "multiply" (t.hosts.length * t.ports) = .ok room)
    (hroom : Growing.ofRoom h.machine Memory.addressSize room = .ok g) :
    t.resolve h = (addHosts h t t.hosts g).map fun g => g.items.toList := by
  unfold resolve
  rw [hword]
  show ((ResolveError.unbroken (Growing.ofRoom _ _ _)).bind _ : Except ResolveError _) = _
  rw [hroom]
  show ((addHosts h t t.hosts g).bind _ : Except ResolveError _) = _
  cases addHosts h t t.hosts g <;> rfl

/-- There is no room for the servers. -/
theorem resolve_of_no_room {room : Nat} {c : Breakdown}
    (hword : h.machine.word "multiply" (t.hosts.length * t.ports) = .ok room)
    (hroom : h.machine.reserve room Memory.addressSize = .error c) :
    t.resolve h = .error (.oversized (c := c)) := by
  unfold resolve Growing.ofRoom
  rw [hword]
  show ((ResolveError.unbroken ((h.machine.reserve _ _).map _)).bind _ : Except ResolveError _) = _
  rw [hroom]
  rfl

/-- What comes of a list for which room was made. -/
theorem resolve_cases (literal : t.hosts.map IpAddress.ofText? = ips.map some) (hports : 1 ≤ t.ports)
    {room : Nat} (hword : h.machine.word "multiply" (t.hosts.length * t.ports) = .ok room)
    (hreserve : h.machine.reserve room Memory.addressSize = .ok ()) :
    (∀ ip ∈ ips, ip.isV4 = true) ∧ t.resolve h = .ok (t.serversAt ips) ∧
        t.bytes ≤ Memory.limit ∨
      (∃ ip ∈ ips, ip.isV4 = false) ∧ t.NamesFirstV6 (t.resolve h) ∨
      room < t.hosts.length * t.ports ∧ ∃ c, t.resolve h = .error (.oversized (c := c)) := by
  have hroom : Growing.ofRoom h.machine Memory.addressSize room = .ok (⟨#[], room⟩ : Growing SocketAddress) := by
    rw [Growing.ofRoom, hreserve]
    rfl
  have hadded := addHosts_added (h := h) hports literal (Growing.ofRoom_sound hroom).1
  rw [resolve_of_room hword hroom]
  generalize addHosts h t t.hosts _ = r at hadded
  cases hadded with
  | @all g v4 items sound =>
    have hitems : g.items.toList = t.serversAt ips := items
    have hlength : t.hosts.length = ips.length := by
      simpa using congrArg List.length literal
    refine .inl ⟨v4, congrArg Except.ok hitems, ?_⟩
    have hsize : t.hosts.length * t.ports ≤ g.room := by
      rw [hlength, ← length_serversAt, ← hitems]
      exact sound.size_le
    exact Nat.le_trans (Nat.mul_le_mul_right _ hsize) sound.room_le
  | @odd before name after split v4 v6 =>
    refine .inr (.inl ⟨exists_v6 literal ?_ v6, before, name, after, split, v4, v6, rfl⟩)
    rw [split]
    simp
  | @full c short =>
    refine .inr (.inr ⟨?_, c, rfl⟩)
    exact (Nat.zero_add (t.hosts.length * t.ports)) ▸ short

/-- **The list of servers goes through the hosts in order, and through the ports of each host in order.**
If memory holds the list, it has a place for each port of each host; the port at place `p` of a host is the
one that a server command with the same first port starts as number `p`, unless it lets the system choose.
Hosts that differ have no server twice, as long as the ports go round less than once. If some host is of the
wrong kind, the first such host is named. A list that memory does not hold is never made. The program breaks
off over it before it looks at a host, unless the number of servers goes round: then too little room is made,
and the program may come to a host of the wrong kind first. -/
theorem resolve_hostMajor (h : Host) (t : ServerTargets) (ips : List IpAddress)
    (literal : t.hosts.map IpAddress.ofText? = ips.map some) (hports : 1 ≤ t.ports) :
    (t.bytes ≤ Memory.limit → t.bytes = 0 ∨ h.machine.grants t.bytes = true →
      ((∀ ip ∈ ips, ip.isV4 = true) → ∃ servers, t.resolve h = .ok servers ∧
        servers.length = t.hosts.length * t.ports ∧
        (∀ i p ip, ips[i]? = some ip → p < t.ports →
          servers[i * t.ports + p]? = some ⟨ip, portAt t.firstPort p⟩) ∧
        (t.ports ≤ UInt16.size → ips.Nodup → servers.Nodup)) ∧
      ((∃ ip ∈ ips, ip.isV4 = false) → t.NamesFirstV6 (t.resolve h))) ∧
    (t.bytes ≤ Memory.limit → t.bytes ≠ 0 → h.machine.grants t.bytes = false →
      t.resolve h = .error (.oversized (c := .exhausted t.bytes))) ∧
    (Memory.limit < t.bytes → t.hosts.length * t.ports < UInt64.size →
      t.resolve h = .error (.oversized (c := .unaddressable))) ∧
    (UInt64.size ≤ t.hosts.length * t.ports → h.machine.wraps = false →
      t.resolve h = .error (.oversized (c := .overflow "multiply"))) ∧
    (UInt64.size ≤ t.hosts.length * t.ports → h.machine.wraps = true →
      (∃ c, t.resolve h = .error (.oversized (c := c))) ∨
        (∃ ip ∈ ips, ip.isV4 = false) ∧ t.NamesFirstV6 (t.resolve h)) ∧
    (∀ p, (portAt t.firstPort p).toNat = (t.firstPort.toNat + p) % UInt16.size) ∧
    (t.firstPort ≠ 0 → ∀ (host : Host) file time (n : Node) (c : ServerCommand),
      c.lowestPort n.settings.server = t.firstPort →
      let r := n.execute host file time (.server c)
      ∃ started : List ServerPort, r.node.servers = n.servers ++ started ∧
        (r.result = .ok .continue → started.length = c.portCount n.settings.server) ∧
        ∀ (p : Nat) (port : ServerPort), started[p]? = some port →
          port.address.port = portAt t.firstPort p) := by
  have hlength : t.hosts.length = ips.length := by simpa using congrArg List.length literal
  have hword (hbytes : t.bytes ≤ Memory.limit) :
      h.machine.word "multiply" (t.hosts.length * t.ports) = .ok (t.hosts.length * t.ports) := by
    refine h.machine.word_of_lt _ ?_
    simp only [bytes, Memory.addressSize, Memory.limit, Nat.pow_eq, UInt64.size] at hbytes ⊢
    omega
  have hlarge (hcount : UInt64.size ≤ t.hosts.length * t.ports) : ¬ t.bytes ≤ Memory.limit := by
    simp only [bytes, Memory.addressSize, Memory.limit, Nat.pow_eq, UInt64.size] at hcount ⊢
    omega
  refine ⟨?_, ?_, ?_, ?_, ?_, toNat_portAt t.firstPort, ?_⟩
  · intro hbytes hgranted
    have hreserve : h.machine.reserve (t.hosts.length * t.ports) Memory.addressSize = .ok () := by
      rw [h.machine.reserve_of_le hbytes]
      exact if_pos (by rw [Bool.or_eq_true, decide_eq_true_iff]; exact hgranted)
    rcases resolve_cases literal hports (hword hbytes) hreserve with
      ⟨hall, hresolve, -⟩ | ⟨⟨odd, hodd, hv6⟩, hnames⟩ | ⟨hshort, -⟩
    · refine ⟨fun _ => ⟨t.serversAt ips, hresolve, ?_, ?_, nodup_serversAt⟩, ?_⟩
      · rw [length_serversAt, hlength]
      · exact fun i p ip hi hp => getElem?_serversAt hp hi
      · rintro ⟨ip, hip, hv6⟩
        rw [hall ip hip] at hv6
        cases hv6
    · refine ⟨fun hall => ?_, fun _ => hnames⟩
      rw [hall odd hodd] at hv6
      cases hv6
    · exact absurd hshort (Nat.lt_irrefl _)
  · intro hbytes hsome hrefused
    refine resolve_of_no_room (hword hbytes) ?_
    rw [h.machine.reserve_of_le hbytes]
    refine if_neg ?_
    rw [Bool.or_eq_true, decide_eq_true_iff]
    rintro (hnone | hgranted)
    · exact hsome hnone
    · exact absurd (hrefused.symm.trans hgranted) Bool.false_ne_true
  · intro hbytes hcount
    exact resolve_of_no_room (h.machine.word_of_lt _ hcount) (h.machine.reserve_of_gt hbytes)
  · intro hcount hchecks
    rw [resolve, h.machine.word_of_ge _ hcount hchecks]
    rfl
  · intro hcount hwraps
    have hround := h.machine.word_of_wraps "multiply" (t.hosts.length * t.ports) hwraps
    cases hreserve : h.machine.reserve (t.hosts.length * t.ports % UInt64.size) Memory.addressSize with
    | error c => exact .inl ⟨c, resolve_of_no_room hround hreserve⟩
    | ok _ =>
      rcases resolve_cases literal hports hround hreserve with ⟨-, -, hbytes⟩ | hnames | ⟨-, hbroken⟩
      · exact absurd hbytes (hlarge hcount)
      · exact .inr hnames
      · exact .inl hbroken
  · intro hfixed host file time n c hlowest
    rw [← hlowest] at hfixed ⊢
    exact n.execute_server_ports host file time c hfixed

/-- Two hosts with three ports each, from the last port on: the second port of the second host is 0, which
is what a server command with the same ports starts in second place. -/
theorem resolve_hostMajor_wrapping :
    let t : ServerTargets := ⟨["10.0.0.1", "10.0.0.2"], 65535, 3⟩
    let r := (Node.new {}).execute .isolated (fun _ => .good) "" (.server ⟨none, some 3, some 65535, none⟩)
    ∃ servers started, t.resolve .isolated = .ok servers ∧ servers.Nodup ∧
      servers[1 * 3 + 1]? = some ⟨.v4 10 0 0 2, 0⟩ ∧ r.node.servers = started ∧ started.length = 3 ∧
      ∀ port, started[1]? = some port → port.address.port = 0 := by
  intro t r
  obtain ⟨hheld, -, -, -, -, -, hserver⟩ := resolve_hostMajor .isolated t [.v4 10 0 0 1, .v4 10 0 0 2]
    (by decide +kernel) (by decide)
  obtain ⟨servers, hresolve, -, hplaces, honce⟩ := (hheld (by decide) (.inr rfl)).1 (by decide)
  obtain ⟨started, hstarted, hcount, hports⟩ := hserver (by decide) .isolated (fun _ => .good) ""
    (Node.new {}) ⟨none, some 3, some 65535, none⟩ rfl
  have hwraps : portAt 65535 1 = 0 := by decide
  refine ⟨servers, started, hresolve, honce (by decide) (by decide), ?_, hstarted, hcount rfl, ?_⟩
  · rw [← hwraps]
    exact hplaces 1 1 (.v4 10 0 0 2) rfl (by decide)
  · intro port hport
    rw [← hwraps]
    exact hports 1 port hport

/-- The list for the most ports that a command can ask for is too long for memory, so a host of the wrong
kind is not named; nor would there be a list for the other kind. -/
theorem resolve_oversized :
    IpAddress.ofText? "::1" = some (.v6 0 0 0 0 0 0 0 1) ∧
      resolve .isolated ⟨["::1"], 4000, UInt64.size - 1⟩ = .error (.oversized (c := .unaddressable)) ∧
      IpAddress.ofText? "10.0.0.1" = some (.v4 10 0 0 1) ∧
      resolve .isolated ⟨["10.0.0.1"], 4000, UInt64.size - 1⟩ =
        .error (.oversized (c := .unaddressable)) := by
  refine ⟨?_, rfl, ?_, rfl⟩
  · decide +kernel
  · decide +kernel

/-- Where the number of servers goes round, no room is made for two hosts with half of all numbers of ports
each, and the first of them is looked at. -/
example : resolve { Host.isolated with machine := ⟨true, fun _ => true⟩ } ⟨["::1", "::1"], 4000, Nat.pow 2 63⟩ =
    .error (.noAddress "::1" (.described .notFound "no IPv4 address")) := by
  decide +kernel

end ServerTargets

end EchoLoad
