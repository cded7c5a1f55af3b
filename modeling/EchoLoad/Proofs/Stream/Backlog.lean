import EchoLoad.Proofs.Stream.Requests
import EchoLoad.Stream.Retry
import Mathlib.Data.List.Perm.Basic

/-!
# The backlog holds the servers for which something waits

A server comes into the backlog when its queue starts to fill, and leaves it when a retry left nothing to
write. The retry takes three sections, and receivers may close connections before, between and after them.

> `SharedClient.run?_backlog`: whenever no retry is in progress, each server is in the backlog at most
> once, each one for which something waits is in it, and no open connection of an entry has nothing to
> write. No section looks past the end of an array.

A receiver never touches what waits, it only closes. So the one exception is the server whose last bytes
were written and whose entry is about to go, and the invariant (`SharedClient.Sound`) knows which that is.
Each section keeps the invariant (`Sound.step`), and with no receiver in between the three sections are
what a client does in one call (`SharedClient.run?_flush`).
-/

namespace EchoLoad.Stream

open Framing

/-! ## The list of servers -/

namespace Backlog

/-- What is picked stands at its place. -/
theorem pick?_eq_some {b : Backlog} {index server : Nat} (h : b.pick? = some (index, server)) :
    b.servers[index]? = some server := by
  unfold pick? at h
  obtain ⟨found, hfound, hpair⟩ := Option.map_eq_some_iff.mp h
  cases hpair
  exact hfound

/-- The last entry takes the place of one that goes. -/
theorem set_dropLast_perm {init : List Nat} {last index : Nat}
    (h : index < (init ++ [last]).length) :
    (((init ++ [last]).set index last).dropLast).Perm ((init ++ [last]).eraseIdx index) := by
  rw [List.length_append, List.length_singleton] at h
  rcases Nat.lt_or_eq_of_le (Nat.le_of_lt_succ h) with hlt | rfl
  · rw [List.set_append_left _ _ hlt, List.dropLast_concat, List.eraseIdx_append_of_lt_length hlt]
    exact (List.set_perm_cons_eraseIdx hlt last).trans (List.perm_append_singleton _ _).symm
  · rw [List.set_append_right _ _ (Nat.le_refl _),
      List.eraseIdx_append_of_length_le (Nat.le_refl _), Nat.sub_self]
    simp

/-- **The entry at a place is taken out**, and the others stay, in another order. -/
theorem swapRemove_perm {b : Backlog} {index server : Nat} (h : b.servers[index]? = some server) :
    (server :: (b.swapRemove index).servers.toList).Perm b.servers.toList := by
  rw [← Array.getElem?_toList] at h
  obtain ⟨hlt, rfl⟩ := List.getElem?_eq_some_iff.mp h
  refine (List.Perm.cons _ ?_).trans (List.getElem_cons_eraseIdx_perm hlt)
  rcases List.eq_nil_or_concat b.servers.toList with hnil | ⟨init, last, hlist⟩
  · rw [hnil] at hlt
    cases hlt
  · rw [List.concat_eq_append] at hlist
    have hback : b.servers.back? = some last := by
      rw [← Array.getLast?_toList, hlist, List.getLast?_concat]
    have hremoved : (b.swapRemove index).servers.toList =
        (b.servers.toList.set index last).dropLast := by
      simp only [swapRemove, hback, Array.toList_pop, Array.toList_setIfInBounds]
    rw [hremoved, hlist]
    exact set_dropLast_perm (hlist ▸ hlt)

end Backlog

/-! ## The invariant -/

namespace SharedClient

/-- Each call of the sender succeeded, or said that the peer had closed the connection. -/
def Unfailed (s : SharedClient) : Prop := ∀ r ∈ s.returns, r = .ok () ∨ r = .error .peerClosed

/-- Nothing is left to write for the server, and its entry in the backlog is about to go. -/
def Leaving (s : SharedClient) (server : Nat) : Prop :=
  ∃ index, s.retry = some (.written index server true)

/-- The backlog fits the connections. -/
structure Sound (servers : Nat) (s : SharedClient) : Prop where
  size : s.client.connections.size = servers
  once : s.client.backlog.servers.toList.Nodup
  inRange : ∀ server ∈ s.client.backlog.servers.toList, server < servers
  /-- the retry in progress is one of the server at its place -/
  held : ∀ r, s.retry = some r → s.client.backlog.servers[r.index]? = some r.server
  idle : ∀ server ∈ s.client.backlog.servers.toList, s.client.Idle server → s.Leaving server
  leaving : ∀ server, s.Leaving server → ¬ s.client.Waits server
  complete : s.Unfailed → ∀ server, s.client.Waits server →
    server ∈ s.client.backlog.servers.toList

theorem sound_new (servers frameLimit : Nat) : (new servers frameLimit).Sound servers where
  size := Array.size_replicate
  once := List.nodup_nil
  inRange := nofun
  held := nofun
  idle := nofun
  leaving := nofun
  complete := by
    rintro - server ⟨f, hf, hpending⟩
    have hslot := Client.getElem?_of_connection? hf
    have hslot' : (Array.replicate servers (some (Framer.new frameLimit)))[server]? =
        some (some f) := hslot
    rw [Array.getElem?_replicate] at hslot'
    split at hslot'
    · cases hslot'
      exact absurd rfl hpending
    · cases hslot'

variable {servers : Nat} {s : SharedClient}

theorem Unfailed.of_returned {c : Client} {result : Except TransportError Unit}
    (h : (s.returned c result).Unfailed) : s.Unfailed ∧ (result = .ok () ∨ result = .error .peerClosed) :=
  ⟨fun r hr => h r (List.mem_append_left _ hr), h result (by simp [returned])⟩

theorem not_leaving_of_none (h : s.retry = none) (server : Nat) : ¬ s.Leaving server := by
  rintro ⟨index, hindex⟩
  rw [h] at hindex
  cases hindex

theorem not_leaving_of_picked {index server : Nat} (h : s.retry = some (.picked index server))
    (other : Nat) : ¬ s.Leaving other := by
  rintro ⟨index', hindex⟩
  rw [h] at hindex
  cases hindex

/-- A call that changed nothing returns. -/
theorem Sound.returned (hs : s.Sound servers) (hretry : s.retry = none)
    (result : Except TransportError Unit) : (s.returned s.client result).Sound servers where
  size := hs.size
  once := hs.once
  inRange := hs.inRange
  held := nofun
  idle := fun server hmem hidle => absurd (hs.idle server hmem hidle) (not_leaving_of_none hretry server)
  leaving := fun server hleaving => absurd hleaving (not_leaving_of_none rfl server)
  complete := fun hunfailed => hs.complete hunfailed.of_returned.1

/-- **A queue changes, and the backlog does not.** -/
theorem Sound.put (hs : s.Sound servers) {server : Nat} {after : Framer} {retry : Option Retry}
    {returns : List (Except TransportError Unit)} (hlt : server < s.client.connections.size)
    (hbefore : ∀ other, ¬ s.Leaving other)
    (hheld : ∀ r, retry = some r → s.client.backlog.servers[r.index]? = some r.server)
    (hidle : server ∈ s.client.backlog.servers.toList → after.pending = 0 →
      ∃ index, retry = some (.written index server true))
    (hleaving : ∀ index other, retry = some (.written index other true) →
      other = server ∧ after.pending = 0)
    (hcomplete : (∀ r ∈ returns, r = .ok () ∨ r = .error .peerClosed) →
      s.Unfailed ∧ (after.pending ≠ 0 → server ∈ s.client.backlog.servers.toList)) :
    Sound servers ⟨s.client.put server after, retry, returns⟩ where
  size := (s.client.size_put server after).trans hs.size
  once := hs.once
  inRange := hs.inRange
  held := hheld
  idle := by
    intro other hmem hother
    have hother' := (Client.idle_put hlt after other).mp hother
    split at hother'
    next hsame => exact hsame ▸ hidle (hsame ▸ hmem) hother'
    next => exact absurd (hs.idle other hmem hother') (hbefore other)
  leaving := by
    rintro other ⟨index, hindex⟩ hwaits
    obtain ⟨rfl, hpending⟩ := hleaving index other hindex
    have hwaits' := (Client.waits_put hlt after other).mp hwaits
    rw [if_pos rfl] at hwaits'
    exact hwaits' hpending
  complete := by
    intro hunfailed other hwaits
    obtain ⟨hunfailed', hmem⟩ := hcomplete hunfailed
    have hwaits' := (Client.waits_put hlt after other).mp hwaits
    split at hwaits'
    next hsame => exact hsame ▸ hmem hwaits'
    next => exact hs.complete hunfailed' other hwaits'

/-- A server for which nothing waits is not in the backlog, unless a retry just wrote the last of it. -/
theorem Sound.not_mem (hs : s.Sound servers) (hretry : s.retry = none) {server : Nat}
    (hidle : s.client.Idle server) : server ∉ s.client.backlog.servers.toList :=
  fun hmem => not_leaving_of_none hretry server (hs.idle server hmem hidle)

/-- A request was sent. -/
theorem Sound.sent (hs : s.Sound servers) (hretry : s.retry = none) {server : Nat}
    {run : ClientRun Unit} (hrun : s.client.Sent server run) :
    (s.returned run.client run.result).Sound servers := by
  have hbefore := not_leaving_of_none hretry
  cases hrun with
  | closed gone => exact hs.returned hretry _
  | @behind before after opened waits still =>
    refine hs.put (Client.lt_size_of_connection? opened) hbefore nofun
      (fun _ hnone => absurd hnone still) nofun fun hunfailed => ?_
    have hunfailed' : s.Unfailed := (Unfailed.of_returned (c := s.client) hunfailed).1
    exact ⟨hunfailed', fun _ => hs.complete hunfailed' server ⟨before, opened, waits⟩⟩
  | @written before after bytes opened idle empty =>
    refine hs.put (Client.lt_size_of_connection? opened) hbefore nofun
      (fun hmem _ => absurd hmem (hs.not_mem hretry ⟨before, opened, idle⟩)) nofun fun hunfailed => ?_
    exact ⟨(Unfailed.of_returned (c := s.client) hunfailed).1, fun hwaits => absurd empty hwaits⟩
  | @failed before after bytes e opened idle =>
    refine hs.put (Client.lt_size_of_connection? opened) hbefore nofun
      (fun hmem _ => absurd hmem (hs.not_mem hretry ⟨before, opened, idle⟩)) nofun fun hunfailed => ?_
    exact absurd (Unfailed.of_returned (c := s.client) hunfailed).2 (by simp)
  | @backedUp before after bytes opened idle waits =>
    -- the server was not in the backlog, and is its last entry now
    have hlt := Client.lt_size_of_connection? opened
    have hnew := hs.not_mem hretry ⟨before, opened, idle⟩
    have hentries : (s.client.backlog.servers.push server).toList =
        s.client.backlog.servers.toList ++ [server] := Array.toList_push
    refine ⟨(s.client.size_put server after).trans hs.size, ?_, ?_, nofun, ?_,
      fun other hother => absurd hother (not_leaving_of_none rfl other), ?_⟩
    · show (s.client.backlog.servers.push server).toList.Nodup
      rw [hentries]
      exact (List.perm_append_singleton _ _).nodup_iff.mpr (List.nodup_cons.mpr ⟨hnew, hs.once⟩)
    · intro other hmem
      have hmem' : other ∈ (s.client.backlog.servers.push server).toList := hmem
      rw [hentries, List.mem_append, List.mem_singleton] at hmem'
      rcases hmem' with hold | rfl
      · exact hs.inRange other hold
      · exact hs.size ▸ hlt
    · intro other hmem hidle
      have hmem' : other ∈ (s.client.backlog.servers.push server).toList := hmem
      rw [hentries, List.mem_append, List.mem_singleton] at hmem'
      have hidle' := (Client.idle_put hlt after other).mp hidle
      split at hidle'
      next => exact absurd hidle' waits
      next hne => exact absurd (hs.idle other (hmem'.resolve_right hne) hidle') (hbefore other)
    · intro hunfailed other hwaits
      show other ∈ (s.client.backlog.servers.push server).toList
      rw [hentries, List.mem_append, List.mem_singleton]
      have hwaits' := (Client.waits_put hlt after other).mp hwaits
      split at hwaits'
      next hsame => exact .inr hsame
      next => exact .inl (hs.complete (Unfailed.of_returned hunfailed).1 other hwaits')

/-- A server was picked, if one is in the backlog. -/
theorem Sound.pick (hs : s.Sound servers) (hretry : s.retry = none) :
    ∃ t, s.step? .pick = some t ∧ t.Sound servers := by
  cases hpick : s.client.backlog.pick? with
  | none =>
    simp only [step?, hretry, hpick]
    exact ⟨_, rfl, hs.returned hretry _⟩
  | some place =>
    obtain ⟨index, server⟩ := place
    simp only [step?, hretry, hpick]
    refine ⟨_, rfl, hs.size, hs.once, hs.inRange, ?_, ?_, ?_, hs.complete⟩
    · rintro r ⟨⟩
      exact Backlog.pick?_eq_some hpick
    · exact fun other hmem hidle =>
        absurd (hs.idle other hmem hidle) (not_leaving_of_none hretry other)
    · exact fun other hother => absurd hother (not_leaving_of_picked rfl other)

/-- The picked server is in the backlog. -/
theorem Sound.mem_of_retry (hs : s.Sound servers) {r : Retry} (h : s.retry = some r) :
    r.server ∈ s.client.backlog.servers.toList := by
  have hheld := hs.held r h
  rw [← Array.getElem?_toList] at hheld
  exact List.mem_of_getElem? hheld

/-- What waits for the picked server was written, as far as the stream took it. -/
theorem Sound.write (hs : s.Sound servers) {index server : Nat}
    (hretry : s.retry = some (.picked index server)) (writes : List WriteOutcome) :
    ∃ t, s.step? (.write writes) = some t ∧ t.Sound servers := by
  have hmem := hs.mem_of_retry hretry
  have hheld := hs.held _ hretry
  have hbefore := not_leaving_of_picked hretry
  have hlt : server < s.client.connections.size := hs.size ▸ hs.inRange server hmem
  simp only [step?, hretry, if_pos hlt]
  have hresumed := s.client.resume_resumed server writes
  generalize s.client.resume server writes = run at hresumed
  cases hresumed with
  | closed gone =>
    refine ⟨_, rfl, hs.size, hs.once, hs.inRange, ?_, ?_, ?_, hs.complete⟩
    · rintro r ⟨⟩
      exact hheld
    · exact fun other hmem hidle => absurd (hs.idle other hmem hidle) (hbefore other)
    · rintro other ⟨index', hindex⟩ ⟨f, hf, -⟩
      cases hindex
      have hf' : s.client.connection? server = some f := hf
      rw [gone] at hf'
      cases hf'
  | drained opened empty =>
    refine ⟨_, rfl, hs.put hlt hbefore ?_ (fun _ _ => ⟨index, rfl⟩) ?_ fun hunfailed => ?_⟩
    · rintro r ⟨⟩
      exact hheld
    · rintro index' other ⟨⟩
      exact ⟨rfl, empty⟩
    · exact ⟨hunfailed, fun hwaits => absurd empty hwaits⟩
  | stuck opened waits =>
    refine ⟨_, rfl, hs.put hlt hbefore ?_ (fun _ hnone => absurd hnone waits) nofun fun hunfailed => ?_⟩
    · rintro r ⟨⟩
      exact hheld
    · exact ⟨hunfailed, fun _ => hmem⟩
  | failed opened waits =>
    refine ⟨_, rfl, hs.put hlt hbefore nofun (fun _ hnone => absurd hnone waits) nofun
      fun hunfailed => ?_⟩
    exact ⟨(Unfailed.of_returned (c := s.client) hunfailed).1, fun _ => hmem⟩

/-- The backlog was updated. -/
theorem Sound.settle (hs : s.Sound servers) {index server : Nat} {drained : Bool}
    (hretry : s.retry = some (.written index server drained)) :
    ∃ t, s.step? .settle = some t ∧ t.Sound servers := by
  have hheld : s.client.backlog.servers[index]? = some server := hs.held _ hretry
  have hlt : index < s.client.backlog.servers.size := (Array.getElem?_eq_some_iff.mp hheld).1
  have hfits : ¬ (drained = true ∧ s.client.backlog.servers.size ≤ index) :=
    fun h => Nat.not_le_of_lt hlt h.2
  simp only [step?, hretry, if_neg hfits]
  refine ⟨_, rfl, ?_⟩
  cases drained with
  | false =>
    -- the entry stays, so the server is not about to leave
    have hbefore : ∀ other, ¬ s.Leaving other := by
      rintro other ⟨index', hindex⟩
      rw [hretry] at hindex
      cases hindex
    exact ⟨hs.size, hs.once, hs.inRange, nofun,
      fun other hmem hidle => absurd (hs.idle other hmem hidle) (hbefore other),
      fun other hother => absurd hother (not_leaving_of_none rfl other),
      fun hunfailed => hs.complete (Unfailed.of_returned hunfailed).1⟩
  | true =>
    have hperm := Backlog.swapRemove_perm hheld
    obtain ⟨hgone, honce⟩ := List.nodup_cons.mp (hperm.nodup_iff.mpr hs.once)
    have hmem : ∀ other, other ∈ (s.client.backlog.swapRemove index).servers.toList →
        other ∈ s.client.backlog.servers.toList :=
      fun other h => hperm.mem_iff.mp (List.mem_cons_of_mem _ h)
    refine ⟨hs.size, honce, fun other h => hs.inRange other (hmem other h), nofun, ?_,
      fun other hother => absurd hother (not_leaving_of_none rfl other), ?_⟩
    · intro other h hidle
      obtain ⟨index', hindex⟩ := hs.idle other (hmem other h) hidle
      rw [hretry] at hindex
      cases hindex
      exact absurd h hgone
    · intro hunfailed other hwaits
      have hold := hs.complete (Unfailed.of_returned hunfailed).1 other hwaits
      have hcases := hperm.mem_iff.mpr hold
      refine (List.mem_cons.mp hcases).resolve_left ?_
      rintro rfl
      exact hs.leaving other ⟨index, hretry⟩ hwaits

/-- A receiver came in. -/
theorem Sound.receive (hs : s.Sound servers) (mode : ReadMode) (server : Nat)
    (reads : List ReadOutcome) :
    Sound servers { s with client := (s.client.receive mode server reads).2 } := by
  have hbacklog := s.client.backlog_receive mode server reads
  have hsize := s.client.size_receive mode server reads
  refine ⟨hsize.trans hs.size, ?_, ?_, ?_, ?_, fun other hother hwaits => ?_, ?_⟩
  · exact hbacklog ▸ hs.once
  · exact hbacklog ▸ hs.inRange
  · exact hbacklog ▸ hs.held
  · exact fun other hmem hidle => hs.idle other (hbacklog ▸ hmem) hidle.of_receive
  · exact hs.leaving other hother hwaits.of_receive
  · exact fun hunfailed other hwaits => hbacklog ▸ hs.complete hunfailed other hwaits.of_receive

/-- **Each section keeps the backlog in order, and none ends the program.** -/
theorem Sound.step (hs : s.Sound servers) (e : SharedStep)
    (hsend : ∀ server frame writes, e = .send server frame writes → server < servers) :
    ∃ t, s.step? e = some t ∧ t.Sound servers := by
  cases e with
  | send server frame writes =>
    cases hretry : s.retry with
    | some r => exact ⟨s, by simp only [step?, hretry], hs⟩
    | none =>
      obtain ⟨run, hrun, hsent⟩ := s.client.send?_sent
        (hs.size ▸ hsend server frame writes rfl) frame writes
      exact ⟨_, by simp only [step?, hretry, hrun, Option.map_some], hs.sent hretry hsent⟩
  | pick =>
    cases hretry : s.retry with
    | some r => exact ⟨s, by simp only [step?, hretry], hs⟩
    | none => exact hs.pick hretry
  | write writes =>
    cases hretry : s.retry with
    | none => exact ⟨s, by simp only [step?, hretry], hs⟩
    | some r =>
      cases r with
      | written index server drained => exact ⟨s, by simp only [step?, hretry], hs⟩
      | picked index server => exact hs.write hretry writes
  | settle =>
    cases hretry : s.retry with
    | none => exact ⟨s, by simp only [step?, hretry], hs⟩
    | some r =>
      cases r with
      | picked index server => exact ⟨s, by simp only [step?, hretry], hs⟩
      | written index server drained => exact hs.settle hretry
  | receive mode server reads => exact ⟨_, rfl, hs.receive mode server reads⟩

theorem Sound.run (hs : s.Sound servers) (steps : List SharedStep)
    (hsends : ∀ server frame writes, .send server frame writes ∈ steps → server < servers) :
    ∃ t, s.run? steps = some t ∧ t.Sound servers := by
  induction steps generalizing s with
  | nil => exact ⟨s, rfl, hs⟩
  | cons e steps ih =>
    obtain ⟨t, ht, hsound⟩ := hs.step e fun server frame writes he =>
      hsends server frame writes (he ▸ List.mem_cons_self)
    obtain ⟨u, hu, hsound'⟩ := ih hsound fun server frame writes he =>
      hsends server frame writes (List.mem_cons_of_mem e he)
    refine ⟨u, ?_, hsound'⟩
    rw [run?, List.foldlM_cons, ht]
    exact hu

/-! ## A whole run -/

/-- With no receiver in between, the three sections are one retry. -/
theorem run?_flush (hs : s.Sound servers) (hretry : s.retry = none) (writes : List WriteOutcome) :
    s.run? [.pick, .write writes, .settle] =
      some (s.returned (s.client.flush writes).client (s.client.flush writes).result) := by
  simp only [run?, List.foldlM_cons, List.foldlM_nil]
  cases hpick : s.client.backlog.pick? with
  | none =>
    simp only [step?, hretry, Client.flush, hpick]
    rfl
  | some place =>
    obtain ⟨index, server⟩ := place
    have hheld := Backlog.pick?_eq_some hpick
    have hplace := (Array.getElem?_eq_some_iff.mp hheld).1
    have hmem : server ∈ s.client.backlog.servers.toList :=
      Array.mem_toList_iff.mpr (Array.mem_of_getElem? hheld)
    have hlt : server < s.client.connections.size := hs.size ▸ hs.inRange server hmem
    have hbacklog := s.client.backlog_resume server writes
    simp only [step?, hretry, Client.flush, hpick, Option.bind_eq_bind, Option.bind_some, if_pos hlt]
    cases hresult : (s.client.resume server writes).result with
    | error e => rfl
    | ok drained =>
      have hfits : ¬ (drained = true ∧
          (s.client.resume server writes).client.backlog.servers.size ≤ index) :=
        fun h => Nat.not_le_of_lt hplace (hbacklog ▸ h.2)
      simp only [Option.bind_some, if_neg hfits]
      rfl

/-- **The backlog holds the servers for which something waits.** A sender sends requests to its servers
and retries the backlog, and receivers read at any time, with any outcomes of reads and writes. Then no
section looks past the end of an array, and the retry in progress is one of the server that stands at
its place in the backlog. When no retry is in progress, no server is in the backlog twice, and each entry
is a server whose connection is closed or has something to write; if each call so far succeeded or said
that the peer had closed the connection, each server for which something waits is in it. A request for a
server for which something waits is put behind that, and nothing is written. -/
theorem run?_backlog {frameLimit : Nat} (steps : List SharedStep)
    (hsends : ∀ server frame writes, .send server frame writes ∈ steps → server < servers) :
    ∃ t, (new servers frameLimit).run? steps = some t ∧
      (∀ r, t.retry = some r → t.client.backlog.servers[r.index]? = some r.server ∧
        r.server < t.client.connections.size) ∧
      (t.retry = none →
        t.client.backlog.servers.toList.Nodup ∧
        (∀ server ∈ t.client.backlog.servers.toList, server < servers ∧
          (t.client.connection? server = none ∨ t.client.Waits server)) ∧
        (t.Unfailed → ∀ server, t.client.Waits server →
          server ∈ t.client.backlog.servers.toList)) ∧
      (∀ server before frame writes, t.client.connection? server = some before →
        before.pending ≠ 0 → ∃ outbound : Outbound,
          t.client.send? server frame writes =
            some ⟨t.client.put server { before with outbound := outbound }, [], .ok ()⟩ ∧
          outbound.queue = before.outbound.queue ++ [frame] ∧
          outbound.sent = before.outbound.sent) := by
  obtain ⟨t, ht, hsound⟩ := (sound_new servers frameLimit).run steps hsends
  refine ⟨t, ht, fun r hr => ⟨hsound.held r hr, ?_⟩, fun hretry => ⟨hsound.once, ?_, hsound.complete⟩,
    fun server before frame writes hopen hwaits => Client.send?_behind hopen hwaits frame writes⟩
  · exact hsound.size ▸ hsound.inRange _ (hsound.mem_of_retry hr)
  · intro server hmem
    refine ⟨hsound.inRange server hmem, ?_⟩
    cases hopen : t.client.connection? server with
    | none => exact .inl rfl
    | some f =>
      refine .inr ⟨f, hopen, fun hidle => ?_⟩
      exact hsound.not_mem hretry ⟨f, hopen, hidle⟩ hmem

/-- Requests for two servers back up. A receiver sees the first connection end while its server is being
retried. -/
def retrySteps : List SharedStep :=
  [.send 0 ⟨⟨16, 1, 2, 3⟩, []⟩ [.accept 10, .block], .send 1 ⟨⟨16, 1, 2, 4⟩, []⟩ [.block], .pick,
    .receive .once 0 [.data []], .write [.accept 100], .settle]

/-- The closed connection leaves the backlog, and the other one stays. -/
theorem run?_backlog_closed :
    ∃ t, (new 2 64).run? retrySteps = some t ∧ t.retry = none ∧
      t.client.backlog.servers = #[1] ∧ t.client.connection? 0 = none ∧ t.client.Waits 1 := by
  have hsends : ∀ server frame writes, .send server frame writes ∈ retrySteps → server < 2 := by
    intro server frame writes hmem
    simp only [retrySteps, List.mem_cons, List.not_mem_nil, SharedStep.send.injEq, reduceCtorEq,
      or_false] at hmem
    omega
  have hseen : ((new 2 64).run? retrySteps).map (fun t =>
      (t.retry, t.client.backlog.servers, (t.client.connection? 0).isNone,
        (t.client.connection? 1).isNone)) = some (none, #[1], true, false) := by decide
  obtain ⟨t, ht, -, hbacklog, -⟩ := @run?_backlog 2 64 retrySteps hsends
  rw [ht, Option.map_some, Option.some.injEq, Prod.mk.injEq, Prod.mk.injEq, Prod.mk.injEq] at hseen
  obtain ⟨hretry, hservers, hclosed, hopen⟩ := hseen
  obtain ⟨-, hentries, -⟩ := hbacklog hretry
  have hmem : 1 ∈ t.client.backlog.servers.toList := by
    rw [hservers]
    exact List.mem_singleton_self 1
  have hwaits : t.client.Waits 1 := by
    refine (hentries 1 hmem).2.resolve_left fun hnone => ?_
    rw [hnone] at hopen
    cases hopen
  exact ⟨t, ht, hretry, hservers, Option.isNone_iff_eq_none.mp hclosed, hwaits⟩

end SharedClient

end EchoLoad.Stream
