import EchoLoad.Datagram.Exchange

/-!
# An undisturbed request is answered

> `Exchange.run_undisturbed`: a request that fits into a datagram, and that is neither lost nor refused
> on the way to a worker that waits and back, is handed on with the header that it was sent with.

Others may be under way meanwhile, and other workers in the middle of a reply.
-/

namespace EchoLoad.Datagram

variable {α : Type}

namespace Server

variable {s : Server α} {i : Nat} {t : Thread α}

theorem receive_eq (ht : s.threads[i]? = some t) (hphase : t.phase = .receiving)
    {outcome : Except TransportError (Delivery α)} {endpoint : Endpoint α}
    (h : s.endpoint.receive .request datagramLimit = (some outcome, endpoint)) :
    s.receive i = { s with endpoint := endpoint, threads := s.threads.set i (t.received outcome) } := by
  unfold receive
  rw [ht]
  dsimp only
  rw [hphase]
  dsimp only
  rw [t.roomy, h]

theorem reply_eq (ht : s.threads[i]? = some t) {r : Reply α} (hphase : t.phase = .replying r)
    {datagram : Bytes} (hmade : encode .response r.call [r.message] = .ok datagram) :
    s.reply i none = (some ⟨s.address, r.peer, datagram⟩,
      { s with threads := s.threads.set i (t.replied (.ok ())) }) := by
  have htransmit : transmit (Endpoint.reply r.call [r.message]) none = .ok datagram := by
    rw [Endpoint.reply, hmade]
    rfl
  unfold reply
  rw [ht]
  dsimp only
  rw [hphase]
  dsimp only
  rw [htransmit]

/-- A server whose socket is open and empty, and a worker of it that waits. -/
structure Waits (s : Server α) (i : Nat) (t : Thread α) : Prop where
  thread : s.threads[i]? = some t
  phase : t.phase = .receiving
  isOpen : s.endpoint.isShutDown = false
  empty : s.endpoint.arrived = []

/-- A worker that waits sends a request back as it came. -/
theorem Waits.echoes (h : s.Waits i t) {peer : α} {call : UInt64} {pieces : List Bytes}
    {request response : Bytes} (hrequest : encode .request call pieces = .ok request)
    (hresponse : encode .response call [pieces.flatten] = .ok response) :
    (({ s with endpoint := s.endpoint.arrive peer request }.receive i).reply i none).1 =
      some ⟨s.address, peer, response⟩ := by
  have hreceive := Endpoint.receive_arrive h.isOpen h.empty (decode?_encode hrequest peer)
  have hreceived := receive_eq (s := { s with endpoint := s.endpoint.arrive peer request }) h.thread
    h.phase hreceive
  have hfits : pieces.flatten.length ≤ t.worker.buffer.length := by
    have hlimit : messageLimit ≤ datagramLimit := by decide
    rw [t.roomy]
    exact Nat.le_trans (encode_eq_ok_iff.mp hrequest).1 hlimit
  have hphase : (t.received (.ok ⟨pieces.flatten, peer, call⟩)).phase =
      .replying ⟨peer, call, pieces.flatten⟩ :=
    congrArg WorkerPhase.replying (Worker.accept_reply hfits)
  have hi := (List.getElem?_eq_some_iff.mp h.thread).1
  rw [hreceived, reply_eq (List.getElem?_set_self hi) hphase hresponse]

end Server

namespace Client

/-- A request that fits is taken. -/
theorem send?_eq {c : Client α} {server : Nat} {target : α} (htarget : c.servers[server]? = some target)
    {frame : Frame} {datagram : Bytes}
    (hmade : encode .request c.endpoint.nextCall (requestPieces frame) = .ok datagram) :
    c.send? server frame none = some (.ok (c.endpoint.nextCall, ⟨c.address, target, datagram⟩),
      { c with endpoint := { c.endpoint with nextCall := c.endpoint.nextCall + 1 } }) := by
  unfold send? Endpoint.request
  rw [htarget, hmade]
  rfl

/-- A response that arrives alone is handed on. -/
theorem wait_arrive {c : Client α} (hopen : c.endpoint.isShutDown = false)
    (hempty : c.endpoint.arrived = []) {call : UInt64} {pieces : List Bytes} {response : Bytes}
    (hresponse : encode .response call pieces = .ok response) {h : Header}
    (hh : responseHeader? pieces.flatten = some h) (peer : α) (finish : Nat) :
    ({ c with endpoint := c.endpoint.arrive peer response }.wait finish).1 =
      some ⟨call, h, finish⟩ := by
  have hreceive := Endpoint.receive_arrive hopen hempty (decode?_encode hresponse peer)
  have hwait := congrArg (fun received => received.1.bind (handOn? finish)) hreceive
  refine hwait.trans ?_
  show (responseHeader? pieces.flatten).map _ = _
  rw [hh]
  rfl

end Client

namespace Exchange

theorem sendFrame_eq {x : Exchange α} {server : Nat} {frame : Frame} {call : UInt64} {packet : Packet α}
    {client : Client α} (h : x.client.send? server frame none = some (.ok (call, packet), client)) :
    x.sendFrame server frame none =
      { x with
        client := client
        inFlight := x.inFlight ++ [packet]
        sent := x.sent ++ [⟨call, server, packet.target, frame⟩] } := by
  unfold sendFrame
  rw [h]

theorem atServer_eq {x : Exchange α} {server : Nat} {s : Server α} (hs : x.servers[server]? = some s)
    (f : Server α → Option (Packet α) × Server α) :
    x.atServer server f =
      { x with
        servers := x.servers.set server (f s).2
        inFlight := x.inFlight ++ (f s).1.toList } := by
  unfold atServer
  rw [hs]

theorem eraseIdx_concat_length {β : Type} (l : List β) (x : β) : (l ++ [x]).eraseIdx l.length = l := by
  rw [List.eraseIdx_append_of_length_le (Nat.le_refl _), Nat.sub_self, List.eraseIdx_zero]
  exact List.append_nil _

variable [DecidableEq α]

/-- The last datagram that was sent arrives at the client. -/
theorem arrive_last {x : Exchange α} {others : List (Packet α)} {source : α} {datagram : Bytes}
    (h : x.inFlight = others ++ [⟨source, x.client.address, datagram⟩]) :
    x.arrive others.length =
      { x with
        client := { x.client with endpoint := x.client.endpoint.arrive source datagram }
        inFlight := others } := by
  have hlast : x.inFlight[others.length]? = some ⟨source, x.client.address, datagram⟩ := by
    rw [h, List.getElem?_concat_length]
  have herase : x.inFlight.eraseIdx others.length = others := by
    rw [h, eraseIdx_concat_length]
  unfold arrive without
  rw [hlast]
  dsimp only
  rw [if_pos rfl, herase]

/-- The last datagram that was sent arrives at its server. -/
theorem arriveAt_last {x : Exchange α} {k : Nat} {s : Server α} {others : List (Packet α)} {source : α}
    {datagram : Bytes} (hs : x.servers[k]? = some s)
    (h : x.inFlight = others ++ [⟨source, s.address, datagram⟩]) :
    x.arriveAt others.length k =
      { x with
        servers := x.servers.set k { s with endpoint := s.endpoint.arrive source datagram }
        inFlight := others } := by
  have hlast : x.inFlight[others.length]? = some ⟨source, s.address, datagram⟩ := by
    rw [h, List.getElem?_concat_length]
  have herase : x.inFlight.eraseIdx others.length = others := by
    rw [h, eraseIdx_concat_length]
  unfold arriveAt without
  rw [hlast, hs]
  dsimp only
  rw [if_pos rfl, herase]

/-- A request arrives at its server and is sent back; the client has no part in it. -/
theorem echoes_last {x : Exchange α} {k i : Nat} {s : Server α} {t : Thread α} (hs : x.servers[k]? = some s)
    (hwaits : s.Waits i t) {others : List (Packet α)} {peer : α} {call : UInt64} {pieces : List Bytes}
    {request response : Bytes} (h : x.inFlight = others ++ [⟨peer, s.address, request⟩])
    (hrequest : encode .request call pieces = .ok request)
    (hresponse : encode .response call [pieces.flatten] = .ok response) :
    let y := x.run [.arriveAt others.length k, .receive k i, .reply k i none]
    y.client = x.client ∧ y.handed = x.handed ∧ y.inFlight = others ++ [⟨s.address, peer, response⟩] := by
  intro y
  have hk := (List.getElem?_eq_some_iff.mp hs).1
  have hy : y = ((x.arriveAt others.length k).atServer k fun s => (none, s.receive i)).atServer k
      fun s => s.reply i none := rfl
  rw [arriveAt_last hs h, atServer_eq (List.getElem?_set_self hk) fun s => (none, s.receive i),
    atServer_eq (List.getElem?_set_self (by rw [List.length_set]; exact hk))] at hy
  dsimp only at hy
  rw [hwaits.echoes hrequest hresponse, Option.toList_none, List.append_nil] at hy
  rw [hy]
  exact ⟨rfl, rfl, rfl⟩

/-- **A request that nothing happens to is answered.** -/
theorem run_undisturbed {x : Exchange α} {server k i : Nat} {s : Server α} {t : Thread α}
    (htarget : x.client.servers[server]? = some s.address) (hs : x.servers[k]? = some s)
    (hwaits : s.Waits i t) (hopen : x.client.endpoint.isShutDown = false)
    (hempty : x.client.endpoint.arrived = []) {header : Header} {fill : Bytes}
    (hfill : header.length.toInt ≤ fill.length) (hlimit : header.length.toInt ≤ messageLimit)
    (finish : Nat) :
    ∃ frame, Frame.build? header fill = some frame ∧
      (x.run [.send server header fill none, .arriveAt x.inFlight.length k, .receive k i,
        .reply k i none, .arrive x.inFlight.length, .wait finish]).handed =
          x.handed ++ [⟨x.client.endpoint.nextCall, frame.header, finish⟩] := by
  obtain ⟨frame, hframe⟩ := Option.ne_none_iff_exists'.mp (Frame.build?_ne_none hfill)
  refine ⟨frame, hframe, ?_⟩
  obtain ⟨hheader, hannounced⟩ := Frame.build?_eq_some hframe
  -- both datagrams can be made
  have hfits : frame.encode.length ≤ messageLimit := by
    have hround := header.toInt_roundUp
    have hsixteen : (16 : Int) ≤ messageLimit := by decide
    rw [← hheader, hannounced] at hround
    rw [Frame.length_encode]
    omega
  have hpieces : (requestPieces frame).flatten = frame.encode := flatten_requestPieces frame
  have hmessage : [frame.encode].flatten = frame.encode := List.append_nil _
  obtain ⟨request, hrequest⟩ : ∃ request,
      encode .request x.client.endpoint.nextCall (requestPieces frame) = .ok request :=
    ⟨_, encode_eq_ok_iff.mpr ⟨by rw [hpieces]; exact hfits, Nat.le_succ 2, rfl⟩⟩
  obtain ⟨response, hresponse⟩ : ∃ response,
      encode .response x.client.endpoint.nextCall [frame.encode] = .ok response :=
    ⟨_, encode_eq_ok_iff.mpr ⟨by rw [hmessage]; exact hfits, Nat.le_add_left 1 2, rfl⟩⟩
  -- there and back
  have hsend : x.step (.send server header fill none) = x.sendFrame server frame none := by
    unfold Exchange.step Exchange.send
    dsimp only
    rw [hframe]
  have hsent := sendFrame_eq (Client.send?_eq htarget hrequest)
  have hthere : (x.sendFrame server frame none).inFlight =
      x.inFlight ++ [⟨x.client.address, s.address, request⟩] := by
    rw [hsent]
  obtain ⟨hclient, hhanded, hback⟩ := echoes_last (by rw [hsent]; exact hs) hwaits hthere hrequest
    (by rw [hpieces]; exact hresponse)
  have hevents : [.arriveAt x.inFlight.length k, .receive k i, .reply k i none,
      .arrive x.inFlight.length, .wait finish] =
        [.arriveAt x.inFlight.length k, .receive k i, .reply k i none] ++
          [ExchangeEvent.arrive x.inFlight.length, .wait finish] := rfl
  rw [run_cons, hsend, hevents, run_append]
  generalize (x.sendFrame server frame none).run [.arriveAt x.inFlight.length k, .receive k i,
    .reply k i none] = y at hclient hhanded hback ⊢
  rw [hsent] at hclient hhanded
  -- and handed on
  have hhome : y.inFlight = x.inFlight ++ [⟨s.address, y.client.address, response⟩] := by
    rw [hclient]
    exact hback
  have hheard := Client.wait_arrive (c := y.client) (by rw [hclient]; exact hopen)
    (by rw [hclient]; exact hempty) hresponse
    (by rw [hmessage]; exact responseHeader?_encode hannounced) s.address finish
  show ((y.arrive x.inFlight.length).wait finish).handed = _
  rw [arrive_last hhome]
  show y.handed ++ (Client.wait _ finish).1.toList = _
  rw [hheard, hhanded]
  rfl

end Exchange

end EchoLoad.Datagram
