import Mathlib.Algebra.Order.Monoid.Prod
import RpcDemo.Detail.CallsReturn
import RpcDemo.Detail.Network

/-!
# Every client is answered

One thread of the server serves all connections, one handler at a time.  Seen from
outside the clients and their connections are as many clients and servers beside
each other, so what makes one of them come to rest makes all of them: the calls of
all clients have then returned.
-/

namespace RpcDemo

open RpcDemo.Frame
open RpcDemo.Proto
open RpcDemo.ServerStub
open Ledger Transition

/-! ## Turns of the server -/

/-- A turn of the strand is possible when a handler waits in it. -/
theorem Session.run_ne_none_iff {session : Session} {reaction : Reaction} :
    session.step (.run reaction) ≠ none ↔ session.strand ≠ [] := by
  cases hstrand : session.strand <;> simp [step, runStep, hstrand]

namespace Server

variable {proto : Protobuf} {server : Server} {handle : ℕ} {connection : Session}

theorem run_ne_none (hrunning : server.trapped = false)
    (hconnection : server.connections[handle]? = some connection)
    (hstrand : connection.strand ≠ []) (fault : Option Exn) :
    server.step proto (.run handle fault) ≠ none := by
  have hrun : ∀ reaction, ∃ moved, connection.step (.run reaction) = some moved :=
    fun _ => Option.ne_none_iff_exists'.mp (Session.run_ne_none_iff.mpr hstrand)
  simp only [step, hrunning, Bool.false_eq_true, if_false, hconnection, Option.bind_some,
    runConnection]
  split
  · rw [onRequest]
    split
    case h_1 answer hanswer =>
      obtain ⟨moved, hmoved⟩ := hrun ⟨[.reply answer.reply], connection.readBuffer⟩
      simp [hmoved]
    case h_2 => simp
  · obtain ⟨moved, hmoved⟩ := hrun Session.silent
    simp [onTurn, hmoved]

theorem socket_ne_none {event : Session.Event} (hrunning : server.trapped = false)
    (hconnection : server.connections[handle]? = some connection) (hsocket : event.OfSocket)
    (hstep : connection.step event ≠ none) :
    server.step proto (.socket handle event) ≠ none := by
  simp [step, hrunning, hconnection, hsocket, hstep]

theorem length_connections_le {next : Server} {event : Event}
    (hstep : server.step proto event = some next) :
    server.connections.length ≤ next.connections.length := by
  cases (stepped_of_step hstep).2 with
  | accept => simp [onAccept]
  | acceptError => exact le_rfl
  | socket | trap | turn => simp [setConnection]
  | request => simp [setConnection, recordService]

end Server

namespace Network

variable {proto : Protobuf} {network next : Network} {event : Event}

/-- Each client with its connection. -/
def views (network : Network) : List Remote :=
  List.zipWith Peer.remote network.peers network.server.connections

section Views

variable {handle : ℕ} {peer : Peer} {connection : Session} {remoteEvent : Remote.Event}

theorem getElem?_views (hpeer : network.peers[handle]? = some peer)
    (hconnection : network.server.connections[handle]? = some connection) :
    network.views[handle]? = some (peer.remote connection) :=
  List.getElem?_zipWith_eq_some.mpr ⟨peer, connection, hpeer, hconnection, rfl⟩

theorem zipWith_set (peers : List Peer) (connections : List Session) (handle : ℕ) (peer : Peer)
    (connection : Session) :
    List.zipWith Peer.remote (peers.set handle peer) (connections.set handle connection) =
      (List.zipWith Peer.remote peers connections).set handle (peer.remote connection) := by
  induction peers generalizing connections handle with
  | nil => simp
  | cons first peers ih =>
      cases connections with
      | nil => simp
      | cons second connections =>
          cases handle with
          | zero => rfl
          | succ handle => simp [ih]

/-- As long as no request traps the server, one client and its connection make a step. -/
theorem stepAt_views (hstep : network.step proto (.on handle remoteEvent) = some next)
    (hrunning : next.server.trapped = false) :
    stepAt (Remote.step proto) network.views (handle, remoteEvent) = some next.views := by
  have hset : ∀ {peer after : Peer} {connection moved : Session},
      network.peers[handle]? = some peer →
      network.server.connections[handle]? = some connection →
      (peer.remote connection).step proto remoteEvent = some (after.remote moved) →
      next.peers = network.peers.set handle after →
      next.server.connections = network.server.connections.set handle moved →
        stepAt (Remote.step proto) network.views (handle, remoteEvent) = some next.views := by
    intro peer after connection moved hpeer hconnection hmoved hpeers hconnections
    apply stepAt_eq_some.mpr
    refine ⟨_, _, getElem?_views hpeer hconnection, hmoved, ?_⟩
    rw [views, views, hpeers, hconnections, zipWith_set]
  cases stepped_of_step hstep with
  | client _ peer connection _ remote hpeer hconnection hclient hmoved =>
      have hafter := Peer.remote_ofRemote hclient hmoved
      rw [← hafter] at hmoved
      exact hset hpeer hconnection hmoved rfl (set_of_getElem? hconnection).symm
  | server _ peer connection moved _ sessions served hpeer hconnection hclient _ hmoved =>
      exact hset hpeer hconnection hmoved rfl rfl
  | trap => simp at hrunning

end Views

/-! ## What goes on by itself -/

/-- The calls of each client take turns and wait for their replies, the network does
not fail, nobody closes a session, and the server is asked nothing it cannot answer. -/
def Serial (proto : Protobuf) (network : Network) : Event → Prop
  | .on handle event => At (Remote.Serial proto) network.views (handle, event)
  | _ => True

/-- What the clients, the server and the network do by themselves; no timer expires. -/
def Internal (proto : Protobuf) (network : Network) : Event → Prop
  | .on handle event => At (Remote.Internal proto) network.views (handle, event)
  | _ => False

theorem serial_of_internal (hinternal : network.Internal proto event) :
    network.Serial proto event := by
  cases event with
  | on handle event =>
      exact fun remote hremote => Remote.serial_of_internal (hinternal remote hremote)
  | accept | acceptError => trivial

structure SerialInv (proto : Protobuf) (network : Network) : Prop where
  running : network.server.trapped = false
  paired : network.peers.length = network.server.connections.length
  views : ∀ remote ∈ network.views, Remote.SerialInv proto remote

theorem serialInv_start : SerialInv proto start where
  running := rfl
  paired := rfl
  views := by simp [Network.views, start]

theorem length_views (hpaired : network.peers.length = network.server.connections.length) :
    network.views.length = network.peers.length := by
  rw [views, List.length_zipWith, ← hpaired, Nat.min_self]

theorem views_accept (hpaired : network.peers.length = network.server.connections.length) :
    (⟨network.server.onAccept, network.peers ++ [.connected]⟩ : Network).views =
      network.views ++ [Remote.start] := by
  rw [views, Server.onAccept, List.zipWith_append hpaired]
  rfl

/-- No client that asks only for what the server can answer traps it. -/
theorem SerialInv.running_step (hinv : SerialInv proto network)
    (hserial : network.Serial proto event) (hstep : network.step proto event = some next) :
    next.server.trapped = false := by
  cases stepped_of_step hstep with
  | accept | acceptError | client | server => exact hinv.running
  | trap handle peer connection moved event hpeer hconnection _ _ hmoved =>
      have hview := getElem?_views hpeer hconnection
      have hremote := hinv.views _ (List.mem_of_getElem? hview)
      exact Remote.running_step hremote (hserial _ hview) hmoved

theorem paired_step (hpaired : network.peers.length = network.server.connections.length)
    (hstep : network.step proto event = some next) :
    next.peers.length = next.server.connections.length := by
  cases stepped_of_step hstep with
  | accept => simp [Server.onAccept, hpaired]
  | acceptError => exact hpaired
  | client => simpa using hpaired
  | server | trap => simpa [Server.setConnection] using hpaired

theorem serialInv_step (hinv : SerialInv proto network) (hserial : network.Serial proto event)
    (hstep : network.step proto event = some next) : SerialInv proto next where
  running := hinv.running_step hserial hstep
  paired := paired_step hinv.paired hstep
  views := by
    cases event with
    | on handle event =>
        obtain ⟨remote, moved, hremote, hmoved, hviews⟩ :=
          stepAt_eq_some.mp (stepAt_views hstep (hinv.running_step hserial hstep))
        rw [← hviews]
        have hbefore := hinv.views remote (List.mem_of_getElem? hremote)
        exact forall_set hinv.views
          (Remote.serialInv_step hbefore (hserial remote hremote) hmoved)
    | accept =>
        cases stepped_of_step hstep with
        | accept =>
            rw [views_accept hinv.paired]
            intro remote hremote
            rcases List.mem_append.mp hremote with hold | hnew
            · exact hinv.views remote hold
            · rw [List.mem_singleton.mp hnew]
              exact Remote.serialInv_start
    | acceptError =>
        cases stepped_of_step hstep with
        | acceptError => exact hinv.views

theorem serialInv_run {events : List Event}
    (hserial : Guarded (step proto) (Serial proto) start events)
    (hrun : run (step proto) start events = some network) : SerialInv proto network :=
  run_invariant_of_guarded (fun _ _ _ => serialInv_step) serialInv_start hserial hrun

theorem ranked_remote (proto : Protobuf) :
    Ranked (Remote.step proto) (Remote.Internal proto) (Remote.SerialInv proto) Remote.rank where
  kept := fun hinv hinternal hstep =>
    Remote.serialInv_step hinv (Remote.serial_of_internal hinternal) hstep
  lower := Remote.rank_step

/-- The sum of the ranks of the clients with their connections. -/
def rank (network : Network) : ℕ ×ₗ ℕ ×ₗ ℕ :=
  total Remote.rank network.views

theorem ranked (proto : Protobuf) :
    Ranked (step proto) (Internal proto) (SerialInv proto) rank := by
  show Ranked (step proto) (Internal proto) (SerialInv proto) (total Remote.rank ∘ views)
  apply (ranked_remote proto).stepAt.of_view
  · exact fun hinv => hinv.views
  · exact fun hinv hinternal hstep => serialInv_step hinv (serial_of_internal hinternal) hstep
  · intro network event next hinv hinternal hstep
    cases event with
    | on handle event =>
        have hrunning := hinv.running_step (serial_of_internal hinternal) hstep
        exact ⟨(handle, event), hinternal, stepAt_views hstep hrunning⟩
    | accept | acceptError => exact absurd hinternal id

/-! ## At rest -/

section Quiet

variable {handle : ℕ} {peer : Peer} {connection : Session} {remoteEvent : Remote.Event}

theorem onServer_ne_none (hconnection : network.server.connections[handle]? = some connection)
    {serverEvent : Server.Event} (hevent : peer.serverEvent handle remoteEvent = some serverEvent)
    (hserver : network.server.step proto serverEvent ≠ none) :
    network.onServer proto handle peer connection remoteEvent ≠ none := by
  obtain ⟨server, hserver⟩ := Option.ne_none_iff_exists'.mp hserver
  have hlt : handle < server.connections.length :=
    (List.getElem?_eq_some_iff.mp hconnection).1.trans_le (Server.length_connections_le hserver)
  simp [onServer, hevent, hserver, List.getElem?_eq_getElem hlt]

theorem serverTurn_strand {fault : Option Exn}
    (henabled : (peer.remote connection).step proto (.serverTurn fault) ≠ none) :
    connection.strand ≠ [] := by
  obtain ⟨remote, hremote⟩ := Option.ne_none_iff_exists'.mp henabled
  have hlinked : ∀ {reaction : Reaction} {link : Link},
      (peer.remote connection).link.step (.on .right (.run reaction)) = some link →
        connection.strand ≠ [] := by
    intro reaction link hlink
    have hright := (Link.session_step_on hlink).1
    have hrun : connection.step (.run reaction) ≠ none := by
      intro hnone
      exact absurd (hright.symm.trans hnone) (by simp)
    exact Session.run_ne_none_iff.mp hrun
  cases Remote.stepped_of_step hremote with
  | serve _ data answer link hpending hanswer hlink => exact hlinked hlink
  | serverTurn _ link hpending hlink => exact hlinked hlink
  | trap _ data hpending hanswer =>
      obtain ⟨-, strand, hstrand⟩ := Session.pendingMessage_eq_some hpending
      have hsame : connection.strand = .read .body none :: strand := hstrand
      simp [hsame]

/-- What a client or its connection could do by itself, it can do among the others. -/
theorem step_ne_none (hrunning : network.server.trapped = false)
    (hpeer : network.peers[handle]? = some peer)
    (hconnection : network.server.connections[handle]? = some connection)
    (hinternal : (peer.remote connection).Internal proto remoteEvent)
    (henabled : (peer.remote connection).step proto remoteEvent ≠ none) :
    network.step proto (.on handle remoteEvent) ≠ none := by
  simp only [step, hpeer, hconnection, Option.bind_some]
  split
  case isTrue hclient => simpa [onClient] using henabled
  case isFalse hclient =>
    obtain ⟨remote, hremote⟩ := Option.ne_none_iff_exists'.mp henabled
    cases remoteEvent with
    | call | turn | clientTurn => exact absurd trivial hclient
    | serverTurn fault =>
        exact onServer_ne_none hconnection rfl
          (Server.run_ne_none hrunning hconnection (serverTurn_strand henabled) fault)
    | network event =>
        cases Remote.stepped_of_step hremote with
        | network _ link hallows hlink =>
            cases event with
            | segment side count =>
                cases side with
                | right => exact absurd rfl hclient
                | left =>
                    have harrived : connection.step (.arrive (peer.requests.take count)) ≠ none :=
                      Option.ne_none_iff_exists'.mpr ⟨_, (Link.session_step_segment hlink).1⟩
                    exact onServer_ne_none hconnection rfl
                      (Server.socket_ne_none hrunning hconnection trivial harrived)
            | on side event =>
                cases side with
                | left => exact absurd rfl hclient
                | right =>
                    have hmoved : connection.step event ≠ none :=
                      Option.ne_none_iff_exists'.mpr ⟨_, (Link.session_step_on hlink).1⟩
                    have hsocket : event ≠ .close → event.OfSocket :=
                      fun hclose => hallows.2.resolve_right hclose
                    cases event with
                    | arrive | hangUp | writeFail | close | asyncWrite =>
                        exact absurd hinternal id
                    | run reaction => exact absurd (hsocket (by simp)) id
                    | readSome | readFail | writeSome =>
                        exact onServer_ne_none hconnection rfl
                          (Server.socket_ne_none hrunning hconnection trivial hmoved)

/-- At rest, the clients with their connections are at rest. -/
theorem quiet_views (hinv : SerialInv proto network)
    (hquiet : Quiet (step proto) (Internal proto) network) :
    Quiet (stepAt (Remote.step proto)) (At (Remote.Internal proto)) network.views := by
  rintro ⟨handle, event⟩ hinternal
  by_contra henabled
  obtain ⟨next, hnext⟩ := Option.ne_none_iff_exists'.mp henabled
  obtain ⟨remote, moved, hremote, hmoved, -⟩ := stepAt_eq_some.mp hnext
  obtain ⟨peer, connection, hpeer, hconnection, rfl⟩ := List.getElem?_zipWith_eq_some.mp hremote
  have hmoves : (peer.remote connection).step proto event ≠ none := by
    rw [hmoved]
    exact Option.some_ne_none moved
  exact step_ne_none hinv.running hpeer hconnection (hinternal _ hremote) hmoves
    (hquiet (.on handle event) hinternal)

end Quiet

/-- How many calls each client has made. -/
def callCounts (network : Network) : List ℕ :=
  network.views.map fun remote => remote.client.calls.length

theorem callCounts_step (hinv : SerialInv proto network)
    (hinternal : network.Internal proto event) (hstep : network.step proto event = some next) :
    next.callCounts = network.callCounts := by
  cases event with
  | accept | acceptError => exact absurd hinternal id
  | on handle event =>
      have hrunning := hinv.running_step (serial_of_internal hinternal) hstep
      obtain ⟨remote, moved, hremote, hmoved, hviews⟩ :=
        stepAt_eq_some.mp (stepAt_views hstep hrunning)
      have hcount := Remote.length_calls_of_internal (hinternal remote hremote) hmoved
      rw [callCounts, callCounts, ← hviews, List.map_set, hcount]
      apply set_of_getElem?
      rw [List.getElem?_map, hremote]
      rfl

/-- From every state of a server and its clients without network errors and closes, in
which the calls of each client take turns, wait for their replies and ask for what
can be executed and carried: clients, server and network cannot go on by themselves
for ever, they can come to rest, and whenever they are at rest every call of every
client has returned; its method was invoked exactly once, and it returned the value
of its own function or threw what that invocation threw, the one at its own position
among the requests served to this client. -/
theorem every_client_is_answered (proto : Protobuf) (hlawful : proto.Lawful) {network : Network}
    {earlier : List Event} (hrun : run (step proto) start earlier = some network)
    (hserial : Guarded (step proto) (Serial proto) start earlier) :
    (∀ states : ℕ → Network, states 0 = network →
      ¬ ∀ n, ∃ event, (states n).Internal proto event ∧
        step proto (states n) event = some (states (n + 1))) ∧
    (∃ later final, Guarded (step proto) (Internal proto) network later ∧
      run (step proto) network later = some final ∧
        Quiet (step proto) (Internal proto) final) ∧
    ∀ later final, Guarded (step proto) (Internal proto) network later →
      run (step proto) network later = some final →
      Quiet (step proto) (Internal proto) final →
        final.views.length = final.peers.length ∧ final.callCounts = network.callCounts ∧
        ∀ remote ∈ final.views, ∀ index call, remote.client.calls[index]? = some call →
          ∃ service, remote.served[call.clearedAt]? = some service ∧
            remote.invocations index = [call.method] ∧
              call.result proto = some (ClientStub.seenByCaller
                (attempt call.method service.fault (call.method.impl call.args))) := by
  have hinv := serialInv_run hserial hrun
  refine ⟨?_, (ranked proto).exists_quiet hinv, ?_⟩
  · rintro states rfl
    exact (ranked proto).not_infinite hinv
  · intro later final hguarded hlater hquiet
    let kept (state : Network) : Prop :=
      SerialInv proto state ∧ state.callCounts = network.callCounts
    have hkept : kept final := by
      apply run_invariant_of_guarded _ ⟨hinv, rfl⟩ hguarded hlater
      rintro state event next ⟨hstate, hcounts⟩ hinternal hstep
      exact ⟨serialInv_step hstate (serial_of_internal hinternal) hstep,
        (callCounts_step hstate hinternal hstep).trans hcounts⟩
    obtain ⟨hfinal, hcounts⟩ := hkept
    refine ⟨length_views hfinal.paired, hcounts, fun remote hmem index call hcall => ?_⟩
    obtain ⟨handle, hremote⟩ := List.mem_iff_getElem?.mp hmem
    have hserved := hfinal.views remote hmem
    have hrest := (quiet_views hfinal hquiet).of_stepAt hremote
    exact hserved.result_of_finished hlawful hcall
      (Remote.finished_of_quiet hserved hrest hcall)

/-- Two clients have just called. -/
def callEvents : List Event :=
  [.accept, .accept, .on 0 (.call .add ((2, 3) : Int32 × Int32)),
    .on 1 (.call .add ((2, 3) : Int32 × Int32))]

def calledNetwork : Network where
  server := ⟨[Session.start, Session.start], [0, 1], [], false⟩
  peers := List.replicate 2
    { Peer.connected with client := Client.start.call .add ((2, 3) : Int32 × Int32) }

theorem every_client_is_answered_calledNetwork :
    ∃ later final, run (step standard) calledNetwork later = some final ∧
      Quiet (step standard) (Internal standard) final ∧ final.callCounts = [1, 1] ∧
        ∀ remote ∈ final.views, ∀ call, remote.client.calls[0]? = some call →
          remote.invocations 0 = [call.method] := by
  have hrun : run (step standard) start callEvents = some calledNetwork := by decide
  have hanswerable : (CallState.begin 1 .add ((2, 3) : Int32 × Int32)).Answerable standard :=
    ⟨by decide, ⟨Remote.sumReply, [.add]⟩, by decide, by decide⟩
  have hserial : Guarded (step standard) (Serial standard) start callEvents := by
    refine ⟨trivial, fun first hfirst => ⟨trivial, fun second hsecond => ?_⟩⟩
    obtain rfl := Option.some.inj hfirst
    obtain rfl := Option.some.inj hsecond
    refine ⟨fun remote hremote => ?_, fun third hthird => ⟨fun remote hremote => ?_, ?_⟩⟩
    · obtain rfl := Option.some.inj hremote
      exact hanswerable
    · obtain rfl := Option.some.inj hthird
      obtain rfl := Option.some.inj hremote
      exact hanswerable
    · exact fun _ _ => trivial
  obtain ⟨-, ⟨later, final, hguarded, hlater, hquiet⟩, hanswered⟩ :=
    every_client_is_answered standard lawful_standard hrun hserial
  obtain ⟨-, hcounts, hcalls⟩ := hanswered later final hguarded hlater hquiet
  refine ⟨later, final, hlater, hquiet, hcounts, fun remote hremote call hcall => ?_⟩
  obtain ⟨service, -, hinvoked, -⟩ := hcalls remote hremote 0 call hcall
  exact hinvoked

end Network

end RpcDemo
