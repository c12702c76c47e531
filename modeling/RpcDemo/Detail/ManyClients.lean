import RpcDemo.Detail.Network

/-!
# The clients of a server do not disturb each other

Whatever the other clients ask for, and however the server takes turns between
them, each client is in a state of a run with a server of its own.  What holds of
one client and one server holds of every client of a server.
-/

namespace RpcDemo

open RpcDemo.Frame
open RpcDemo.Proto
open RpcDemo.ServerStub
open Transition

namespace Network

variable {proto : Protobuf} {network next : Network} {event : Event}

/-- The sizes of requests and replies fit the header of a frame. -/
def FitsHeader (proto : Protobuf) (network : Network) : Event → Prop
  | .on handle event => ∀ peer ∈ network.peers[handle]?,
      ∀ connection ∈ network.server.connections[handle]?,
        (peer.remote connection).FitsHeader proto event
  | _ => True

instance (proto : Protobuf) (network : Network) :
    (event : Event) → Decidable (network.FitsHeader proto event)
  | .on handle event => inferInstanceAs (Decidable (∀ peer ∈ network.peers[handle]?,
      ∀ connection ∈ network.server.connections[handle]?,
        (peer.remote connection).FitsHeader proto event))
  | .accept | .acceptError => isTrue trivial

/-- The client and its connection have come where a client and a server by themselves
can come; a trapped server is no longer one of them. -/
def Apart (proto : Protobuf) (network : Network) (peer : Peer) (connection : Session) : Prop :=
  ∃ events remote, run (Remote.step proto) Remote.start events = some remote ∧
    Guarded (Remote.step proto) (Remote.FitsHeader proto) Remote.start events ∧
    peer.remote connection = remote.withServer connection ∧
    (network.server.trapped = false → peer.remote connection = remote)

structure AllApart (proto : Protobuf) (network : Network) : Prop where
  paired : network.peers.length = network.server.connections.length
  apart : ∀ (handle : ℕ) (peer : Peer) (connection : Session),
    network.peers[handle]? = some peer →
    network.server.connections[handle]? = some connection →
      Apart proto network peer connection

theorem allApart_start : AllApart proto start where
  paired := rfl
  apart := by simp [start]

theorem fitsHeader_withServer {remote : Remote} {connection : Session} {event : Remote.Event}
    (hclient : event.OfClient) (hfits : (remote.withServer connection).FitsHeader proto event) :
    remote.FitsHeader proto event := by
  cases event with
  | serverTurn fault => exact absurd hclient id
  | turn index turn => cases turn <;> exact hfits
  | call | network | clientTurn => trivial

section Steps

variable {handle : ℕ} {peer : Peer} {connection moved : Session} {remoteEvent : Remote.Event}

theorem Apart.client {remote : Remote} (hapart : Apart proto network peer connection)
    (hclient : remoteEvent.OfClient)
    (hfits : (peer.remote connection).FitsHeader proto remoteEvent)
    (hstep : (peer.remote connection).step proto remoteEvent = some remote)
    (htrapped : next.server.trapped = network.server.trapped) :
    Apart proto next (Peer.ofRemote remote) connection := by
  obtain ⟨events, before, hrun, hguarded, hsame, hexact⟩ := hapart
  have hboth := Peer.remote_ofRemote hclient hstep
  have hmoved := hstep
  rw [hsame, Remote.step_withServer before connection hclient] at hmoved
  obtain ⟨after, hafter, rfl⟩ := Option.map_eq_some_iff.mp hmoved
  have hbefore : before.FitsHeader proto remoteEvent :=
    fitsHeader_withServer hclient (hsame ▸ hfits)
  refine ⟨events ++ [remoteEvent], after, run_concat hrun hafter,
    hguarded.concat hrun hbefore, hboth, fun hrunning => ?_⟩
  rw [hexact (htrapped ▸ hrunning), hafter, Option.some.injEq] at hstep
  exact hboth.trans hstep.symm

theorem Apart.server (hapart : Apart proto network peer connection)
    (hrunning : network.server.trapped = false)
    (hfits : (peer.remote connection).FitsHeader proto remoteEvent)
    {after : Peer} (hstep : (peer.remote connection).step proto remoteEvent =
      some (after.remote moved)) : Apart proto next after moved := by
  obtain ⟨events, before, hrun, hguarded, _, hexact⟩ := hapart
  rw [hexact hrunning] at hstep hfits
  exact ⟨events ++ [remoteEvent], after.remote moved, run_concat hrun hstep,
    hguarded.concat hrun hfits, rfl, fun _ => rfl⟩

/-- A client does not notice that the server is trapped. -/
theorem Apart.trap (hapart : Apart proto network peer connection)
    (htrapped : next.server.trapped = true) : Apart proto next peer moved := by
  obtain ⟨events, before, hrun, hguarded, hsame, _⟩ := hapart
  have hmoved : peer.remote moved = before.withServer moved :=
    congrArg (fun remote : Remote => remote.withServer moved) hsame
  exact ⟨events, before, hrun, hguarded, hmoved, fun hrunning => by simp [htrapped] at hrunning⟩

theorem Apart.other (hapart : Apart proto network peer connection)
    (htrapped : next.server.trapped = false → network.server.trapped = false) :
    Apart proto next peer connection := by
  obtain ⟨events, before, hrun, hguarded, hsame, hexact⟩ := hapart
  exact ⟨events, before, hrun, hguarded, hsame, fun hrunning => hexact (htrapped hrunning)⟩

/-- All but one connection are as they were. -/
theorem AllApart.set (hall : AllApart proto network) {after : Peer}
    (hpeers : next.peers = network.peers.set handle after)
    (hconnections : next.server.connections = network.server.connections.set handle moved)
    (htrapped : next.server.trapped = false → network.server.trapped = false)
    (hafter : Apart proto next after moved) : AllApart proto next where
  paired := by rw [hpeers, hconnections, List.length_set, List.length_set, hall.paired]
  apart := by
    intro other peer connection hpeer hconnection
    rw [hpeers, List.getElem?_set] at hpeer
    rw [hconnections, List.getElem?_set] at hconnection
    by_cases heq : handle = other
    · rw [if_pos heq, Option.ite_none_right_eq_some, Option.some.injEq] at hpeer hconnection
      rw [← hpeer.2, ← hconnection.2]
      exact hafter
    · rw [if_neg heq] at hpeer hconnection
      exact (hall.apart other peer connection hpeer hconnection).other htrapped

end Steps

theorem apart_start : Apart proto network .connected Session.start :=
  ⟨[], Remote.start, rfl, trivial, rfl, fun _ => rfl⟩

theorem AllApart.accept (hall : AllApart proto network) :
    AllApart proto ⟨network.server.onAccept, network.peers ++ [.connected]⟩ where
  paired := by simp [Server.onAccept, hall.paired]
  apart := by
    intro handle peer connection hpeer hconnection
    simp only [Server.onAccept] at hconnection
    by_cases hlt : handle < network.peers.length
    · rw [List.getElem?_append_left hlt] at hpeer
      rw [List.getElem?_append_left (hall.paired ▸ hlt)] at hconnection
      exact (hall.apart handle peer connection hpeer hconnection).other id
    · have hle := Nat.le_of_not_lt hlt
      rw [List.getElem?_append_right hle, List.getElem?_singleton,
        Option.ite_none_right_eq_some, Option.some.injEq] at hpeer
      rw [List.getElem?_append_right (hall.paired ▸ hle), List.getElem?_singleton,
        Option.ite_none_right_eq_some, Option.some.injEq] at hconnection
      rw [← hpeer.2, ← hconnection.2]
      exact apart_start

theorem allApart_step (hall : AllApart proto network) (hfits : network.FitsHeader proto event)
    (hstep : network.step proto event = some next) : AllApart proto next := by
  cases stepped_of_step hstep with
  | acceptError => exact hall
  | accept hrunning => exact hall.accept
  | client handle peer connection event remote hpeer hconnection hclient hmoved =>
      have hapart := hall.apart handle peer connection hpeer hconnection
      exact hall.set rfl (set_of_getElem? hconnection).symm id
        (hapart.client hclient (hfits peer hpeer connection hconnection) hmoved rfl)
  | server handle peer connection moved event sessions served hpeer hconnection _ hrunning
      hmoved =>
      have hapart := hall.apart handle peer connection hpeer hconnection
      exact hall.set rfl rfl id
        (hapart.server hrunning (hfits peer hpeer connection hconnection) hmoved)
  | trap handle peer connection moved event hpeer hconnection hclient hrunning hmoved =>
      have hapart := hall.apart handle peer connection hpeer hconnection
      exact hall.set rfl rfl (fun _ => hrunning) (hapart.trap rfl)

theorem allApart_run {events : List Event} (hrun : run (step proto) start events = some network)
    (hfits : Guarded (step proto) (FitsHeader proto) start events) : AllApart proto network :=
  run_invariant_of_guarded (fun _ _ _ => allApart_step) allApart_start hfits hrun

/-- Every client of a server, in every run of the server and its clients whose sizes
fit the header, is in a state of a run with a server of its own, and as long as no
request has trapped the server so is its connection.  The server has executed a
prefix of the client's requests, each call once at most, and what a call returned
is the value of its own method on its own arguments. -/
theorem clients_apart (proto : Protobuf) (hlawful : proto.Lawful) {network : Network}
    {events : List Event} (hrun : run (step proto) start events = some network)
    (hfits : Guarded (step proto) (FitsHeader proto) start events) {handle : ℕ} {peer : Peer}
    (hpeer : network.peers[handle]? = some peer) :
    ∃ alone remote, run (Remote.step proto) Remote.start alone = some remote ∧
      Guarded (Remote.step proto) (Remote.FitsHeader proto) Remote.start alone ∧
      peer = Peer.ofRemote remote ∧
      (network.server.trapped = false →
        network.server.connections[handle]? = some (remote.link.session .right)) ∧
      remote.served.length ≤ remote.client.written.length ∧ remote.client.written.Nodup ∧
      remote.ExecutesAtMostOnce proto := by
  have hall := allApart_run hrun hfits
  have hlt : handle < network.server.connections.length :=
    hall.paired ▸ (List.getElem?_eq_some_iff.mp hpeer).1
  have hconnection := List.getElem?_eq_getElem hlt
  obtain ⟨alone, remote, halone, hguarded, hsame, hexact⟩ :=
    hall.apart handle peer _ hpeer hconnection
  have hinv := Remote.inv_of_fits halone hguarded
  refine ⟨alone, remote, halone, hguarded, ?_, fun hrunning => ?_, hinv.length_served_le,
    hinv.window.nodup, hinv.executesAtMostOnce hlawful⟩
  · calc peer = Peer.ofRemote (peer.remote _) := rfl
      _ = Peer.ofRemote (remote.withServer _) := congrArg Peer.ofRemote hsame
      _ = Peer.ofRemote remote := rfl
  · rw [hconnection, ← hexact hrunning]
    rfl

/-- One client has called when another connects, calls and is answered. -/
def pairEvents : List Event :=
  [.accept, .on 0 (.call .add ((1, 1) : Int32 × Int32)), .accept] ++
    Remote.sumEvents.map (.on 1)

def pairNetwork : Network where
  server :=
    { connections := [Session.start, Remote.sumRemote.link.session .right]
      sessions := [0, 1]
      served := Remote.sumRemote.served.map fun service => (1, service)
      trapped := false }
  peers :=
    [{ Peer.connected with client := Client.start.call .add ((1, 1) : Int32 × Int32) },
      Peer.ofRemote Remote.sumRemote]

theorem clients_apart_pairNetwork :
    ∃ alone remote, run (Remote.step standard) Remote.start alone = some remote ∧
      Peer.ofRemote Remote.sumRemote = Peer.ofRemote remote ∧
      pairNetwork.server.connections[1]? = some (remote.link.session .right) ∧
      remote.ExecutesAtMostOnce standard := by
  have hrun : run (step standard) start pairEvents = some pairNetwork := by decide
  have hfits : Guarded (step standard) (FitsHeader standard) start pairEvents := by decide
  have hpeer : pairNetwork.peers[1]? = some (Peer.ofRemote Remote.sumRemote) := rfl
  obtain ⟨alone, remote, halone, -, hsame, hconnection, -, -, honce⟩ :=
    clients_apart standard lawful_standard hrun hfits hpeer
  exact ⟨alone, remote, halone, hsame, hconnection rfl, honce⟩

end Network

end RpcDemo
