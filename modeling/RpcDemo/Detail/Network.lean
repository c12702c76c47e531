import RpcDemo.Core.Beside
import RpcDemo.Detail.AtMostOnce
import RpcDemo.Detail.Server

/-!
# A server and its clients

The clients of one server, each with its own connection.  All connections are
served by the one thread of the server, and a request that traps it traps it for
all.  Until then each client and its connection are a client and a server by
themselves, whatever the others do.
-/

namespace RpcDemo

open RpcDemo.Frame
open RpcDemo.Proto
open RpcDemo.ServerStub
open Transition

/-- A client, its side of the connection, the bytes in flight to the server and
from it, and what the server has answered on this connection. -/
structure Peer where
  client : Client
  session : Session
  requests : List UInt8
  replies : List UInt8
  served : List Service
  deriving DecidableEq

/-- Only the left side takes part. -/
def Link.Event.OfLeft : Link.Event → Prop
  | .on side _ => side = .left
  | .segment side _ => side = .right

instance : (event : Link.Event) → Decidable event.OfLeft
  | .on _ _ | .segment _ _ => inferInstanceAs (Decidable (_ = _))

/-- Only the client's half of the connection takes part. -/
def Remote.Event.OfClient : Remote.Event → Prop
  | .serverTurn _ => False
  | .network event => event.OfLeft
  | _ => True

instance : (event : Remote.Event) → Decidable event.OfClient
  | .serverTurn _ => isFalse id
  | .network event => inferInstanceAs (Decidable event.OfLeft)
  | .call _ _ | .turn _ _ | .clientTurn => isTrue trivial

namespace Peer

/-- Connected and started. -/
def connected : Peer :=
  ⟨Client.start, Session.start, [], [], []⟩

/-- The client with its connection as if the server had no other. -/
def remote (peer : Peer) (connection : Session) : Remote where
  client := peer.client
  link := ⟨peer.session, connection, peer.requests, peer.replies⟩
  served := peer.served
  trapped := false

def ofRemote (remote : Remote) : Peer where
  client := remote.client
  session := remote.link.leftSession
  requests := remote.link.leftFlight
  replies := remote.link.rightFlight
  served := remote.served

/-- What an event of the connection is to the server. -/
def serverEvent (peer : Peer) (handle : ℕ) : Remote.Event → Option Server.Event
  | .serverTurn fault => some (.run handle fault)
  | .network (.segment .left count) => some (.socket handle (.arrive (peer.requests.take count)))
  | .network (.on .right (.arrive _)) => none
  | .network (.on .right event) => some (.socket handle event)
  | _ => none

/-- What the server answers in a turn of the strand of the connection. -/
def answers (proto : Protobuf) (connection : Session) : Remote.Event → List Service
  | .serverTurn fault =>
      match connection.pendingMessage.map (handleRequest proto fault) with
      | some (.returns answer) => [⟨fault, answer⟩]
      | _ => []
  | _ => []

/-- The bytes in flight after the server has taken the connection to `moved`. -/
def afterServer (proto : Protobuf) (peer : Peer) (connection moved : Session)
    (event : Remote.Event) : Peer :=
  { peer with
    requests :=
      match event with
      | .network (.segment .left count) => peer.requests.drop count
      | _ => peer.requests
    replies := peer.replies ++ moved.written.drop connection.written.length
    served := peer.served ++ answers proto connection event }

end Peer

/-- Clients and connections are numbered by handle. -/
structure Network where
  server : Server
  peers : List Peer
  deriving DecidableEq

namespace Network

def start : Network := ⟨Server.start, []⟩

/-- A client connects, an accept fails, or something happens on a connection. -/
inductive Event
  | accept
  | acceptError
  | on (handle : ℕ) (event : Remote.Event)
  deriving DecidableEq

variable (proto : Protobuf) (network : Network)

def onClient (handle : ℕ) (peer : Peer) (connection : Session) (event : Remote.Event) :
    Option Network :=
  ((peer.remote connection).step proto event).map fun next =>
    { network with peers := network.peers.set handle (Peer.ofRemote next) }

def onServer (handle : ℕ) (peer : Peer) (connection : Session) (event : Remote.Event) :
    Option Network :=
  (peer.serverEvent handle event).bind fun serverEvent =>
    (network.server.step proto serverEvent).bind fun server =>
      server.connections[handle]?.map fun moved =>
        ⟨server, network.peers.set handle (peer.afterServer proto connection moved event)⟩

def step : Event → Option Network
  | .accept => (network.server.step proto .accept).map fun server =>
      ⟨server, network.peers ++ [.connected]⟩
  | .acceptError => (network.server.step proto .acceptError).map fun server =>
      { network with server := server }
  | .on handle event =>
      network.peers[handle]?.bind fun peer =>
        network.server.connections[handle]?.bind fun connection =>
          if event.OfClient then network.onClient proto handle peer connection event
          else network.onServer proto handle peer connection event

end Network

/-! ## The client's half -/

theorem Link.step_on (link : Link) (side : Side) {event : Session.Event}
    (harrive : ∀ segment, event ≠ .arrive segment) :
    link.step (.on side event) = ((link.session side).step event).map (link.advance side) := by
  cases event with
  | arrive segment => exact absurd rfl (harrive segment)
  | _ => rfl

theorem Link.step_setSession (link : Link) (connection : Session) {event : Link.Event}
    (hleft : event.OfLeft) :
    (link.setSession .right connection).step event =
      (link.step event).map fun next => next.setSession .right connection := by
  cases event with
  | on side event =>
      obtain rfl : side = .left := hleft
      cases event <;> simp only [Link.step, Option.map_none, Option.map_map] <;> rfl
  | segment side count =>
      obtain rfl : side = .right := hleft
      simp only [Link.step, Option.map_map]
      rfl

namespace Remote

variable {proto : Protobuf}

/-- The same client, with the server in another state. -/
def withServer (remote : Remote) (connection : Session) : Remote :=
  { remote with link := remote.link.setSession .right connection, trapped := false }

theorem allows_withServer (remote : Remote) (connection : Session) {event : Link.Event}
    (hleft : event.OfLeft) :
    (remote.withServer connection).Allows event ↔ remote.Allows event := by
  cases event with
  | on side event =>
      obtain rfl : side = .left := hleft
      rfl
  | segment side count => rfl

/-- The client's half takes no notice of the server. -/
theorem step_withServer (remote : Remote) (connection : Session) {event : Event}
    (hclient : event.OfClient) :
    step proto (remote.withServer connection) event =
      (step proto remote event).map fun next => next.withServer connection := by
  have hlink : ∀ event : Session.Event,
      (remote.withServer connection).link.step (.on .left event) =
        (remote.link.step (.on .left event)).map fun next => next.setSession .right connection :=
    fun event => Link.step_setSession remote.link connection rfl
  have hsession : (remote.withServer connection).link.session .left =
      remote.link.session .left := rfl
  cases event with
  | call method args => rfl
  | serverTurn fault => exact absurd hclient id
  | turn index turn =>
      have hsame : (remote.withServer connection).client = remote.client := rfl
      simp only [step, onTurn, hsame]
      cases remote.client.step (.turn index turn) with
      | none => rfl
      | some client =>
          simp only [Option.bind_some]
          cases turn with
          | write =>
              simp only [hlink, Option.map_map]
              rfl
          | check isOpen =>
              simp only [hsession]
              split <;> rfl
          | clear | wake | expire | giveUp => rfl
  | clientTurn =>
      simp only [step, onClientTurn, hsession, hlink]
      split
      · simp only [Option.map_map]
        rfl
      · simp only [Option.map_map]
        rfl
  | network event =>
      simp only [step, allows_withServer remote connection hclient]
      split
      case isTrue =>
        have hmoved : (remote.withServer connection).link.step event =
            (remote.link.step event).map fun next => next.setSession .right connection :=
          Link.step_setSession remote.link connection hclient
        simp only [hmoved, Option.map_map]
        rfl
      case isFalse => rfl

end Remote

/-! ## The server's half -/

theorem Session.pendingMessage_of_body {session : Session} {strand : List Handler}
    (hstrand : session.strand = .read .body none :: strand) :
    session.pendingMessage = some session.readBuffer := by
  rw [pendingMessage, hstrand]

theorem Session.pendingMessage_eq_none {session : Session}
    (hbody : ∀ strand, session.strand ≠ .read .body none :: strand) :
    session.pendingMessage = none := by
  unfold pendingMessage
  split
  case h_1 strand hstrand => exact absurd hstrand (hbody strand)
  case h_2 => rfl

theorem Session.drop_written_of_arrive {session moved : Session} {segment : List UInt8}
    (hstep : session.step (.arrive segment) = some moved) :
    moved.written.drop session.written.length = [] := by
  rw [(streams_of_step hstep).1.2, List.drop_length]

namespace Peer

variable {proto : Protobuf} {peer : Peer} {connection moved : Session} {event : Session.Event}

/-- A message that traps the server is not answered. -/
theorem answers_of_trap {fault : Option Exn} {strand : List Handler}
    (hstrand : connection.strand = .read .body none :: strand)
    (hanswer : ∀ answer, handleRequest proto fault connection.readBuffer ≠ .returns answer) :
    answers proto connection (.serverTurn fault) = [] := by
  simp only [answers, Session.pendingMessage_of_body hstrand, Option.map_some]
  split
  case h_1 answer heq => exact absurd (Option.some.inj heq) (hanswer answer)
  case h_2 => rfl

/-- The connection has moved, and nothing else. -/
theorem advance_remote (hstep : connection.step event = some moved)
    (harrive : ∀ segment, event ≠ .arrive segment) :
    (peer.remote connection).link.step (.on .right event) =
      some ⟨peer.session, moved, peer.requests,
        peer.replies ++ moved.written.drop connection.written.length⟩ := by
  have hright : ((peer.remote connection).link.session .right).step event = some moved := hstep
  rw [Link.step_on _ _ harrive, hright]
  rfl

theorem step_socket (hsocket : event.OfSocket) (harrive : ∀ segment, event ≠ .arrive segment)
    (hstep : connection.step event = some moved) :
    (peer.remote connection).step proto (.network (.on .right event)) =
      some ((peer.afterServer proto connection moved (.network (.on .right event))).remote
        moved) := by
  have hallows : (peer.remote connection).Allows (.on .right event) := ⟨rfl, .inl hsocket⟩
  simp only [Remote.step, if_pos hallows, advance_remote hstep harrive, Option.map_some]
  simp [remote, afterServer, answers]

theorem step_arrive {count : ℕ}
    (hstep : connection.step (.arrive (peer.requests.take count)) = some moved) :
    (peer.remote connection).step proto (.network (.segment .left count)) =
      some ((peer.afterServer proto connection moved (.network (.segment .left count))).remote
        moved) := by
  have hallows : (peer.remote connection).Allows (.segment .left count) := trivial
  have hlink : (peer.remote connection).link.step (.segment .left count) =
      some ⟨peer.session, moved, peer.requests.drop count, peer.replies⟩ := by
    have hright : ((peer.remote connection).link.session .right).step
        (.arrive (((peer.remote connection).link.flight .left).take count)) = some moved := hstep
    simp only [Link.step, Side.peer, hright, Option.map_some]
    rfl
  simp only [Remote.step, if_pos hallows, hlink, Option.map_some]
  simp [remote, afterServer, answers, Session.drop_written_of_arrive hstep]

theorem step_request {fault : Option Exn} {strand : List Handler} {answer : Answer Payload}
    (hstrand : connection.strand = .read .body none :: strand)
    (hanswer : handleRequest proto fault connection.readBuffer = .returns answer)
    (hstep : connection.step (.run ⟨[.reply answer.reply], connection.readBuffer⟩) =
      some moved) :
    (peer.remote connection).step proto (.serverTurn fault) =
      some ((peer.afterServer proto connection moved (.serverTurn fault)).remote moved) := by
  have hpending := Session.pendingMessage_of_body hstrand
  have hright : ((peer.remote connection).link.session .right).pendingMessage =
      some connection.readBuffer := hpending
  have hturn : (peer.remote connection).onServerTurn proto fault =
      some { (peer.remote connection) with
        link := ⟨peer.session, moved, peer.requests,
          peer.replies ++ moved.written.drop connection.written.length⟩
        served := peer.served ++ [⟨fault, answer⟩] } := by
    rw [Remote.onServerTurn, hright]
    simp only [hanswer, advance_remote hstep (by simp), Option.map_some]
    rfl
  have hrunning : (peer.remote connection).trapped = false := rfl
  simp only [Remote.step, hrunning, Bool.false_eq_true, if_false, hturn]
  simp [remote, afterServer, answers, hpending, hanswer]

theorem step_turn {fault : Option Exn}
    (hbody : ∀ strand, connection.strand ≠ .read .body none :: strand)
    (hstep : connection.step (.run Session.silent) = some moved) :
    (peer.remote connection).step proto (.serverTurn fault) =
      some ((peer.afterServer proto connection moved (.serverTurn fault)).remote moved) := by
  have hpending := Session.pendingMessage_eq_none hbody
  have hright : ((peer.remote connection).link.session .right).pendingMessage = none := hpending
  have hrunning : (peer.remote connection).trapped = false := rfl
  simp only [Remote.step, hrunning, Bool.false_eq_true, if_false]
  rw [Remote.onServerTurn, hright]
  simp only [advance_remote hstep (by simp), Option.map_some]
  simp [remote, afterServer, answers, hpending]

theorem step_trap {fault : Option Exn} {strand : List Handler}
    (hstrand : connection.strand = .read .body none :: strand)
    (hanswer : ∀ answer, handleRequest proto fault connection.readBuffer ≠ .returns answer) :
    (peer.remote connection).step proto (.serverTurn fault) =
      some { peer.remote connection with trapped := true } := by
  have hright : ((peer.remote connection).link.session .right).pendingMessage =
      some connection.readBuffer := Session.pendingMessage_of_body hstrand
  have hrunning : (peer.remote connection).trapped = false := rfl
  simp only [Remote.step, hrunning, Bool.false_eq_true, if_false]
  rw [Remote.onServerTurn, hright]
  split
  case h_1 data heq =>
    obtain rfl := Option.some.inj heq
    split
    case h_1 answer hreturns => exact absurd hreturns (hanswer answer)
    case h_2 => rfl
  case h_2 heq => exact absurd heq (by simp)

/-- After a step of the client's half the server's half is as it was. -/
theorem remote_ofRemote {remote : Remote} {event : Remote.Event} (hclient : event.OfClient)
    (hstep : (peer.remote connection).step proto event = some remote) :
    (ofRemote remote).remote connection = remote := by
  have hsame : (peer.remote connection).withServer connection = peer.remote connection := rfl
  have hmoved : ((peer.remote connection).withServer connection).step proto event =
      ((peer.remote connection).step proto event).map fun next => next.withServer connection :=
    Remote.step_withServer _ connection hclient
  rw [hsame, hstep, Option.map_some, Option.some.injEq] at hmoved
  exact hmoved.symm

theorem afterServer_of_trap {fault : Option Exn} {strand : List Handler}
    (hstrand : connection.strand = .read .body none :: strand)
    (hanswer : ∀ answer, handleRequest proto fault connection.readBuffer ≠ .returns answer)
    (hwritten : moved.written = connection.written) :
    peer.afterServer proto connection moved (.serverTurn fault) = peer := by
  simp [afterServer, answers_of_trap hstrand hanswer, hwritten]

end Peer

namespace Network

variable {proto : Protobuf} {network next : Network} {event : Event}

/-- All a step can do. -/
inductive Stepped (proto : Protobuf) (network : Network) : Event → Network → Prop
  | accept (hrunning : network.server.trapped = false) :
      Stepped proto network .accept ⟨network.server.onAccept, network.peers ++ [.connected]⟩
  | acceptError (hrunning : network.server.trapped = false) :
      Stepped proto network .acceptError network
  | client (handle : ℕ) (peer : Peer) (connection : Session) (event : Remote.Event)
      (remote : Remote) (hpeer : network.peers[handle]? = some peer)
      (hconnection : network.server.connections[handle]? = some connection)
      (hclient : event.OfClient)
      (hstep : (peer.remote connection).step proto event = some remote) :
      Stepped proto network (.on handle event)
        { network with peers := network.peers.set handle (Peer.ofRemote remote) }
  | server (handle : ℕ) (peer : Peer) (connection moved : Session) (event : Remote.Event)
      (sessions : List ℕ) (served : List (ℕ × Service))
      (hpeer : network.peers[handle]? = some peer)
      (hconnection : network.server.connections[handle]? = some connection)
      (hclient : ¬ event.OfClient) (hrunning : network.server.trapped = false)
      (hstep : (peer.remote connection).step proto event =
        some ((peer.afterServer proto connection moved event).remote moved)) :
      Stepped proto network (.on handle event)
        ⟨{ network.server.setConnection handle moved with
            sessions := sessions
            served := served },
          network.peers.set handle (peer.afterServer proto connection moved event)⟩
  | trap (handle : ℕ) (peer : Peer) (connection moved : Session) (event : Remote.Event)
      (hpeer : network.peers[handle]? = some peer)
      (hconnection : network.server.connections[handle]? = some connection)
      (hclient : ¬ event.OfClient) (hrunning : network.server.trapped = false)
      (hstep : (peer.remote connection).step proto event =
        some { peer.remote connection with trapped := true }) :
      Stepped proto network (.on handle event)
        ⟨{ network.server.setConnection handle moved with trapped := true },
          network.peers.set handle peer⟩

theorem set_of_getElem? {Item : Type} {items : List Item} {index : ℕ} {item : Item}
    (hitem : items[index]? = some item) : items.set index item = items := by
  obtain ⟨hlt, rfl⟩ := List.getElem?_eq_some_iff.mp hitem
  exact List.set_getElem_self hlt

section OnServer

variable {handle : ℕ} {peer : Peer} {connection moved : Session} {server : Server}

theorem connections_setConnection
    (hconnection : network.server.connections[handle]? = some connection) :
    (network.server.setConnection handle moved).connections[handle]? = some moved :=
  List.getElem?_set_self (List.getElem?_eq_some_iff.mp hconnection).1

theorem stepped_of_onServer {event : Remote.Event} (hpeer : network.peers[handle]? = some peer)
    (hconnection : network.server.connections[handle]? = some connection)
    (hclient : ¬ event.OfClient)
    (hstep : network.onServer proto handle peer connection event = some next) :
    Stepped proto network (.on handle event) next := by
  obtain ⟨serverEvent, hevent, hrest⟩ := Option.bind_eq_some_iff.mp hstep
  obtain ⟨server, hserver, hmap⟩ := Option.bind_eq_some_iff.mp hrest
  obtain ⟨moved, hmoved, rfl⟩ := Option.map_eq_some_iff.mp hmap
  obtain ⟨hrunning, hstepped⟩ := Server.stepped_of_step hserver
  have hfound : ∀ {session after : Session},
      network.server.connections[handle]? = some session →
      server.connections = (network.server.setConnection handle after).connections →
        session = connection ∧ after = moved := by
    intro session after hsession hconnections
    rw [hconnections, connections_setConnection hconnection, Option.some.injEq] at hmoved
    exact ⟨Option.some.inj (hsession.symm.trans hconnection), hmoved⟩
  cases event with
  | call | turn | clientTurn => exact absurd trivial hclient
  | serverTurn fault =>
      obtain rfl := Option.some.inj hevent
      cases hstepped with
      | request _ session after strand _ answer hsession hstrand hanswer hafter =>
          obtain ⟨rfl, rfl⟩ := hfound hsession rfl
          exact .server handle peer session after _ network.server.sessions _ hpeer hconnection
            hclient hrunning (Peer.step_request hstrand hanswer hafter)
      | turn _ session after _ sessions hsession hbody hafter =>
          obtain ⟨rfl, rfl⟩ := hfound hsession rfl
          exact .server handle peer session after _ sessions network.server.served hpeer
            hconnection hclient hrunning (Peer.step_turn hbody hafter)
      | trap _ session strand _ hsession hstrand hanswer =>
          obtain ⟨rfl, hafter⟩ := hfound hsession rfl
          have hwritten : moved.written = session.written := by rw [← hafter]
          have hsame : peer.afterServer proto session moved (.serverTurn fault) = peer :=
            Peer.afterServer_of_trap hstrand hanswer hwritten
          rw [hsame, hafter]
          exact .trap handle peer session moved _ hpeer hconnection hclient hrunning
            (Peer.step_trap hstrand hanswer)
  | network event =>
      cases event with
      | segment side count =>
          cases side with
          | right => exact absurd rfl hclient
          | left =>
              obtain rfl := Option.some.inj hevent
              cases hstepped with
              | socket _ session after _ hsession hsocket hafter =>
                  obtain ⟨rfl, rfl⟩ := hfound hsession rfl
                  exact .server handle peer session after _ network.server.sessions
                    network.server.served hpeer hconnection hclient hrunning
                    (Peer.step_arrive hafter)
      | on side event =>
          cases side with
          | left => exact absurd rfl hclient
          | right =>
              have harrive : ∀ segment, event ≠ .arrive segment := by
                rintro segment rfl
                simp [Peer.serverEvent] at hevent
              have hsocketEvent : serverEvent = .socket handle event := by
                cases event with
                | arrive segment => exact absurd rfl (harrive segment)
                | _ => exact (Option.some.inj hevent).symm
              subst hsocketEvent
              cases hstepped with
              | socket _ session after _ hsession hsocket hafter =>
                  obtain ⟨rfl, rfl⟩ := hfound hsession rfl
                  exact .server handle peer session after _ network.server.sessions
                    network.server.served hpeer hconnection hclient hrunning
                    (Peer.step_socket hsocket harrive hafter)

end OnServer

theorem stepped_of_step (hstep : network.step proto event = some next) :
    Stepped proto network event next := by
  cases event with
  | accept =>
      obtain ⟨server, hserver, rfl⟩ := Option.map_eq_some_iff.mp hstep
      obtain ⟨hrunning, hstepped⟩ := Server.stepped_of_step hserver
      cases hstepped with
      | accept => exact .accept hrunning
  | acceptError =>
      obtain ⟨server, hserver, rfl⟩ := Option.map_eq_some_iff.mp hstep
      obtain ⟨hrunning, hstepped⟩ := Server.stepped_of_step hserver
      cases hstepped with
      | acceptError => exact .acceptError hrunning
  | on handle event =>
      obtain ⟨peer, hpeer, hrest⟩ := Option.bind_eq_some_iff.mp hstep
      obtain ⟨connection, hconnection, hmoved⟩ := Option.bind_eq_some_iff.mp hrest
      split at hmoved
      case isTrue hclient =>
        obtain ⟨remote, hremote, rfl⟩ := Option.map_eq_some_iff.mp hmoved
        exact .client handle peer connection event remote hpeer hconnection hclient hremote
      case isFalse hclient => exact stepped_of_onServer hpeer hconnection hclient hmoved

end Network

end RpcDemo
