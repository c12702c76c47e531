import RpcDemo.Detail.CallWindow
import RpcDemo.Detail.Link
import RpcDemo.Detail.Replies

/-!
# The client and the server, joined by a connection

The calls of one client run over a pair of sessions against the request handler
of the server.  The turn of a strand that completes a body calls the message
handler of its side: the client's fills the response slot, the server's answers
the request or is trapped by it.
-/

namespace RpcDemo

open RpcDemo.Frame
open RpcDemo.Proto
open RpcDemo.Operation
open RpcDemo.ServerStub

/-- The message that the next turn of the strand hands to the message handler. -/
def Session.pendingMessage (session : Session) : Option Payload :=
  match session.strand with
  | .read .body none :: _ => some session.readBuffer
  | _ => none

def Client.requestAt (proto : Protobuf) (client : Client) (index : ℕ) : Payload :=
  match client.calls[index]? with
  | some call => call.requestBytes proto
  | none => []

/-- The client is the left side of the link and the server the right one. -/
structure Remote where
  client : Client
  link : Link
  served : List Service
  trapped : Bool
  deriving DecidableEq

namespace Remote

def start : Remote :=
  ⟨Client.start, Link.start, [], false⟩

/-- A call, a turn of its thread, progress of the network, and a turn of either
strand. -/
inductive Event
  | call (method : Method) (args : method.Args)
  | turn (index : ℕ) (turn : Turn)
  | network (event : Link.Event)
  | clientTurn
  | serverTurn (fault : Option Exn)
  deriving DecidableEq

/-- A trapped server does nothing any more. -/
def Allows (remote : Remote) : Link.Event → Prop
  | .segment _ _ => True
  | .on .left event => event.OfSocket ∨ event = .close
  | .on .right event => remote.trapped = false ∧ (event.OfSocket ∨ event = .close)

instance (remote : Remote) : (event : Link.Event) → Decidable (remote.Allows event)
  | .segment _ _ => isTrue trivial
  | .on .left _ => inferInstanceAs (Decidable (_ ∨ _))
  | .on .right _ => inferInstanceAs (Decidable (_ ∧ _))

/-- A turn of a call: `is_open` asks the session, and `async_write` posts to it. -/
def onTurn (proto : Protobuf) (remote : Remote) (index : ℕ) (turn : Turn) : Option Remote :=
  (remote.client.step (.turn index turn)).bind fun client =>
    match turn with
    | .check isOpen =>
        if isOpen = (remote.link.session .left).isOpen then
          some { remote with client := client }
        else none
    | .write =>
        (remote.link.step (.on .left (.asyncWrite (client.requestAt proto index)))).map
          fun link => { remote with client := client, link := link }
    | _ => some { remote with client := client }

def onClientTurn (remote : Remote) : Option Remote :=
  match (remote.link.session .left).pendingMessage with
  | some data =>
      (remote.link.step (.on .left (.run ⟨[], data⟩))).map fun link =>
        { remote with client := remote.client.onMessage data, link := link }
  | none =>
      (remote.link.step (.on .left (.run Session.silent))).map fun link =>
        { remote with link := link }

def onServerTurn (proto : Protobuf) (remote : Remote) (fault : Option Exn) : Option Remote :=
  match (remote.link.session .right).pendingMessage with
  | some data =>
      match handleRequest proto fault data with
      | .returns answer =>
          (remote.link.step (.on .right (.run ⟨[.reply answer.reply], data⟩))).map fun link =>
            { remote with link := link, served := remote.served ++ [⟨fault, answer⟩] }
      | _ => some { remote with trapped := true }
  | none =>
      (remote.link.step (.on .right (.run Session.silent))).map fun link =>
        { remote with link := link }

def step (proto : Protobuf) (remote : Remote) : Event → Option Remote
  | .call method args => some { remote with client := remote.client.call method args }
  | .turn index turn => remote.onTurn proto index turn
  | .network event =>
      if remote.Allows event then
        (remote.link.step event).map fun link => { remote with link := link }
      else none
  | .clientTurn => remote.onClientTurn
  | .serverTurn fault => if remote.trapped then none else remote.onServerTurn proto fault

/-- All a step can do. -/
inductive Stepped (proto : Protobuf) (remote : Remote) : Event → Remote → Prop
  | call (method : Method) (args : method.Args) :
      Stepped proto remote (.call method args)
        { remote with client := remote.client.call method args }
  | turn (index : ℕ) (turn : Turn) (client : Client) (hwrite : turn ≠ .write)
      (hclient : remote.client.step (.turn index turn) = some client) :
      Stepped proto remote (.turn index turn) { remote with client := client }
  | write (index : ℕ) (client : Client) (link : Link)
      (hclient : remote.client.step (.turn index .write) = some client)
      (hlink : remote.link.step (.on .left (.asyncWrite (client.requestAt proto index))) =
        some link) :
      Stepped proto remote (.turn index .write)
        { remote with client := client, link := link }
  | network (event : Link.Event) (link : Link) (hallows : remote.Allows event)
      (hlink : remote.link.step event = some link) :
      Stepped proto remote (.network event) { remote with link := link }
  | hear (data : Payload) (link : Link)
      (hpending : (remote.link.session .left).pendingMessage = some data)
      (hlink : remote.link.step (.on .left (.run ⟨[], data⟩)) = some link) :
      Stepped proto remote .clientTurn
        { remote with client := remote.client.onMessage data, link := link }
  | clientTurn (link : Link)
      (hpending : (remote.link.session .left).pendingMessage = none)
      (hlink : remote.link.step (.on .left (.run Session.silent)) = some link) :
      Stepped proto remote .clientTurn { remote with link := link }
  | serve (fault : Option Exn) (data : Payload) (answer : Answer Payload) (link : Link)
      (hpending : (remote.link.session .right).pendingMessage = some data)
      (hanswer : handleRequest proto fault data = .returns answer)
      (hlink : remote.link.step (.on .right (.run ⟨[.reply answer.reply], data⟩)) =
        some link) :
      Stepped proto remote (.serverTurn fault)
        { remote with link := link, served := remote.served ++ [⟨fault, answer⟩] }
  | trap (fault : Option Exn) (data : Payload)
      (hpending : (remote.link.session .right).pendingMessage = some data)
      (hanswer : ∀ answer, handleRequest proto fault data ≠ .returns answer) :
      Stepped proto remote (.serverTurn fault) { remote with trapped := true }
  | serverTurn (fault : Option Exn) (link : Link)
      (hpending : (remote.link.session .right).pendingMessage = none)
      (hlink : remote.link.step (.on .right (.run Session.silent)) = some link) :
      Stepped proto remote (.serverTurn fault) { remote with link := link }

theorem stepped_of_onTurn {proto : Protobuf} {remote next : Remote} {index : ℕ} {turn : Turn}
    (hstep : remote.onTurn proto index turn = some next) :
    Stepped proto remote (.turn index turn) next := by
  obtain ⟨client, hclient, hnext⟩ := Option.bind_eq_some_iff.mp hstep
  split at hnext
  case h_1 isOpen =>
    rw [Option.ite_none_right_eq_some, Option.some.injEq] at hnext
    exact hnext.2 ▸ .turn index _ client (by simp) hclient
  case h_2 =>
    obtain ⟨link, hlink, rfl⟩ := Option.map_eq_some_iff.mp hnext
    exact .write index client link hclient hlink
  case h_3 hwrite =>
    exact Option.some.inj hnext ▸ .turn index turn client (fun heq => hwrite heq) hclient

theorem stepped_of_onClientTurn {proto : Protobuf} {remote next : Remote}
    (hstep : remote.onClientTurn = some next) : Stepped proto remote .clientTurn next := by
  unfold onClientTurn at hstep
  split at hstep
  case h_1 data hpending =>
    obtain ⟨link, hlink, rfl⟩ := Option.map_eq_some_iff.mp hstep
    exact .hear data link hpending hlink
  case h_2 hpending =>
    obtain ⟨link, hlink, rfl⟩ := Option.map_eq_some_iff.mp hstep
    exact .clientTurn link hpending hlink

theorem stepped_of_onServerTurn {proto : Protobuf} {remote next : Remote}
    {fault : Option Exn} (hstep : remote.onServerTurn proto fault = some next) :
    Stepped proto remote (.serverTurn fault) next := by
  unfold onServerTurn at hstep
  split at hstep
  case h_1 data hpending =>
    split at hstep
    case h_1 answer hanswer =>
      obtain ⟨link, hlink, rfl⟩ := Option.map_eq_some_iff.mp hstep
      exact .serve fault data answer link hpending hanswer hlink
    case h_2 hanswer => exact Option.some.inj hstep ▸ .trap fault data hpending hanswer
  case h_2 hpending =>
    obtain ⟨link, hlink, rfl⟩ := Option.map_eq_some_iff.mp hstep
    exact .serverTurn fault link hpending hlink

theorem stepped_of_step {proto : Protobuf} {remote next : Remote} {event : Event}
    (hstep : step proto remote event = some next) : Stepped proto remote event next := by
  cases event with
  | call method args => exact Option.some.inj hstep ▸ .call method args
  | turn index turn => exact stepped_of_onTurn hstep
  | network event =>
      simp only [step, Option.ite_none_right_eq_some] at hstep
      obtain ⟨hallows, hmap⟩ := hstep
      obtain ⟨link, hlink, rfl⟩ := Option.map_eq_some_iff.mp hmap
      exact .network event link hallows hlink
  | clientTurn => exact stepped_of_onClientTurn hstep
  | serverTurn fault =>
      simp only [step] at hstep
      split at hstep
      case isTrue => exact absurd hstep (by simp)
      case isFalse => exact stepped_of_onServerTurn hstep

end Remote

end RpcDemo
