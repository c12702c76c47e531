import Mathlib.Data.List.Forall2
import RpcDemo.Detail.Admissible
import RpcDemo.Detail.WriteQueue

/-!
# The server and its connections

One thread runs the handlers of all connections, in any order.  A message
handler runs inside the strand of its session, which keeps the session alive,
so the connection handle it replies through always reaches that session.  A
request whose execution is undefined leaves the server trapped: it was
delivered, and nothing further happens.
-/

namespace RpcDemo

open RpcDemo.Frame
open RpcDemo.Proto
open RpcDemo.ServerStub

/-- Progress of the socket, as opposed to a call of a public member or a turn of
the strand. -/
def Session.Event.OfSocket : Session.Event → Prop
  | .asyncWrite _ => False
  | .close => False
  | .run _ => False
  | _ => True

instance : (event : Session.Event) → Decidable event.OfSocket
  | .asyncWrite _ | .close | .run _ => isFalse id
  | .arrive _ | .hangUp _ | .readSome _ | .readFail _ | .writeSome _ | .writeFail _ =>
      isTrue trivial

/-- Every accepted connection with its handle as index, the handles in `sessions_`,
and each request handled so far, with its handle. -/
structure Server where
  connections : List Session
  sessions : List ℕ
  served : List (ℕ × Service)
  trapped : Bool
  deriving DecidableEq

namespace Server

def start : Server := ⟨[], [], [], false⟩

inductive Event
  | accept
  | acceptError
  | socket (handle : ℕ) (event : Session.Event)
  | run (handle : ℕ) (fault : Option Exn)

def setConnection (server : Server) (handle : ℕ) (session : Session) : Server :=
  { server with connections := server.connections.set handle session }

def recordService (server : Server) (handle : ℕ) (service : Service) : Server :=
  { server with served := server.served ++ [(handle, service)] }

/-- The requests of one connection that were handled, in order. -/
def servedOn (server : Server) (handle : ℕ) : List Service :=
  (server.served.filter fun entry => entry.1 = handle).map Prod.snd

/-- The lambda of `async_accept` on a socket. -/
def onAccept (server : Server) : Server :=
  { server with
    connections := server.connections ++ [Session.start]
    sessions := server.sessions ++ [server.connections.length] }

def isOpen (server : Server) (handle : ℕ) : Bool :=
  match server.connections[handle]? with
  | some session => session.isOpen
  | none => false

def cleanupSessions (server : Server) : Server :=
  { server with sessions := server.sessions.filter server.isOpen }

/-- The turn of a strand that calls the request handler. -/
def onRequest (proto : Protobuf) (server : Server) (handle : ℕ) (session : Session)
    (strand : List Handler) (fault : Option Exn) : Option Server :=
  match handleRequest proto fault session.readBuffer with
  | .returns answer =>
      (session.step (.run ⟨[.reply answer.reply], session.readBuffer⟩)).map fun next =>
        (server.setConnection handle next).recordService handle ⟨fault, answer⟩
  | _ =>
      some { server.setConnection handle { session with
        strand := strand
        messages := session.messages ++ [session.readBuffer] } with trapped := true }

/-- Any other turn of a strand; the error handler calls `cleanup_sessions`. -/
def onTurn (server : Server) (handle : ℕ) (session : Session) : Option Server :=
  (session.step (.run Session.silent)).map fun next =>
    if next.errors = session.errors then server.setConnection handle next
    else (server.setConnection handle next).cleanupSessions

def runConnection (proto : Protobuf) (server : Server) (handle : ℕ) (session : Session)
    (fault : Option Exn) : Option Server :=
  match session.strand with
  | .read .body none :: strand => onRequest proto server handle session strand fault
  | _ => server.onTurn handle session

def step (proto : Protobuf) (server : Server) (event : Event) : Option Server :=
  if server.trapped then none
  else
    match event with
    | .accept => some server.onAccept
    | .acceptError => some server
    | .socket handle event =>
        (server.connections[handle]?).bind fun session =>
          if event.OfSocket then (session.step event).map (server.setConnection handle)
          else none
    | .run handle fault =>
        (server.connections[handle]?).bind fun session =>
          runConnection proto server handle session fault

/-- All a step of the server can do. -/
inductive Stepped (proto : Protobuf) (server : Server) : Event → Server → Prop
  | accept : Stepped proto server .accept server.onAccept
  | acceptError : Stepped proto server .acceptError server
  | socket (handle : ℕ) (session next : Session) (event : Session.Event)
      (hconnection : server.connections[handle]? = some session)
      (hsocket : event.OfSocket) (hstep : session.step event = some next) :
      Stepped proto server (.socket handle event) (server.setConnection handle next)
  | request (handle : ℕ) (session next : Session) (strand : List Handler)
      (fault : Option Exn) (answer : Answer Payload)
      (hconnection : server.connections[handle]? = some session)
      (hstrand : session.strand = .read .body none :: strand)
      (hanswer : handleRequest proto fault session.readBuffer = .returns answer)
      (hstep : session.step (.run ⟨[.reply answer.reply], session.readBuffer⟩) = some next) :
      Stepped proto server (.run handle fault)
        ((server.setConnection handle next).recordService handle ⟨fault, answer⟩)
  | trap (handle : ℕ) (session : Session) (strand : List Handler) (fault : Option Exn)
      (hconnection : server.connections[handle]? = some session)
      (hstrand : session.strand = .read .body none :: strand)
      (hanswer : ∀ answer, handleRequest proto fault session.readBuffer ≠ .returns answer) :
      Stepped proto server (.run handle fault)
        { server.setConnection handle { session with
          strand := strand
          messages := session.messages ++ [session.readBuffer] } with trapped := true }
  | turn (handle : ℕ) (session next : Session) (fault : Option Exn) (sessions : List ℕ)
      (hconnection : server.connections[handle]? = some session)
      (hbody : ∀ strand, session.strand ≠ .read .body none :: strand)
      (hstep : session.step (.run Session.silent) = some next) :
      Stepped proto server (.run handle fault)
        { server.setConnection handle next with sessions := sessions }

theorem stepped_of_onRequest {proto : Protobuf} {server next : Server} {handle : ℕ}
    {session : Session} {strand : List Handler} {fault : Option Exn}
    (hconnection : server.connections[handle]? = some session)
    (hstrand : session.strand = .read .body none :: strand)
    (hstep : onRequest proto server handle session strand fault = some next) :
    Stepped proto server (.run handle fault) next := by
  unfold onRequest at hstep
  split at hstep
  case h_1 answer hanswer =>
    obtain ⟨moved, hmoved, rfl⟩ := Option.map_eq_some_iff.mp hstep
    exact .request handle session moved strand fault answer hconnection hstrand hanswer hmoved
  case h_2 hanswer =>
    obtain rfl := Option.some.inj hstep
    exact .trap handle session strand fault hconnection hstrand hanswer

theorem stepped_of_onTurn {proto : Protobuf} {server next : Server} {handle : ℕ}
    {session : Session} {fault : Option Exn}
    (hconnection : server.connections[handle]? = some session)
    (hbody : ∀ strand, session.strand ≠ .read .body none :: strand)
    (hstep : server.onTurn handle session = some next) :
    Stepped proto server (.run handle fault) next := by
  unfold onTurn at hstep
  obtain ⟨moved, hmoved, rfl⟩ := Option.map_eq_some_iff.mp hstep
  split
  · exact .turn handle session moved fault server.sessions hconnection hbody hmoved
  · exact .turn handle session moved fault _ hconnection hbody hmoved

theorem stepped_of_step {proto : Protobuf} {server next : Server} {event : Event}
    (hstep : step proto server event = some next) :
    server.trapped = false ∧ Stepped proto server event next := by
  unfold step at hstep
  split at hstep
  case isTrue => exact absurd hstep (by simp)
  case isFalse htrapped =>
    refine ⟨by simpa using htrapped, ?_⟩
    cases event with
    | accept => exact Option.some.inj hstep ▸ .accept
    | acceptError => exact Option.some.inj hstep ▸ .acceptError
    | socket handle event =>
        obtain ⟨session, hconnection, hsession⟩ := Option.bind_eq_some_iff.mp hstep
        rw [Option.ite_none_right_eq_some] at hsession
        obtain ⟨hsocket, hmap⟩ := hsession
        obtain ⟨moved, hmoved, rfl⟩ := Option.map_eq_some_iff.mp hmap
        exact .socket handle session moved event hconnection hsocket hmoved
    | run handle fault =>
        obtain ⟨session, hconnection, hsession⟩ := Option.bind_eq_some_iff.mp hstep
        unfold runConnection at hsession
        split at hsession
        case h_1 strand hstrand =>
          exact stepped_of_onRequest hconnection hstrand hsession
        case h_2 hbody =>
          exact stepped_of_onTurn hconnection (fun strand heq => hbody strand heq) hsession

end Server

end RpcDemo
