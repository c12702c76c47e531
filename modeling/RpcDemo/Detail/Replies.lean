import RpcDemo.Detail.Server

/-!
# The server answers the requests of each connection in order

Whatever the interleaving of its connections, the server posts to each of them
one reply for every request delivered on it, in the order of delivery, and to
no other; the reply is the one specified for the request and for the exception,
if any, that was raised meanwhile.  What the server has written is a prefix of
the frames of these replies.
-/

namespace RpcDemo

open RpcDemo.Frame
open RpcDemo.Proto
open RpcDemo.ServerStub

namespace Session

/-- Progress of the socket delivers nothing, posts nothing and leaves the socket
open. -/
structure SocketFrame (session next : Session) : Prop where
  messages : next.messages = session.messages
  posted : next.posted = session.posted
  isOpen : next.isOpen = session.isOpen
  errors : next.errors = session.errors
  close : Handler.close ∉ session.strand → Handler.close ∉ next.strand

theorem socketFrame_of_step {session next : Session} {event : Event}
    (hsocket : event.OfSocket) (hstep : session.step event = some next) :
    SocketFrame session next := by
  cases stepped_of_step hstep with
  | asyncWrite data => exact absurd hsocket id
  | close => exact absurd hsocket id
  | arrive segment => exact ⟨rfl, rfl, rfl, rfl, id⟩
  | hangUp error => exact ⟨rfl, rfl, rfl, rfl, id⟩
  | readSome op count =>
      simp only [fillBuffer]
      split
      · exact ⟨rfl, rfl, rfl, rfl, fun hclose => by simp [completeRead, post, hclose]⟩
      · exact ⟨rfl, rfl, rfl, rfl, id⟩
  | readFail op error =>
      exact ⟨rfl, rfl, rfl, rfl, fun hclose => by simp [completeRead, post, hclose]⟩
  | writeSome op count =>
      simp only [sendBytes]
      split
      · exact ⟨rfl, rfl, rfl, rfl, fun hclose => by simp [completeWrite, post, hclose]⟩
      · exact ⟨rfl, rfl, rfl, rfl, id⟩
  | writeFail op error =>
      exact ⟨rfl, rfl, rfl, rfl, fun hclose => by simp [completeWrite, post, hclose]⟩
  | run handler strand reaction => exact absurd hsocket id

/-- Every close of the socket is reported as an error. -/
def ClosedWithError (session : Session) : Prop :=
  session.isOpen = false → session.errors ≠ []

theorem closedWithError_doWrite {session : Session} (hclosed : session.ClosedWithError) :
    session.doWrite.ClosedWithError := by
  unfold doWrite
  split
  · exact hclosed
  · exact hclosed

theorem closedWithError_onError (session : Session) (error : ErrorCode) :
    (session.onError error).ClosedWithError := by
  intro _
  simp [onError]

theorem closedWithError_runHandler {session : Session} {reaction : Reaction}
    {handler : Handler} (hclosed : session.ClosedWithError) (hclose : handler ≠ .close)
    (hquiet : Call.close ∉ reaction.calls) :
    (session.runHandler reaction handler).ClosedWithError := by
  cases handler with
  | asyncWrite data =>
      simp only [runHandler, onAsyncWrite]
      split
      · exact closedWithError_doWrite hclosed
      · exact hclosed
  | close => exact absurd rfl hclose
  | read kind error =>
      cases error with
      | some error => cases kind <;> exact closedWithError_onError _ error
      | none =>
          cases kind with
          | header =>
              simp only [runHandler, onReadHeader]
              split
              · exact hclosed
              · exact closedWithError_onError _ _
          | body =>
              rw [runHandler, onReadBody, onMessage_eq]
              intro hfalse
              apply hclosed
              simpa [doReadHeader, resizeBuffer, hquiet] using hfalse
  | write error =>
      cases error with
      | some error => exact closedWithError_onError _ error
      | none =>
          simp only [runHandler, onWritten]
          split
          · exact hclosed
          · exact closedWithError_doWrite hclosed

end Session

namespace Server

/-- One service for each request delivered on a connection, in order, and its reply
posted to it. -/
structure RepliesInOrder (proto : Protobuf) (services : List Service) (session : Session) :
    Prop where
  fulfilled : List.Forall₂ (Fulfils proto) session.messages services
  posted : session.posted = services.map fun service => service.answer.reply

/-- What holds of every connection; its socket is closed by errors only. -/
structure RepliesInv (proto : Protobuf) (services : List Service) (session : Session) :
    Prop where
  write : session.WriteInv
  replies : RepliesInOrder proto services session
  close : Handler.close ∉ session.strand
  closed : session.ClosedWithError

variable {proto : Protobuf} {services : List Service}

theorem repliesInv_start : RepliesInv proto [] Session.start where
  write := Session.writeInv_start
  replies := ⟨.nil, rfl⟩
  close := by simp [Session.start, Session.doReadHeader, Session.resizeBuffer, Session.fresh]
  closed hclosed := absurd hclosed (by
    simp [Session.start, Session.doReadHeader, Session.resizeBuffer, Session.fresh])

theorem RepliesInOrder.congr {session next : Session}
    (hreplies : RepliesInOrder proto services session)
    (hmessages : next.messages = session.messages) (hposted : next.posted = session.posted) :
    RepliesInOrder proto services next where
  fulfilled := hmessages ▸ hreplies.fulfilled
  posted := hposted.trans hreplies.posted

theorem repliesInv_socket {session next : Session} {event : Session.Event}
    (hinv : RepliesInv proto services session) (hsocket : event.OfSocket)
    (hstep : session.step event = some next) : RepliesInv proto services next := by
  have hframe := Session.socketFrame_of_step hsocket hstep
  refine ⟨Session.writeInv_step hinv.write hstep, ?_, hframe.close hinv.close, ?_⟩
  · exact hinv.replies.congr hframe.messages hframe.posted
  · intro hclosed
    rw [hframe.isOpen] at hclosed
    rw [hframe.errors]
    exact hinv.closed hclosed

theorem repliesInv_request {session next : Session} {strand : List Handler}
    {service : Service} {leftover : Payload} (hinv : RepliesInv proto services session)
    (hstrand : session.strand = .read .body none :: strand)
    (hfulfils : Fulfils proto session.readBuffer service)
    (hstep : session.step (.run ⟨[.reply service.answer.reply], leftover⟩) = some next) :
    RepliesInv proto (services ++ [service]) next := by
  have hwrite := Session.writeInv_step hinv.write hstep
  have hclose := hinv.close
  simp only [Session.step, Session.runStep, hstrand, Option.some.injEq] at hstep
  subst hstep
  rw [hstrand, List.mem_cons, not_or] at hclose
  have hclosed : Session.ClosedWithError { session with strand := strand } := hinv.closed
  refine ⟨hwrite, ?_, ?_, Session.closedWithError_runHandler hclosed (by simp) (by simp)⟩
  · rw [Session.runHandler, Session.onReadBody, Session.onMessage_eq]
    refine ⟨List.rel_append hinv.replies.fulfilled (.cons hfulfils .nil), ?_⟩
    rw [List.map_append, ← hinv.replies.posted]
    rfl
  · rw [Session.runHandler, Session.onReadBody, Session.onMessage_eq]
    simp [Session.doReadHeader, Session.resizeBuffer, hclose.2]

theorem repliesInv_turn {session next : Session} (hinv : RepliesInv proto services session)
    (hbody : ∀ strand, session.strand ≠ .read .body none :: strand)
    (hstep : session.step (.run Session.silent) = some next) :
    RepliesInv proto services next := by
  have hwrite := Session.writeInv_step hinv.write hstep
  cases Session.stepped_of_step hstep with
  | run handler strand reaction hstrand =>
      have hclose := hinv.close
      rw [hstrand, List.mem_cons, not_or] at hclose
      have hnot : handler ≠ .read .body none := by
        rintro rfl
        exact hbody strand hstrand
      have hsame := Session.sameHistories_runHandler { session with strand := strand }
        Session.silent hnot
      have hclosed : Session.ClosedWithError { session with strand := strand } := hinv.closed
      refine ⟨hwrite, ?_, ?_, Session.closedWithError_runHandler hclosed
        (fun heq => hclose.1 heq.symm) (by simp [Session.silent])⟩
      · exact hinv.replies.congr hsame.messages hsame.posted
      · rw [hsame.strand]
        exact hclose.2

/-- The request a step executes can be executed. -/
def Event.Executable (proto : Protobuf) (server : Server) : Event → Prop
  | .run handle fault => ∀ session strand, server.connections[handle]? = some session →
      session.strand = .read .body none :: strand →
        ServerStub.Executable proto fault session.readBuffer
  | _ => True

structure Inv (proto : Protobuf) (server : Server) : Prop where
  running : server.trapped = false
  connections : ∀ handle session, server.connections[handle]? = some session →
    RepliesInv proto (server.servedOn handle) session
  handles : ∀ entry ∈ server.served, entry.1 < server.connections.length

theorem inv_start : Inv proto start :=
  ⟨rfl, by simp [start], by simp [start]⟩

section Steps

variable {server : Server} {handle other : ℕ} {session next : Session} {service : Service}

theorem servedOn_recordService : (server.recordService handle service).servedOn other =
    if other = handle then server.servedOn other ++ [service] else server.servedOn other := by
  by_cases hsame : other = handle
  · subst hsame
    simp [servedOn, recordService]
  · have hother : ¬ handle = other := fun heq => hsame heq.symm
    simp [servedOn, recordService, hsame, hother]

/-- A handle that is not in use yet has been served nothing. -/
theorem Inv.servedOn_of_le (hinv : Inv proto server) (hle : server.connections.length ≤ handle) :
    server.servedOn handle = [] := by
  rw [servedOn, List.map_eq_nil_iff, List.filter_eq_nil_iff]
  intro entry hmem hsame
  have hlt := hinv.handles entry hmem
  rw [of_decide_eq_true hsame] at hlt
  omega

/-- The other connections are as they were, with what was served to them. -/
theorem Inv.setConnection (hinv : Inv proto server)
    (hconnection : server.connections[handle]? = some session)
    (hsession : RepliesInv proto (server.servedOn handle) next) :
    Inv proto (server.setConnection handle next) where
  running := hinv.running
  connections := by
    intro other found hfound
    by_cases hsame : other = handle
    · subst hsame
      have hlt := (List.getElem?_eq_some_iff.mp hconnection).1
      rw [Server.setConnection, List.getElem?_set_self hlt] at hfound
      exact Option.some.inj hfound ▸ hsession
    · rw [Server.setConnection, List.getElem?_set_ne (Ne.symm hsame)] at hfound
      exact hinv.connections other found hfound
  handles := by
    simpa [Server.setConnection] using hinv.handles

theorem Inv.serve (hinv : Inv proto server)
    (hconnection : server.connections[handle]? = some session)
    (hsession : RepliesInv proto (server.servedOn handle ++ [service]) next) :
    Inv proto ((server.setConnection handle next).recordService handle service) where
  running := hinv.running
  connections := by
    intro other found hfound
    have hlt := (List.getElem?_eq_some_iff.mp hconnection).1
    rw [servedOn_recordService]
    by_cases hsame : other = handle
    · subst hsame
      have hmoved : (server.connections.set other next)[other]? = some found := hfound
      rw [List.getElem?_set_self hlt] at hmoved
      rw [if_pos rfl, ← Option.some.inj hmoved]
      exact hsession
    · have hmoved : (server.connections.set handle next)[other]? = some found := hfound
      rw [List.getElem?_set_ne (Ne.symm hsame)] at hmoved
      rw [if_neg hsame]
      exact hinv.connections other found hmoved
  handles := by
    intro entry hmem
    have hlt := (List.getElem?_eq_some_iff.mp hconnection).1
    have hlength : (server.setConnection handle next).connections.length =
        server.connections.length := List.length_set
    rcases List.mem_append.mp hmem with hold | hnew
    · exact hlength ▸ hinv.handles entry hold
    · rw [List.mem_singleton.mp hnew]
      exact hlength ▸ hlt

theorem Inv.accept (hinv : Inv proto server) : Inv proto server.onAccept where
  running := hinv.running
  connections := by
    intro other found hfound
    have hmoved : (server.connections ++ [Session.start])[other]? = some found := hfound
    by_cases hlt : other < server.connections.length
    · rw [List.getElem?_append_left hlt] at hmoved
      exact hinv.connections other found hmoved
    · have hnone : server.onAccept.servedOn other = [] :=
        hinv.servedOn_of_le (Nat.le_of_not_lt hlt)
      rw [List.getElem?_append_right (Nat.le_of_not_lt hlt)] at hmoved
      rw [hnone, List.mem_singleton.mp (List.mem_of_getElem? hmoved)]
      exact repliesInv_start
  handles := by
    intro entry hmem
    have hlt := hinv.handles entry hmem
    simp only [onAccept, List.length_append, List.length_singleton]
    omega

end Steps

theorem inv_step {server next : Server} {event : Event} (hinv : Inv proto server)
    (hexecutable : event.Executable proto server)
    (hstep : step proto server event = some next) : Inv proto next := by
  obtain ⟨_, hstepped⟩ := stepped_of_step hstep
  cases hstepped with
  | accept => exact hinv.accept
  | acceptError => exact hinv
  | socket handle session next event hconnection hsocket hsession =>
      have hold := hinv.connections handle session hconnection
      exact hinv.setConnection hconnection (repliesInv_socket hold hsocket hsession)
  | request handle session next strand fault answer hconnection hstrand hanswer hsession =>
      have hold := hinv.connections handle session hconnection
      obtain ⟨same, hreturns, hfulfils⟩ :=
        exists_fulfils (hexecutable session strand hconnection hstrand)
      obtain rfl := Outcome.returns.inj (hreturns.symm.trans hanswer)
      exact hinv.serve hconnection (repliesInv_request hold hstrand hfulfils hsession)
  | trap handle session strand fault hconnection hstrand hanswer =>
      obtain ⟨answer, hreturns, -⟩ :=
        exists_fulfils (hexecutable session strand hconnection hstrand)
      exact absurd hreturns (hanswer answer)
  | turn handle session next fault sessions hconnection hbody hsession =>
      have hold := hinv.connections handle session hconnection
      have hnext := hinv.setConnection hconnection (repliesInv_turn hold hbody hsession)
      exact ⟨hnext.running, hnext.connections, hnext.handles⟩

theorem inv_run {server : Server} {events : List Event}
    (hexecutable : Transition.Guarded (step proto)
      (fun state event => event.Executable proto state) start events)
    (hrun : Transition.run (step proto) start events = some server) : Inv proto server :=
  Transition.run_invariant_of_guarded
    (fun _ _ _ hinv hguard hstep => inv_step hinv hguard hstep) inv_start hexecutable hrun

/-- In every run whose requests can all be executed, every connection has one
reply posted for each request delivered on it, in order: what its method returns
on its arguments, or the error that the specification has for the payload and for
the exception raised in its service.  The bytes written to the connection are a
prefix of the frames of these replies, and all of them once the writes of an
error-free connection have settled. -/
theorem replies_in_order {server : Server} {events : List Event}
    (hexecutable : Transition.Guarded (step proto)
      (fun state event => event.Executable proto state) start events)
    (hrun : Transition.run (step proto) start events = some server) :
    server.trapped = false ∧ ∀ handle session, server.connections[handle]? = some session →
      RepliesInOrder proto (server.servedOn handle) session ∧
      session.written <+: sessionFormat.frames session.posted ∧
      (session.errors = [] → session.writesSettled →
        session.written = sessionFormat.frames session.posted) := by
  have hinv := inv_run hexecutable hrun
  refine ⟨hinv.running, ?_⟩
  intro handle session hconnection
  have hsession := hinv.connections handle session hconnection
  refine ⟨hsession.replies, hsession.write.written_isPrefix, ?_⟩
  intro herrors hsettled
  have hopen : session.isOpen = true := by
    rw [← Bool.not_eq_false]
    exact fun hclosed => hsession.closed hclosed herrors
  exact hsession.write.written_eq hopen hsettled

/-- A server that is not trapped was not trapped before. -/
theorem running_of_run {server final : Server} {events : List Event}
    (hrun : Transition.run (step proto) server events = some final)
    (hrunning : final.trapped = false) : server.trapped = false := by
  cases events with
  | nil => exact Option.some.inj hrun ▸ hrunning
  | cons event events =>
      obtain ⟨next, hnext, -⟩ := Transition.run_cons.mp hrun
      exact (stepped_of_step hnext).1

/-- A run that does not trap the server has served only what can be executed. -/
theorem guarded_of_running {server final : Server} {events : List Event}
    (hrun : Transition.run (step proto) server events = some final)
    (hrunning : final.trapped = false) :
    Transition.Guarded (step proto) (fun state event => event.Executable proto state)
      server events := by
  induction events generalizing server with
  | nil => trivial
  | cons event events ih =>
      obtain ⟨next, hnext, hrest⟩ := Transition.run_cons.mp hrun
      have hkept : next.trapped = false := running_of_run hrest hrunning
      refine ⟨?_, fun other hother => ?_⟩
      · cases (stepped_of_step hnext).2 with
        | accept | acceptError | socket => trivial
        | request handle session moved strand fault answer hconnection hstrand hanswer hmoved =>
            rintro found rest hfound hrest
            obtain rfl := Option.some.inj (hconnection.symm.trans hfound)
            exact executable_iff.mpr ⟨answer, hanswer⟩
        | trap => exact absurd hkept (by simp)
        | turn handle session moved fault sessions hconnection hbody hmoved =>
            rintro found rest hfound hrest
            obtain rfl := Option.some.inj (hconnection.symm.trans hfound)
            exact absurd hrest (hbody rest)
      · obtain rfl := Option.some.inj (hnext.symm.trans hother)
        exact ih hrest

/-- `add(2, 3)`. -/
def sumPayload : Payload :=
  requestLayout.serialize ⟨1, metAdd, operandsLayout.serialize ⟨2, 3⟩⟩

/-- `[[2]] * [[3]]`, for which there is no memory. -/
def powerPayload : Payload :=
  requestLayout.serialize ⟨2, metCalcMatrix, calcMatrixLayout.serialize ⟨[⟨[2]⟩], [⟨[3]⟩], 1⟩⟩

def badAlloc : Option Exn := some (.stdException "std::bad_alloc")

def sumReply : Payload :=
  serializeResponse standard
    ⟨1, statusOk, metAdd, intResultLayout.serialize ⟨5⟩, ""⟩

def powerReply : Payload :=
  serializeResponse standard ⟨2, statusInvokeError, metCalcMatrix, [], "std::bad_alloc"⟩

/-- The first client asks for the sum and the power, and meanwhile the second for
the sum. -/
def twoClientsEvents : List Event :=
  [.accept, .accept,
    .socket 0 (.arrive (wireMessage sumPayload ++ wireMessage powerPayload)),
    .socket 0 (.readSome 4), .socket 1 (.arrive (wireMessage sumPayload)), .run 0 none,
    .socket 1 (.readSome 4), .socket 0 (.readSome 10), .run 0 none, .run 1 none,
    .socket 0 (.readSome 4), .socket 1 (.readSome 10), .run 0 none, .run 0 none,
    .socket 0 (.readSome 18), .run 0 badAlloc, .run 1 none, .socket 0 (.writeSome 14),
    .run 1 none, .run 0 none, .run 0 none, .socket 1 (.writeSome 14), .run 1 none,
    .socket 0 (.writeSome 26), .run 0 none]

def firstSession : Session :=
  { Session.start with
    readBuffer := [8, 2, 16, 3]
    arrived := wireMessage sumPayload ++ wireMessage powerPayload
    written := wireMessage sumReply ++ wireMessage powerReply
    posted := [sumReply, powerReply]
    messages := [sumPayload, powerPayload] }

def secondSession : Session :=
  { Session.start with
    readBuffer := [8, 1, 16, 1]
    arrived := wireMessage sumPayload
    written := wireMessage sumReply
    posted := [sumReply]
    messages := [sumPayload] }

def twoClientsServer : Server where
  connections := [firstSession, secondSession]
  sessions := [0, 1]
  served := [(0, ⟨none, ⟨sumReply, [.add]⟩⟩),
    (0, ⟨badAlloc, ⟨powerReply, [.calcMatrix]⟩⟩), (1, ⟨none, ⟨sumReply, [.add]⟩⟩)]
  trapped := false

theorem run_twoClientsEvents :
    Transition.run (step standard) start twoClientsEvents = some twoClientsServer := by
  decide

/-- Both sums are answered, with the exception in between. -/
theorem replies_in_order_twoClients :
    RepliesInOrder standard
        [⟨none, ⟨sumReply, [.add]⟩⟩, ⟨badAlloc, ⟨powerReply, [.calcMatrix]⟩⟩] firstSession ∧
      RepliesInOrder standard [⟨none, ⟨sumReply, [.add]⟩⟩] secondSession ∧
      firstSession.written = sessionFormat.frames [sumReply, powerReply] ∧
      secondSession.written = sessionFormat.frames [sumReply] := by
  have hexecutable := guarded_of_running run_twoClientsEvents rfl
  obtain ⟨-, hconnections⟩ := replies_in_order hexecutable run_twoClientsEvents
  obtain ⟨hfirst, -, hfirstWritten⟩ := hconnections 0 firstSession rfl
  obtain ⟨hsecond, -, hsecondWritten⟩ := hconnections 1 secondSession rfl
  exact ⟨hfirst, hsecond, hfirstWritten rfl (by decide), hsecondWritten rfl (by decide)⟩

/-- A division by zero is requested. -/
def trapEvents : List Event :=
  [.accept, .socket 0 (.arrive (wireMessage (requestLayout.serialize divByZero))),
    .socket 0 (.readSome 4), .run 0 none, .socket 0 (.readSome 8), .run 0 none]

def trappedServer : Server where
  connections := [{ Session.start with
    readBuffer := requestLayout.serialize divByZero
    reading := none
    arrived := wireMessage (requestLayout.serialize divByZero)
    messages := [requestLayout.serialize divByZero] }]
  sessions := [0]
  served := []
  trapped := true

/-- The request is delivered, and no reply is posted for it. -/
theorem trapEvents_lose_request :
    Transition.run (step standard) start trapEvents = some trappedServer ∧
      ∃ session, trappedServer.connections[0]? = some session ∧
        session.messages = [requestLayout.serialize divByZero] ∧ session.posted = [] ∧
          ∀ services, ¬ RepliesInOrder standard services session := by
  refine ⟨by decide, _, rfl, rfl, rfl, ?_⟩
  rintro services ⟨hfulfilled, hposted⟩
  have hlength := congrArg List.length hposted
  rw [List.length_map, ← hfulfilled.length_eq] at hlength
  exact absurd hlength (by simp [Session.start, Session.doReadHeader, Session.resizeBuffer,
    Session.fresh])

end Server

end RpcDemo
