import RpcDemo.Core.Transition
import RpcDemo.Detail.Frame

/-!
# One session of the network layer

A session owns a connected socket, a strand and a write queue.  Functions with
the names of `session.cpp` are the bodies of its members and of the lambdas it
hands to the strand; a strand is the queue of handlers that were posted to it
or whose operation has completed, and it runs them one at a time from the
front.  The outstanding `async_read` and `async_write`, the bytes the TCP stack
has received and the end of the peer's stream belong to the state, and so do
the histories the theorems speak of: what arrived, what was written, what was
posted, delivered and reported.
-/

namespace RpcDemo

open RpcDemo.Frame

/-- `boost::system::error_code`: the code the session makes itself, and those
the socket reports. -/
inductive ErrorCode
  | messageSize
  | system (code : ℕ)
  deriving DecidableEq

/-- The two phases of the read loop. -/
inductive ReadKind
  | header
  | body
  deriving DecidableEq

/-- A handler waiting in the strand. -/
inductive Handler
  | asyncWrite (data : Payload)
  | close
  | read (kind : ReadKind) (error : Option ErrorCode)
  | write (error : Option ErrorCode)
  deriving DecidableEq

/-- An outstanding `async_read` into `read_buffer_`; `filled` bytes of the
buffer have been transferred. -/
structure ReadOp where
  kind : ReadKind
  filled : ℕ
  deriving DecidableEq

/-- An outstanding `async_write`; `sent` bytes of the message are on the wire. -/
structure WriteOp where
  message : List UInt8
  sent : ℕ
  deriving DecidableEq

structure Session where
  isOpen : Bool
  strand : List Handler
  readBuffer : List UInt8
  writeQueue : List Payload
  reading : Option ReadOp
  writing : Option WriteOp
  inbox : List UInt8
  ended : Option ErrorCode
  arrived : List UInt8
  written : List UInt8
  posted : List Payload
  messages : List Payload
  errors : List ErrorCode
  deriving DecidableEq

/-- What a message handler can do to its own session through a
`connection_handle`. -/
inductive Call
  | reply (data : Payload)
  | close
  deriving DecidableEq

/-- One run of a message handler: its calls in order, and what it leaves in the
buffer it was handed by rvalue reference. -/
structure Reaction where
  calls : List Call
  leftover : List UInt8
  deriving DecidableEq

namespace Session

/-! ## The members of `session` -/

def post (session : Session) (handler : Handler) : Session :=
  { session with strand := session.strand ++ [handler] }

def asyncWrite (session : Session) (data : Payload) : Session :=
  { session.post (.asyncWrite data) with posted := session.posted ++ [data] }

/-- `close()` from outside the strand: `dispatch` queues `do_close`. -/
def close (session : Session) : Session :=
  session.post .close

def doClose (session : Session) : Session :=
  { session with isOpen := false }

def onError (session : Session) (error : ErrorCode) : Session :=
  { session with errors := session.errors ++ [error] }

/-- `std::vector::resize` of the read buffer. -/
def resizeBuffer (session : Session) (size : ℕ) : Session :=
  { session with
    readBuffer := session.readBuffer.take size ++
      List.replicate (size - session.readBuffer.length) 0 }

def doReadHeader (session : Session) : Session :=
  { session.resizeBuffer 4 with reading := some ⟨.header, 0⟩ }

def doReadBody (session : Session) (bodyLength : UInt32) : Session :=
  { session.resizeBuffer bodyLength.toNat with reading := some ⟨.body, 0⟩ }

def doWrite (session : Session) : Session :=
  match session.writeQueue with
  | [] => session
  | data :: _ => { session with writing := some ⟨wireMessage data, 0⟩ }

/-- The socket handed over by `accept` or `connect`, before `start`. -/
def fresh : Session where
  isOpen := true
  strand := []
  readBuffer := []
  writeQueue := []
  reading := none
  writing := none
  inbox := []
  ended := none
  arrived := []
  written := []
  posted := []
  messages := []
  errors := []

def start : Session :=
  fresh.doReadHeader

/-! ## The lambdas run by the strand -/

def onAsyncWrite (session : Session) (data : Payload) : Session :=
  let queued := { session with writeQueue := session.writeQueue ++ [data] }
  if session.writeQueue.isEmpty then queued.doWrite else queued

/-- A call of the message handler on its own session.  It runs inside the
strand, so `reply` posts and the dispatched `close` takes effect at once. -/
def handle (session : Session) : Call → Session
  | .reply data => session.asyncWrite data
  | .close => session.doClose

/-- `on_message_(std::move(read_buffer_))`. -/
def onMessage (session : Session) (reaction : Reaction) : Session :=
  reaction.calls.foldl handle
    { session with
      messages := session.messages ++ [session.readBuffer]
      readBuffer := reaction.leftover }

/-- A message handler that makes no calls. -/
def silent : Reaction := ⟨[], []⟩

def onReadFailed (session : Session) (error : ErrorCode) : Session :=
  session.doClose.onError error

def onReadHeader (session : Session) : Session :=
  let bodyLength := decodeHeader session.readBuffer
  if reasonableLength bodyLength.toNat then
    session.doReadBody bodyLength
  else
    session.doClose.onError .messageSize

def onReadBody (session : Session) (reaction : Reaction) : Session :=
  (session.onMessage reaction).doReadHeader

def onWritten (session : Session) : Session :=
  let popped := { session with writeQueue := session.writeQueue.tail }
  if popped.writeQueue.isEmpty then popped else popped.doWrite

def onWriteFailed (session : Session) (error : ErrorCode) : Session :=
  session.doClose.onError error

/-- Run one handler in the strand; `reaction` is what the message handler does,
should this handler call it. -/
def runHandler (session : Session) (reaction : Reaction) : Handler → Session
  | .asyncWrite data => session.onAsyncWrite data
  | .close => session.doClose
  | .read _ (some error) => session.onReadFailed error
  | .read .header none => session.onReadHeader
  | .read .body none => session.onReadBody reaction
  | .write (some error) => session.onWriteFailed error
  | .write none => session.onWritten

/-! ## The socket -/

def completeRead (session : Session) (kind : ReadKind) (error : Option ErrorCode) : Session :=
  { session.post (.read kind error) with reading := none }

def completeWrite (session : Session) (error : Option ErrorCode) : Session :=
  { session.post (.write error) with writing := none }

/-- `count` received bytes move into the buffer of the outstanding read; with
the last of them the operation completes. -/
def fillBuffer (session : Session) (op : ReadOp) (count : ℕ) : Session :=
  let filled := { session with
    readBuffer := session.readBuffer.take op.filled ++ session.inbox.take count ++
      session.readBuffer.drop (op.filled + count)
    inbox := session.inbox.drop count }
  if op.filled + count = session.readBuffer.length then
    filled.completeRead op.kind none
  else
    { filled with reading := some ⟨op.kind, op.filled + count⟩ }

/-- The next `count` bytes of the outstanding write reach the wire. -/
def sendBytes (session : Session) (op : WriteOp) (count : ℕ) : Session :=
  let sent := { session with
    written := session.written ++ (op.message.drop op.sent).take count }
  if op.sent + count = op.message.length then
    sent.completeWrite none
  else
    { sent with writing := some ⟨op.message, op.sent + count⟩ }

/-- What can happen to a session: calls of its public members, progress of the
socket, and a turn of its strand. -/
inductive Event
  | asyncWrite (data : Payload)
  | close
  | arrive (segment : List UInt8)
  | hangUp (error : ErrorCode)
  | readSome (count : ℕ)
  | readFail (error : ErrorCode)
  | writeSome (count : ℕ)
  | writeFail (error : ErrorCode)
  | run (reaction : Reaction)
  deriving DecidableEq

/-- A read fails when the socket was closed here, or when everything received
has been read and the peer's stream has ended. -/
def readFails (session : Session) (error : ErrorCode) : Prop :=
  session.isOpen = false ∨ (session.inbox = [] ∧ session.ended = some error)

instance (session : Session) (error : ErrorCode) : Decidable (session.readFails error) :=
  inferInstanceAs (Decidable (_ ∨ _))

def readStep (session : Session) (count : ℕ) : Option Session :=
  match session.reading with
  | none => none
  | some op =>
      if session.isOpen = true ∧ 0 < count ∧ count ≤ session.inbox.length ∧
          op.filled + count ≤ session.readBuffer.length then
        some (session.fillBuffer op count)
      else none

def readFailStep (session : Session) (error : ErrorCode) : Option Session :=
  match session.reading with
  | none => none
  | some op =>
      if session.readFails error then some (session.completeRead op.kind (some error))
      else none

def writeStep (session : Session) (count : ℕ) : Option Session :=
  match session.writing with
  | none => none
  | some op =>
      if session.isOpen = true ∧ 0 < count ∧ op.sent + count ≤ op.message.length then
        some (session.sendBytes op count)
      else none

def writeFailStep (session : Session) (error : ErrorCode) : Option Session :=
  match session.writing with
  | none => none
  | some _ => some (session.completeWrite (some error))

def runStep (session : Session) (reaction : Reaction) : Option Session :=
  match session.strand with
  | [] => none
  | handler :: strand => some ({ session with strand := strand }.runHandler reaction handler)

def step (session : Session) : Event → Option Session
  | .asyncWrite data => some (session.asyncWrite data)
  | .close => some session.close
  | .arrive segment =>
      if session.ended = none then
        some { session with
          inbox := session.inbox ++ segment
          arrived := session.arrived ++ segment }
      else none
  | .hangUp error =>
      if session.ended = none then some { session with ended := some error } else none
  | .readSome count => session.readStep count
  | .readFail error => session.readFailStep error
  | .writeSome count => session.writeStep count
  | .writeFail error => session.writeFailStep error
  | .run reaction => session.runStep reaction

/-- All a step can do, with the guards it passed. -/
inductive Stepped (session : Session) : Event → Session → Prop
  | asyncWrite (data : Payload) :
      Stepped session (.asyncWrite data) (session.asyncWrite data)
  | close : Stepped session .close session.close
  | arrive (segment : List UInt8) (hended : session.ended = none) :
      Stepped session (.arrive segment)
        { session with
          inbox := session.inbox ++ segment
          arrived := session.arrived ++ segment }
  | hangUp (error : ErrorCode) (hended : session.ended = none) :
      Stepped session (.hangUp error) { session with ended := some error }
  | readSome (op : ReadOp) (count : ℕ) (hop : session.reading = some op)
      (hopen : session.isOpen = true) (hcount : 0 < count)
      (hinbox : count ≤ session.inbox.length)
      (hroom : op.filled + count ≤ session.readBuffer.length) :
      Stepped session (.readSome count) (session.fillBuffer op count)
  | readFail (op : ReadOp) (error : ErrorCode) (hop : session.reading = some op)
      (hfails : session.readFails error) :
      Stepped session (.readFail error) (session.completeRead op.kind (some error))
  | writeSome (op : WriteOp) (count : ℕ) (hop : session.writing = some op)
      (hopen : session.isOpen = true) (hcount : 0 < count)
      (hroom : op.sent + count ≤ op.message.length) :
      Stepped session (.writeSome count) (session.sendBytes op count)
  | writeFail (op : WriteOp) (error : ErrorCode) (hop : session.writing = some op) :
      Stepped session (.writeFail error) (session.completeWrite (some error))
  | run (handler : Handler) (strand : List Handler) (reaction : Reaction)
      (hstrand : session.strand = handler :: strand) :
      Stepped session (.run reaction)
        ({ session with strand := strand }.runHandler reaction handler)

theorem stepped_of_step {session next : Session} {event : Event}
    (hstep : session.step event = some next) : Stepped session event next := by
  cases event with
  | asyncWrite data =>
      rw [step, Option.some.injEq] at hstep
      exact hstep ▸ .asyncWrite data
  | close =>
      rw [step, Option.some.injEq] at hstep
      exact hstep ▸ .close
  | arrive segment =>
      simp only [step, Option.ite_none_right_eq_some, Option.some.injEq] at hstep
      exact hstep.2 ▸ .arrive segment hstep.1
  | hangUp error =>
      simp only [step, Option.ite_none_right_eq_some, Option.some.injEq] at hstep
      exact hstep.2 ▸ .hangUp error hstep.1
  | readSome count =>
      simp only [step, readStep] at hstep
      split at hstep
      case h_1 => exact absurd hstep (by simp)
      case h_2 op hop =>
        simp only [Option.ite_none_right_eq_some, Option.some.injEq] at hstep
        obtain ⟨⟨hopen, hcount, hinbox, hroom⟩, rfl⟩ := hstep
        exact .readSome op count hop hopen hcount hinbox hroom
  | readFail error =>
      simp only [step, readFailStep] at hstep
      split at hstep
      case h_1 => exact absurd hstep (by simp)
      case h_2 op hop =>
        simp only [Option.ite_none_right_eq_some, Option.some.injEq] at hstep
        exact hstep.2 ▸ .readFail op error hop hstep.1
  | writeSome count =>
      simp only [step, writeStep] at hstep
      split at hstep
      case h_1 => exact absurd hstep (by simp)
      case h_2 op hop =>
        simp only [Option.ite_none_right_eq_some, Option.some.injEq] at hstep
        obtain ⟨⟨hopen, hcount, hroom⟩, rfl⟩ := hstep
        exact .writeSome op count hop hopen hcount hroom
  | writeFail error =>
      simp only [step, writeFailStep] at hstep
      split at hstep
      case h_1 => exact absurd hstep (by simp)
      case h_2 op hop =>
        rw [Option.some.injEq] at hstep
        exact hstep ▸ .writeFail op error hop
  | run reaction =>
      simp only [step, runStep] at hstep
      split at hstep
      case h_1 => exact absurd hstep (by simp)
      case h_2 handler strand hstrand =>
        rw [Option.some.injEq] at hstep
        exact hstep ▸ .run handler strand reaction hstrand

end Session

end RpcDemo
