import Mathlib.Data.List.Infix
import RpcDemo.Detail.Session

/-!
# The write queue of a session

`write_queue_` being non-empty is the only record that a write is in flight.
The invariant here says what that record means in every state between two
strand handlers, and what it means for the bytes on the wire: they are the
frames of the first posted payloads, in posting order, the last one possibly
cut short.
-/

namespace RpcDemo

open RpcDemo.Frame

/-! ## What waits in the strand -/

def Handler.payload : Handler → Option Payload
  | .asyncWrite data => some data
  | _ => none

def Handler.writeResult : Handler → Option (Option ErrorCode)
  | .write error => some error
  | _ => none

def Handler.readResult : Handler → Option (ReadKind × Option ErrorCode)
  | .read kind error => some (kind, error)
  | _ => none

def Call.payload : Call → Option Payload
  | .reply data => some data
  | .close => none

namespace Session

/-- Payloads handed to `async_write` whose lambda has not run yet. -/
def posts (strand : List Handler) : List Payload :=
  strand.filterMap Handler.payload

/-- Completions of `async_write` whose lambda has not run yet. -/
def writeResults (strand : List Handler) : List (Option ErrorCode) :=
  strand.filterMap Handler.writeResult

/-- Completions of `async_read` whose lambda has not run yet. -/
def readResults (strand : List Handler) : List (ReadKind × Option ErrorCode) :=
  strand.filterMap Handler.readResult

section Strand

variable (left right strand : List Handler) (handler : Handler) (datas : List Payload)

@[simp]
theorem posts_nil : posts [] = [] := rfl

@[simp]
theorem writeResults_nil : writeResults [] = [] := rfl

@[simp]
theorem readResults_nil : readResults [] = [] := rfl

@[simp]
theorem posts_append : posts (left ++ right) = posts left ++ posts right :=
  List.filterMap_append

@[simp]
theorem writeResults_append :
    writeResults (left ++ right) = writeResults left ++ writeResults right :=
  List.filterMap_append

@[simp]
theorem readResults_append :
    readResults (left ++ right) = readResults left ++ readResults right :=
  List.filterMap_append

@[simp]
theorem posts_cons :
    posts (handler :: strand) = handler.payload.toList ++ posts strand := by
  cases handler <;> rfl

@[simp]
theorem writeResults_cons :
    writeResults (handler :: strand) = handler.writeResult.toList ++ writeResults strand := by
  cases handler <;> rfl

@[simp]
theorem readResults_cons :
    readResults (handler :: strand) = handler.readResult.toList ++ readResults strand := by
  cases handler <;> rfl

@[simp]
theorem posts_map_asyncWrite : posts (datas.map Handler.asyncWrite) = datas := by
  induction datas with
  | nil => rfl
  | cons data datas ih => simp [Handler.payload, ih]

@[simp]
theorem writeResults_map_asyncWrite : writeResults (datas.map Handler.asyncWrite) = [] := by
  induction datas with
  | nil => rfl
  | cons data datas ih => simp [Handler.writeResult, ih]

@[simp]
theorem readResults_map_asyncWrite : readResults (datas.map Handler.asyncWrite) = [] := by
  induction datas with
  | nil => rfl
  | cons data datas ih => simp [Handler.readResult, ih]

end Strand

/-! ## The message handler -/

def replies (calls : List Call) : List Payload :=
  calls.filterMap Call.payload

/-- All a message handler changes in its session: what it replied is posted, in
order, and the socket is closed if it called `close`. -/
theorem foldl_handle (session : Session) (calls : List Call) :
    calls.foldl handle session =
      { session with
        strand := session.strand ++ (replies calls).map Handler.asyncWrite
        posted := session.posted ++ replies calls
        isOpen := session.isOpen && !calls.contains Call.close } := by
  induction calls generalizing session with
  | nil => simp [replies]
  | cons call calls ih =>
      cases call with
      | reply data =>
          simp [ih, handle, asyncWrite, post, replies, Call.payload]
      | close =>
          simp [ih, handle, doClose, replies, Call.payload, List.filterMap_cons]

theorem onMessage_eq (session : Session) (reaction : Reaction) :
    session.onMessage reaction =
      { session with
        messages := session.messages ++ [session.readBuffer]
        readBuffer := reaction.leftover
        strand := session.strand ++ (replies reaction.calls).map Handler.asyncWrite
        posted := session.posted ++ replies reaction.calls
        isOpen := session.isOpen && !reaction.calls.contains Call.close } := by
  rw [onMessage, foldl_handle]

/-- `next` differs from `session` at most in its buffer, its queue, its
operations and its socket. -/
structure SameHistories (session next : Session) : Prop where
  strand : next.strand = session.strand
  inbox : next.inbox = session.inbox
  ended : next.ended = session.ended
  arrived : next.arrived = session.arrived
  written : next.written = session.written
  posted : next.posted = session.posted
  messages : next.messages = session.messages

theorem sameHistories_doWrite (session : Session) : SameHistories session session.doWrite := by
  unfold doWrite
  split <;> exact ⟨rfl, rfl, rfl, rfl, rfl, rfl, rfl⟩

/-- Only the completion of a body delivers a message and posts. -/
theorem sameHistories_runHandler (session : Session) (reaction : Reaction)
    {handler : Handler} (hbody : handler ≠ .read .body none) :
    SameHistories session (session.runHandler reaction handler) := by
  have hqueued : ∀ queue : List Payload, SameHistories session
      (doWrite { session with writeQueue := queue }) := by
    intro queue
    obtain ⟨h1, h2, h3, h4, h5, h6, h7⟩ :=
      sameHistories_doWrite { session with writeQueue := queue }
    exact ⟨h1, h2, h3, h4, h5, h6, h7⟩
  cases handler with
  | asyncWrite data =>
      simp only [runHandler, onAsyncWrite]
      split
      · exact hqueued _
      · exact ⟨rfl, rfl, rfl, rfl, rfl, rfl, rfl⟩
  | close => exact ⟨rfl, rfl, rfl, rfl, rfl, rfl, rfl⟩
  | read kind error =>
      cases error with
      | some error => cases kind <;> exact ⟨rfl, rfl, rfl, rfl, rfl, rfl, rfl⟩
      | none =>
          cases kind with
          | header =>
              simp only [runHandler, onReadHeader]
              split <;> exact ⟨rfl, rfl, rfl, rfl, rfl, rfl, rfl⟩
          | body => exact absurd rfl hbody
  | write error =>
      cases error with
      | some error => exact ⟨rfl, rfl, rfl, rfl, rfl, rfl, rfl⟩
      | none =>
          simp only [runHandler, onWritten]
          split
          · exact ⟨rfl, rfl, rfl, rfl, rfl, rfl, rfl⟩
          · exact hqueued _

/-! ## A closed socket -/

theorem isOpen_doWrite (session : Session) : session.doWrite.isOpen = session.isOpen := by
  unfold doWrite
  split <;> rfl

theorem closed_runHandler {session : Session} (reaction : Reaction) (handler : Handler)
    (hclosed : session.isOpen = false) :
    (session.runHandler reaction handler).isOpen = false := by
  cases handler with
  | asyncWrite data =>
      simp only [runHandler, onAsyncWrite]
      split
      · rw [isOpen_doWrite, hclosed]
      · exact hclosed
  | close => rfl
  | read kind error =>
      cases error with
      | some error => cases kind <;> rfl
      | none =>
          cases kind with
          | header =>
              simp only [runHandler, onReadHeader]
              split
              · exact hclosed
              · rfl
          | body =>
              simp [runHandler, onReadBody, onMessage_eq, doReadHeader, resizeBuffer, hclosed]
  | write error =>
      cases error with
      | some error => rfl
      | none =>
          simp only [runHandler, onWritten]
          split
          · exact hclosed
          · rw [isOpen_doWrite, hclosed]

/-- A closed socket stays closed. -/
theorem closed_step {session next : Session} {event : Event}
    (hstep : session.step event = some next) (hclosed : session.isOpen = false) :
    next.isOpen = false := by
  cases stepped_of_step hstep with
  | asyncWrite data => exact hclosed
  | close => exact hclosed
  | arrive segment => exact hclosed
  | hangUp error => exact hclosed
  | readSome op count _ hopen => exact absurd (hopen.symm.trans hclosed) (by simp)
  | readFail op error => exact hclosed
  | writeSome op count _ hopen => exact absurd (hopen.symm.trans hclosed) (by simp)
  | writeFail op error => exact hclosed
  | run handler strand reaction => exact closed_runHandler reaction handler hclosed

/-! ## The invariant -/

/-- The state of the write queue once the frames of `sent` are on the wire:
nothing queued; a write of the front in flight, completed or failed; or a
failed write that left the socket closed. -/
inductive WritePhase (session : Session) (sent : List Payload) : Prop
  | idle (hqueue : session.writeQueue = []) (hwriting : session.writing = none)
      (hresults : writeResults session.strand = [])
      (hwritten : session.written = sessionFormat.frames sent)
  | busy (data : Payload) (rest : List Payload) (count : ℕ)
      (hqueue : session.writeQueue = data :: rest)
      (hwriting : session.writing = some ⟨wireMessage data, count⟩)
      (hresults : writeResults session.strand = [])
      (hcount : count < (wireMessage data).length)
      (hwritten : session.written =
        sessionFormat.frames sent ++ (wireMessage data).take count)
  | succeeded (data : Payload) (rest : List Payload)
      (hqueue : session.writeQueue = data :: rest)
      (hwriting : session.writing = none)
      (hresults : writeResults session.strand = [none])
      (hwritten : session.written = sessionFormat.frames sent ++ wireMessage data)
  | failed (data : Payload) (rest : List Payload) (count : ℕ) (error : ErrorCode)
      (hqueue : session.writeQueue = data :: rest)
      (hwriting : session.writing = none)
      (hresults : writeResults session.strand = [some error])
      (hwritten : session.written =
        sessionFormat.frames sent ++ (wireMessage data).take count)
  | stopped (data : Payload) (rest : List Payload) (count : ℕ)
      (hqueue : session.writeQueue = data :: rest)
      (hwriting : session.writing = none)
      (hresults : writeResults session.strand = [])
      (hclosed : session.isOpen = false)
      (hwritten : session.written =
        sessionFormat.frames sent ++ (wireMessage data).take count)

/-- Every posted payload is on the wire, in the queue or still in the strand,
in posting order, and the queue is in one of the phases above. -/
def WriteInv (session : Session) : Prop :=
  ∃ sent, session.posted = sent ++ session.writeQueue ++ posts session.strand ∧
    WritePhase session sent

/-- The phase looks at the queue, the operation, its completion, the wire and
the socket, and at nothing else. -/
theorem WritePhase.congr {session next : Session} {sent : List Payload}
    (hphase : WritePhase session sent)
    (hqueue : next.writeQueue = session.writeQueue)
    (hwriting : next.writing = session.writing)
    (hresults : writeResults next.strand = writeResults session.strand)
    (hwritten : next.written = session.written)
    (hopen : session.isOpen = false → next.isOpen = false) :
    WritePhase next sent := by
  cases hphase with
  | idle h1 h2 h3 h4 =>
      exact .idle (hqueue.trans h1) (hwriting.trans h2) (hresults.trans h3)
        (hwritten.trans h4)
  | busy data rest count h1 h2 h3 hcount h4 =>
      exact .busy data rest count (hqueue.trans h1) (hwriting.trans h2)
        (hresults.trans h3) hcount (hwritten.trans h4)
  | succeeded data rest h1 h2 h3 h4 =>
      exact .succeeded data rest (hqueue.trans h1) (hwriting.trans h2)
        (hresults.trans h3) (hwritten.trans h4)
  | failed data rest count error h1 h2 h3 h4 =>
      exact .failed data rest count error (hqueue.trans h1) (hwriting.trans h2)
        (hresults.trans h3) (hwritten.trans h4)
  | stopped data rest count h1 h2 h3 hclosed h4 =>
      exact .stopped data rest count (hqueue.trans h1) (hwriting.trans h2)
        (hresults.trans h3) (hopen hclosed) (hwritten.trans h4)

theorem writeInv_start : WriteInv start :=
  ⟨[], rfl, .idle rfl rfl rfl rfl⟩

theorem writeInv_asyncWrite {session : Session} (data : Payload)
    (hinv : session.WriteInv) : (session.asyncWrite data).WriteInv := by
  obtain ⟨sent, hposted, hphase⟩ := hinv
  refine ⟨sent, ?_, hphase.congr rfl rfl ?_ rfl id⟩
  · simp [asyncWrite, post, hposted, Handler.payload]
  · simp [asyncWrite, post, Handler.writeResult]

/-- Events that leave the write side alone, save that they may close the
socket, preserve the invariant. -/
theorem writeInv_congr {session next : Session} (hinv : session.WriteInv)
    (hposted : next.posted = session.posted)
    (hqueue : next.writeQueue = session.writeQueue)
    (hposts : posts next.strand = posts session.strand)
    (hwriting : next.writing = session.writing)
    (hresults : writeResults next.strand = writeResults session.strand)
    (hwritten : next.written = session.written)
    (hopen : session.isOpen = false → next.isOpen = false) : next.WriteInv := by
  obtain ⟨sent, hsplit, hphase⟩ := hinv
  refine ⟨sent, ?_, hphase.congr hqueue hwriting hresults hwritten hopen⟩
  rw [hposted, hqueue, hposts, hsplit]

theorem writeInv_completeRead {session : Session} (kind : ReadKind)
    (error : Option ErrorCode) (hinv : session.WriteInv) :
    (session.completeRead kind error).WriteInv := by
  refine writeInv_congr hinv rfl rfl ?_ rfl ?_ rfl id
  · simp [completeRead, post, Handler.payload]
  · simp [completeRead, post, Handler.writeResult]

theorem writeInv_fillBuffer {session : Session} (op : ReadOp) (count : ℕ)
    (hinv : session.WriteInv) : (session.fillBuffer op count).WriteInv := by
  simp only [fillBuffer]
  split
  · apply writeInv_completeRead
    exact writeInv_congr hinv rfl rfl rfl rfl rfl rfl id
  · exact writeInv_congr hinv rfl rfl rfl rfl rfl rfl id

/-- The front of the queue starts its way to the wire. -/
theorem WritePhase.doWrite {session : Session} {sent : List Payload}
    (hwriting : session.writing = none)
    (hresults : writeResults session.strand = [])
    (hwritten : session.written = sessionFormat.frames sent) :
    WritePhase session.doWrite sent := by
  cases hqueue : session.writeQueue with
  | nil =>
      simp only [Session.doWrite, hqueue]
      exact .idle hqueue hwriting hresults hwritten
  | cons data rest =>
      simp only [Session.doWrite, hqueue]
      refine .busy data rest 0 rfl rfl hresults ?_ ?_
      · simp
      · simpa using hwritten

theorem posted_doWrite (session : Session) :
    session.doWrite.posted = session.posted ∧
      session.doWrite.writeQueue = session.writeQueue ∧
      session.doWrite.strand = session.strand := by
  unfold doWrite
  split <;> exact ⟨rfl, rfl, rfl⟩

theorem writeInv_sendBytes {session : Session} {op : WriteOp} {count : ℕ}
    (hop : session.writing = some op)
    (hcount : op.sent + count ≤ op.message.length)
    (hinv : session.WriteInv) : (session.sendBytes op count).WriteInv := by
  obtain ⟨sent, hposted, hphase⟩ := hinv
  cases hphase with
  | busy data rest done hqueue hwriting hresults hdone hwritten =>
      obtain rfl : op = ⟨wireMessage data, done⟩ := by
        rw [hop] at hwriting
        exact Option.some.inj hwriting
      have hbytes : (wireMessage data).take done ++ ((wireMessage data).drop done).take count =
          (wireMessage data).take (done + count) := by
        rw [List.take_add]
      have hwire : session.written ++ ((wireMessage data).drop done).take count =
          sessionFormat.frames sent ++ (wireMessage data).take (done + count) := by
        rw [hwritten, List.append_assoc, hbytes]
      refine ⟨sent, ?_, ?_⟩
      · simp only [sendBytes]
        split <;> simp [completeWrite, post, hposted, Handler.payload]
      · by_cases hall : done + count = (wireMessage data).length
        · simp only [sendBytes, hall, if_true]
          refine .succeeded data rest hqueue rfl ?_ ?_
          · simp [completeWrite, post, hresults, Handler.writeResult]
          · rw [hall, List.take_length] at hwire
            exact hwire
        · simp only [sendBytes, hall, if_false]
          refine .busy data rest (done + count) hqueue rfl hresults ?_ hwire
          exact lt_of_le_of_ne hcount hall
  | idle _ hwriting | succeeded _ _ _ hwriting | failed _ _ _ _ _ hwriting
  | stopped _ _ _ _ hwriting =>
      rw [hop] at hwriting
      exact absurd hwriting (by simp)

theorem writeInv_completeWrite_error {session : Session} {op : WriteOp}
    (error : ErrorCode) (hop : session.writing = some op) (hinv : session.WriteInv) :
    (session.completeWrite (some error)).WriteInv := by
  obtain ⟨sent, hposted, hphase⟩ := hinv
  cases hphase with
  | busy data rest done hqueue hwriting hresults hdone hwritten =>
      refine ⟨sent, ?_, .failed data rest done error hqueue rfl ?_ hwritten⟩
      · simp [completeWrite, post, hposted, Handler.payload]
      · simp [completeWrite, post, hresults, Handler.writeResult]
  | idle _ hwriting | succeeded _ _ _ hwriting | failed _ _ _ _ _ hwriting
  | stopped _ _ _ _ hwriting =>
      rw [hop] at hwriting
      exact absurd hwriting (by simp)

/-! ## One turn of the strand -/

theorem writeInv_pop {session : Session} {handler : Handler} {strand : List Handler}
    (hstrand : session.strand = handler :: strand)
    (hpayload : handler.payload = none) (hresult : handler.writeResult = none)
    (hinv : session.WriteInv) : WriteInv { session with strand := strand } := by
  refine writeInv_congr hinv rfl rfl ?_ rfl ?_ rfl id
  · simp [hstrand, hpayload]
  · simp [hstrand, hresult]

theorem writeInv_doClose {session : Session} (hinv : session.WriteInv) :
    session.doClose.WriteInv :=
  writeInv_congr hinv rfl rfl rfl rfl rfl rfl fun _ => rfl

theorem writeInv_doClose_onError {session : Session} (error : ErrorCode)
    (hinv : session.WriteInv) : (session.doClose.onError error).WriteInv :=
  writeInv_congr hinv rfl rfl rfl rfl rfl rfl fun _ => rfl

theorem writeInv_onReadHeader {session : Session} (hinv : session.WriteInv) :
    session.onReadHeader.WriteInv := by
  simp only [onReadHeader]
  split
  · exact writeInv_congr hinv rfl rfl rfl rfl rfl rfl id
  · exact writeInv_doClose_onError _ hinv

theorem writeInv_onReadBody {session : Session} (reaction : Reaction)
    (hinv : session.WriteInv) : (session.onReadBody reaction).WriteInv := by
  obtain ⟨sent, hposted, hphase⟩ := hinv
  rw [onReadBody, onMessage_eq]
  refine ⟨sent, ?_, hphase.congr rfl rfl ?_ rfl ?_⟩
  · simp [doReadHeader, resizeBuffer, hposted]
  · simp [doReadHeader, resizeBuffer]
  · intro hclosed
    simp [doReadHeader, resizeBuffer, hclosed]

/-- A payload queued behind others waits; the write in flight goes on. -/
theorem WritePhase.push {session : Session} {sent : List Payload} (data : Payload)
    (hqueue : session.writeQueue ≠ []) (hphase : WritePhase session sent) :
    WritePhase { session with writeQueue := session.writeQueue ++ [data] } sent := by
  cases hphase with
  | idle hempty => exact absurd hempty hqueue
  | busy front rest count h1 h2 h3 hcount h4 =>
      exact .busy front (rest ++ [data]) count (by simp [h1]) h2 h3 hcount h4
  | succeeded front rest h1 h2 h3 h4 =>
      exact .succeeded front (rest ++ [data]) (by simp [h1]) h2 h3 h4
  | failed front rest count error h1 h2 h3 h4 =>
      exact .failed front (rest ++ [data]) count error (by simp [h1]) h2 h3 h4
  | stopped front rest count h1 h2 h3 hclosed h4 =>
      exact .stopped front (rest ++ [data]) count (by simp [h1]) h2 h3 hclosed h4

theorem writeInv_onAsyncWrite {session : Session} {data : Payload} {strand : List Handler}
    (hstrand : session.strand = .asyncWrite data :: strand) (hinv : session.WriteInv) :
    (onAsyncWrite { session with strand := strand } data).WriteInv := by
  obtain ⟨sent, hposted, hphase⟩ := hinv
  have hsplit : session.posted =
      sent ++ (session.writeQueue ++ [data]) ++ posts strand := by
    simp [hposted, hstrand, Handler.payload]
  have hpopped : WritePhase { session with strand := strand } sent := by
    refine hphase.congr rfl rfl ?_ rfl id
    simp [hstrand, Handler.writeResult]
  simp only [onAsyncWrite]
  split
  case isTrue hempty =>
    rw [List.isEmpty_iff] at hempty
    cases hpopped with
    | idle _ hwriting hresults hwritten =>
        refine ⟨sent, ?_, WritePhase.doWrite hwriting hresults hwritten⟩
        obtain ⟨hsame, hqueue, hstrand'⟩ := posted_doWrite
          { session with strand := strand, writeQueue := session.writeQueue ++ [data] }
        rw [hsame, hqueue, hstrand']
        exact hsplit
    | busy _ _ _ hqueue | succeeded _ _ hqueue | failed _ _ _ _ hqueue
    | stopped _ _ _ hqueue =>
        exact absurd (hempty.symm.trans hqueue) (by simp)
  case isFalse hnonempty =>
    refine ⟨sent, hsplit, WritePhase.push data ?_ hpopped⟩
    rwa [List.isEmpty_iff] at hnonempty

theorem writeInv_onWritten {session : Session} {strand : List Handler}
    (hstrand : session.strand = .write none :: strand) (hinv : session.WriteInv) :
    (onWritten { session with strand := strand }).WriteInv := by
  obtain ⟨sent, hposted, hphase⟩ := hinv
  have hresult : writeResults session.strand = none :: writeResults strand := by
    simp [hstrand, Handler.writeResult]
  cases hphase with
  | succeeded data rest hqueue hwriting hresults hwritten =>
      have hnone : writeResults strand = [] := by
        rw [hresult] at hresults
        simpa using hresults
      have hframes : session.written = sessionFormat.frames (sent ++ [data]) := by
        simp [hwritten]
      have hsplit : session.posted = (sent ++ [data]) ++ rest ++ posts strand := by
        simp [hposted, hqueue, hstrand, Handler.payload]
      simp only [onWritten, hqueue, List.tail_cons]
      split
      case isTrue hempty =>
        rw [List.isEmpty_iff] at hempty
        exact ⟨sent ++ [data], hsplit, .idle hempty hwriting hnone hframes⟩
      case isFalse hnonempty =>
        refine ⟨sent ++ [data], ?_, WritePhase.doWrite hwriting hnone hframes⟩
        obtain ⟨hsame, htail, hstrand'⟩ := posted_doWrite
          { session with strand := strand, writeQueue := rest }
        rw [hsame, htail, hstrand']
        exact hsplit
  | idle _ _ hresults | busy _ _ _ _ _ hresults | stopped _ _ _ _ _ hresults =>
      rw [hresult] at hresults
      exact absurd hresults (by simp)
  | failed _ _ _ _ _ _ hresults =>
      rw [hresult] at hresults
      exact absurd hresults (by simp)

theorem writeInv_onWriteFailed {session : Session} {strand : List Handler} {error : ErrorCode}
    (hstrand : session.strand = .write (some error) :: strand) (hinv : session.WriteInv) :
    (onWriteFailed { session with strand := strand } error).WriteInv := by
  obtain ⟨sent, hposted, hphase⟩ := hinv
  have hresult : writeResults session.strand = some error :: writeResults strand := by
    simp [hstrand, Handler.writeResult]
  cases hphase with
  | failed data rest count _ hqueue hwriting hresults hwritten =>
      have hnone : writeResults strand = [] := by
        rw [hresult] at hresults
        simpa using (List.cons.inj hresults).2
      refine ⟨sent, ?_, .stopped data rest count hqueue hwriting hnone rfl hwritten⟩
      simp [onWriteFailed, doClose, onError, hposted, hstrand, Handler.payload]
  | idle _ _ hresults | busy _ _ _ _ _ hresults | stopped _ _ _ _ _ hresults =>
      rw [hresult] at hresults
      exact absurd hresults (by simp)
  | succeeded _ _ _ _ hresults =>
      rw [hresult] at hresults
      exact absurd hresults (by simp)

theorem writeInv_runHandler {session : Session} {handler : Handler}
    {strand : List Handler} (reaction : Reaction)
    (hstrand : session.strand = handler :: strand) (hinv : session.WriteInv) :
    (runHandler { session with strand := strand } reaction handler).WriteInv := by
  cases handler with
  | asyncWrite data => exact writeInv_onAsyncWrite hstrand hinv
  | close => exact writeInv_doClose (writeInv_pop hstrand rfl rfl hinv)
  | read kind error =>
      have hpopped := writeInv_pop hstrand rfl rfl hinv
      cases error with
      | some error => cases kind <;> exact writeInv_doClose_onError error hpopped
      | none =>
          cases kind with
          | header => exact writeInv_onReadHeader hpopped
          | body => exact writeInv_onReadBody reaction hpopped
  | write error =>
      cases error with
      | none => exact writeInv_onWritten hstrand hinv
      | some error => exact writeInv_onWriteFailed hstrand hinv

theorem writeInv_step {session next : Session} {event : Event}
    (hinv : session.WriteInv) (hstep : session.step event = some next) :
    next.WriteInv := by
  cases stepped_of_step hstep with
  | asyncWrite data => exact writeInv_asyncWrite data hinv
  | close =>
      refine writeInv_congr hinv rfl rfl ?_ rfl ?_ rfl id
      · simp [close, post, Handler.payload]
      · simp [close, post, Handler.writeResult]
  | arrive segment hended => exact writeInv_congr hinv rfl rfl rfl rfl rfl rfl id
  | hangUp error hended => exact writeInv_congr hinv rfl rfl rfl rfl rfl rfl id
  | readSome op count => exact writeInv_fillBuffer op count hinv
  | readFail op error => exact writeInv_completeRead op.kind (some error) hinv
  | writeSome op count hop _ _ hroom => exact writeInv_sendBytes hop hroom hinv
  | writeFail op error hop => exact writeInv_completeWrite_error error hop hinv
  | run handler strand reaction hstrand =>
      exact writeInv_runHandler reaction hstrand hinv

theorem writeInv_run {session : Session} {events : List Event}
    (hrun : Transition.run step start events = some session) : session.WriteInv :=
  Transition.run_invariant (fun _ _ _ hinv hstep => writeInv_step hinv hstep)
    writeInv_start hrun

/-! ## What the wire shows -/

/-- At all times the bytes on the wire are a prefix of the frames of the posted
payloads, in posting order. -/
theorem WriteInv.written_isPrefix {session : Session} (hinv : session.WriteInv) :
    session.written <+: sessionFormat.frames session.posted := by
  obtain ⟨sent, hposted, hphase⟩ := hinv
  have hqueued : ∀ data rest, session.writeQueue = data :: rest →
      sessionFormat.frames sent ++ wireMessage data <+:
        sessionFormat.frames session.posted := by
    intro data rest hqueue
    refine ⟨sessionFormat.frames (rest ++ posts session.strand), ?_⟩
    simp [hposted, hqueue, List.append_assoc]
  cases hphase with
  | idle _ _ _ hwritten =>
      rw [hwritten, hposted, LengthPrefix.Format.frames_append,
        LengthPrefix.Format.frames_append, List.append_assoc]
      exact List.prefix_append _ _
  | succeeded data rest hqueue _ _ hwritten =>
      rw [hwritten]
      exact hqueued data rest hqueue
  | busy data rest count hqueue _ _ _ hwritten | failed data rest count _ hqueue _ _ hwritten
  | stopped data rest count hqueue _ _ _ hwritten =>
      rw [hwritten]
      refine List.IsPrefix.trans ?_ (hqueued data rest hqueue)
      rw [List.prefix_append_right_inj]
      exact List.take_prefix _ _

/-- No post waits in the strand, no write is outstanding and no completed one
waits in the strand. -/
def writesSettled (session : Session) : Prop :=
  posts session.strand = [] ∧ session.writing = none ∧ writeResults session.strand = []

instance (session : Session) : Decidable session.writesSettled :=
  inferInstanceAs (Decidable (_ ∧ _))

/-- An open session whose writes have settled has written the frames of
everything posted. -/
theorem WriteInv.written_eq {session : Session} (hinv : session.WriteInv)
    (hopen : session.isOpen = true) (hsettled : session.writesSettled) :
    session.written = sessionFormat.frames session.posted := by
  obtain ⟨sent, hposted, hphase⟩ := hinv
  obtain ⟨hposts, hwriting, hnone⟩ := hsettled
  cases hphase with
  | idle hqueue _ _ hwritten =>
      have hall : session.posted = sent := by
        rw [hposted, hqueue, hposts, List.append_nil, List.append_nil]
      rw [hwritten, hall]
  | busy _ _ _ _ hbusy => exact absurd (hwriting.symm.trans hbusy) (by simp)
  | succeeded _ _ _ _ hresults => exact absurd (hnone.symm.trans hresults) (by simp)
  | failed _ _ _ _ _ _ hresults => exact absurd (hnone.symm.trans hresults) (by simp)
  | stopped _ _ _ _ _ _ hclosed => exact absurd (hopen.symm.trans hclosed) (by simp)

end Session

end RpcDemo
