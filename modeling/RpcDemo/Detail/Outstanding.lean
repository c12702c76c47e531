import RpcDemo.Detail.WriteQueue

/-!
# The outstanding operations of a session

Nothing in `session.cpp` records which operations are outstanding.  `Session`
has room for one read and one write only, so it cannot say that a second one is
never started.  Here every operation a handler starts is added to a list of
outstanding ones, the socket serves those lists in any order, and the completed
writes keep their messages until the lambdas have run.  That the lists never
grow past one entry is then a theorem, and a session is what is left of this
state when it is known.
-/

namespace RpcDemo

open RpcDemo.Frame

/-- `session` with all its outstanding operations; its own fields for them stay
empty.  `finished` are the completed writes whose lambda has not run, in the
order of the strand.  The histories: the messages of all writes started, and
whether one failed. -/
structure Traffic where
  session : Session
  reads : List ReadOp
  writes : List WriteOp
  finished : List (WriteOp × Option ErrorCode)
  begun : List (List UInt8)
  writeFailed : Bool
  deriving DecidableEq

namespace Traffic

/-- The operations a handler has started join the outstanding ones. -/
def collect (traffic : Traffic) (session : Session) : Traffic :=
  { traffic with
    session := { session with reading := none, writing := none }
    reads := traffic.reads ++ session.reading.toList
    writes := traffic.writes ++ session.writing.toList
    begun := traffic.begun ++ session.writing.toList.map WriteOp.message }

def start : Traffic :=
  collect ⟨Session.fresh, [], [], [], [], false⟩ Session.start

/-- What becomes of the read at `index`: it goes on as `session` has it, or is
over. -/
def putRead (traffic : Traffic) (index : ℕ) (session : Session) : Traffic :=
  { traffic with
    session := { session with reading := none }
    reads := traffic.reads.take index ++ session.reading.toList ++
      traffic.reads.drop (index + 1) }

/-- What becomes of the write at `index`; `op` is its state and `error` its
result, should it be over. -/
def putWrite (traffic : Traffic) (index : ℕ) (session : Session) (op : WriteOp)
    (error : Option ErrorCode) : Traffic :=
  { traffic with
    session := { session with writing := none }
    writes := traffic.writes.take index ++ session.writing.toList ++
      traffic.writes.drop (index + 1)
    finished := if session.writing.isSome then traffic.finished
      else traffic.finished ++ [(op, error)]
    writeFailed := traffic.writeFailed || error.isSome }

/-- Run one handler; a message handler that throws leaves the lambda before the
next read is started. -/
def runLambda (session : Session) (reaction : Reaction) (throws : Bool) : Handler → Session
  | .read .body none =>
      if throws then session.onMessage reaction else session.onReadBody reaction
  | handler => session.runHandler reaction handler

/-- The handler leaves the strand, with the write it is the completion of. -/
def take (traffic : Traffic) (handler : Handler) (strand : List Handler) : Traffic :=
  { traffic with
    session := { traffic.session with strand := strand }
    finished := if handler.writeResult.isSome then traffic.finished.tail
      else traffic.finished }

inductive Event
  | asyncWrite (data : Payload)
  | close
  | arrive (segment : List UInt8)
  | hangUp (error : ErrorCode)
  | readSome (index count : ℕ)
  | readFail (index : ℕ) (error : ErrorCode)
  | writeSome (index count : ℕ)
  | writeFail (index : ℕ) (error : ErrorCode)
  | run (reaction : Reaction) (throws : Bool)

def readStep (traffic : Traffic) (index count : ℕ) : Option Traffic :=
  match traffic.reads[index]? with
  | none => none
  | some op =>
      if traffic.session.isOpen = true ∧ 0 < count ∧ count ≤ traffic.session.inbox.length ∧
          op.filled + count ≤ traffic.session.readBuffer.length then
        some (traffic.putRead index (traffic.session.fillBuffer op count))
      else none

def readFailStep (traffic : Traffic) (index : ℕ) (error : ErrorCode) : Option Traffic :=
  (traffic.reads[index]?).map fun op =>
    traffic.putRead index (traffic.session.completeRead op.kind (some error))

def writeStep (traffic : Traffic) (index count : ℕ) : Option Traffic :=
  match traffic.writes[index]? with
  | none => none
  | some op =>
      if traffic.session.isOpen = true ∧ 0 < count ∧ op.sent + count ≤ op.message.length then
        some (traffic.putWrite index (traffic.session.sendBytes op count)
          ⟨op.message, op.sent + count⟩ none)
      else none

def writeFailStep (traffic : Traffic) (index : ℕ) (error : ErrorCode) : Option Traffic :=
  (traffic.writes[index]?).map fun op =>
    traffic.putWrite index (traffic.session.completeWrite (some error)) op (some error)

def runStep (traffic : Traffic) (reaction : Reaction) (throws : Bool) : Option Traffic :=
  match traffic.session.strand with
  | [] => none
  | handler :: strand =>
      let taken := traffic.take handler strand
      some (taken.collect (runLambda taken.session reaction throws handler))

def step (traffic : Traffic) : Event → Option Traffic
  | .asyncWrite data => some { traffic with session := traffic.session.asyncWrite data }
  | .close => some { traffic with session := traffic.session.close }
  | .arrive segment =>
      (traffic.session.step (.arrive segment)).map fun next => { traffic with session := next }
  | .hangUp error =>
      (traffic.session.step (.hangUp error)).map fun next => { traffic with session := next }
  | .readSome index count => traffic.readStep index count
  | .readFail index error => traffic.readFailStep index error
  | .writeSome index count => traffic.writeStep index count
  | .writeFail index error => traffic.writeFailStep index error
  | .run reaction throws => traffic.runStep reaction throws

/-! ## The invariant -/

/-- The write side: nothing queued; the frame of the front on its way, written,
or failed; or a failed write that left the socket closed. -/
inductive WriteState (traffic : Traffic) : Prop
  | idle (hqueue : traffic.session.writeQueue = []) (hwrites : traffic.writes = [])
      (hfinished : traffic.finished = []) (hfailed : traffic.writeFailed = false)
  | busy (data : Payload) (rest : List Payload) (sent : ℕ)
      (hqueue : traffic.session.writeQueue = data :: rest)
      (hwrites : traffic.writes = [⟨wireMessage data, sent⟩])
      (hfinished : traffic.finished = []) (hfailed : traffic.writeFailed = false)
  | succeeded (data : Payload) (rest : List Payload)
      (hqueue : traffic.session.writeQueue = data :: rest) (hwrites : traffic.writes = [])
      (hfinished : traffic.finished =
        [(⟨wireMessage data, (wireMessage data).length⟩, none)])
      (hfailed : traffic.writeFailed = false)
  | failed (data : Payload) (rest : List Payload) (sent : ℕ) (error : ErrorCode)
      (hqueue : traffic.session.writeQueue = data :: rest) (hwrites : traffic.writes = [])
      (hfinished : traffic.finished = [(⟨wireMessage data, sent⟩, some error)])
  | stopped (data : Payload) (rest : List Payload)
      (hqueue : traffic.session.writeQueue = data :: rest) (hwrites : traffic.writes = [])
      (hfinished : traffic.finished = []) (hclosed : traffic.session.isOpen = false)

structure Inv (traffic : Traffic) : Prop where
  reading : traffic.session.reading = none
  writing : traffic.session.writing = none
  reads : traffic.reads.length + (Session.readResults traffic.session.strand).length ≤ 1
  writes : traffic.WriteState
  results : traffic.finished.map Prod.snd = Session.writeResults traffic.session.strand

theorem inv_start : Inv start where
  reading := rfl
  writing := rfl
  reads := by decide
  writes := .idle rfl rfl rfl rfl
  results := rfl

/-- The write side looks at the queue, the operations and the socket. -/
theorem WriteState.congr {traffic next : Traffic} (hstate : traffic.WriteState)
    (hqueue : next.session.writeQueue = traffic.session.writeQueue)
    (hwrites : next.writes = traffic.writes) (hfinished : next.finished = traffic.finished)
    (hfailed : next.writeFailed = traffic.writeFailed)
    (hclosed : traffic.session.isOpen = false → next.session.isOpen = false) :
    next.WriteState := by
  cases hstate with
  | idle h1 h2 h3 h4 =>
      exact .idle (hqueue.trans h1) (hwrites.trans h2) (hfinished.trans h3) (hfailed.trans h4)
  | busy data rest sent h1 h2 h3 h4 =>
      exact .busy data rest sent (hqueue.trans h1) (hwrites.trans h2) (hfinished.trans h3)
        (hfailed.trans h4)
  | succeeded data rest h1 h2 h3 h4 =>
      exact .succeeded data rest (hqueue.trans h1) (hwrites.trans h2) (hfinished.trans h3)
        (hfailed.trans h4)
  | failed data rest sent error h1 h2 h3 =>
      exact .failed data rest sent error (hqueue.trans h1) (hwrites.trans h2)
        (hfinished.trans h3)
  | stopped data rest h1 h2 h3 h4 =>
      exact .stopped data rest (hqueue.trans h1) (hwrites.trans h2) (hfinished.trans h3)
        (hclosed h4)

/-- What changes only the strand, by no completion, and the histories of the
socket. -/
theorem Inv.withSession {traffic : Traffic} {session : Session} (hinv : traffic.Inv)
    (hreading : session.reading = none) (hwriting : session.writing = none)
    (hqueue : session.writeQueue = traffic.session.writeQueue)
    (hopen : session.isOpen = traffic.session.isOpen)
    (hreads : Session.readResults session.strand =
      Session.readResults traffic.session.strand)
    (hwrites : Session.writeResults session.strand =
      Session.writeResults traffic.session.strand) :
    Inv { traffic with session := session } where
  reading := hreading
  writing := hwriting
  reads := by simpa only [hreads] using hinv.reads
  writes := hinv.writes.congr hqueue rfl rfl rfl fun hclosed => hopen.trans hclosed
  results := hinv.results.trans hwrites.symm

/-! ## Progress of the socket -/

/-- A list of at most one entry with an entry at `index` is that entry. -/
theorem eq_singleton_of_get {α : Type*} {entries : List α} {index : ℕ} {entry : α}
    (hlength : entries.length ≤ 1) (hget : entries[index]? = some entry) :
    index = 0 ∧ entries = [entry] := by
  cases entries with
  | nil => simp at hget
  | cons first rest =>
      obtain rfl : rest = [] := by simpa using hlength
      cases index with
      | zero => exact ⟨rfl, by simpa using hget⟩
      | succ index => simp at hget

theorem Inv.read_eq {traffic : Traffic} {index : ℕ} {op : ReadOp} (hinv : traffic.Inv)
    (hget : traffic.reads[index]? = some op) :
    index = 0 ∧ traffic.reads = [op] ∧ Session.readResults traffic.session.strand = [] := by
  have hreads := hinv.reads
  obtain ⟨rfl, hsingle⟩ := eq_singleton_of_get (by omega) hget
  refine ⟨rfl, hsingle, ?_⟩
  rw [hsingle, List.length_singleton] at hreads
  exact List.eq_nil_of_length_eq_zero (by omega)

/-- An outstanding write is the only one, carries the front of the queue, and no
completion of another waits. -/
theorem Inv.write_eq {traffic : Traffic} {index : ℕ} {op : WriteOp} (hinv : traffic.Inv)
    (hget : traffic.writes[index]? = some op) :
    index = 0 ∧ traffic.writes = [op] ∧ traffic.finished = [] ∧
      traffic.writeFailed = false ∧
      ∃ data rest, traffic.session.writeQueue = data :: rest ∧
        op.message = wireMessage data := by
  cases hinv.writes with
  | busy data rest sent hqueue hwrites hfinished hfailed =>
      obtain ⟨rfl, hsingle⟩ := eq_singleton_of_get (by simp [hwrites]) hget
      obtain rfl : (⟨wireMessage data, sent⟩ : WriteOp) = op := by
        simpa [hwrites] using hsingle
      exact ⟨rfl, hwrites, hfinished, hfailed, data, rest, hqueue, rfl⟩
  | idle _ hwrites | succeeded _ _ _ hwrites | failed _ _ _ _ _ hwrites
  | stopped _ _ _ hwrites => simp [hwrites] at hget

/-- The only read goes on, or is over and its completion waits in the strand. -/
theorem Inv.putRead {traffic : Traffic} {op : ReadOp} {session : Session}
    (hinv : traffic.Inv) (hreads : traffic.reads = [op])
    (hwriting : session.writing = none)
    (hqueue : session.writeQueue = traffic.session.writeQueue)
    (hopen : session.isOpen = traffic.session.isOpen)
    (hcount : session.reading.toList.length +
      (Session.readResults session.strand).length ≤ 1)
    (hresults : Session.writeResults session.strand =
      Session.writeResults traffic.session.strand) :
    (traffic.putRead 0 session).Inv where
  reading := rfl
  writing := hwriting
  reads := by simpa [Traffic.putRead, hreads] using hcount
  writes := hinv.writes.congr hqueue rfl rfl rfl fun hclosed => hopen.trans hclosed
  results := hinv.results.trans hresults.symm

theorem inv_readFill {traffic : Traffic} {index count : ℕ} {op : ReadOp} (hinv : traffic.Inv)
    (hget : traffic.reads[index]? = some op) :
    (traffic.putRead index (traffic.session.fillBuffer op count)).Inv := by
  obtain ⟨rfl, hreads, hnone⟩ := hinv.read_eq hget
  have hwriting := hinv.writing
  simp only [Session.fillBuffer]
  split
  · refine hinv.putRead hreads hwriting rfl rfl ?_ ?_
    · simp [Session.completeRead, Session.post, hnone, Handler.readResult]
    · simp [Session.completeRead, Session.post, Handler.writeResult]
  · exact hinv.putRead hreads hwriting rfl rfl (by simp [hnone]) rfl

theorem inv_readFail {traffic : Traffic} {index : ℕ} {op : ReadOp} (error : ErrorCode)
    (hinv : traffic.Inv) (hget : traffic.reads[index]? = some op) :
    (traffic.putRead index (traffic.session.completeRead op.kind (some error))).Inv := by
  obtain ⟨rfl, hreads, hnone⟩ := hinv.read_eq hget
  refine hinv.putRead hreads hinv.writing rfl rfl ?_ ?_
  · simp [Session.completeRead, Session.post, hnone, Handler.readResult]
  · simp [Session.completeRead, Session.post, Handler.writeResult]

theorem inv_writeSend {traffic : Traffic} {index count : ℕ} {op : WriteOp} (hinv : traffic.Inv)
    (hget : traffic.writes[index]? = some op) :
    (traffic.putWrite index (traffic.session.sendBytes op count)
      ⟨op.message, op.sent + count⟩ none).Inv := by
  obtain ⟨rfl, hwrites, hfinished, hfailed, data, rest, hqueue, hmessage⟩ := hinv.write_eq hget
  have hnone : Session.writeResults traffic.session.strand = [] := by
    rw [← hinv.results, hfinished]
    rfl
  have hreads := hinv.reads
  simp only [Session.sendBytes]
  split
  case isTrue hall =>
    refine ⟨hinv.reading, rfl, ?_, .succeeded data rest hqueue ?_ ?_ ?_, ?_⟩
    · simpa [putWrite, Session.completeWrite, Session.post, Handler.readResult] using hreads
    · simp [putWrite, Session.completeWrite, hwrites]
    · simp [putWrite, Session.completeWrite, hfinished, hall, hmessage]
    · simpa [putWrite] using hfailed
    · simp [putWrite, Session.completeWrite, Session.post, hfinished, hnone,
        Handler.writeResult]
  case isFalse =>
    refine ⟨hinv.reading, rfl, hreads, .busy data rest (op.sent + count) hqueue ?_ ?_ ?_, ?_⟩
    · simp [putWrite, hwrites, hmessage]
    · simpa [putWrite] using hfinished
    · simpa [putWrite] using hfailed
    · simpa [putWrite] using hinv.results

theorem inv_writeFail {traffic : Traffic} {index : ℕ} {op : WriteOp} (error : ErrorCode)
    (hinv : traffic.Inv) (hget : traffic.writes[index]? = some op) :
    (traffic.putWrite index (traffic.session.completeWrite (some error)) op
      (some error)).Inv := by
  obtain ⟨rfl, hwrites, hfinished, _, data, rest, hqueue, hmessage⟩ := hinv.write_eq hget
  have hnone : Session.writeResults traffic.session.strand = [] := by
    rw [← hinv.results, hfinished]
    rfl
  have hop : op = ⟨wireMessage data, op.sent⟩ := by rw [← hmessage]
  refine ⟨hinv.reading, rfl, ?_, .failed data rest op.sent error hqueue ?_ ?_, ?_⟩
  · simpa [putWrite, Session.completeWrite, Session.post, Handler.readResult] using hinv.reads
  · simp [putWrite, Session.completeWrite, hwrites]
  · simp [putWrite, Session.completeWrite, hfinished, ← hop]
  · simp [putWrite, Session.completeWrite, Session.post, hfinished, hnone,
      Handler.writeResult]

/-! ## One turn of the strand -/

section Turn

variable {traffic : Traffic} {handler : Handler} {strand : List Handler}

/-- When the completion of a read runs, no read is outstanding and no other
completion waits. -/
theorem Inv.read_turn {kind : ReadKind} {error : Option ErrorCode} (hinv : traffic.Inv)
    (hstrand : traffic.session.strand = .read kind error :: strand) :
    traffic.reads = [] ∧ Session.readResults strand = [] := by
  have hreads := hinv.reads
  simp only [hstrand, Session.readResults_cons, Handler.readResult, Option.toList_some,
    List.length_append, List.length_singleton] at hreads
  exact ⟨List.eq_nil_of_length_eq_zero (by omega), List.eq_nil_of_length_eq_zero (by omega)⟩

/-- A turn that is no completion of a write and starts none. -/
theorem Inv.turn {moved : Session} (hinv : traffic.Inv)
    (hstrand : traffic.session.strand = handler :: strand)
    (hresult : handler.writeResult = none) (hwriting : moved.writing = none)
    (hqueue : moved.writeQueue = traffic.session.writeQueue)
    (hclosed : traffic.session.isOpen = false → moved.isOpen = false)
    (hreads : traffic.reads.length + moved.reading.toList.length +
      (Session.readResults moved.strand).length ≤ 1)
    (hresults : Session.writeResults moved.strand = Session.writeResults strand) :
    ((traffic.take handler strand).collect moved).Inv where
  reading := rfl
  writing := rfl
  reads := by simpa [collect, take] using hreads
  writes := hinv.writes.congr hqueue (by simp [collect, take, hwriting])
    (by simp [collect, take, hresult]) rfl hclosed
  results := by
    have hold : traffic.finished.map Prod.snd = Session.writeResults strand := by
      simpa [hstrand, hresult] using hinv.results
    simpa [collect, take, hresult, hresults] using hold

theorem inv_turn_read (reaction : Reaction) (throws : Bool) {kind : ReadKind}
    {error : Option ErrorCode} (hinv : traffic.Inv)
    (hstrand : traffic.session.strand = .read kind error :: strand) :
    ((traffic.take (.read kind error) strand).collect
      (runLambda (traffic.take (.read kind error) strand).session reaction throws
        (.read kind error))).Inv := by
  obtain ⟨hreads, hnone⟩ := hinv.read_turn hstrand
  have hreading := hinv.reading
  have hwriting := hinv.writing
  cases error with
  | some error =>
      cases kind <;>
        exact hinv.turn hstrand rfl hwriting rfl (fun _ => rfl)
          (by simp [runLambda, Session.runHandler, Session.onReadFailed, Session.doClose,
            Session.onError, take, hreads, hreading, hnone]) rfl
  | none =>
      cases kind with
      | header =>
          simp only [runLambda, Session.runHandler, Session.onReadHeader]
          split
          · exact hinv.turn hstrand rfl hwriting rfl id
              (by simp [Session.doReadBody, Session.resizeBuffer, take, hreads, hnone])
              rfl
          · exact hinv.turn hstrand rfl hwriting rfl (fun _ => rfl)
              (by simp [Session.doClose, Session.onError, take, hreads, hreading, hnone])
              rfl
      | body =>
          simp only [runLambda, Session.onReadBody]
          rw [Session.onMessage_eq]
          have hclosed : traffic.session.isOpen = false →
              (traffic.session.isOpen && !reaction.calls.contains Call.close) = false := by
            intro hfalse
            rw [hfalse, Bool.false_and]
          split
          · exact hinv.turn hstrand rfl hwriting rfl hclosed
              (by simp [take, hreads, hreading, hnone]) (by simp [take])
          · exact hinv.turn hstrand rfl hwriting rfl hclosed
              (by simp [Session.doReadHeader, Session.resizeBuffer, take, hreads, hnone])
              (by simp [Session.doReadHeader, Session.resizeBuffer, take])

theorem Inv.results_tail (hinv : traffic.Inv)
    (hstrand : traffic.session.strand = handler :: strand) :
    (if handler.writeResult.isSome then traffic.finished.tail
      else traffic.finished).map Prod.snd = Session.writeResults strand := by
  have hresults := hinv.results
  rw [hstrand, Session.writeResults_cons] at hresults
  cases hresult : handler.writeResult with
  | none => simpa [hresult] using hresults
  | some error =>
      rw [hresult] at hresults
      simp only [Option.isSome_some, if_true, List.map_tail, hresults]
      rfl

/-- A turn that is no completion of a read. -/
theorem Inv.turn_write {moved : Session} (hinv : traffic.Inv)
    (hstrand : traffic.session.strand = handler :: strand)
    (hresult : handler.readResult = none) (hreading : moved.reading = none)
    (hmoved : moved.strand = strand)
    (hstate : ((traffic.take handler strand).collect moved).WriteState) :
    ((traffic.take handler strand).collect moved).Inv where
  reading := rfl
  writing := rfl
  reads := by simpa [collect, take, hreading, hmoved, hstrand, hresult] using hinv.reads
  writes := hstate
  results := by
    simp only [collect, take, hmoved]
    exact hinv.results_tail hstrand

theorem inv_turn_asyncWrite {data : Payload} (hinv : traffic.Inv)
    (hstrand : traffic.session.strand = .asyncWrite data :: strand) :
    ((traffic.take (.asyncWrite data) strand).collect
      ((traffic.take (.asyncWrite data) strand).session.onAsyncWrite data)).Inv := by
  have hreading := hinv.reading
  have hwriting := hinv.writing
  simp only [Session.onAsyncWrite]
  split
  case isTrue hempty =>
    have hqueue : traffic.session.writeQueue = [] := List.isEmpty_iff.mp hempty
    cases hinv.writes with
    | idle _ hwrites hfinished hfailed =>
        apply hinv.turn_write hstrand rfl
        · simp [Session.doWrite, take, hqueue, hreading]
        · simp [Session.doWrite, take, hqueue]
        · refine .busy data [] 0 ?_ ?_ ?_ hfailed
          · simp [collect, Session.doWrite, take, hqueue]
          · simp [collect, Session.doWrite, take, hqueue, hwrites]
          · simpa [collect, take, Handler.writeResult] using hfinished
    | busy _ _ _ hfull | succeeded _ _ hfull | failed _ _ _ _ hfull | stopped _ _ hfull =>
        exact absurd (hqueue.symm.trans hfull) (by simp)
  case isFalse hfull =>
    refine hinv.turn_write hstrand rfl hreading rfl ?_
    · cases hinv.writes with
      | idle hqueue => exact absurd (List.isEmpty_iff.mpr hqueue) hfull
      | busy front rest sent hqueue hwrites hfinished hfailed =>
          refine .busy front (rest ++ [data]) sent ?_ ?_ hfinished hfailed
          · simp [collect, take, hqueue]
          · simp [collect, take, hwrites, hwriting]
      | succeeded front rest hqueue hwrites hfinished hfailed =>
          refine .succeeded front (rest ++ [data]) ?_ ?_ hfinished hfailed
          · simp [collect, take, hqueue]
          · simp [collect, take, hwrites, hwriting]
      | failed front rest sent error hqueue hwrites hfinished =>
          refine .failed front (rest ++ [data]) sent error ?_ ?_ hfinished
          · simp [collect, take, hqueue]
          · simp [collect, take, hwrites, hwriting]
      | stopped front rest hqueue hwrites hfinished hclosed =>
          refine .stopped front (rest ++ [data]) ?_ ?_ hfinished hclosed
          · simp [collect, take, hqueue]
          · simp [collect, take, hwrites, hwriting]

/-- The completion at the front of the strand is that of the first finished
write. -/
theorem Inv.finished_eq {error : Option ErrorCode} (hinv : traffic.Inv)
    (hstrand : traffic.session.strand = .write error :: strand) :
    ∃ op rest, traffic.finished = (op, error) :: rest := by
  have hresults := hinv.results
  rw [hstrand, Session.writeResults_cons] at hresults
  cases hfinished : traffic.finished with
  | nil => simp [hfinished, Handler.writeResult] at hresults
  | cons first rest =>
      simp only [hfinished, Handler.writeResult, Option.toList_some, List.map_cons,
        List.singleton_append, List.cons.injEq] at hresults
      exact ⟨first.1, rest, by rw [← hresults.1]⟩

theorem inv_turn_written (hinv : traffic.Inv)
    (hstrand : traffic.session.strand = .write none :: strand) :
    ((traffic.take (.write none) strand).collect
      (traffic.take (.write none) strand).session.onWritten).Inv := by
  have hreading := hinv.reading
  have hwriting := hinv.writing
  obtain ⟨op, later, hfront⟩ := hinv.finished_eq hstrand
  cases hinv.writes with
  | succeeded data rest hqueue hwrites hfinished hfailed =>
      simp only [Session.onWritten]
      split
      case isTrue hempty =>
        refine hinv.turn_write hstrand rfl hreading rfl ?_
        refine .idle ?_ ?_ ?_ hfailed
        · simpa [collect, take, List.isEmpty_iff] using hempty
        · simp [collect, take, hwrites, hwriting]
        · simp [collect, take, Handler.writeResult, hfinished]
      case isFalse hfull =>
        cases hrest : rest with
        | nil => simp [take, hqueue, hrest] at hfull
        | cons next others =>
            apply hinv.turn_write hstrand rfl
            · simp [Session.doWrite, take, hqueue, hrest, hreading]
            · simp [Session.doWrite, take, hqueue, hrest]
            · refine .busy next others 0 ?_ ?_ ?_ hfailed
              · simp [collect, Session.doWrite, take, hqueue, hrest]
              · simp [collect, Session.doWrite, take, hqueue, hrest, hwrites]
              · simp [collect, take, Handler.writeResult, hfinished]
  | idle _ _ hfinished | busy _ _ _ _ _ hfinished | stopped _ _ _ _ hfinished =>
      exact absurd (hfront.symm.trans hfinished) (by simp)
  | failed _ _ _ _ _ _ hfinished => exact absurd (hfront.symm.trans hfinished) (by simp)

theorem inv_turn_writeFailed {error : ErrorCode} (hinv : traffic.Inv)
    (hstrand : traffic.session.strand = .write (some error) :: strand) :
    ((traffic.take (.write (some error)) strand).collect
      ((traffic.take (.write (some error)) strand).session.onWriteFailed error)).Inv := by
  obtain ⟨op, later, hfront⟩ := hinv.finished_eq hstrand
  cases hinv.writes with
  | failed data rest sent _ hqueue hwrites hfinished =>
      refine hinv.turn_write hstrand rfl hinv.reading rfl ?_
      · refine .stopped data rest hqueue ?_ ?_ rfl
        · simp [collect, take, hwrites, Session.onWriteFailed, Session.doClose, Session.onError,
            hinv.writing]
        · simp [collect, take, Handler.writeResult, hfinished]
  | idle _ _ hfinished | busy _ _ _ _ _ hfinished | stopped _ _ _ _ hfinished =>
      exact absurd (hfront.symm.trans hfinished) (by simp)
  | succeeded _ _ _ _ hfinished => exact absurd (hfront.symm.trans hfinished) (by simp)

theorem inv_runLambda (reaction : Reaction) (throws : Bool) (hinv : traffic.Inv)
    (hstrand : traffic.session.strand = handler :: strand) :
    ((traffic.take handler strand).collect
      (runLambda (traffic.take handler strand).session reaction throws handler)).Inv := by
  cases handler with
  | asyncWrite data => exact inv_turn_asyncWrite hinv hstrand
  | close =>
      refine hinv.turn_write hstrand rfl hinv.reading rfl ?_
      · refine hinv.writes.congr rfl ?_ rfl rfl fun _ => rfl
        simp [collect, take, runLambda, Session.runHandler, Session.doClose, hinv.writing]
  | read kind error => exact inv_turn_read reaction throws hinv hstrand
  | write error =>
      cases error with
      | none => exact inv_turn_written hinv hstrand
      | some error => exact inv_turn_writeFailed hinv hstrand

end Turn

/-- All a step can do, with the guards it passed. -/
inductive Stepped (traffic : Traffic) : Event → Traffic → Prop
  | asyncWrite (data : Payload) :
      Stepped traffic (.asyncWrite data)
        { traffic with session := traffic.session.asyncWrite data }
  | close : Stepped traffic .close { traffic with session := traffic.session.close }
  | arrive (segment : List UInt8) (hended : traffic.session.ended = none) :
      Stepped traffic (.arrive segment)
        { traffic with session := { traffic.session with
          inbox := traffic.session.inbox ++ segment
          arrived := traffic.session.arrived ++ segment } }
  | hangUp (error : ErrorCode) (hended : traffic.session.ended = none) :
      Stepped traffic (.hangUp error)
        { traffic with session := { traffic.session with ended := some error } }
  | readSome (index count : ℕ) (op : ReadOp) (hget : traffic.reads[index]? = some op)
      (hopen : traffic.session.isOpen = true) (hcount : 0 < count)
      (hinbox : count ≤ traffic.session.inbox.length)
      (hroom : op.filled + count ≤ traffic.session.readBuffer.length) :
      Stepped traffic (.readSome index count)
        (traffic.putRead index (traffic.session.fillBuffer op count))
  | readFail (index : ℕ) (op : ReadOp) (error : ErrorCode)
      (hget : traffic.reads[index]? = some op) :
      Stepped traffic (.readFail index error)
        (traffic.putRead index (traffic.session.completeRead op.kind (some error)))
  | writeSome (index count : ℕ) (op : WriteOp) (hget : traffic.writes[index]? = some op)
      (hopen : traffic.session.isOpen = true) (hcount : 0 < count)
      (hroom : op.sent + count ≤ op.message.length) :
      Stepped traffic (.writeSome index count)
        (traffic.putWrite index (traffic.session.sendBytes op count)
          ⟨op.message, op.sent + count⟩ none)
  | writeFail (index : ℕ) (op : WriteOp) (error : ErrorCode)
      (hget : traffic.writes[index]? = some op) :
      Stepped traffic (.writeFail index error)
        (traffic.putWrite index (traffic.session.completeWrite (some error)) op (some error))
  | run (handler : Handler) (strand : List Handler) (reaction : Reaction) (throws : Bool)
      (hstrand : traffic.session.strand = handler :: strand) :
      Stepped traffic (.run reaction throws)
        ((traffic.take handler strand).collect
          (runLambda (traffic.take handler strand).session reaction throws handler))

theorem stepped_of_step {traffic next : Traffic} {event : Event}
    (hstep : traffic.step event = some next) : Stepped traffic event next := by
  cases event with
  | asyncWrite data => exact Option.some.inj hstep ▸ .asyncWrite data
  | close => exact Option.some.inj hstep ▸ .close
  | arrive segment =>
      obtain ⟨moved, hmoved, rfl⟩ := Option.map_eq_some_iff.mp hstep
      cases Session.stepped_of_step hmoved with
      | arrive _ hended => exact .arrive segment hended
  | hangUp error =>
      obtain ⟨moved, hmoved, rfl⟩ := Option.map_eq_some_iff.mp hstep
      cases Session.stepped_of_step hmoved with
      | hangUp _ hended => exact .hangUp error hended
  | readSome index count =>
      simp only [step, readStep] at hstep
      split at hstep
      case h_1 => exact absurd hstep (by simp)
      case h_2 op hget =>
        simp only [Option.ite_none_right_eq_some, Option.some.injEq] at hstep
        obtain ⟨⟨hopen, hcount, hinbox, hroom⟩, rfl⟩ := hstep
        exact .readSome index count op hget hopen hcount hinbox hroom
  | readFail index error =>
      obtain ⟨op, hget, rfl⟩ := Option.map_eq_some_iff.mp hstep
      exact .readFail index op error hget
  | writeSome index count =>
      simp only [step, writeStep] at hstep
      split at hstep
      case h_1 => exact absurd hstep (by simp)
      case h_2 op hget =>
        simp only [Option.ite_none_right_eq_some, Option.some.injEq] at hstep
        obtain ⟨⟨hopen, hcount, hroom⟩, rfl⟩ := hstep
        exact .writeSome index count op hget hopen hcount hroom
  | writeFail index error =>
      obtain ⟨op, hget, rfl⟩ := Option.map_eq_some_iff.mp hstep
      exact .writeFail index op error hget
  | run reaction throws =>
      simp only [step, runStep] at hstep
      split at hstep
      case h_1 => exact absurd hstep (by simp)
      case h_2 handler strand hstrand =>
        exact Option.some.inj hstep ▸ .run handler strand reaction throws hstrand

theorem inv_step {traffic next : Traffic} {event : Event} (hinv : traffic.Inv)
    (hstep : traffic.step event = some next) : next.Inv := by
  cases stepped_of_step hstep with
  | asyncWrite data | close =>
      refine hinv.withSession hinv.reading hinv.writing rfl rfl ?_ ?_
      · simp [Session.asyncWrite, Session.close, Session.post, Handler.readResult]
      · simp [Session.asyncWrite, Session.close, Session.post, Handler.writeResult]
  | arrive segment | hangUp error =>
      exact hinv.withSession hinv.reading hinv.writing rfl rfl rfl rfl
  | readSome index count op hget => exact inv_readFill hinv hget
  | readFail index op error hget => exact inv_readFail error hinv hget
  | writeSome index count op hget => exact inv_writeSend hinv hget
  | writeFail index op error hget => exact inv_writeFail error hinv hget
  | run handler strand reaction throws hstrand =>
      exact inv_runLambda reaction throws hinv hstrand

/-- What a session has room for. -/
def toSession (traffic : Traffic) : Session :=
  { traffic.session with reading := traffic.reads.head?, writing := traffic.writes.head? }

def Event.toSession : Event → Session.Event
  | .asyncWrite data => .asyncWrite data
  | .close => .close
  | .arrive segment => .arrive segment
  | .hangUp error => .hangUp error
  | .readSome _ count => .readSome count
  | .readFail _ error => .readFail error
  | .writeSome _ count => .writeSome count
  | .writeFail _ error => .writeFail error
  | .run reaction _ => .run reaction

/-- No message handler throws, and a read fails on a closed socket or at the end
of the stream. -/
def Plain (traffic : Traffic) : Event → Prop
  | .readFail _ error => traffic.session.readFails error
  | .run _ throws => throws = false
  | _ => True

/-- The handlers never look at the outstanding operations; they replace them. -/
theorem runHandler_operations (session : Session) (reading : Option ReadOp)
    (writing : Option WriteOp) (reaction : Reaction) (handler : Handler)
    (hreading : session.reading = none) (hwriting : session.writing = none) :
    { session with reading := reading, writing := writing }.runHandler reaction handler =
      { session.runHandler reaction handler with
        reading := (session.runHandler reaction handler).reading.or reading
        writing := (session.runHandler reaction handler).writing.or writing } := by
  cases handler with
  | asyncWrite data =>
      simp only [Session.runHandler, Session.onAsyncWrite, Session.doWrite]
      split
      · split <;> simp [hreading, hwriting]
      · simp [hreading, hwriting]
  | close => simp [Session.runHandler, Session.doClose, hreading, hwriting]
  | read kind error =>
      cases error with
      | some error =>
          cases kind <;>
            simp [Session.runHandler, Session.onReadFailed, Session.doClose, Session.onError,
              hreading, hwriting]
      | none =>
          cases kind with
          | header =>
              simp only [Session.runHandler, Session.onReadHeader]
              split
              · simp [Session.doReadBody, Session.resizeBuffer, hwriting]
              · simp [Session.doClose, Session.onError, hreading, hwriting]
          | body =>
              simp [Session.runHandler, Session.onReadBody, Session.onMessage_eq,
                Session.doReadHeader, Session.resizeBuffer, hwriting]
  | write error =>
      cases error with
      | some error =>
          simp [Session.runHandler, Session.onWriteFailed, Session.doClose, Session.onError,
            hreading, hwriting]
      | none =>
          simp only [Session.runHandler, Session.onWritten, Session.doWrite]
          split
          · simp [hreading, hwriting]
          · split <;> simp [hreading, hwriting]

theorem runLambda_of_not_throws (session : Session) (reaction : Reaction) (handler : Handler) :
    runLambda session reaction false handler = session.runHandler reaction handler := by
  cases handler with
  | read kind error =>
      cases kind <;> cases error <;> rfl
  | asyncWrite | close | write => rfl

/-- With at most one entry in all, the first of two lists and the new entry is
either. -/
theorem head?_append_toList {α : Type*} {entries : List α} {entry : Option α}
    (hlength : (entries ++ entry.toList).length ≤ 1) :
    (entries ++ entry.toList).head? = entry.or entries.head? := by
  cases entry with
  | none => simp
  | some entry =>
      obtain rfl : entries = [] := by
        simpa [List.length_append] using hlength
      rfl

theorem Inv.length_writes {traffic : Traffic} (hinv : traffic.Inv) :
    traffic.writes.length ≤ 1 := by
  cases hinv.writes with
  | busy _ _ _ _ hwrites => simp [hwrites]
  | idle _ hwrites | succeeded _ _ _ hwrites | failed _ _ _ _ _ hwrites
  | stopped _ _ _ hwrites => simp [hwrites]

/-- A step whose handler does not throw is a step of the session. -/
theorem toSession_step {traffic next : Traffic} {event : Event} (hinv : traffic.Inv)
    (hplain : traffic.Plain event) (hstep : traffic.step event = some next) :
    traffic.toSession.step event.toSession = some next.toSession := by
  have hnext := inv_step hinv hstep
  cases stepped_of_step hstep with
  | asyncWrite data | close => rfl
  | arrive segment hended =>
      simp [Event.toSession, Session.step, toSession, hended]
  | hangUp error hended =>
      simp [Event.toSession, Session.step, toSession, hended]
  | readSome index count op hget hopen hcount hinbox hroom =>
      obtain ⟨rfl, hreads, _⟩ := hinv.read_eq hget
      simp only [Event.toSession, Session.step, Session.readStep, toSession, hreads,
        List.head?_cons]
      rw [if_pos ⟨hopen, hcount, hinbox, hroom⟩]
      simp only [Session.fillBuffer]
      split <;> simp [putRead, Session.completeRead, Session.post, hreads]
  | readFail index op error hget =>
      obtain ⟨rfl, hreads, _⟩ := hinv.read_eq hget
      have hop : traffic.toSession.reading = some op := by simp [toSession, hreads]
      have hfails : traffic.toSession.readFails error := hplain
      simp only [Event.toSession, Session.step, Session.readFailStep, hop]
      rw [if_pos hfails]
      simp [toSession, putRead, Session.completeRead, Session.post, hreads]
  | writeSome index count op hget hopen hcount hroom =>
      obtain ⟨rfl, hwrites, _⟩ := hinv.write_eq hget
      simp only [Event.toSession, Session.step, Session.writeStep, toSession, hwrites,
        List.head?_cons]
      rw [if_pos ⟨hopen, hcount, hroom⟩]
      simp only [Session.sendBytes]
      split <;> simp [putWrite, Session.completeWrite, Session.post, hwrites]
  | writeFail index op error hget =>
      obtain ⟨rfl, hwrites, _⟩ := hinv.write_eq hget
      simp [Event.toSession, Session.step, Session.writeFailStep, toSession, hwrites, putWrite,
        Session.completeWrite, Session.post]
  | run handler strand reaction throws hstrand =>
      obtain rfl : throws = false := hplain
      rw [runLambda_of_not_throws] at hnext ⊢
      have hreads := hnext.reads
      have hwrites := hnext.length_writes
      have hfront : traffic.toSession.strand = handler :: strand := hstrand
      have hmoved := runHandler_operations (traffic.take handler strand).session
        traffic.reads.head? traffic.writes.head? reaction handler hinv.reading hinv.writing
      simp only [Event.toSession, Session.step, Session.runStep, hfront]
      refine congrArg some (hmoved.trans ?_)
      simp only [collect] at hreads hwrites
      simp only [toSession, collect]
      rw [head?_append_toList hwrites, head?_append_toList (Nat.le_of_add_right_le hreads)]
      rfl

/-- A run without throwing handlers is a run of the session. -/
theorem toSession_run {traffic final : Traffic} {events : List Event} (hinv : traffic.Inv)
    (hplain : Transition.Guarded step Plain traffic events)
    (hrun : Transition.run step traffic events = some final) :
    Transition.run Session.step traffic.toSession (events.map Event.toSession) =
      some final.toSession := by
  induction events generalizing traffic with
  | nil =>
      obtain rfl := Option.some.inj hrun
      rfl
  | cons event events ih =>
      obtain ⟨next, hstep, hrest⟩ := Transition.run_cons.mp hrun
      rw [List.map_cons, Transition.run_cons]
      refine ⟨next.toSession, toSession_step hinv hplain.1 hstep, ?_⟩
      exact ih (inv_step hinv hstep) (hplain.2 next hstep) hrest

/-! ## What holds between two handlers -/

end Traffic

end RpcDemo
