import RpcDemo.Detail.ReadLoop

/-!
# The read loop on hostile input

A peer can send any bytes and end its stream anywhere.  As long as nobody
closes the session locally and no write fails, the loop delivers exactly the
messages of the maximal frame decomposition of the stream, then closes the
socket and reports one error.
-/

namespace RpcDemo.Session

open RpcDemo.Frame
open RpcDemo.LengthPrefix (Format)

/-- The session is not closed locally, neither from outside nor by its message
handler, and no write fails. -/
def Event.Undisturbed : Event → Prop
  | .close => False
  | .writeFail _ => False
  | .run reaction => Call.close ∉ reaction.calls
  | _ => True

/-- No read is outstanding and no completed one waits in the strand. -/
def readLoopEnded (session : Session) : Prop :=
  session.reading = none ∧ readResults session.strand = []

instance (session : Session) : Decidable session.readLoopEnded :=
  inferInstanceAs (Decidable (_ ∧ _))

/-- The strand holds no `do_close` and no failed write. -/
def Calm (strand : List Handler) : Prop :=
  ∀ handler ∈ strand, handler ≠ .close ∧ ∀ error, handler ≠ .write (some error)

/-- Why the loop ended on the unread rest `rest` of a stream, and the error it
reported: a rejected header, or the end of the stream inside a frame. -/
inductive LoopEnd (rest : List UInt8) (ended : Option ErrorCode) : ErrorCode → Prop
  | rejected (hrejects : sessionFormat.Rejects rest) : LoopEnd rest ended .messageSize
  | truncated (error : ErrorCode) (hended : ended = some error)
      (hincomplete : sessionFormat.Incomplete rest) : LoopEnd rest ended error

/-- An undisturbed session is open until its read loop ends; the loop closes
the socket and reports one error. -/
inductive LoopPhase (session : Session) : Prop
  | running (hopen : session.isOpen = true) (herrors : session.errors = [])
  | ended (hreading : session.reading = none)
      (hresults : readResults session.strand = [])
      (hclosed : session.isOpen = false)
      (part : List UInt8) (error : ErrorCode)
      (hsplit : session.arrived =
        sessionFormat.frames session.messages ++ part ++ session.inbox)
      (hlast : LoopEnd (part ++ session.inbox) session.ended error)
      (hrest : session.ended = none → sessionFormat.Rejects part)
      (herrors : session.errors = [error])

structure LoopInv (session : Session) : Prop where
  calm : Calm session.strand
  phase : LoopPhase session

theorem calm_nil : Calm [] := by
  intro handler hmem
  exact absurd hmem List.not_mem_nil

theorem calm_append {left right : List Handler} (hleft : Calm left) (hright : Calm right) :
    Calm (left ++ right) := by
  intro handler hmem
  rcases List.mem_append.mp hmem with hmem | hmem
  · exact hleft handler hmem
  · exact hright handler hmem

theorem calm_post {session : Session} {handler : Handler}
    (hcalm : Calm session.strand) (hclose : handler ≠ .close)
    (hwrite : ∀ error, handler ≠ .write (some error)) :
    Calm (session.post handler).strand := by
  apply calm_append hcalm
  intro other hmem
  rw [List.mem_singleton.mp hmem]
  exact ⟨hclose, hwrite⟩

theorem calm_map_asyncWrite (datas : List Payload) :
    Calm (datas.map Handler.asyncWrite) := by
  intro handler hmem
  obtain ⟨data, _, rfl⟩ := List.mem_map.mp hmem
  exact ⟨by simp, by simp⟩

theorem Calm.tail {handler : Handler} {strand : List Handler}
    (hcalm : Calm (handler :: strand)) : Calm strand :=
  fun other hmem => hcalm other (List.mem_cons_of_mem handler hmem)

/-- Steps that leave the read side, the socket and the reported errors alone
preserve the phase. -/
theorem LoopPhase.congr {session next : Session} (hphase : LoopPhase session)
    (hopen : next.isOpen = session.isOpen)
    (herrors : next.errors = session.errors)
    (hreading : session.reading = none → next.reading = none)
    (hresults : readResults next.strand = readResults session.strand)
    (harrived : next.arrived = session.arrived)
    (hmessages : next.messages = session.messages)
    (hinbox : next.inbox = session.inbox)
    (hended : next.ended = session.ended) : LoopPhase next := by
  cases hphase with
  | running h1 h2 => exact .running (hopen.trans h1) (herrors.trans h2)
  | ended h1 h2 h3 part error hsplit hlast hrest h4 =>
      refine .ended (hreading h1) (hresults.trans h2) (hopen.trans h3) part error
        ?_ ?_ ?_ (herrors.trans h4)
      · rw [harrived, hmessages, hinbox, hsplit]
      · rwa [hinbox, hended]
      · rwa [hended]

theorem loopInv_start : LoopInv start where
  calm := calm_nil
  phase := .running rfl rfl

theorem loopPhase_arrive {session : Session} (segment : List UInt8)
    (hended : session.ended = none) (hphase : LoopPhase session) :
    LoopPhase { session with
      inbox := session.inbox ++ segment
      arrived := session.arrived ++ segment } := by
  cases hphase with
  | running hopen herrors => exact .running hopen herrors
  | ended hreading hresults hclosed part error hsplit hlast hrest herrors =>
      refine .ended hreading hresults hclosed part error ?_ ?_ hrest herrors
      · simp [hsplit, List.append_assoc]
      · cases hlast with
        | rejected hrejects =>
            simp only [← List.append_assoc]
            exact .rejected (hrejects.append _ segment)
        | truncated _ hsome =>
            exact absurd (hended.symm.trans hsome) (by simp)

theorem loopPhase_hangUp {session : Session} (error : ErrorCode)
    (hended : session.ended = none) (hphase : LoopPhase session) :
    LoopPhase { session with ended := some error } := by
  cases hphase with
  | running hopen herrors => exact .running hopen herrors
  | ended hreading hresults hclosed part reported hsplit hlast hrest herrors =>
      refine .ended hreading hresults hclosed part reported hsplit ?_
        (fun h => absurd h (by simp)) herrors
      cases hlast with
      | rejected hrejects => exact .rejected hrejects
      | truncated _ hsome => exact absurd (hended.symm.trans hsome) (by simp)

/-- While a read is outstanding the loop has not ended. -/
theorem LoopPhase.running_of_reading {session : Session} {op : ReadOp}
    (hop : session.reading = some op) (hphase : LoopPhase session) :
    session.isOpen = true ∧ session.errors = [] := by
  cases hphase with
  | running hopen herrors => exact ⟨hopen, herrors⟩
  | ended hreading => exact absurd (hop.symm.trans hreading) (by simp)

/-- While a read completion waits the loop has not ended. -/
theorem LoopPhase.running_of_result {session : Session} {kind : ReadKind}
    {error : Option ErrorCode} {strand : List Handler}
    (hstrand : session.strand = .read kind error :: strand) (hphase : LoopPhase session) :
    session.isOpen = true ∧ session.errors = [] := by
  cases hphase with
  | running hopen herrors => exact ⟨hopen, herrors⟩
  | ended _ hresults => exact absurd hresults (readResults_ne_nil_of_cons hstrand)

theorem loopInv_onReadHeader {session : Session} {strand : List Handler}
    (hstrand : session.strand = .read .header none :: strand)
    (hread : session.ReadInv) (hinv : session.LoopInv) :
    (onReadHeader { session with strand := strand }).LoopInv := by
  obtain ⟨hopen, herrors⟩ := hinv.phase.running_of_result hstrand
  have hcalm : Calm strand := (hstrand ▸ hinv.calm).tail
  obtain ⟨_, _, part, hsplit, hphase⟩ := hread
  simp only [onReadHeader]
  split
  case isTrue =>
    exact ⟨hcalm, .running hopen herrors⟩
  case isFalse hunreasonable =>
    cases hphase with
    | headerReady hreading hresults hlength hpart =>
        obtain ⟨_, _, hnone⟩ := readResults_of_cons hstrand hresults
        have hrejects : sessionFormat.Rejects part := by
          refine ⟨by rw [hpart, hlength]; rfl, ?_⟩
          rw [hpart, List.take_of_length_le (by rw [hlength]; rfl)]
          exact hunreasonable
        refine ⟨hcalm, .ended hreading hnone rfl part .messageSize hsplit
          (.rejected (hrejects.append _ session.inbox)) (fun _ => hrejects) ?_⟩
        simp [doClose, onError, herrors]
    | bodyReady _ hresults =>
        obtain ⟨hkind, _⟩ := readResults_of_cons hstrand hresults
        exact absurd hkind (by decide)
    | failed _ _ _ hresults =>
        obtain ⟨_, herror, _⟩ := readResults_of_cons hstrand hresults
        exact absurd herror (by simp)
    | header _ _ hresults | body _ _ hresults | stopped _ hresults =>
        exact absurd hresults (readResults_ne_nil_of_cons hstrand)

theorem loopInv_onReadBody {session : Session} {strand : List Handler} {reaction : Reaction}
    (hquiet : Call.close ∉ reaction.calls)
    (hstrand : session.strand = .read .body none :: strand) (hinv : session.LoopInv) :
    (onReadBody { session with strand := strand } reaction).LoopInv := by
  obtain ⟨hopen, herrors⟩ := hinv.phase.running_of_result hstrand
  have hcalm : Calm strand := (hstrand ▸ hinv.calm).tail
  rw [onReadBody, onMessage_eq]
  refine ⟨calm_append hcalm (calm_map_asyncWrite _), .running ?_ herrors⟩
  simp [doReadHeader, resizeBuffer, hopen, hquiet]

theorem loopInv_onReadFailed {session : Session} {kind : ReadKind} {error : ErrorCode}
    {strand : List Handler} (hstrand : session.strand = .read kind (some error) :: strand)
    (hread : session.ReadInv) (hinv : session.LoopInv) :
    (onReadFailed { session with strand := strand } error).LoopInv := by
  obtain ⟨hopen, herrors⟩ := hinv.phase.running_of_result hstrand
  have hcalm : Calm strand := (hstrand ▸ hinv.calm).tail
  obtain ⟨_, _, part, hsplit, hphase⟩ := hread
  cases hphase with
  | failed kind' error' hreading hresults hended =>
      obtain ⟨_, herror, hnone⟩ := readResults_of_cons hstrand hresults
      obtain ⟨hinbox, hsome, hincomplete⟩ := hended hopen
      obtain rfl : error = error' := Option.some.inj herror
      refine ⟨hcalm, .ended hreading hnone rfl part error hsplit ?_ ?_ ?_⟩
      · simp only [onReadFailed, doClose, onError, hinbox, List.append_nil]
        exact .truncated error hsome hincomplete
      · intro hnever
        exact absurd (hnever.symm.trans hsome) (by simp)
      · simp [onReadFailed, doClose, onError, herrors]
  | headerReady _ hresults | bodyReady _ hresults =>
      obtain ⟨_, herror, _⟩ := readResults_of_cons hstrand hresults
      exact absurd herror (by simp)
  | header _ _ hresults | body _ _ hresults | stopped _ hresults =>
      exact absurd hresults (readResults_ne_nil_of_cons hstrand)

theorem loopPhase_pop {session : Session} {handler : Handler} {strand : List Handler}
    (hstrand : session.strand = handler :: strand) (hresult : handler.readResult = none)
    (hphase : LoopPhase session) : LoopPhase { session with strand := strand } := by
  refine hphase.congr rfl rfl id ?_ rfl rfl rfl rfl
  simp [hstrand, hresult]

theorem loopPhase_doWrite {session : Session} (hphase : LoopPhase session) :
    LoopPhase session.doWrite ∧ session.doWrite.strand = session.strand := by
  unfold doWrite
  split
  · exact ⟨hphase, rfl⟩
  · exact ⟨hphase.congr rfl rfl id rfl rfl rfl rfl rfl, rfl⟩

theorem loopInv_onAsyncWrite {session : Session} (data : Payload)
    (hinv : session.LoopInv) : (session.onAsyncWrite data).LoopInv := by
  have hqueued : LoopPhase { session with writeQueue := session.writeQueue ++ [data] } :=
    hinv.phase.congr rfl rfl id rfl rfl rfl rfl rfl
  simp only [onAsyncWrite]
  split
  · obtain ⟨hphase, hstrand⟩ := loopPhase_doWrite hqueued
    exact ⟨by rw [hstrand]; exact hinv.calm, hphase⟩
  · exact ⟨hinv.calm, hqueued⟩

theorem loopInv_onWritten {session : Session} (hinv : session.LoopInv) :
    session.onWritten.LoopInv := by
  have hpopped : LoopPhase { session with writeQueue := session.writeQueue.tail } :=
    hinv.phase.congr rfl rfl id rfl rfl rfl rfl rfl
  simp only [onWritten]
  split
  · exact ⟨hinv.calm, hpopped⟩
  · obtain ⟨hphase, hstrand⟩ := loopPhase_doWrite hpopped
    exact ⟨by rw [hstrand]; exact hinv.calm, hphase⟩

theorem loopInv_runHandler {session : Session} {handler : Handler}
    {strand : List Handler} {reaction : Reaction}
    (hquiet : Call.close ∉ reaction.calls)
    (hstrand : session.strand = handler :: strand)
    (hread : session.ReadInv) (hinv : session.LoopInv) :
    (runHandler { session with strand := strand } reaction handler).LoopInv := by
  have hcalm := hinv.calm handler (by simp [hstrand])
  have htail : Calm strand := (hstrand ▸ hinv.calm).tail
  cases handler with
  | asyncWrite data =>
      exact loopInv_onAsyncWrite data ⟨htail, loopPhase_pop hstrand rfl hinv.phase⟩
  | close => exact absurd rfl hcalm.1
  | read kind error =>
      cases error with
      | some error => cases kind <;> exact loopInv_onReadFailed hstrand hread hinv
      | none =>
          cases kind with
          | header => exact loopInv_onReadHeader hstrand hread hinv
          | body => exact loopInv_onReadBody hquiet hstrand hinv
  | write error =>
      cases error with
      | none => exact loopInv_onWritten ⟨htail, loopPhase_pop hstrand rfl hinv.phase⟩
      | some error => exact absurd rfl (hcalm.2 error)

theorem loopInv_completeRead {session : Session} {op : ReadOp} (error : Option ErrorCode)
    (hop : session.reading = some op) (hinv : session.LoopInv) :
    (session.completeRead op.kind error).LoopInv := by
  obtain ⟨hopen, herrors⟩ := hinv.phase.running_of_reading hop
  exact ⟨calm_post hinv.calm (by simp) (by simp), .running hopen herrors⟩

theorem loopInv_fillBuffer {session : Session} {op : ReadOp} (count : ℕ)
    (hop : session.reading = some op) (hinv : session.LoopInv) :
    (session.fillBuffer op count).LoopInv := by
  obtain ⟨hopen, herrors⟩ := hinv.phase.running_of_reading hop
  simp only [fillBuffer]
  split
  · exact ⟨calm_post hinv.calm (by simp) (by simp), .running hopen herrors⟩
  · exact ⟨hinv.calm, .running hopen herrors⟩

theorem loopInv_sendBytes {session : Session} (op : WriteOp) (count : ℕ)
    (hinv : session.LoopInv) : (session.sendBytes op count).LoopInv := by
  simp only [sendBytes]
  split
  · refine ⟨calm_post hinv.calm (by simp) (by simp),
      hinv.phase.congr rfl rfl id ?_ rfl rfl rfl rfl⟩
    simp [completeWrite, post, Handler.readResult]
  · exact ⟨hinv.calm, hinv.phase.congr rfl rfl id rfl rfl rfl rfl rfl⟩

theorem loopInv_step {session next : Session} {event : Event}
    (hread : session.ReadInv) (hinv : session.LoopInv) (hquiet : event.Undisturbed)
    (hstep : session.step event = some next) : next.LoopInv := by
  cases stepped_of_step hstep with
  | asyncWrite data =>
      refine ⟨calm_post hinv.calm (by simp) (by simp),
        hinv.phase.congr rfl rfl id ?_ rfl rfl rfl rfl⟩
      simp [asyncWrite, post, Handler.readResult]
  | close => exact absurd hquiet id
  | arrive segment hended => exact ⟨hinv.calm, loopPhase_arrive segment hended hinv.phase⟩
  | hangUp error hended => exact ⟨hinv.calm, loopPhase_hangUp error hended hinv.phase⟩
  | readSome op count hop => exact loopInv_fillBuffer count hop hinv
  | readFail op error hop => exact loopInv_completeRead (some error) hop hinv
  | writeSome op count => exact loopInv_sendBytes op count hinv
  | writeFail op error => exact absurd hquiet id
  | run handler strand reaction hstrand =>
      exact loopInv_runHandler hquiet hstrand hread hinv

theorem loopInv_run {session : Session} {events : List Event}
    (hquiet : ∀ event ∈ events, event.Undisturbed)
    (hrun : Transition.run step start events = some session) : session.LoopInv := by
  have hstep : ∀ (state : Session) (event : Event) (next : Session),
      state.ReadInv ∧ state.LoopInv → event.Undisturbed →
        state.step event = some next → next.ReadInv ∧ next.LoopInv := by
    intro state event next hinv hevent hnext
    exact ⟨readInv_step hinv.1 hnext, loopInv_step hinv.1 hinv.2 hevent hnext⟩
  exact (Transition.run_invariant_of_forall hstep ⟨readInv_start, loopInv_start⟩
    hquiet hrun).2

/-! ## The result of the loop -/

/-- An ended loop has read the maximal decomposition of the stream, closed the
socket and reported one error. -/
theorem LoopInv.decomposition_of_ended {session : Session} (hread : session.ReadInv)
    (hinv : session.LoopInv) (hended : session.readLoopEnded) :
    session.isOpen = false ∧ ∃ rest error,
      sessionFormat.Decomposition session.arrived session.messages rest ∧
        LoopEnd rest session.ended error ∧ session.errors = [error] := by
  obtain ⟨haccepted, _, _, _, hphase⟩ := hread
  obtain ⟨hidle, hnone⟩ := hended
  cases hinv.phase with
  | running hopen =>
      cases hphase with
      | header _ hreading | body _ hreading =>
          exact absurd (hidle.symm.trans hreading) (by simp)
      | headerReady _ hresults | bodyReady _ hresults | failed _ _ _ hresults =>
          exact absurd (hnone.symm.trans hresults) (by simp)
      | stopped _ _ hclosed => exact absurd (hopen.symm.trans hclosed) (by simp)
  | ended _ _ hclosed part error hsplit hlast _ herrors =>
      refine ⟨hclosed, part ++ session.inbox, error, ⟨?_, haccepted, ?_⟩, hlast, herrors⟩
      · rw [hsplit, List.append_assoc]
      · cases hlast with
        | rejected hrejects => exact Or.inr hrejects
        | truncated _ _ hincomplete => exact Or.inl hincomplete

theorem LoopEnd.unique {rest : List UInt8} {ended : Option ErrorCode}
    {left right : ErrorCode} (hleft : LoopEnd rest ended left)
    (hright : LoopEnd rest ended right) : left = right := by
  cases hleft with
  | rejected hrejects =>
      cases hright with
      | rejected => rfl
      | truncated _ _ hincomplete =>
          exact absurd hrejects (sessionFormat.not_rejects_of_incomplete hincomplete)
  | truncated _ hended hincomplete =>
      cases hright with
      | rejected hrejects =>
          exact absurd hrejects (sessionFormat.not_rejects_of_incomplete hincomplete)
      | truncated _ hother => exact Option.some.inj (hended.symm.trans hother)

/-! ## The loop ends -/

/-- Work left to the read loop: unread bytes, the outstanding read and the
completions in the strand. -/
def readWork (session : Session) : ℕ :=
  6 * session.inbox.length + (if session.reading.isSome then 2 else 0) +
    ((readResults session.strand).map fun result =>
      if result.2.isNone then 3 else 1).sum

theorem reading_doWrite (session : Session) : session.doWrite.reading = session.reading := by
  unfold doWrite
  split <;> rfl

/-- A handler that is no read completion starts no read. -/
theorem reading_runHandler (session : Session) (reaction : Reaction) {handler : Handler}
    (hresult : handler.readResult = none) :
    (session.runHandler reaction handler).reading = session.reading := by
  cases handler with
  | asyncWrite data =>
      simp only [runHandler, onAsyncWrite]
      split
      · exact reading_doWrite _
      · rfl
  | close => rfl
  | read kind error => exact absurd hresult (by simp [Handler.readResult])
  | write error =>
      cases error with
      | some error => rfl
      | none =>
          simp only [runHandler, onWritten]
          split
          · rfl
          · exact reading_doWrite _

/-- An outstanding read can take what has been received, or fail at the end of
the stream. -/
theorem exists_progress_of_reading {session : Session} {op : ReadOp} {error : ErrorCode}
    (hop : session.reading = some op) (hresults : readResults session.strand = [])
    (hfilled : op.filled < session.readBuffer.length)
    (hopen : session.isOpen = true) (hstream : session.ended = some error) :
    ∃ event next, event.Undisturbed ∧ session.step event = some next ∧
      next.arrived = session.arrived ∧ next.ended = session.ended ∧
        next.readWork < session.readWork := by
  by_cases hinbox : session.inbox = []
  · refine ⟨.readFail error, session.completeRead op.kind (some error), trivial, ?_,
      rfl, rfl, ?_⟩
    · simp [step, readFailStep, hop, readFails, hinbox, hstream]
    · simp [readWork, completeRead, post, hop, hresults, hinbox, Handler.readResult]
  · have hpos : 0 < session.inbox.length := List.length_pos_iff.mpr hinbox
    set count := min session.inbox.length (session.readBuffer.length - op.filled)
      with hcount
    have hstep : session.step (.readSome count) = some (session.fillBuffer op count) := by
      simp only [step, readStep, hop]
      rw [if_pos ⟨hopen, by omega, by omega, by omega⟩]
    refine ⟨.readSome count, session.fillBuffer op count, trivial, hstep, ?_⟩
    by_cases hdone : op.filled + count = session.readBuffer.length
    · rw [fillBuffer_done hdone]
      refine ⟨rfl, rfl, ?_⟩
      simp [readWork, completeRead, post, hop, hresults, Handler.readResult]
      omega
    · rw [fillBuffer_more hdone]
      refine ⟨rfl, rfl, ?_⟩
      simp [readWork, hop, hresults]
      omega

/-- Running the completion of a read uses it up, and at most starts the next
read. -/
theorem runHandler_read {session : Session} (kind : ReadKind) (error : Option ErrorCode)
    (hreading : session.reading = none) (hresults : readResults session.strand = []) :
    (session.runHandler silent (.read kind error)).arrived = session.arrived ∧
      (session.runHandler silent (.read kind error)).ended = session.ended ∧
      (session.runHandler silent (.read kind error)).readWork <
        6 * session.inbox.length + (if error.isNone then 3 else 1) := by
  cases error with
  | some error =>
      cases kind <;>
        exact ⟨rfl, rfl, by
          simp [runHandler, onReadFailed, doClose, onError, readWork, hreading, hresults]⟩
  | none =>
      cases kind with
      | header =>
          simp only [runHandler, onReadHeader]
          split
          · exact ⟨rfl, rfl, by simp [doReadBody, resizeBuffer, readWork, hresults]⟩
          · exact ⟨rfl, rfl, by simp [doClose, onError, readWork, hreading, hresults]⟩
      | body =>
          simp only [runHandler, onReadBody, onMessage_eq]
          exact ⟨rfl, rfl, by
            simp [doReadHeader, resizeBuffer, readWork, silent, replies, hresults]⟩

/-- A completion in the strand is reached by running the handlers before it. -/
theorem exists_progress_of_results {session : Session}
    (hreading : session.reading = none) (hresults : readResults session.strand ≠ [])
    (hread : session.ReadInv) :
    ∃ event next, event.Undisturbed ∧ session.step event = some next ∧
      next.arrived = session.arrived ∧ next.ended = session.ended ∧
        (next.readWork < session.readWork ∨ (next.readWork = session.readWork ∧
          next.strand.length < session.strand.length)) := by
  cases hstrand : session.strand with
  | nil => exact absurd (by simp [hstrand]) hresults
  | cons handler strand =>
      have hstep : session.step (.run silent) =
          some (runHandler { session with strand := strand } silent handler) := by
        simp [step, runStep, hstrand]
      refine ⟨.run silent, _, List.not_mem_nil, hstep, ?_⟩
      cases hresult : handler.readResult with
      | none =>
          have hbody : handler ≠ .read .body none := by
            rintro rfl
            exact absurd hresult (by simp [Handler.readResult])
          have hsame := sameHistories_runHandler { session with strand := strand } silent hbody
          have hreads := reading_runHandler { session with strand := strand } silent hresult
          refine ⟨hsame.arrived, hsame.ended, Or.inr ⟨?_, ?_⟩⟩
          · simp [readWork, hsame.inbox, hreads, hsame.strand, hstrand, hresult]
          · simp [hsame.strand]
      | some result =>
          cases handler with
          | read kind error =>
              have hnone : readResults strand = [] := by
                obtain ⟨part, _, hphase⟩ := hread.phase
                cases hphase with
                | headerReady _ h | bodyReady _ h | failed _ _ _ h =>
                    exact (readResults_of_cons hstrand h).2.2
                | header _ _ h | body _ _ h | stopped _ h => exact absurd h hresults
              have hpopped : ({ session with strand := strand } : Session).reading = none :=
                hreading
              obtain ⟨harrived, hended, hwork⟩ := runHandler_read kind error hpopped hnone
              refine ⟨harrived, hended, Or.inl (lt_of_lt_of_eq hwork ?_)⟩
              simp [readWork, hreading, hstrand, hnone, Handler.readResult]
          | asyncWrite data => exact absurd hresult (by simp [Handler.readResult])
          | close => exact absurd hresult (by simp [Handler.readResult])
          | write error => exact absurd hresult (by simp [Handler.readResult])

theorem exists_progress {session : Session} {error : ErrorCode} (hread : session.ReadInv)
    (hinv : session.LoopInv) (hstream : session.ended = some error)
    (hgoing : ¬ session.readLoopEnded) :
    ∃ event next, event.Undisturbed ∧ session.step event = some next ∧
      next.arrived = session.arrived ∧ next.ended = session.ended ∧
        (next.readWork < session.readWork ∨ (next.readWork = session.readWork ∧
          next.strand.length < session.strand.length)) := by
  obtain ⟨part, _, hphase⟩ := hread.phase
  have hstrand : session.reading = none → readResults session.strand ≠ [] :=
    fun hidle hnone => hgoing ⟨hidle, hnone⟩
  have hreads : ∀ op, session.reading = some op → readResults session.strand = [] →
      op.filled < session.readBuffer.length → _ := fun op hop hresults hfilled =>
    exists_progress_of_reading hop hresults hfilled
      (hinv.phase.running_of_reading hop).1 hstream
  cases hphase with
  | header filled hreading hresults hlength hfilled =>
      obtain ⟨event, next, hquiet, hstep, harrived, hended, hless⟩ :=
        hreads _ hreading hresults (hlength ▸ hfilled)
      exact ⟨event, next, hquiet, hstep, harrived, hended, Or.inl hless⟩
  | body filled hreading hresults hlength hfilled =>
      obtain ⟨event, next, hquiet, hstep, harrived, hended, hless⟩ :=
        hreads _ hreading hresults hfilled
      exact ⟨event, next, hquiet, hstep, harrived, hended, Or.inl hless⟩
  | headerReady hreading | bodyReady hreading | failed _ _ hreading | stopped hreading =>
      exact exists_progress_of_results hreading (hstrand hreading) hread

/-- Once the peer's stream has ended, the loop runs to its end on it. -/
theorem exists_readLoopEnded {session : Session} {error : ErrorCode}
    (hread : session.ReadInv) (hinv : session.LoopInv)
    (hstream : session.ended = some error) :
    ∃ events final, (∀ event ∈ events, event.Undisturbed) ∧
      Transition.run step session events = some final ∧
        final.readLoopEnded ∧ final.arrived = session.arrived := by
  by_cases hgoing : session.readLoopEnded
  · exact ⟨[], session, by simp, rfl, hgoing, rfl⟩
  · obtain ⟨event, next, hquiet, hstep, harrived, hended, hless⟩ :=
      exists_progress hread hinv hstream hgoing
    obtain ⟨events, final, hevents, hrun, hfinal, hsame⟩ :=
      exists_readLoopEnded (readInv_step hread hstep)
        (loopInv_step hread hinv hquiet hstep) (hended.trans hstream)
    refine ⟨event :: events, final, ?_, ?_, hfinal, hsame.trans harrived⟩
    · intro other hmem
      rcases List.mem_cons.mp hmem with rfl | hmem
      · exact hquiet
      · exact hevents other hmem
    · exact Transition.run_cons.mpr ⟨next, hstep, hrun⟩
termination_by (session.readWork, session.strand.length)
decreasing_by
  rcases hless with hless | ⟨hsame, hless⟩
  · exact Prod.Lex.left _ _ hless
  · rw [hsame]
    exact Prod.Lex.right _ hless

/-- Two ended loops that were fed the same stream delivered the same messages
and reported the same error, however the stream was cut. -/
theorem LoopInv.eq_of_same_stream {left right : Session}
    (hleftRead : left.ReadInv) (hleft : left.LoopInv) (hleftEnded : left.readLoopEnded)
    (hrightRead : right.ReadInv) (hright : right.LoopInv)
    (hrightEnded : right.readLoopEnded)
    (harrived : left.arrived = right.arrived) (hended : left.ended = right.ended) :
    left.messages = right.messages ∧ left.errors = right.errors := by
  obtain ⟨_, leftRest, leftError, hleftSplit, hleftLast, hleftErrors⟩ :=
    hleft.decomposition_of_ended hleftRead hleftEnded
  obtain ⟨_, rightRest, rightError, hrightSplit, hrightLast, hrightErrors⟩ :=
    hright.decomposition_of_ended hrightRead hrightEnded
  rw [← harrived] at hrightSplit
  obtain ⟨hmessages, rfl⟩ := hleftSplit.unique hrightSplit
  rw [← hended] at hrightLast
  refine ⟨hmessages, ?_⟩
  rw [hleftErrors, hrightErrors, hleftLast.unique hrightLast]

/-- For every stream and every segmentation, an undisturbed session has a
bounded buffer and has delivered accepted frames only; its loop ends once the
stream has; and an ended loop has delivered the maximal decomposition of the
stream, closed the socket and reported one error, the same for every
segmentation. -/
theorem readLoop_accepts_maximal_frames {session : Session} {events : List Event}
    (hquiet : ∀ event ∈ events, event.Undisturbed)
    (hrun : Transition.run step start events = some session) :
    session.readBuffer.length ≤ maxBodyLength ∧
      (∀ message ∈ session.messages, reasonableLength message.length) ∧
      sessionFormat.frames session.messages <+: session.arrived ∧
      (∀ error, session.ended = some error →
        ∃ more final, (∀ event ∈ more, event.Undisturbed) ∧
          Transition.run step session more = some final ∧
            final.readLoopEnded ∧ final.arrived = session.arrived) ∧
      (session.readLoopEnded →
        (session.isOpen = false ∧ ∃ rest error,
          sessionFormat.Decomposition session.arrived session.messages rest ∧
            LoopEnd rest session.ended error ∧ session.errors = [error]) ∧
        ∀ otherEvents other, (∀ event ∈ otherEvents, event.Undisturbed) →
          Transition.run step start otherEvents = some other → other.readLoopEnded →
            other.arrived = session.arrived → other.ended = session.ended →
              other.messages = session.messages ∧ other.errors = session.errors) := by
  have hread := readInv_run hrun
  have hloop := loopInv_run hquiet hrun
  refine ⟨hread.bounded, hread.accepted, hread.frames_isPrefix, ?_, fun hended => ⟨?_, ?_⟩⟩
  · intro error hstream
    exact exists_readLoopEnded hread hloop hstream
  · exact hloop.decomposition_of_ended hread hended
  · intro otherEvents other hotherQuiet hotherRun hotherEnded harrived hstream
    exact (loopInv_run hotherQuiet hotherRun).eq_of_same_stream (readInv_run hotherRun)
      hotherEnded hread hloop hended harrived hstream

/-- One message in three segments, then a header of length zero. -/
def hostileEvents : List Event :=
  [.arrive [0, 0], .readSome 2, .arrive [0, 1, 7, 0, 0], .readSome 2, .run silent,
    .readSome 1, .run silent, .readSome 2, .arrive [0, 0, 9], .readSome 2, .run silent]

theorem readLoop_accepts_maximal_frames_hostileEvents :
    ∃ session, Transition.run step start hostileEvents = some session ∧
      session.arrived = [0, 0, 0, 1, 7, 0, 0, 0, 0, 9] ∧ session.messages = [[7]] ∧
        session.errors = [.messageSize] ∧ session.isOpen = false := by
  have hquiet : ∀ event ∈ hostileEvents, event.Undisturbed := by
    simp [hostileEvents, Event.Undisturbed, silent]
  have hresult := readLoop_accepts_maximal_frames hquiet rfl
  exact ⟨_, rfl, rfl, rfl, rfl, (hresult.2.2.2.2 ⟨rfl, rfl⟩).1.1⟩

end RpcDemo.Session
