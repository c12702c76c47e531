import RpcDemo.Detail.WriteQueue

/-!
# The read loop of a session

`do_read_header` and `do_read_body` call each other for as long as frames keep
coming, over one buffer that is resized for each read and handed to the message
handler in between.  The invariant ties every state of the loop to the bytes
that have arrived, and to nothing else: they are the frames of the messages
delivered so far, the part of the next frame that was read, and what is still
unread.
-/

namespace RpcDemo.Session

open RpcDemo.Frame
open RpcDemo.LengthPrefix (Format)

/-! ## The buffer of an outstanding read -/

section Buffer

variable {session : Session} {op : ReadOp} {count : ℕ}

/-- The buffer after a transfer of `count` bytes. -/
def filledBuffer (session : Session) (op : ReadOp) (count : ℕ) : List UInt8 :=
  session.readBuffer.take op.filled ++ session.inbox.take count ++
    session.readBuffer.drop (op.filled + count)

theorem length_filledBuffer (hinbox : count ≤ session.inbox.length)
    (hroom : op.filled + count ≤ session.readBuffer.length) :
    (session.filledBuffer op count).length = session.readBuffer.length := by
  simp only [filledBuffer, List.length_append, List.length_take, List.length_drop]
  omega

theorem take_filledBuffer (hinbox : count ≤ session.inbox.length)
    (hroom : op.filled + count ≤ session.readBuffer.length) :
    (session.filledBuffer op count).take (op.filled + count) =
      session.readBuffer.take op.filled ++ session.inbox.take count := by
  apply List.take_left'
  simp only [List.length_append, List.length_take]
  omega

theorem length_resizeBuffer (session : Session) (size : ℕ) :
    (session.resizeBuffer size).readBuffer.length = size := by
  simp only [resizeBuffer, List.length_append, List.length_take, List.length_replicate]
  omega

theorem fillBuffer_done (hdone : op.filled + count = session.readBuffer.length) :
    session.fillBuffer op count =
      completeRead { session with
        readBuffer := session.filledBuffer op count
        inbox := session.inbox.drop count } op.kind none := by
  simp only [fillBuffer, filledBuffer, if_pos hdone]

theorem fillBuffer_more (hmore : op.filled + count ≠ session.readBuffer.length) :
    session.fillBuffer op count =
      { session with
        readBuffer := session.filledBuffer op count
        inbox := session.inbox.drop count
        reading := some ⟨op.kind, op.filled + count⟩ } := by
  simp only [fillBuffer, filledBuffer, if_neg hmore]

end Buffer

/-! ## The invariant -/

/-- Where the loop is, and the part of the next frame it has taken off the
stream.  A read that failed on an open socket failed because the stream had
ended inside that frame. -/
inductive ReadPhase (session : Session) (part : List UInt8) : Prop
  | header (filled : ℕ)
      (hreading : session.reading = some ⟨.header, filled⟩)
      (hresults : readResults session.strand = [])
      (hlength : session.readBuffer.length = 4) (hfilled : filled < 4)
      (hpart : part = session.readBuffer.take filled)
  | body (filled : ℕ)
      (hreading : session.reading = some ⟨.body, filled⟩)
      (hresults : readResults session.strand = [])
      (hlength : reasonableLength session.readBuffer.length)
      (hfilled : filled < session.readBuffer.length)
      (hpart : part = sessionFormat.encode session.readBuffer.length ++
        session.readBuffer.take filled)
  | headerReady (hreading : session.reading = none)
      (hresults : readResults session.strand = [(.header, none)])
      (hlength : session.readBuffer.length = 4)
      (hpart : part = session.readBuffer)
  | bodyReady (hreading : session.reading = none)
      (hresults : readResults session.strand = [(.body, none)])
      (hlength : reasonableLength session.readBuffer.length)
      (hpart : part = wireMessage session.readBuffer)
  | failed (kind : ReadKind) (error : ErrorCode)
      (hreading : session.reading = none)
      (hresults : readResults session.strand = [(kind, some error)])
      (hended : session.isOpen = true → session.inbox = [] ∧
        session.ended = some error ∧ sessionFormat.Incomplete part)
  | stopped (hreading : session.reading = none)
      (hresults : readResults session.strand = [])
      (hclosed : session.isOpen = false)

structure ReadInv (session : Session) : Prop where
  accepted : ∀ message ∈ session.messages, reasonableLength message.length
  bounded : session.readBuffer.length ≤ maxBodyLength
  phase : ∃ part, session.arrived =
    sessionFormat.frames session.messages ++ part ++ session.inbox ∧
      ReadPhase session part

theorem ReadPhase.congr {session next : Session} {part : List UInt8}
    (hphase : ReadPhase session part)
    (hreading : next.reading = session.reading)
    (hresults : readResults next.strand = readResults session.strand)
    (hbuffer : next.readBuffer = session.readBuffer)
    (hclosed : session.isOpen = false → next.isOpen = false)
    (hended : session.isOpen = true → session.inbox = [] → ∀ error,
      session.ended = some error → next.inbox = [] ∧ next.ended = some error) :
    ReadPhase next part := by
  cases hphase with
  | header filled h1 h2 hlength hfilled hpart =>
      exact .header filled (hreading.trans h1) (hresults.trans h2)
        (by rwa [hbuffer]) hfilled (by rwa [hbuffer])
  | body filled h1 h2 hlength hfilled hpart =>
      exact .body filled (hreading.trans h1) (hresults.trans h2)
        (by rwa [hbuffer]) (by rwa [hbuffer]) (by rwa [hbuffer])
  | headerReady h1 h2 hlength hpart =>
      exact .headerReady (hreading.trans h1) (hresults.trans h2)
        (by rwa [hbuffer]) (by rwa [hbuffer])
  | bodyReady h1 h2 hlength hpart =>
      exact .bodyReady (hreading.trans h1) (hresults.trans h2)
        (by rwa [hbuffer]) (by rwa [hbuffer])
  | failed kind error h1 h2 hend =>
      refine .failed kind error (hreading.trans h1) (hresults.trans h2) fun hopen => ?_
      have hwas : session.isOpen = true := by
        rw [← Bool.not_eq_false]
        intro hfalse
        exact absurd (hclosed hfalse) (by simp [hopen])
      obtain ⟨hinbox, herror, hincomplete⟩ := hend hwas
      obtain ⟨hinbox', herror'⟩ := hended hwas hinbox error herror
      exact ⟨hinbox', herror', hincomplete⟩
  | stopped h1 h2 hclose =>
      exact .stopped (hreading.trans h1) (hresults.trans h2) (hclosed hclose)

/-- Steps that leave the read side and its histories alone, save that they may
close the socket, preserve the invariant. -/
theorem readInv_congr {session next : Session} (hinv : session.ReadInv)
    (hmessages : next.messages = session.messages)
    (hbuffer : next.readBuffer = session.readBuffer)
    (hreading : next.reading = session.reading)
    (hresults : readResults next.strand = readResults session.strand)
    (harrived : next.arrived = session.arrived)
    (hinbox : next.inbox = session.inbox)
    (hended : next.ended = session.ended)
    (hclosed : session.isOpen = false → next.isOpen = false) : next.ReadInv := by
  obtain ⟨haccepted, hbounded, part, hsplit, hphase⟩ := hinv
  refine ⟨by rwa [hmessages], by rwa [hbuffer], part, ?_, ?_⟩
  · rw [harrived, hmessages, hinbox, hsplit]
  · apply hphase.congr hreading hresults hbuffer hclosed
    intro _ hempty error herror
    exact ⟨hinbox.trans hempty, hended.trans herror⟩

theorem readInv_start : ReadInv start where
  accepted := by simp [start, doReadHeader, resizeBuffer, fresh]
  bounded := by decide
  phase := ⟨[], rfl, .header 0 rfl rfl rfl (by decide) rfl⟩

/-! ## Progress of the socket -/

theorem readInv_arrive {session : Session} (segment : List UInt8)
    (hended : session.ended = none) (hinv : session.ReadInv) :
    ReadInv { session with
      inbox := session.inbox ++ segment
      arrived := session.arrived ++ segment } := by
  obtain ⟨haccepted, hbounded, part, hsplit, hphase⟩ := hinv
  refine ⟨haccepted, hbounded, part, ?_, hphase.congr rfl rfl rfl id ?_⟩
  · simp [hsplit, List.append_assoc]
  · intro _ _ error herror
    exact absurd (hended.symm.trans herror) (by simp)

theorem readInv_hangUp {session : Session} (error : ErrorCode)
    (hended : session.ended = none) (hinv : session.ReadInv) :
    ReadInv { session with ended := some error } := by
  obtain ⟨haccepted, hbounded, part, hsplit, hphase⟩ := hinv
  refine ⟨haccepted, hbounded, part, hsplit, hphase.congr rfl rfl rfl id ?_⟩
  intro _ _ other hother
  exact absurd (hended.symm.trans hother) (by simp)

/-- A transfer moves bytes from the unread part of the stream to the part the
loop has taken. -/
theorem readInv_fillBuffer {session : Session} {op : ReadOp} {count : ℕ}
    (hop : session.reading = some op) (hinbox : count ≤ session.inbox.length)
    (hroom : op.filled + count ≤ session.readBuffer.length)
    (hinv : session.ReadInv) : (session.fillBuffer op count).ReadInv := by
  obtain ⟨haccepted, hbounded, part, hsplit, hphase⟩ := hinv
  have hbuffer := length_filledBuffer hinbox hroom
  have htake := take_filledBuffer hinbox hroom
  have harrived : session.arrived = sessionFormat.frames session.messages ++
      (part ++ session.inbox.take count) ++ session.inbox.drop count := by
    calc
      session.arrived = sessionFormat.frames session.messages ++ (part ++ session.inbox) := by
        rw [hsplit, List.append_assoc]
      _ = sessionFormat.frames session.messages ++
            (part ++ (session.inbox.take count ++ session.inbox.drop count)) := by
        rw [List.take_append_drop]
      _ = _ := by simp only [List.append_assoc]
  by_cases hdone : op.filled + count = session.readBuffer.length
  · rw [fillBuffer_done hdone]
    have hall : session.filledBuffer op count =
        session.readBuffer.take op.filled ++ session.inbox.take count := by
      rw [← htake, hdone, ← hbuffer, List.take_length]
    refine ⟨haccepted, by simpa [completeRead, post, hbuffer] using hbounded,
      part ++ session.inbox.take count, harrived, ?_⟩
    cases hphase with
    | header filled hreading hresults hlength hfilled hpart =>
        obtain rfl : op = ⟨.header, filled⟩ := Option.some.inj (hop.symm.trans hreading)
        refine .headerReady rfl ?_ (hbuffer.trans hlength) ?_
        · simp [completeRead, post, hresults, Handler.readResult]
        · rw [hpart]
          exact hall.symm
    | body filled hreading hresults hlength hfilled hpart =>
        obtain rfl : op = ⟨.body, filled⟩ := Option.some.inj (hop.symm.trans hreading)
        refine .bodyReady rfl ?_ (by rwa [completeRead, post, hbuffer]) ?_
        · simp [completeRead, post, hresults, Handler.readResult]
        · simp only [completeRead, post]
          rw [hpart, List.append_assoc, ← hall, ← hbuffer]
          rfl
    | headerReady hreading | bodyReady hreading | failed _ _ hreading
    | stopped hreading =>
        exact absurd (hop.symm.trans hreading) (by simp)
  · rw [fillBuffer_more hdone]
    have hlt : op.filled + count < session.readBuffer.length :=
      lt_of_le_of_ne hroom hdone
    refine ⟨haccepted, by simpa [hbuffer] using hbounded,
      part ++ session.inbox.take count, harrived, ?_⟩
    cases hphase with
    | header filled hreading hresults hlength hfilled hpart =>
        obtain rfl : op = ⟨.header, filled⟩ := Option.some.inj (hop.symm.trans hreading)
        refine .header (filled + count) rfl hresults (hbuffer.trans hlength)
          (hlength ▸ hlt) ?_
        rw [hpart]
        exact htake.symm
    | body filled hreading hresults hlength hfilled hpart =>
        obtain rfl : op = ⟨.body, filled⟩ := Option.some.inj (hop.symm.trans hreading)
        refine .body (filled + count) rfl hresults (by rwa [hbuffer])
          (by rwa [hbuffer]) ?_
        simp only
        rw [hpart, List.append_assoc, htake, hbuffer]
    | headerReady hreading | bodyReady hreading | failed _ _ hreading
    | stopped hreading =>
        exact absurd (hop.symm.trans hreading) (by simp)

theorem readInv_completeRead_error {session : Session} {op : ReadOp} {error : ErrorCode}
    (hop : session.reading = some op) (hfails : session.readFails error)
    (hinv : session.ReadInv) : (session.completeRead op.kind (some error)).ReadInv := by
  obtain ⟨haccepted, hbounded, part, hsplit, hphase⟩ := hinv
  refine ⟨haccepted, hbounded, part, hsplit, ?_⟩
  have hended : sessionFormat.Incomplete part → session.isOpen = true →
      session.inbox = [] ∧ session.ended = some error ∧ sessionFormat.Incomplete part := by
    intro hincomplete hopen
    rcases hfails with hclosed | ⟨hinbox, herror⟩
    · exact absurd hopen (by simp [hclosed])
    · exact ⟨hinbox, herror, hincomplete⟩
  cases hphase with
  | header filled hreading hresults hlength hfilled hpart =>
      refine .failed op.kind error rfl ?_ (hended ?_)
      · simp [completeRead, post, hresults, Handler.readResult]
      · apply Format.incomplete_of_short
        rw [hpart, List.length_take]
        exact lt_of_le_of_lt (min_le_left _ _) hfilled
  | body filled hreading hresults hlength hfilled hpart =>
      refine .failed op.kind error rfl ?_ (hended ?_)
      · simp [completeRead, post, hresults, Handler.readResult]
      · rw [hpart]
        apply Format.incomplete_encode_append _ hlength
        rw [List.length_take]
        exact lt_of_le_of_lt (min_le_left _ _) hfilled
  | headerReady hreading | bodyReady hreading | failed _ _ hreading | stopped hreading =>
      exact absurd (hop.symm.trans hreading) (by simp)

/-! ## One turn of the strand -/

theorem readInv_pop {session : Session} {handler : Handler} {strand : List Handler}
    (hstrand : session.strand = handler :: strand) (hresult : handler.readResult = none)
    (hinv : session.ReadInv) : ReadInv { session with strand := strand } := by
  refine readInv_congr hinv rfl rfl rfl ?_ rfl rfl rfl id
  simp [hstrand, hresult]

theorem readInv_doWrite {session : Session} (hinv : session.ReadInv) :
    session.doWrite.ReadInv := by
  unfold doWrite
  split
  · exact hinv
  · exact readInv_congr hinv rfl rfl rfl rfl rfl rfl rfl id

theorem readInv_onAsyncWrite {session : Session} (data : Payload)
    (hinv : session.ReadInv) : (session.onAsyncWrite data).ReadInv := by
  have hqueued : ReadInv { session with writeQueue := session.writeQueue ++ [data] } :=
    readInv_congr hinv rfl rfl rfl rfl rfl rfl rfl id
  simp only [onAsyncWrite]
  split
  · exact readInv_doWrite hqueued
  · exact hqueued

theorem readInv_onWritten {session : Session} (hinv : session.ReadInv) :
    session.onWritten.ReadInv := by
  have hpopped : ReadInv { session with writeQueue := session.writeQueue.tail } :=
    readInv_congr hinv rfl rfl rfl rfl rfl rfl rfl id
  simp only [onWritten]
  split
  · exact hpopped
  · exact readInv_doWrite hpopped

theorem readInv_doClose {session : Session} (hinv : session.ReadInv) :
    session.doClose.ReadInv :=
  readInv_congr hinv rfl rfl rfl rfl rfl rfl rfl fun _ => rfl

theorem readInv_doClose_onError {session : Session} (error : ErrorCode)
    (hinv : session.ReadInv) : (session.doClose.onError error).ReadInv :=
  readInv_congr hinv rfl rfl rfl rfl rfl rfl rfl fun _ => rfl

/-- The read completion at the front of the strand is the only one there. -/
theorem readResults_of_cons {kind kind' : ReadKind} {error error' : Option ErrorCode}
    {session : Session} {strand : List Handler}
    (hstrand : session.strand = .read kind error :: strand)
    (hresults : readResults session.strand = [(kind', error')]) :
    kind = kind' ∧ error = error' ∧ readResults strand = [] := by
  rw [hstrand, readResults_cons] at hresults
  simpa [Handler.readResult, and_assoc] using hresults

theorem readResults_ne_nil_of_cons {kind : ReadKind} {error : Option ErrorCode}
    {session : Session} {strand : List Handler}
    (hstrand : session.strand = .read kind error :: strand) :
    readResults session.strand ≠ [] := by
  simp [hstrand, Handler.readResult]

/-- The header that was read is the start of the next frame, or the loop ends
in front of it. -/
theorem readInv_onReadHeader {session : Session} {strand : List Handler}
    (hstrand : session.strand = .read .header none :: strand) (hinv : session.ReadInv) :
    (onReadHeader { session with strand := strand }).ReadInv := by
  obtain ⟨haccepted, hbounded, part, hsplit, hphase⟩ := hinv
  cases hphase with
  | headerReady hreading hresults hlength hpart =>
      obtain ⟨_, _, hnone⟩ := readResults_of_cons hstrand hresults
      simp only [onReadHeader]
      split
      case isTrue hreasonable =>
        have hsize : ∀ other : Session,
            (other.doReadBody (decodeHeader session.readBuffer)).readBuffer.length =
              (decodeHeader session.readBuffer).toNat :=
          fun other => length_resizeBuffer other _
        refine ⟨haccepted, ?_, part, hsplit, .body 0 rfl hnone ?_ ?_ ?_⟩
        · rw [hsize]
          exact hreasonable.2
        · rwa [hsize]
        · rw [hsize]
          exact hreasonable.1
        · rw [hsize, hpart]
          have hencode := encodeHeader_decodeHeader hlength
          simp [sessionFormat, UInt32.ofNat_toNat, hencode]
      case isFalse =>
        exact ⟨haccepted, hbounded, part, hsplit, .stopped hreading hnone rfl⟩
  | bodyReady _ hresults =>
      obtain ⟨hkind, _⟩ := readResults_of_cons hstrand hresults
      exact absurd hkind (by decide)
  | failed _ _ _ hresults =>
      obtain ⟨_, herror, _⟩ := readResults_of_cons hstrand hresults
      exact absurd herror (by simp)
  | header _ _ hresults | body _ _ hresults | stopped _ hresults =>
      exact absurd hresults (readResults_ne_nil_of_cons hstrand)

/-- The body that was read completes the frame of one more message. -/
theorem readInv_onReadBody {session : Session} {strand : List Handler} (reaction : Reaction)
    (hstrand : session.strand = .read .body none :: strand) (hinv : session.ReadInv) :
    (onReadBody { session with strand := strand } reaction).ReadInv := by
  obtain ⟨haccepted, hbounded, part, hsplit, hphase⟩ := hinv
  cases hphase with
  | bodyReady hreading hresults hlength hpart =>
      obtain ⟨_, _, hnone⟩ := readResults_of_cons hstrand hresults
      rw [onReadBody, onMessage_eq, doReadHeader]
      refine ⟨?_, ?_, [], ?_, .header 0 rfl ?_ ?_ (by decide) ?_⟩
      · intro message hmem
        rcases List.mem_append.mp hmem with hmem | hmem
        · exact haccepted message hmem
        · rwa [List.mem_singleton.mp hmem]
      · simp only [length_resizeBuffer]
        decide
      · simp [resizeBuffer, hsplit, hpart]
      · simp [resizeBuffer, hnone]
      · exact length_resizeBuffer _ 4
      · simp
  | headerReady _ hresults =>
      obtain ⟨hkind, _⟩ := readResults_of_cons hstrand hresults
      exact absurd hkind (by decide)
  | failed _ _ _ hresults =>
      obtain ⟨_, herror, _⟩ := readResults_of_cons hstrand hresults
      exact absurd herror (by simp)
  | header _ _ hresults | body _ _ hresults | stopped _ hresults =>
      exact absurd hresults (readResults_ne_nil_of_cons hstrand)

theorem readInv_onReadFailed {session : Session} {kind : ReadKind} {error : ErrorCode}
    {strand : List Handler} (hstrand : session.strand = .read kind (some error) :: strand)
    (hinv : session.ReadInv) :
    (onReadFailed { session with strand := strand } error).ReadInv := by
  obtain ⟨haccepted, hbounded, part, hsplit, hphase⟩ := hinv
  cases hphase with
  | failed kind' error' hreading hresults hended =>
      obtain ⟨_, _, hnone⟩ := readResults_of_cons hstrand hresults
      exact ⟨haccepted, hbounded, part, hsplit, .stopped hreading hnone rfl⟩
  | headerReady _ hresults | bodyReady _ hresults =>
      obtain ⟨_, herror, _⟩ := readResults_of_cons hstrand hresults
      exact absurd herror (by simp)
  | header _ _ hresults | body _ _ hresults | stopped _ hresults =>
      exact absurd hresults (readResults_ne_nil_of_cons hstrand)

theorem readInv_runHandler {session : Session} {handler : Handler}
    {strand : List Handler} (reaction : Reaction)
    (hstrand : session.strand = handler :: strand) (hinv : session.ReadInv) :
    (runHandler { session with strand := strand } reaction handler).ReadInv := by
  cases handler with
  | asyncWrite data => exact readInv_onAsyncWrite data (readInv_pop hstrand rfl hinv)
  | close => exact readInv_doClose (readInv_pop hstrand rfl hinv)
  | read kind error =>
      cases error with
      | some error => cases kind <;> exact readInv_onReadFailed hstrand hinv
      | none =>
          cases kind with
          | header => exact readInv_onReadHeader hstrand hinv
          | body => exact readInv_onReadBody reaction hstrand hinv
  | write error =>
      have hpopped := readInv_pop hstrand rfl hinv
      cases error with
      | none => exact readInv_onWritten hpopped
      | some error => exact readInv_doClose_onError error hpopped

theorem readInv_sendBytes {session : Session} (op : WriteOp) (count : ℕ)
    (hinv : session.ReadInv) : (session.sendBytes op count).ReadInv := by
  simp only [sendBytes]
  split
  · refine readInv_congr hinv rfl rfl rfl ?_ rfl rfl rfl id
    simp [completeWrite, post, Handler.readResult]
  · exact readInv_congr hinv rfl rfl rfl rfl rfl rfl rfl id

theorem readInv_post {session : Session} (handler : Handler)
    (hresult : handler.readResult = none) (hinv : session.ReadInv) :
    (session.post handler).ReadInv := by
  refine readInv_congr hinv rfl rfl rfl ?_ rfl rfl rfl id
  simp [post, hresult]

theorem readInv_step {session next : Session} {event : Event}
    (hinv : session.ReadInv) (hstep : session.step event = some next) :
    next.ReadInv := by
  cases stepped_of_step hstep with
  | asyncWrite data =>
      exact readInv_congr (readInv_post (.asyncWrite data) rfl hinv)
        rfl rfl rfl rfl rfl rfl rfl id
  | close => exact readInv_post .close rfl hinv
  | arrive segment hended => exact readInv_arrive segment hended hinv
  | hangUp error hended => exact readInv_hangUp error hended hinv
  | readSome op count hop _ _ hinbox hroom => exact readInv_fillBuffer hop hinbox hroom hinv
  | readFail op error hop hfails => exact readInv_completeRead_error hop hfails hinv
  | writeSome op count => exact readInv_sendBytes op count hinv
  | writeFail op error =>
      exact readInv_congr (readInv_post (.write (some error)) rfl hinv)
        rfl rfl rfl rfl rfl rfl rfl id
  | run handler strand reaction hstrand =>
      exact readInv_runHandler reaction hstrand hinv

theorem readInv_run {session : Session} {events : List Event}
    (hrun : Transition.run step start events = some session) : session.ReadInv :=
  Transition.run_invariant (fun _ _ _ hinv hstep => readInv_step hinv hstep)
    readInv_start hrun

/-- At all times the frames of the delivered messages are a prefix of what
arrived. -/
theorem ReadInv.frames_isPrefix {session : Session} (hinv : session.ReadInv) :
    sessionFormat.frames session.messages <+: session.arrived := by
  obtain ⟨part, hsplit, _⟩ := hinv.phase
  rw [hsplit, List.append_assoc]
  exact List.prefix_append _ _

/-- A read loop that waits for bytes has delivered the maximal decomposition of
what has arrived. -/
theorem ReadInv.decomposition_of_waiting {session : Session} (hinv : session.ReadInv)
    (hopen : session.isOpen = true) (hresults : readResults session.strand = [])
    (hinbox : session.reading ≠ none → session.inbox = []) :
    ∃ rest, sessionFormat.Decomposition session.arrived session.messages rest := by
  obtain ⟨haccepted, _, part, hsplit, hphase⟩ := hinv
  have hread : session.reading ≠ none → sessionFormat.Incomplete part →
      sessionFormat.Decomposition session.arrived session.messages part := by
    intro hreading hincomplete
    refine ⟨?_, haccepted, Or.inl hincomplete⟩
    rw [hsplit, hinbox hreading, List.append_nil]
  cases hphase with
  | header filled hreading _ hlength hfilled hpart =>
      refine ⟨part, hread (by simp [hreading]) ?_⟩
      apply Format.incomplete_of_short
      rw [hpart, List.length_take]
      exact lt_of_le_of_lt (min_le_left _ _) hfilled
  | body filled hreading _ hlength hfilled hpart =>
      refine ⟨part, hread (by simp [hreading]) ?_⟩
      rw [hpart]
      apply Format.incomplete_encode_append _ hlength
      rw [List.length_take]
      exact lt_of_le_of_lt (min_le_left _ _) hfilled
  | headerReady _ hready | bodyReady _ hready | failed _ _ _ hready =>
      exact absurd (hresults.symm.trans hready) (by simp)
  | stopped _ _ hclosed => exact absurd (hopen.symm.trans hclosed) (by simp)

end RpcDemo.Session
