import RpcDemo.Detail.ReadLoop
import RpcDemo.Detail.Server

/-!
# The registry of a server

`sessions_` grows in the accept handler and shrinks only in `cleanup_sessions`,
which runs in error callbacks.  A socket can be closed in four places, and two
of them report no error: `close()` from another thread, and `close()` inside a
message handler.  What takes such a session out of the registry is the read it
still has to come: every closed session owes one or two read completions, and
the last of them is an error.

The message handlers here are arbitrary: a turn of a strand comes with whatever
the handler does.
-/

namespace RpcDemo

open RpcDemo.Frame

namespace Session

/-! ## The reads of a closed session -/

/-- Outstanding reads, and read completions waiting in the strand. -/
def pendingReads (session : Session) : ℕ :=
  session.reading.toList.length + (readResults session.strand).length

/-- How many read completions a closed session still handles: the accepted
header and the body lead to one more read, which fails. -/
def readsOwed (session : Session) : ℕ :=
  match session.reading, readResults session.strand with
  | some _, _ => 1
  | none, [] => 0
  | none, (_, some _) :: _ => 1
  | none, (.header, none) :: _ =>
      if reasonableLength (decodeHeader session.readBuffer).toNat then 2 else 1
  | none, (.body, none) :: _ => 2

theorem readsOwed_le_two (session : Session) : session.readsOwed ≤ 2 := by
  unfold readsOwed
  repeat' split
  all_goals decide

theorem readsOwed_pos {session : Session} (hpending : session.pendingReads ≠ 0) :
    0 < session.readsOwed := by
  unfold readsOwed
  repeat' split
  case h_2 hreading hresults => simp [pendingReads, hreading, hresults] at hpending
  all_goals decide

theorem readsOwed_of_reading {session : Session} {op : ReadOp}
    (hop : session.reading = some op) : session.readsOwed = 1 := by
  simp only [readsOwed, hop]

/-- The two counts look at the read side only. -/
theorem pendingReads_congr {session next : Session} (hreading : next.reading = session.reading)
    (hresults : readResults next.strand = readResults session.strand) :
    next.pendingReads = session.pendingReads := by
  rw [pendingReads, pendingReads, hreading, hresults]

theorem readsOwed_congr {session next : Session} (hreading : next.reading = session.reading)
    (hresults : readResults next.strand = readResults session.strand)
    (hbuffer : next.readBuffer = session.readBuffer) :
    next.readsOwed = session.readsOwed := by
  rw [readsOwed, readsOwed, hreading, hresults, hbuffer]

theorem ReadInv.pendingReads_le_one {session : Session} (hinv : session.ReadInv) :
    session.pendingReads ≤ 1 := by
  obtain ⟨part, _, hphase⟩ := hinv.phase
  cases hphase <;> simp [pendingReads, *]

/-- An open session always has a read to come. -/
theorem ReadInv.isOpen_eq_false {session : Session} (hinv : session.ReadInv)
    (hpending : session.pendingReads = 0) : session.isOpen = false := by
  obtain ⟨part, _, hphase⟩ := hinv.phase
  cases hphase with
  | stopped _ _ hclosed => exact hclosed
  | header _ hreading | body _ hreading => simp [pendingReads, hreading] at hpending
  | headerReady _ hresults | bodyReady _ hresults | failed _ _ _ hresults =>
      simp [pendingReads, hresults] at hpending

/-- A read that is outstanding has no completion in the strand. -/
theorem ReadInv.readResults_eq_nil {session : Session} {op : ReadOp}
    (hinv : session.ReadInv) (hop : session.reading = some op) :
    readResults session.strand = [] := by
  have hle : session.pendingReads ≤ 1 := hinv.pendingReads_le_one
  simpa [pendingReads, hop] using hle

theorem ReadInv.reading_eq_none {session : Session} {kind : ReadKind}
    {error : Option ErrorCode} {strand : List Handler} (hinv : session.ReadInv)
    (hstrand : session.strand = .read kind error :: strand) : session.reading = none := by
  have hle : session.pendingReads ≤ 1 := hinv.pendingReads_le_one
  cases hreading : session.reading with
  | none => rfl
  | some op => simp [pendingReads, hreading, hstrand, Handler.readResult] at hle

/-- `next` has the read side and the reported errors of `session`. -/
structure SameReads (session next : Session) : Prop where
  reading : next.reading = session.reading
  results : readResults next.strand = readResults session.strand
  buffer : next.readBuffer = session.readBuffer
  errors : next.errors = session.errors

theorem SameReads.pendingReads {session next : Session} (hsame : SameReads session next) :
    next.pendingReads = session.pendingReads :=
  pendingReads_congr hsame.reading hsame.results

theorem SameReads.readsOwed {session next : Session} (hsame : SameReads session next) :
    next.readsOwed = session.readsOwed :=
  readsOwed_congr hsame.reading hsame.results hsame.buffer

theorem sameReads_doWrite (session : Session) : SameReads session session.doWrite := by
  unfold doWrite
  split <;> exact ⟨rfl, rfl, rfl, rfl⟩

/-- Only the completion of a read touches the read side, and only it and a
failed write report. -/
theorem sameReads_runHandler {session : Session} {handler : Handler} {strand : List Handler}
    (reaction : Reaction) (hstrand : session.strand = handler :: strand)
    (hresult : handler.readResult = none) (hwrite : ∀ error, handler ≠ .write (some error)) :
    SameReads session ({ session with strand := strand }.runHandler reaction handler) := by
  have hpopped : readResults strand = readResults session.strand := by
    simp [hstrand, hresult]
  have hqueued : ∀ queue : List Payload, SameReads session
      (doWrite { session with strand := strand, writeQueue := queue }) := by
    intro queue
    obtain ⟨hreading, hresults, hbuffer, herrors⟩ :=
      sameReads_doWrite { session with strand := strand, writeQueue := queue }
    exact ⟨hreading, hresults.trans hpopped, hbuffer, herrors⟩
  cases handler with
  | asyncWrite data =>
      simp only [runHandler, onAsyncWrite]
      split
      · exact hqueued _
      · exact ⟨rfl, hpopped, rfl, rfl⟩
  | close => exact ⟨rfl, hpopped, rfl, rfl⟩
  | read kind error => exact absurd hresult (by simp [Handler.readResult])
  | write error =>
      cases error with
      | some error => exact absurd rfl (hwrite error)
      | none =>
          simp only [runHandler, onWritten]
          split
          · exact ⟨rfl, hpopped, rfl, rfl⟩
          · exact hqueued _

/-! ## What one turn does to the reads -/

/-- The front of the strand is the completion of a read. -/
def atRead (session : Session) : Bool :=
  match session.strand with
  | .read _ _ :: _ => true
  | _ => false

/-- What a turn of the strand does to the read side: nothing, the next read, or
an error report on a closed socket. -/
inductive ReadTurn (session next : Session) : Prop
  | other (hturn : session.atRead = false) (hsame : SameReads session next)
  | again (op : ReadOp) (howed : session.readsOwed = 2)
      (hreading : next.reading = some op) (herrors : next.errors = session.errors)
  | reported (error : ErrorCode) (herrors : next.errors = session.errors ++ [error])
      (hclosed : next.isOpen = false)

theorem readTurn_of_run {session next : Session} {reaction : Reaction}
    (hinv : session.ReadInv)
    (hstep : session.step (.run reaction) = some next) : ReadTurn session next := by
  cases stepped_of_step hstep with
  | run handler strand _ hstrand =>
      have hother : handler.readResult = none → (∀ error, handler ≠ .write (some error)) →
          ReadTurn session ({ session with strand := strand }.runHandler reaction handler) := by
        intro hresult hwrite
        refine .other ?_ (sameReads_runHandler reaction hstrand hresult hwrite)
        cases handler <;> simp_all [atRead, Handler.readResult]
      cases handler with
      | asyncWrite data | close => exact hother rfl (by simp)
      | write error =>
          cases error with
          | none => exact hother rfl (by simp)
          | some error => exact .reported error rfl rfl
      | read kind error =>
          cases error with
          | some error => cases kind <;> exact .reported error rfl rfl
          | none =>
              cases kind with
              | body =>
                  have hreading := hinv.reading_eq_none hstrand
                  refine .again ⟨.header, 0⟩ ?_ rfl ?_
                  · simp [readsOwed, hreading, hstrand, Handler.readResult]
                  · rw [runHandler, onReadBody, onMessage_eq]
                    rfl
              | header =>
                  have hreading := hinv.reading_eq_none hstrand
                  simp only [runHandler, onReadHeader]
                  split
                  case isTrue hreasonable =>
                    refine .again ⟨.body, 0⟩ ?_ rfl rfl
                    simp [readsOwed, hreading, hstrand, Handler.readResult, hreasonable]
                  case isFalse => exact .reported .messageSize rfl rfl

/-- Apart from turns of the strand, a read stays outstanding or leaves its
completion in the strand. -/
theorem pendingReads_step_ne_zero {session next : Session} {event : Event}
    (hstep : session.step event = some next) (hrun : ∀ reaction, event ≠ .run reaction)
    (hpending : session.pendingReads ≠ 0) : next.pendingReads ≠ 0 := by
  cases stepped_of_step hstep with
  | asyncWrite data | close =>
      simpa [asyncWrite, close, post, pendingReads, Handler.readResult] using hpending
  | arrive segment | hangUp error => exact hpending
  | readSome op count =>
      simp only [fillBuffer]
      split <;> simp [completeRead, post, pendingReads, Handler.readResult]
  | readFail op error => simp [completeRead, post, pendingReads, Handler.readResult]
  | writeSome op count =>
      simp only [sendBytes]
      split <;> simpa [completeWrite, post, pendingReads, Handler.readResult] using hpending
  | writeFail op error =>
      simpa [completeWrite, post, pendingReads, Handler.readResult] using hpending
  | run handler strand reaction => exact absurd rfl (hrun reaction)

theorem errors_step {session next : Session} {event : Event}
    (hstep : session.step event = some next) (hrun : ∀ reaction, event ≠ .run reaction) :
    next.errors = session.errors := by
  cases stepped_of_step hstep with
  | asyncWrite data | close | arrive segment | hangUp error | readFail op error
  | writeFail op error => rfl
  | readSome op count =>
      simp only [fillBuffer]
      split <;> rfl
  | writeSome op count =>
      simp only [sendBytes]
      split <;> rfl
  | run handler strand reaction => exact absurd rfl (hrun reaction)

/-- On a closed socket an outstanding read can only fail. -/
theorem readsOwed_step {session next : Session} {event : Event} (hinv : session.ReadInv)
    (hclosed : session.isOpen = false) (hstep : session.step event = some next)
    (hrun : ∀ reaction, event ≠ .run reaction) : next.readsOwed = session.readsOwed := by
  cases stepped_of_step hstep with
  | asyncWrite data | close =>
      exact SameReads.readsOwed
        ⟨rfl, by simp [asyncWrite, close, post, Handler.readResult], rfl, rfl⟩
  | arrive segment | hangUp error => exact SameReads.readsOwed ⟨rfl, rfl, rfl, rfl⟩
  | readSome op count _ hopen => exact absurd (hopen.symm.trans hclosed) (by simp)
  | readFail op error hop =>
      have hresults := hinv.readResults_eq_nil hop
      rw [readsOwed_of_reading hop]
      simp [readsOwed, completeRead, post, hresults, Handler.readResult]
  | writeSome op count _ hopen => exact absurd (hopen.symm.trans hclosed) (by simp)
  | writeFail op error =>
      exact SameReads.readsOwed
        ⟨rfl, by simp [completeWrite, post, Handler.readResult], rfl, rfl⟩
  | run handler strand reaction => exact absurd rfl (hrun reaction)

/-- What does not run a handler. -/
def Event.Outside : Event → Prop
  | .run _ => False
  | _ => True

instance : (event : Event) → Decidable event.Outside
  | .run _ => isFalse id
  | .asyncWrite _ | .close | .arrive _ | .hangUp _ | .readSome _ | .readFail _
  | .writeSome _ | .writeFail _ => isTrue trivial

theorem Event.Outside.ne_run {event : Event} (houtside : event.Outside) (reaction : Reaction) :
    event ≠ .run reaction := by
  rintro rfl
  exact houtside

end Session

namespace Server

/-! ## What happens to a server with an arbitrary message handler -/

/-- An event of the server: a completed accept, anything that happens to a
connection outside its strand, a `close()` from the handler of another
connection, whose dispatch may run `do_close` at once, and a turn of a strand. -/
inductive Activity
  | accept
  | acceptError
  | session (handle : ℕ) (event : Session.Event)
  | closeNow (handle : ℕ)
  | run (handle : ℕ) (reaction : Reaction)

/-- A turn of a strand; the error handler calls `cleanup_sessions`. -/
def onHandler (server : Server) (handle : ℕ) (session : Session) (reaction : Reaction) :
    Option Server :=
  (session.step (.run reaction)).map fun next =>
    if next.errors = session.errors then server.setConnection handle next
    else (server.setConnection handle next).cleanupSessions

def activity (server : Server) : Activity → Option Server
  | .accept => some server.onAccept
  | .acceptError => some server
  | .session handle event =>
      (server.connections[handle]?).bind fun session =>
        if event.Outside then (session.step event).map (server.setConnection handle)
        else none
  | .closeNow handle =>
      (server.connections[handle]?).map fun session =>
        server.setConnection handle session.doClose
  | .run handle reaction =>
      (server.connections[handle]?).bind fun session =>
        server.onHandler handle session reaction

def activeConnections (server : Server) : ℕ :=
  server.sessions.length

/-- All an event can do to the server. -/
inductive Acted (server : Server) : Activity → Server → Prop
  | accept : Acted server .accept server.onAccept
  | acceptError : Acted server .acceptError server
  | session (handle : ℕ) (session next : Session) (event : Session.Event)
      (hget : server.connections[handle]? = some session) (houtside : event.Outside)
      (hstep : session.step event = some next) :
      Acted server (.session handle event) (server.setConnection handle next)
  | closeNow (handle : ℕ) (session : Session)
      (hget : server.connections[handle]? = some session) :
      Acted server (.closeNow handle) (server.setConnection handle session.doClose)
  | turn (handle : ℕ) (session next : Session) (reaction : Reaction)
      (hget : server.connections[handle]? = some session)
      (hstep : session.step (.run reaction) = some next)
      (herrors : next.errors = session.errors) :
      Acted server (.run handle reaction) (server.setConnection handle next)
  | report (handle : ℕ) (session next : Session) (reaction : Reaction)
      (hget : server.connections[handle]? = some session)
      (hstep : session.step (.run reaction) = some next)
      (herrors : next.errors ≠ session.errors) :
      Acted server (.run handle reaction) (server.setConnection handle next).cleanupSessions

theorem acted_of_activity {server next : Server} {activity : Activity}
    (hact : server.activity activity = some next) : Acted server activity next := by
  cases activity with
  | accept => exact Option.some.inj hact ▸ .accept
  | acceptError => exact Option.some.inj hact ▸ .acceptError
  | session handle event =>
      obtain ⟨session, hget, hsession⟩ := Option.bind_eq_some_iff.mp hact
      rw [Option.ite_none_right_eq_some] at hsession
      obtain ⟨houtside, hmap⟩ := hsession
      obtain ⟨moved, hmoved, rfl⟩ := Option.map_eq_some_iff.mp hmap
      exact .session handle session moved event hget houtside hmoved
  | closeNow handle =>
      obtain ⟨session, hget, rfl⟩ := Option.map_eq_some_iff.mp hact
      exact .closeNow handle session hget
  | run handle reaction =>
      obtain ⟨session, hget, hsession⟩ := Option.bind_eq_some_iff.mp hact
      obtain ⟨moved, hmoved, rfl⟩ := Option.map_eq_some_iff.mp hsession
      split
      case isTrue herrors => exact .turn handle session moved reaction hget hmoved herrors
      case isFalse herrors => exact .report handle session moved reaction hget hmoved herrors

/-- Whatever the serving stub does without being trapped is an activity of the
registry, which knows nothing of the services. -/
theorem activity_of_step {proto : Proto.Protobuf} {server next : Server} {event : Event}
    (hstep : step proto server event = some next) (hrunning : next.trapped = false) :
    ∃ activity after, server.activity activity = some after ∧
      next = { after with served := next.served } := by
  unfold step at hstep
  split at hstep
  case isTrue => exact absurd hstep (by simp)
  case isFalse =>
    cases event with
    | accept => exact ⟨.accept, next, hstep, rfl⟩
    | acceptError => exact ⟨.acceptError, next, hstep, rfl⟩
    | socket handle event =>
        obtain ⟨session, hget, hsession⟩ := Option.bind_eq_some_iff.mp hstep
        rw [Option.ite_none_right_eq_some] at hsession
        obtain ⟨hsocket, hmap⟩ := hsession
        have houtside : event.Outside := by
          cases event <;> trivial
        refine ⟨.session handle event, next,
          Option.bind_eq_some_iff.mpr ⟨session, hget, ?_⟩, rfl⟩
        rw [if_pos houtside, hmap]
    | run handle fault =>
        obtain ⟨session, hget, hsession⟩ := Option.bind_eq_some_iff.mp hstep
        unfold runConnection at hsession
        split at hsession
        case h_1 strand hstrand =>
          unfold onRequest at hsession
          split at hsession
          case h_1 answer hanswer =>
            obtain ⟨moved, hmoved, rfl⟩ := Option.map_eq_some_iff.mp hsession
            refine ⟨.run handle ⟨[.reply answer.reply], session.readBuffer⟩,
              server.setConnection handle moved,
              Option.bind_eq_some_iff.mpr ⟨session, hget, ?_⟩, rfl⟩
            have herrors : moved.errors = session.errors := by
              cases Session.stepped_of_step hmoved with
              | run handler rest _ hfront =>
                  obtain ⟨rfl, rfl⟩ := List.cons.inj (hstrand.symm.trans hfront)
                  rw [Session.runHandler, Session.onReadBody, Session.onMessage_eq]
                  rfl
            rw [onHandler, hmoved, Option.map_some, if_pos herrors]
          case h_2 =>
            obtain rfl := Option.some.inj hsession
            exact absurd hrunning (by simp)
        case h_2 =>
          exact ⟨.run handle Session.silent, next,
            Option.bind_eq_some_iff.mpr ⟨session, hget, hsession⟩, rfl⟩

/-- The registry takes no notice of what was served. -/
theorem activity_served (server : Server) (served : List (ℕ × ServerStub.Service))
    (event : Activity) :
    activity { server with served := served } event =
      (server.activity event).map fun next => { next with served := served } := by
  cases event with
  | accept | acceptError => rfl
  | session handle event =>
      simp only [activity]
      cases server.connections[handle]? with
      | none => rfl
      | some session =>
          simp only [Option.bind_some]
          split
          case isTrue =>
            rw [Option.map_map]
            rfl
          case isFalse => rfl
  | closeNow handle =>
      simp only [activity, Option.map_map]
      rfl
  | run handle reaction =>
      simp only [activity]
      cases server.connections[handle]? with
      | none => rfl
      | some session =>
          simp only [Option.bind_some, onHandler, Option.map_map]
          congr 1
          funext moved
          simp only [Function.comp]
          split <;> rfl

/-- A reachable registry, up to what was served. -/
def Registered (server : Server) : Prop :=
  ∃ registry, Transition.Reachable activity start registry ∧
    server = { registry with served := server.served }

theorem registered_step {proto : Proto.Protobuf} {server next : Server} {event : Event}
    (hserver : server.Registered) (hstep : step proto server event = some next)
    (hrunning : next.trapped = false) : next.Registered := by
  obtain ⟨registry, ⟨activities, hrun⟩, hsame⟩ := hserver
  obtain ⟨activity, after, hact, hnext⟩ := activity_of_step hstep hrunning
  rw [hsame, activity_served] at hact
  obtain ⟨moved, hmoved, rfl⟩ := Option.map_eq_some_iff.mp hact
  refine ⟨moved, ⟨activities ++ [activity], ?_⟩, hnext⟩
  exact Transition.run_append.mpr ⟨registry, hrun, by simp [Transition.run, hmoved]⟩

/-- A run of the serving stub that is not trapped is a run of the registry. -/
theorem registered_of_run {proto : Proto.Protobuf} {server : Server} {events : List Event}
    (hrun : Transition.run (step proto) start events = some server)
    (hrunning : server.trapped = false) : server.Registered := by
  have hstart : start.trapped = false → start.Registered := fun _ => ⟨start, ⟨[], rfl⟩, rfl⟩
  have hkept : ∀ (server : Server) (event : Event) (next : Server),
      (server.trapped = false → server.Registered) → step proto server event = some next →
      next.trapped = false → next.Registered := fun _ _ _ hserver hstep =>
    registered_step (hserver (stepped_of_step hstep).1) hstep
  have hregistered : server.trapped = false → server.Registered :=
    Transition.run_invariant hkept hstart hrun
  exact hregistered hrunning

/-! ## The invariant -/

section Connections

variable {server : Server} {handle other : ℕ} {session next : Session}

theorem connection_setConnection (hget : server.connections[handle]? = some session) :
    (server.setConnection handle next).connections[other]? =
      if other = handle then some next else server.connections[other]? := by
  have hlt : handle < server.connections.length := (List.getElem?_eq_some_iff.mp hget).1
  by_cases hsame : other = handle
  · subst hsame
    simp [setConnection, hlt]
  · have hne : handle ≠ other := fun h => hsame h.symm
    simp [setConnection, hsame, List.getElem?_set_ne hne]

theorem isOpen_eq_true_iff :
    server.isOpen handle = true ↔
      ∃ session, server.connections[handle]? = some session ∧ session.isOpen = true := by
  unfold isOpen
  cases server.connections[handle]? <;> simp

end Connections

/-- Handles in the registry belong to connections, no two are the same, and all
open connections are there. -/
structure Tracks (server : Server) : Prop where
  reads : ∀ session ∈ server.connections, session.ReadInv
  nodup : server.sessions.Nodup
  bounded : ∀ handle ∈ server.sessions, handle < server.connections.length
  complete : ∀ handle, server.isOpen handle = true → handle ∈ server.sessions

/-- Every connection in the registry still has a read to come. -/
def AwaitsReads (server : Server) : Prop :=
  ∀ handle ∈ server.sessions, ∀ session,
    server.connections[handle]? = some session → session.pendingReads ≠ 0

def RegistryInv (server : Server) : Prop :=
  server.Tracks ∧ server.AwaitsReads

theorem registryInv_start : RegistryInv start := by
  refine ⟨⟨?_, List.nodup_nil, ?_, ?_⟩, ?_⟩
  · simp [start]
  · simp [start]
  · simp [start, isOpen]
  · simp [AwaitsReads, start]

theorem Tracks.setConnection {server : Server} {handle : ℕ} {session next : Session}
    (htracks : server.Tracks) (hget : server.connections[handle]? = some session)
    (hreads : next.ReadInv) (hopen : session.isOpen = false → next.isOpen = false) :
    (server.setConnection handle next).Tracks := by
  refine ⟨?_, htracks.nodup, ?_, ?_⟩
  · intro other hmem
    rcases List.mem_or_eq_of_mem_set hmem with hold | rfl
    · exact htracks.reads other hold
    · exact hreads
  · intro other hmem
    simpa [Server.setConnection] using htracks.bounded other hmem
  · intro other hisOpen
    apply htracks.complete
    obtain ⟨found, hfound, hfoundOpen⟩ := isOpen_eq_true_iff.mp hisOpen
    rw [connection_setConnection hget] at hfound
    rw [isOpen_eq_true_iff]
    split at hfound
    case isTrue hsame =>
      obtain rfl := Option.some.inj hfound
      refine ⟨session, hsame ▸ hget, ?_⟩
      rw [← Bool.not_eq_false]
      intro hclosed
      exact absurd (hopen hclosed) (by simp [hfoundOpen])
    case isFalse => exact ⟨found, hfound, hfoundOpen⟩

theorem AwaitsReads.setConnection {server : Server} {handle : ℕ} {session next : Session}
    (hawaits : server.AwaitsReads) (hget : server.connections[handle]? = some session)
    (hpending : session.pendingReads ≠ 0 → next.pendingReads ≠ 0) :
    (server.setConnection handle next).AwaitsReads := by
  intro other hmem found hfound
  rw [connection_setConnection hget] at hfound
  split at hfound
  case isTrue hsame =>
    obtain rfl := Option.some.inj hfound
    exact hpending (hawaits handle (hsame ▸ hmem) session hget)
  case isFalse => exact hawaits other hmem found hfound

/-- The cleanup leaves the open connections in the registry. -/
theorem registryInv_cleanupSessions {server : Server} (htracks : server.Tracks) :
    server.cleanupSessions.RegistryInv := by
  refine ⟨⟨htracks.reads, htracks.nodup.filter _, ?_, ?_⟩, ?_⟩
  · intro handle hmem
    exact htracks.bounded handle (List.mem_of_mem_filter hmem)
  · intro handle hisOpen
    exact List.mem_filter.mpr ⟨htracks.complete handle hisOpen, hisOpen⟩
  · intro handle hmem session hget hpending
    obtain ⟨found, hfound, hisOpen⟩ := isOpen_eq_true_iff.mp (List.mem_filter.mp hmem).2
    obtain rfl := Option.some.inj (hget.symm.trans hfound)
    have hclosed := (htracks.reads session (List.mem_of_getElem? hget)).isOpen_eq_false hpending
    exact absurd hisOpen (by simp [hclosed])

theorem registryInv_onAccept {server : Server} (hinv : server.RegistryInv) :
    server.onAccept.RegistryInv := by
  obtain ⟨htracks, hawaits⟩ := hinv
  have hnew : server.connections.length ∉ server.sessions :=
    fun hmem => absurd (htracks.bounded _ hmem) (lt_irrefl _)
  refine ⟨⟨?_, ?_, ?_, ?_⟩, ?_⟩
  · intro session hmem
    rcases List.mem_append.mp hmem with hold | hstart
    · exact htracks.reads session hold
    · exact List.mem_singleton.mp hstart ▸ Session.readInv_start
  · exact List.nodup_append.mpr ⟨htracks.nodup, List.nodup_singleton _, by
      rintro handle hmem other hother rfl
      exact hnew (List.mem_singleton.mp hother ▸ hmem)⟩
  · intro handle hmem
    simp only [onAccept, List.length_append, List.length_singleton]
    rcases List.mem_append.mp hmem with hold | hlast
    · exact Nat.lt_succ_of_lt (htracks.bounded handle hold)
    · exact List.mem_singleton.mp hlast ▸ Nat.lt_succ_self _
  · intro handle hisOpen
    obtain ⟨session, hget, hopen⟩ := isOpen_eq_true_iff.mp hisOpen
    by_cases hlt : handle < server.connections.length
    · rw [onAccept, List.getElem?_append_left hlt] at hget
      exact List.mem_append_left _ (htracks.complete handle
        (isOpen_eq_true_iff.mpr ⟨session, hget, hopen⟩))
    · have hlast : handle < server.connections.length + 1 := by
        simpa [onAccept] using (List.getElem?_eq_some_iff.mp hget).1
      obtain rfl : handle = server.connections.length := by omega
      exact List.mem_append_right _ (List.mem_singleton.mpr rfl)
  · intro handle hmem session hget
    rcases List.mem_append.mp hmem with hold | hlast
    · rw [onAccept, List.getElem?_append_left (htracks.bounded handle hold)] at hget
      exact hawaits handle hold session hget
    · obtain rfl := List.mem_singleton.mp hlast
      rw [onAccept, List.getElem?_concat_length, Option.some.injEq] at hget
      subst hget
      decide

/-- A turn that reports no error leaves a read to come. -/
theorem pendingReads_run_ne_zero {session next : Session} {reaction : Reaction}
    (hinv : session.ReadInv)
    (hstep : session.step (.run reaction) = some next) (herrors : next.errors = session.errors)
    (hpending : session.pendingReads ≠ 0) : next.pendingReads ≠ 0 := by
  cases Session.readTurn_of_run hinv hstep with
  | other _ hsame => rwa [hsame.pendingReads]
  | again op _ hreading => simp [Session.pendingReads, hreading]
  | reported error hreported =>
      rw [herrors] at hreported
      exact absurd hreported (by simp)

theorem registryInv_activity {server next : Server} {activity : Activity}
    (hinv : server.RegistryInv) (hact : server.activity activity = some next) :
    next.RegistryInv := by
  have hreads : ∀ {handle : ℕ} {session : Session},
      server.connections[handle]? = some session → session.ReadInv :=
    fun hget => hinv.1.reads _ (List.mem_of_getElem? hget)
  cases acted_of_activity hact with
  | accept => exact registryInv_onAccept hinv
  | acceptError => exact hinv
  | session handle session next event hget houtside hstep =>
      have hnext := Session.readInv_step (hreads hget) hstep
      refine ⟨hinv.1.setConnection hget hnext (Session.closed_step hstep),
        hinv.2.setConnection hget ?_⟩
      exact Session.pendingReads_step_ne_zero hstep houtside.ne_run
  | closeNow handle session hget =>
      exact ⟨hinv.1.setConnection hget (Session.readInv_doClose (hreads hget)) fun _ => rfl,
        hinv.2.setConnection hget id⟩
  | turn handle session next reaction hget hstep herrors =>
      have hnext := Session.readInv_step (hreads hget) hstep
      refine ⟨hinv.1.setConnection hget hnext (Session.closed_step hstep),
        hinv.2.setConnection hget ?_⟩
      exact pendingReads_run_ne_zero (hreads hget) hstep herrors
  | report handle session next reaction hget hstep herrors =>
      have hnext := Session.readInv_step (hreads hget) hstep
      apply registryInv_cleanupSessions
      exact hinv.1.setConnection hget hnext (Session.closed_step hstep)

theorem registryInv_of_reachable {server : Server}
    (hreach : Transition.Reachable activity start server) : server.RegistryInv :=
  Transition.reachable_invariant (fun _ _ _ hinv hact => registryInv_activity hinv hact)
    registryInv_start hreach

/-! ## A closed connection leaves the registry -/

/-- The event is a turn that runs a read completion of the connection. -/
def handlesRead (server : Server) (handle : ℕ) : Activity → Bool
  | .run target _ =>
      match server.connections[target]? with
      | some session => target == handle && session.atRead
      | none => false
  | _ => false

/-- How many read completions of the connection a run handles. -/
def readTurns (handle : ℕ) : Server → List Activity → ℕ
  | _, [] => 0
  | server, activity :: activities =>
      (server.handlesRead handle activity).toNat +
        match server.activity activity with
        | some next => readTurns handle next activities
        | none => 0

theorem readTurns_cons {server next : Server} {activity : Activity} {handle : ℕ}
    {activities : List Activity} (hact : server.activity activity = some next) :
    readTurns handle server (activity :: activities) =
      (server.handlesRead handle activity).toNat + readTurns handle next activities := by
  simp only [readTurns, hact]

/-- What an event means for one connection: nothing, a `do_close` dispatched to
it, something outside its strand, or a turn, whose error report cleans the
registry. -/
inductive Moved (server next : Server) (handle : ℕ) (activity : Activity) (found : Session) :
    Session → Prop
  | same (hturn : server.handlesRead handle activity = false) :
      Moved server next handle activity found found
  | closed (hturn : server.handlesRead handle activity = false) :
      Moved server next handle activity found found.doClose
  | outside (event : Session.Event) (after : Session)
      (hturn : server.handlesRead handle activity = false) (houtside : event.Outside)
      (hstep : found.step event = some after) : Moved server next handle activity found after
  | turn (reaction : Reaction) (after : Session)
      (hturn : server.handlesRead handle activity = found.atRead)
      (hstep : found.step (.run reaction) = some after)
      (hremoved : after.errors ≠ found.errors → after.isOpen = false →
        handle ∉ next.sessions) :
      Moved server next handle activity found after

theorem moved_activity {server next : Server} {activity : Activity} {handle : ℕ}
    {found : Session} (hget : server.connections[handle]? = some found)
    (hact : server.activity activity = some next) :
    ∃ after, next.connections[handle]? = some after ∧
      Moved server next handle activity found after := by
  have hlt : handle < server.connections.length := (List.getElem?_eq_some_iff.mp hget).1
  cases acted_of_activity hact with
  | accept => exact ⟨found, by rwa [onAccept, List.getElem?_append_left hlt], .same rfl⟩
  | acceptError => exact ⟨found, hget, .same rfl⟩
  | session target session moved event htarget houtside hstep =>
      rw [connection_setConnection htarget]
      split
      case isTrue hsame =>
        obtain rfl := Option.some.inj (hget.symm.trans (hsame ▸ htarget))
        exact ⟨moved, rfl, .outside event moved rfl houtside hstep⟩
      case isFalse => exact ⟨found, hget, .same rfl⟩
  | closeNow target session htarget =>
      rw [connection_setConnection htarget]
      split
      case isTrue hsame =>
        obtain rfl := Option.some.inj (hget.symm.trans (hsame ▸ htarget))
        exact ⟨_, rfl, .closed rfl⟩
      case isFalse => exact ⟨found, hget, .same rfl⟩
  | turn target session moved reaction htarget hstep herrors =>
      rw [connection_setConnection htarget]
      split
      case isTrue hsame =>
        obtain rfl := Option.some.inj (hget.symm.trans (hsame ▸ htarget))
        refine ⟨moved, rfl, .turn reaction moved ?_ hstep fun h => absurd herrors h⟩
        simp [handlesRead, htarget, hsame]
      case isFalse hother =>
        refine ⟨found, hget, .same ?_⟩
        simp [handlesRead, htarget, beq_eq_false_iff_ne.mpr (Ne.symm hother)]
  | report target session moved reaction htarget hstep herrors =>
      rw [cleanupSessions, connection_setConnection htarget]
      split
      case isTrue hsame =>
        obtain rfl := Option.some.inj (hget.symm.trans (hsame ▸ htarget))
        refine ⟨moved, rfl, .turn reaction moved ?_ hstep fun _ hclosed hmem => ?_⟩
        · simp [handlesRead, htarget, hsame]
        · obtain ⟨other, hother, hopen⟩ := isOpen_eq_true_iff.mp (List.mem_filter.mp hmem).2
          rw [connection_setConnection htarget, if_pos hsame, Option.some.injEq] at hother
          exact absurd hopen (by simp [← hother, hclosed])
      case isFalse hother =>
        refine ⟨found, hget, .same ?_⟩
        simp [handlesRead, htarget, beq_eq_false_iff_ne.mpr (Ne.symm hother)]

/-- A handle that is not in the registry does not come back. -/
theorem not_mem_sessions_activity {server next : Server} {activity : Activity} {handle : ℕ}
    (hlt : handle < server.connections.length) (hremoved : handle ∉ server.sessions)
    (hact : server.activity activity = some next) : handle ∉ next.sessions := by
  cases acted_of_activity hact with
  | accept =>
      intro hmem
      rcases List.mem_append.mp hmem with hold | hlast
      · exact hremoved hold
      · exact absurd (List.mem_singleton.mp hlast) (Nat.ne_of_lt hlt)
  | acceptError | session | closeNow | turn => exact hremoved
  | report => exact fun hmem => hremoved (List.mem_of_mem_filter hmem)

/-- A connection whose socket is closed, with a read to come and no error
reported since `session`. -/
structure Lingers (session : Session) (server : Server) (handle : ℕ) (found : Session) :
    Prop where
  get : server.connections[handle]? = some found
  closed : found.isOpen = false
  errors : found.errors = session.errors
  pending : found.pendingReads ≠ 0

/-- A closed connection that reported an error since `session`, and is not in
the registry. -/
structure Left (session : Session) (server : Server) (handle : ℕ) (found : Session) : Prop where
  get : server.connections[handle]? = some found
  closed : found.isOpen = false
  reported : session.errors.length < found.errors.length
  removed : handle ∉ server.sessions

theorem lingers_activity {session found : Session} {server next : Server} {handle : ℕ}
    {activity : Activity} (hinv : found.ReadInv) (hlingers : Lingers session server handle found)
    (hact : server.activity activity = some next) :
    ∃ after, (Lingers session next handle after ∧
      (server.handlesRead handle activity).toNat + after.readsOwed ≤ found.readsOwed) ∨
        Left session next handle after := by
  obtain ⟨hget, hclosed, herrors, hpending⟩ := hlingers
  obtain ⟨after, hafter, hmoved⟩ := moved_activity hget hact
  refine ⟨after, ?_⟩
  cases hmoved with
  | same hturn => exact .inl ⟨⟨hafter, hclosed, herrors, hpending⟩, by simp [hturn]⟩
  | closed hturn =>
      refine .inl ⟨⟨hafter, rfl, herrors, hpending⟩, ?_⟩
      rw [hturn, Bool.toNat_false, Nat.zero_add]
      exact le_of_eq (Session.SameReads.readsOwed ⟨rfl, rfl, rfl, rfl⟩)
  | outside event _ hturn houtside hstep =>
      refine .inl ⟨⟨hafter, Session.closed_step hstep hclosed, ?_, ?_⟩, ?_⟩
      · rw [Session.errors_step hstep houtside.ne_run, herrors]
      · exact Session.pendingReads_step_ne_zero hstep houtside.ne_run hpending
      · rw [hturn, Session.readsOwed_step hinv hclosed hstep houtside.ne_run]
        simp
  | turn reaction _ hturn hstep hremoved =>
      have hafterClosed := Session.closed_step hstep hclosed
      rw [hturn]
      cases Session.readTurn_of_run hinv hstep with
      | other hother hsame =>
          refine .inl ⟨⟨hafter, hafterClosed, hsame.errors.trans herrors, ?_⟩, ?_⟩
          · rwa [hsame.pendingReads]
          · simp [hother, hsame.readsOwed]
      | again op howed hreading hkept =>
          refine .inl ⟨⟨hafter, hafterClosed, hkept.trans herrors, ?_⟩, ?_⟩
          · simp [Session.pendingReads, hreading]
          · have hturns := Bool.toNat_le found.atRead
            have hnext := Session.readsOwed_of_reading hreading
            omega
      | reported error hreported =>
          refine .inr ⟨hafter, hafterClosed, ?_, hremoved ?_ hafterClosed⟩
          · simp [hreported, herrors]
          · simp [hreported]

/-- Errors stay reported, the socket stays closed and the handle stays out. -/
theorem left_activity {session found : Session} {server next : Server} {handle : ℕ}
    {activity : Activity} (hinv : found.ReadInv) (hleft : Left session server handle found)
    (hact : server.activity activity = some next) :
    ∃ after, Left session next handle after := by
  obtain ⟨hget, hclosed, hreported, hremoved⟩ := hleft
  have hlt : handle < server.connections.length := (List.getElem?_eq_some_iff.mp hget).1
  have hout := not_mem_sessions_activity hlt hremoved hact
  obtain ⟨after, hafter, hmoved⟩ := moved_activity hget hact
  refine ⟨after, ?_⟩
  cases hmoved with
  | same => exact ⟨hafter, hclosed, hreported, hout⟩
  | closed => exact ⟨hafter, rfl, hreported, hout⟩
  | outside event _ _ houtside hstep =>
      refine ⟨hafter, Session.closed_step hstep hclosed, ?_, hout⟩
      rwa [Session.errors_step hstep houtside.ne_run]
  | turn reaction _ _ hstep =>
      refine ⟨hafter, Session.closed_step hstep hclosed, ?_, hout⟩
      cases Session.readTurn_of_run hinv hstep with
      | other _ hsame => rwa [hsame.errors]
      | again op _ _ hkept => rwa [hkept]
      | reported error herrors =>
          rw [herrors, List.length_append]
          exact Nat.lt_add_right _ hreported

theorem left_run {session found : Session} {server final : Server} {handle : ℕ}
    {activities : List Activity} (hinv : server.RegistryInv)
    (hleft : Left session server handle found)
    (hrun : Transition.run activity server activities = some final) :
    ∃ after, Left session final handle after := by
  induction activities generalizing server found with
  | nil =>
      obtain rfl := Option.some.inj hrun
      exact ⟨found, hleft⟩
  | cons first rest ih =>
      obtain ⟨next, hact, hrest⟩ := Transition.run_cons.mp hrun
      have hreads := hinv.1.reads found (List.mem_of_getElem? hleft.get)
      obtain ⟨after, hafter⟩ := left_activity hreads hleft hact
      exact ih (registryInv_activity hinv hact) hafter hrest

/-- A closed connection with a read to come reports an error, and is then out
of the registry, at the latest when it has handled the reads it owes. -/
theorem left_of_readTurns {session found : Session} {server final : Server} {handle : ℕ}
    {activities : List Activity} (hinv : server.RegistryInv)
    (hlingers : Lingers session server handle found)
    (hturns : found.readsOwed ≤ readTurns handle server activities)
    (hrun : Transition.run activity server activities = some final) :
    ∃ after, Left session final handle after := by
  induction activities generalizing server found with
  | nil =>
      have hpos := Session.readsOwed_pos hlingers.pending
      simp only [readTurns] at hturns
      omega
  | cons first rest ih =>
      obtain ⟨next, hact, hrest⟩ := Transition.run_cons.mp hrun
      have hreads := hinv.1.reads found (List.mem_of_getElem? hlingers.get)
      have hnext := registryInv_activity hinv hact
      rw [readTurns_cons hact] at hturns
      obtain ⟨after, ⟨hafter, howed⟩ | hafter⟩ := lingers_activity hreads hlingers hact
      · exact ih hnext hafter (by omega) hrest
      · exact left_run hnext hafter hrest

/-! ## The registry and the open connections -/

theorem map_isOpen_range (server : Server) :
    (List.range server.connections.length).map server.isOpen =
      server.connections.map Session.isOpen := by
  apply List.ext_getElem
  · simp
  · intro handle _ hlt
    rw [List.length_map] at hlt
    simp [isOpen, List.getElem?_eq_getElem hlt]

/-- A registry without closed connections lists the open ones. -/
theorem Tracks.activeConnections_eq {server : Server} (htracks : server.Tracks)
    (hopen : ∀ handle ∈ server.sessions, server.isOpen handle = true) :
    server.activeConnections = server.connections.countP Session.isOpen := by
  have hperm : server.sessions.Perm
      ((List.range server.connections.length).filter server.isOpen) := by
    rw [List.perm_ext_iff_of_nodup htracks.nodup (List.nodup_range.filter _)]
    intro handle
    rw [List.mem_filter, List.mem_range]
    exact ⟨fun hmem => ⟨htracks.bounded handle hmem, hopen handle hmem⟩,
      fun hmem => htracks.complete handle hmem.2⟩
  have hcount : server.connections.countP Session.isOpen =
      (server.connections.map Session.isOpen).countP id := by
    rw [List.countP_map]
    rfl
  rw [activeConnections, hperm.length_eq, ← List.countP_eq_length_filter, hcount,
    ← map_isOpen_range, List.countP_map]
  rfl

/-- A read of a closed connection can fail at any time, and a connection with
handlers in its strand can take its turn whatever the message handler does. -/
def CanProceed (server : Server) (handle : ℕ) (session : Session) : Prop :=
  (session.reading ≠ none → ∀ error,
      (server.activity (.session handle (.readFail error))).isSome) ∧
    (Session.readResults session.strand ≠ [] → ∀ reaction,
      (server.activity (.run handle reaction)).isSome)

/-- Whatever happens next, once the connection has handled the read completions
it owes it has reported an error and is out of the registry. -/
def LeavesRegistry (server : Server) (handle : ℕ) (session : Session) : Prop :=
  ∀ activities final, Transition.run activity server activities = some final →
    session.readsOwed ≤ readTurns handle server activities →
      (∃ after, final.connections[handle]? = some after ∧
        session.errors.length < after.errors.length) ∧ handle ∉ final.sessions

theorem canProceed {server : Server} {handle : ℕ} {session : Session}
    (hget : server.connections[handle]? = some session) (hclosed : session.isOpen = false) :
    server.CanProceed handle session := by
  constructor
  · intro hreading error
    obtain ⟨op, hop⟩ := Option.ne_none_iff_exists'.mp hreading
    have houtside : (Session.Event.readFail error).Outside := trivial
    simp [activity, hget, houtside, Session.step, Session.readFailStep, hop,
      Session.readFails, hclosed]
  · intro hresults reaction
    cases hstrand : session.strand with
    | nil => simp [hstrand] at hresults
    | cons handler strand =>
        simp [activity, hget, onHandler, Session.step, Session.runStep, hstrand]

/-- In every reachable state `sessions_` holds each open connection once; a
closed one that it holds has exactly one read to come, and the handling of at
most two read completions takes it out; so when none is to come for closed
connections, `active_connections` counts the open ones. -/
theorem sessions_neither_leak_nor_drop {server : Server}
    (hreach : Transition.Reachable activity start server) :
    (∀ (handle : ℕ) (session : Session), server.connections[handle]? = some session →
      session.isOpen = true → server.sessions.count handle = 1) ∧
    (∀ (handle : ℕ) (session : Session), handle ∈ server.sessions →
      server.connections[handle]? = some session → session.isOpen = false →
        session.pendingReads = 1 ∧ server.CanProceed handle session ∧
          session.readsOwed ≤ 2 ∧ server.LeavesRegistry handle session) ∧
    ((∀ (handle : ℕ) (session : Session), server.connections[handle]? = some session →
      session.isOpen = false → session.pendingReads = 0) →
        server.activeConnections = server.connections.countP Session.isOpen) := by
  have hinv := registryInv_of_reachable hreach
  obtain ⟨htracks, hawaits⟩ := hinv
  refine ⟨?_, ?_, ?_⟩
  · intro handle session hget hopen
    apply List.count_eq_one_of_mem htracks.nodup
    exact htracks.complete handle (isOpen_eq_true_iff.mpr ⟨session, hget, hopen⟩)
  · intro handle session hmem hget hclosed
    have hpending := hawaits handle hmem session hget
    have hreads := htracks.reads session (List.mem_of_getElem? hget)
    have hle := hreads.pendingReads_le_one
    refine ⟨by omega, canProceed hget hclosed, session.readsOwed_le_two, ?_⟩
    intro activities final hrun hturns
    have hlingers : Lingers session server handle session := ⟨hget, hclosed, rfl, hpending⟩
    obtain ⟨after, hleft⟩ := left_of_readTurns ⟨htracks, hawaits⟩ hlingers hturns hrun
    exact ⟨⟨after, hleft.get, hleft.reported⟩, hleft.removed⟩
  · intro hsettled
    apply htracks.activeConnections_eq
    intro handle hmem
    have hlt := htracks.bounded handle hmem
    have hget : server.connections[handle]? = some server.connections[handle] :=
      List.getElem?_eq_getElem hlt
    refine isOpen_eq_true_iff.mpr ⟨_, hget, ?_⟩
    rw [← Bool.not_eq_false]
    intro hclosed
    exact hawaits handle hmem _ hget (hsettled handle _ hget hclosed)

/-- A server that closed one of its two connections from another thread. -/
def closedServer : Server :=
  ⟨[Session.start, Session.start.doClose], [0, 1], [], false⟩

/-- The read of the closed connection fails, and its strand takes the turn. -/
def leaveActivities : List Activity :=
  [.session 1 (.readFail (.system 0)), .run 1 Session.silent]

/-- The closed connection lingers and leaves after its one turn; the open one stays
registered throughout, and then is the only one that counts. -/
theorem closedServer_sessions :
    closedServer.sessions.count 0 = 1 ∧ Session.start.doClose.pendingReads = 1 ∧
      closedServer.LeavesRegistry 1 Session.start.doClose ∧
      ∃ server, Transition.run activity closedServer leaveActivities = some server ∧
        server.sessions = [0] ∧
          server.activeConnections = server.connections.countP Session.isOpen := by
  have hreach : Transition.Reachable activity start closedServer :=
    ⟨[.accept, .accept, .session 1 .close, .run 1 Session.silent], rfl⟩
  obtain ⟨hopen, hclosed, -⟩ := sessions_neither_leak_nor_drop hreach
  have hkept := hclosed 1 _ (by decide) rfl rfl
  refine ⟨hopen 0 _ rfl rfl, hkept.1, hkept.2.2.2, _, rfl, rfl, ?_⟩
  refine (sessions_neither_leak_nor_drop ⟨[.accept, .accept, .session 1 .close,
    .run 1 Session.silent] ++ leaveActivities, rfl⟩).2.2 ?_
  intro handle session hget hisClosed
  match handle with
  | 0 =>
      obtain rfl := Option.some.inj hget
      exact absurd hisClosed (by decide)
  | 1 =>
      obtain rfl := Option.some.inj hget
      rfl
  | _ + 2 =>
      have hnone : none = some session := hget
      exact absurd hnone (by simp)

end Server

end RpcDemo
