import Mathlib.Algebra.Order.BigOperators.Group.List
import RpcDemo.Detail.ReadLoop

/-!
# Connecting a client again

The client keeps one `io_context` for all its sessions.  `stop()` leaves it
stopped, and so does a `run()` that finds or uses up all work; a `run()` on a
stopped context returns at once.  Handlers run only inside a `run()`.  The work
of the context is what its sessions have outstanding: their reads, their writes
and the handlers waiting in their strands.
-/

namespace RpcDemo

open RpcDemo.Frame

namespace Session

/-- The operations and handlers that keep an `io_context` in `run()`. -/
def work (session : Session) : ℕ :=
  session.reading.toList.length + session.writing.toList.length + session.strand.length

/-- What the peer does to a connection. -/
def Event.OfPeer : Event → Prop
  | .arrive _ | .hangUp _ => True
  | _ => False

instance : (event : Event) → Decidable event.OfPeer
  | .arrive _ | .hangUp _ => isTrue trivial
  | .asyncWrite _ | .close | .readSome _ | .readFail _ | .writeSome _ | .writeFail _
  | .run _ => isFalse id

/-- What happens inside `run()`: progress of operations, and handlers. -/
def Event.OfRun : Event → Prop
  | .readSome _ | .readFail _ | .writeSome _ | .writeFail _ | .run _ => True
  | _ => False

instance : (event : Event) → Decidable event.OfRun
  | .readSome _ | .readFail _ | .writeSome _ | .writeFail _ | .run _ => isTrue trivial
  | .asyncWrite _ | .close | .arrive _ | .hangUp _ => isFalse id

theorem ReadInv.work_pos {session : Session} (hinv : session.ReadInv)
    (hopen : session.isOpen = true) : 0 < session.work := by
  obtain ⟨part, _, hphase⟩ := hinv.phase
  have hqueued : ∀ result, readResults session.strand = [result] → 0 < session.strand.length := by
    intro result hresult
    rw [List.length_pos_iff]
    rintro hnil
    simp [hnil] at hresult
  cases hphase with
  | header filled hreading | body filled hreading =>
      have hread : session.reading.toList.length = 1 := by simp [hreading]
      unfold work
      omega
  | headerReady _ hresults | bodyReady _ hresults | failed _ _ _ hresults =>
      exact Nat.add_pos_right _ (hqueued _ hresults)
  | stopped _ _ hclosed => exact absurd (hopen.symm.trans hclosed) (by simp)

end Session

/-- A thread that calls `io_context_.run()`: about to, inside it, and done. -/
inductive Runner
  | launched
  | running
  | returned
  deriving DecidableEq

/-- `connected` records that the latest `connect` returned true and that neither
`disconnect` nor `stop` was called since. -/
structure TcpClient where
  stopped : Bool
  runners : List Runner
  sessions : List Session
  session : Option ℕ
  connected : Bool
  deriving DecidableEq

namespace TcpClient

def start : TcpClient := ⟨false, [], [], none, false⟩

inductive Event
  | connect (succeeds : Bool)
  | disconnect
  | stop
  | run
  | asyncSend (data : Payload)
  | enter (runner : ℕ)
  | leave (runner : ℕ)
  | session (handle : ℕ) (event : Session.Event)
  deriving DecidableEq

def work (client : TcpClient) : ℕ :=
  (client.sessions.map Session.work).sum

def connect (client : TcpClient) : Bool → TcpClient
  | true =>
      { client with
        sessions := client.sessions ++ [Session.start]
        session := some client.sessions.length
        runners := client.runners ++ [.launched]
        connected := true }
  | false => { client with connected := false }

def stop (client : TcpClient) : TcpClient :=
  { client with stopped := true, connected := false }

def closeSession (client : TcpClient) : TcpClient :=
  match client.session with
  | none => client
  | some handle =>
      { client with sessions := client.sessions.modify handle Session.close, session := none }

def disconnect (client : TcpClient) : TcpClient :=
  client.closeSession.stop

def asyncSend (client : TcpClient) (data : Payload) : TcpClient :=
  match client.session with
  | none => client
  | some handle =>
      { client with sessions := client.sessions.modify handle fun session =>
          if session.isOpen then session.asyncWrite data else session }

/-- A thread calls `io_context_.run()`. -/
def enter (client : TcpClient) (runner : ℕ) : TcpClient :=
  if client.stopped = true ∨ client.work = 0 then
    { client with stopped := true, runners := client.runners.set runner .returned }
  else
    { client with runners := client.runners.set runner .running }

def serving (client : TcpClient) : Prop :=
  client.stopped = false ∧ .running ∈ client.runners

instance (client : TcpClient) : Decidable client.serving :=
  inferInstanceAs (Decidable (_ ∧ _))

/-- With the last piece of work done `run()` stops the context. -/
def outOfWork (client : TcpClient) : TcpClient :=
  { client with stopped := client.stopped || client.work == 0 }

def onSession (client : TcpClient) (handle : ℕ) (event : Session.Event) : Option TcpClient :=
  if event.OfPeer ∨ (event.OfRun ∧ client.serving) then
    client.sessions[handle]?.bind fun session =>
      (session.step event).map fun next =>
        if event.OfRun then
          outOfWork { client with sessions := client.sessions.set handle next }
        else { client with sessions := client.sessions.set handle next }
  else none

def step (client : TcpClient) : Event → Option TcpClient
  | .connect succeeds => some (client.connect succeeds)
  | .disconnect => some client.disconnect
  | .stop => some client.stop
  | .run => some { client with runners := client.runners ++ [.launched] }
  | .asyncSend data => some (client.asyncSend data)
  | .enter runner =>
      if client.runners[runner]? = some .launched then some (client.enter runner) else none
  | .leave runner =>
      if client.runners[runner]? = some .running ∧ client.stopped = true then
        some { client with runners := client.runners.set runner .returned }
      else none
  | .session handle event => client.onSession handle event

/-! ## Connections are served -/

/-- A thread runs the context, or is about to, and the context is not stopped. -/
def Served (client : TcpClient) : Prop :=
  client.stopped = false ∧ ∃ runner ∈ client.runners, runner ≠ .returned

instance (client : TcpClient) : Decidable client.Served :=
  inferInstanceAs (Decidable (_ ∧ _))

/-- The session of the latest `connect`, if it succeeded and neither
`disconnect` nor `stop` came after it. -/
def connection (client : TcpClient) : Option Session :=
  if client.connected then client.session.bind fun handle => client.sessions[handle]? else none

/-- Connected, and the socket has not been lost. -/
def IsConnected (client : TcpClient) : Prop :=
  ∃ session ∈ client.connection, session.isOpen = true

/-- `connect` is called on a context that is not stopped. -/
def ConnectsUnstopped (client : TcpClient) : Event → Prop
  | .connect _ => client.stopped = false
  | _ => True

instance (client : TcpClient) : (event : Event) → Decidable (client.ConnectsUnstopped event)
  | .connect _ => inferInstanceAs (Decidable (_ = _))
  | .disconnect | .stop | .run | .asyncSend _ | .enter _ | .leave _ | .session _ _ =>
      isTrue trivial

structure Inv (client : TcpClient) : Prop where
  reads : ∀ session ∈ client.sessions, session.ReadInv
  served : client.IsConnected → client.Served

theorem inv_start : Inv start where
  reads := by simp [start]
  served := by simp [start, IsConnected, connection]

/-- Steps that open no socket make no connection. -/
theorem IsConnected.of_sessions {client next : TcpClient} (hnext : next.IsConnected)
    (hconnected : next.connected = client.connected) (hsession : next.session = client.session)
    (hopen : ∀ (handle : ℕ) (after : Session), next.sessions[handle]? = some after →
      after.isOpen = true →
        ∃ before ∈ client.sessions[handle]?, before.isOpen = true) : client.IsConnected := by
  obtain ⟨after, hafter, hafterOpen⟩ := hnext
  simp only [connection, hconnected, hsession, Option.mem_def, Option.ite_none_right_eq_some,
    Option.bind_eq_some_iff] at hafter
  obtain ⟨hwas, handle, hhandle, hget⟩ := hafter
  obtain ⟨before, hbefore, hbeforeOpen⟩ := hopen handle after hget hafterOpen
  refine ⟨before, ?_, hbeforeOpen⟩
  simp only [connection, Option.mem_def, Option.ite_none_right_eq_some,
    Option.bind_eq_some_iff]
  exact ⟨hwas, handle, hhandle, hbefore⟩

theorem not_isConnected {client : TcpClient} (hconnected : client.connected = false) :
    ¬ client.IsConnected := by
  simp [IsConnected, connection, hconnected]

theorem Inv.work_ne_zero {client : TcpClient} (hinv : client.Inv)
    (hconnected : client.IsConnected) : client.work ≠ 0 := by
  obtain ⟨session, hsession, hopen⟩ := hconnected
  simp only [connection, Option.mem_def, Option.ite_none_right_eq_some,
    Option.bind_eq_some_iff] at hsession
  obtain ⟨_, handle, _, hget⟩ := hsession
  have hmem : session ∈ client.sessions := List.mem_of_getElem? hget
  have hpos : 0 < session.work := (hinv.reads session hmem).work_pos hopen
  have hle : session.work ≤ client.work :=
    List.single_le_sum (fun _ _ => Nat.zero_le _) _ (List.mem_map_of_mem hmem)
  omega

section Steps

variable {client next : TcpClient}

theorem reads_modify {client : TcpClient} {change : Session → Session} (handle : ℕ)
    (hreads : ∀ session ∈ client.sessions, session.ReadInv)
    (hchange : ∀ session : Session, session.ReadInv → (change session).ReadInv) :
    ∀ session ∈ client.sessions.modify handle change, session.ReadInv := by
  intro session hmem
  obtain ⟨position, hget⟩ := List.mem_iff_getElem?.mp hmem
  rw [List.getElem?_modify, Option.map_eq_map, Option.map_eq_some_iff] at hget
  obtain ⟨before, hbefore, rfl⟩ := hget
  have hkept := hreads before (List.mem_of_getElem? hbefore)
  split
  · exact hchange before hkept
  · exact hkept

theorem inv_connect (succeeds : Bool) (hstopped : client.stopped = false) (hinv : client.Inv) :
    (client.connect succeeds).Inv := by
  cases succeeds with
  | false => exact ⟨hinv.reads, fun hconnected => absurd hconnected (not_isConnected rfl)⟩
  | true =>
      refine ⟨fun session hmem => ?_, fun _ => ⟨hstopped, .launched, ?_, by decide⟩⟩
      · rcases List.mem_append.mp hmem with hold | hnew
        · exact hinv.reads session hold
        · obtain rfl := List.mem_singleton.mp hnew
          exact Session.readInv_start
      · simp [connect]

theorem inv_disconnect (hinv : client.Inv) : client.disconnect.Inv := by
  refine ⟨?_, fun hconnected => absurd hconnected (not_isConnected rfl)⟩
  have hclose : ∀ session : Session, session.ReadInv → session.close.ReadInv := by
    intro session hread
    have hstep : session.step .close = some session.close := rfl
    exact Session.readInv_step hread hstep
  intro session hmem
  simp only [disconnect, stop, closeSession] at hmem
  split at hmem
  · exact hinv.reads session hmem
  · exact reads_modify _ hinv.reads hclose session hmem

theorem inv_asyncSend (data : Payload) (hinv : client.Inv) : (client.asyncSend data).Inv := by
  simp only [asyncSend]
  split
  case h_1 => exact hinv
  case h_2 handle _ =>
    refine ⟨reads_modify _ hinv.reads fun session hread => ?_, fun hconnected => ?_⟩
    · have hstep : session.step (.asyncWrite data) = some (session.asyncWrite data) := rfl
      split
      · exact Session.readInv_step hread hstep
      · exact hread
    · refine hinv.served (hconnected.of_sessions rfl rfl fun position after hget hopen => ?_)
      rw [List.getElem?_modify, Option.map_eq_map, Option.map_eq_some_iff] at hget
      obtain ⟨before, hbefore, rfl⟩ := hget
      refine ⟨before, hbefore, ?_⟩
      split at hopen
      · split at hopen <;> exact hopen
      · exact hopen

/-- A thread that enters or leaves `run()` serves a connected client, if there
is one. -/
theorem inv_runners {runners : List Runner} (stopped : Bool) (hinv : client.Inv)
    (hserved : client.IsConnected →
      stopped = false ∧ ∃ runner ∈ runners, runner ≠ .returned) :
    Inv { client with stopped := stopped, runners := runners } :=
  ⟨hinv.reads, fun hconnected => hserved hconnected⟩

theorem inv_enter {runner : ℕ} (hlaunched : client.runners[runner]? = some .launched)
    (hinv : client.Inv) : (client.enter runner).Inv := by
  simp only [enter]
  split
  case isTrue hidle =>
    refine inv_runners true hinv fun hconnected => ?_
    rcases hidle with hstopped | hnone
    · exact absurd ((hinv.served hconnected).1.symm.trans hstopped) (by simp)
    · exact absurd hnone (hinv.work_ne_zero hconnected)
  case isFalse hbusy =>
    refine inv_runners client.stopped hinv fun hconnected => ?_
    have hlt := (List.getElem?_eq_some_iff.mp hlaunched).1
    exact ⟨(hinv.served hconnected).1, .running, List.mem_set hlt .running, by decide⟩

theorem inv_onSession {handle : ℕ} {event : Session.Event}
    (hstep : client.onSession handle event = some next) (hinv : client.Inv) : next.Inv := by
  simp only [onSession, Option.ite_none_right_eq_some, Option.bind_eq_some_iff,
    Option.map_eq_some_iff] at hstep
  obtain ⟨_, session, hget, after, hafter, hnext⟩ := hstep
  have hset : Inv { client with sessions := client.sessions.set handle after } := by
    refine ⟨fun other hmem => ?_, fun hconnected => ?_⟩
    · rcases List.mem_or_eq_of_mem_set hmem with hold | rfl
      · exact hinv.reads other hold
      · exact Session.readInv_step (hinv.reads session (List.mem_of_getElem? hget)) hafter
    · refine hinv.served (hconnected.of_sessions rfl rfl fun position other hother hopen => ?_)
      rw [List.getElem?_set] at hother
      split at hother
      case isFalse => exact ⟨other, hother, hopen⟩
      case isTrue heq =>
        obtain rfl : after = other := by
          split at hother <;> simp_all
        subst heq
        refine ⟨session, hget, ?_⟩
        by_contra hclosed
        rw [Bool.not_eq_true] at hclosed
        exact absurd (hopen.symm.trans (Session.closed_step hafter hclosed)) (by simp)
  split at hnext
  case isFalse => exact hnext ▸ hset
  case isTrue =>
    subst hnext
    refine inv_runners _ hset fun hconnected => ?_
    obtain ⟨hstopped, hrunner⟩ := hset.served hconnected
    have hwork := hset.work_ne_zero hconnected
    exact ⟨by simpa using ⟨hstopped, hwork⟩, hrunner⟩

theorem inv_step {event : Event} (hinv : client.Inv)
    (hunstopped : client.ConnectsUnstopped event) (hstep : client.step event = some next) :
    next.Inv := by
  cases event with
  | connect succeeds =>
      rw [step, Option.some.injEq] at hstep
      exact hstep ▸ inv_connect succeeds hunstopped hinv
  | disconnect =>
      rw [step, Option.some.injEq] at hstep
      exact hstep ▸ inv_disconnect hinv
  | stop =>
      rw [step, Option.some.injEq] at hstep
      subst hstep
      exact ⟨hinv.reads, fun hconnected => absurd hconnected (not_isConnected rfl)⟩
  | run =>
      rw [step, Option.some.injEq] at hstep
      subst hstep
      refine inv_runners client.stopped hinv fun hconnected => ?_
      obtain ⟨hstopped, runner, hmem, hrunner⟩ := hinv.served hconnected
      exact ⟨hstopped, runner, List.mem_append_left _ hmem, hrunner⟩
  | asyncSend data =>
      rw [step, Option.some.injEq] at hstep
      exact hstep ▸ inv_asyncSend data hinv
  | enter runner =>
      simp only [step, Option.ite_none_right_eq_some, Option.some.injEq] at hstep
      exact hstep.2 ▸ inv_enter hstep.1 hinv
  | leave runner =>
      simp only [step, Option.ite_none_right_eq_some, Option.some.injEq] at hstep
      obtain ⟨⟨_, hstopped⟩, rfl⟩ := hstep
      refine inv_runners client.stopped hinv fun hconnected => ?_
      exact absurd ((hinv.served hconnected).1.symm.trans hstopped) (by simp)
  | session handle event => exact inv_onSession hstep hinv

end Steps

/-- A client that connects only on a context that is not stopped is served
whenever it is connected. -/
theorem served_of_connected {client : TcpClient} {events : List Event}
    (hrun : Transition.run step start events = some client)
    (hunstopped : Transition.Guarded step ConnectsUnstopped start events)
    (hconnected : client.IsConnected) : client.Served := by
  have hinv : client.Inv := Transition.run_invariant_of_guarded
    (fun _ _ _ hinv hguard hstep => inv_step hinv hguard hstep) inv_start hunstopped hrun
  exact hinv.served hconnected

/-- A second `connect` while the context still runs. -/
def doubleConnectEvents : List Event :=
  [.connect true, .enter 0, .connect true, .enter 1]

def doubleConnectFinal : TcpClient where
  stopped := false
  runners := [.running, .running]
  sessions := [Session.start, Session.start]
  session := some 1
  connected := true

theorem served_of_connected_doubleConnectEvents : doubleConnectFinal.Served := by
  have hrun : Transition.run step start doubleConnectEvents = some doubleConnectFinal := by
    decide
  exact served_of_connected hrun (by decide) ⟨Session.start, by decide, by decide⟩

theorem stopped_step {client next : TcpClient} {event : Event}
    (hstopped : client.stopped = true) (hstep : client.step event = some next) :
    next.stopped = true := by
  cases event with
  | connect succeeds =>
      rw [step, Option.some.injEq] at hstep
      cases succeeds <;> exact hstep ▸ hstopped
  | disconnect | stop =>
      rw [step, Option.some.injEq] at hstep
      exact hstep ▸ rfl
  | run =>
      rw [step, Option.some.injEq] at hstep
      exact hstep ▸ hstopped
  | asyncSend data =>
      rw [step, Option.some.injEq] at hstep
      subst hstep
      simp only [asyncSend]
      split <;> exact hstopped
  | enter runner =>
      simp only [step, Option.ite_none_right_eq_some, Option.some.injEq] at hstep
      obtain ⟨_, rfl⟩ := hstep
      simp [enter, hstopped]
  | leave runner =>
      simp only [step, Option.ite_none_right_eq_some, Option.some.injEq] at hstep
      exact hstep.2 ▸ hstopped
  | session handle event =>
      simp only [step, onSession, Option.ite_none_right_eq_some, Option.bind_eq_some_iff,
        Option.map_eq_some_iff] at hstep
      obtain ⟨_, session, _, after, _, hnext⟩ := hstep
      subst hnext
      split
      · simp [outOfWork, hstopped]
      · exact hstopped

/-- Once the context is stopped, no later connection is ever served. -/
theorem not_served_of_stopped {client final : TcpClient} {events : List Event}
    (hstopped : client.stopped = true)
    (hrun : Transition.run step client events = some final) : ¬ final.Served := by
  have hkept : final.stopped = true :=
    Transition.run_invariant (fun _ _ _ hinv hstep => stopped_step hinv hstep) hstopped hrun
  rintro ⟨hserved, _⟩
  exact absurd (hserved.symm.trans hkept) (by simp)

/-- `disconnect` stops the context, and nothing restarts it. -/
def reconnectEvents : List Event :=
  [.connect true, .enter 0, .disconnect, .leave 0, .connect true, .enter 1]

def reconnectFinal : TcpClient where
  stopped := true
  runners := [.returned, .returned]
  sessions := [Session.start.close, Session.start]
  session := some 1
  connected := true

theorem reconnectEvents_not_served :
    Transition.run step start reconnectEvents = some reconnectFinal ∧
      reconnectFinal.IsConnected ∧ ¬ reconnectFinal.Served := by
  exact ⟨by decide, ⟨Session.start, by decide, by decide⟩, by decide⟩

end TcpClient

end RpcDemo
