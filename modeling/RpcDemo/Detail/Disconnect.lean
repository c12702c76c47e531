import RpcDemo.Detail.Reconnect

/-!
# Disconnecting a client, step by step

`disconnect` calls `session_->close()`, which only queues `do_close`, gives up
its reference to the session and stops the context.  Here these are three steps
of the calling thread, and the threads in `run()` move in between.  A thread
that notices the stop may leave at once or run some handlers first, so whether
the socket is closed depends on whether the queued `do_close` is among them.
-/

namespace RpcDemo

namespace Session

/-- A queued `do_close` stays in the strand until it has closed the socket. -/
theorem close_mem_step {session next : Session} {event : Event}
    (hstep : session.step event = some next) (hqueued : Handler.close ∈ session.strand) :
    next.isOpen = false ∨ Handler.close ∈ next.strand := by
  cases stepped_of_step hstep with
  | asyncWrite data | close => exact .inr (List.mem_append_left _ hqueued)
  | arrive segment | hangUp error => exact .inr hqueued
  | readSome op count =>
      simp only [fillBuffer]
      split
      · exact .inr (List.mem_append_left _ hqueued)
      · exact .inr hqueued
  | readFail op error | writeFail op error => exact .inr (List.mem_append_left _ hqueued)
  | writeSome op count =>
      simp only [sendBytes]
      split
      · exact .inr (List.mem_append_left _ hqueued)
      · exact .inr hqueued
  | run handler strand reaction hstrand =>
      by_cases hclose : handler = .close
      · subst hclose
        exact .inl rfl
      · have hrest : Handler.close ∈ strand := by
          rw [hstrand, List.mem_cons] at hqueued
          exact hqueued.resolve_left (Ne.symm hclose)
        by_cases hbody : handler = .read .body none
        · subst hbody
          rw [runHandler, onReadBody, onMessage_eq]
          exact .inr (List.mem_append_left _ hrest)
        · rw [(sameHistories_runHandler _ reaction hbody).strand]
          exact .inr hrest

end Session

/-- How far the call of `disconnect` has come. -/
inductive DisconnectPhase
  | notCalled
  | closed
  | reset
  | returned
  deriving DecidableEq

/-- A client on which `disconnect` is called; `handle` is the session that was
connected. -/
structure Disconnecting where
  client : TcpClient
  handle : ℕ
  phase : DisconnectPhase
  deriving DecidableEq

namespace Disconnecting

/-- The steps of `disconnect`, and those of the threads that run the context and
of the peers. -/
inductive Event
  | close
  | reset
  | stop
  | enter (runner : ℕ)
  | leave (runner : ℕ)
  | session (handle : ℕ) (event : Session.Event)
  deriving DecidableEq

/-- `session_->close()`, if there is a session. -/
def closeCall (client : TcpClient) : TcpClient :=
  match client.session with
  | none => client
  | some handle => { client with sessions := client.sessions.modify handle Session.close }

/-- A thread inside `run()` may run handlers even when the context has been
stopped. -/
def onSession (client : TcpClient) (handle : ℕ) (event : Session.Event) : Option TcpClient :=
  if event.OfPeer ∨ (event.OfRun ∧ .running ∈ client.runners) then
    client.sessions[handle]?.bind fun session =>
      (session.step event).map fun next =>
        if event.OfRun then
          TcpClient.outOfWork { client with sessions := client.sessions.set handle next }
        else { client with sessions := client.sessions.set handle next }
  else none

def step (state : Disconnecting) : Event → Option Disconnecting
  | .close =>
      if state.phase = .notCalled then
        some { state with client := closeCall state.client, phase := .closed }
      else none
  | .reset =>
      if state.phase = .closed then
        some { state with client := { state.client with session := none }, phase := .reset }
      else none
  | .stop =>
      if state.phase = .reset then
        some { state with client := state.client.stop, phase := .returned }
      else none
  | .enter runner =>
      if state.client.runners[runner]? = some .launched then
        some { state with client := state.client.enter runner }
      else none
  | .leave runner =>
      if state.client.runners[runner]? = some .running ∧ state.client.stopped = true then
        some { state with client := { state.client with
          runners := state.client.runners.set runner .returned } }
      else none
  | .session handle event =>
      (onSession state.client handle event).map fun client => { state with client := client }

/-- Without interference the three steps are `disconnect`. -/
theorem run_disconnect (client : TcpClient) (handle : ℕ) :
    Transition.run step ⟨client, handle, .notCalled⟩ [.close, .reset, .stop] =
      some ⟨client.disconnect, handle, .returned⟩ := by
  cases hsession : client.session with
  | none =>
      simp [Transition.run, step, closeCall, TcpClient.disconnect, TcpClient.closeSession,
        TcpClient.stop, hsession]
  | some target =>
      simp [Transition.run, step, closeCall, TcpClient.disconnect, TcpClient.closeSession,
        TcpClient.stop, hsession]

/-! ## What decides whether the socket is closed -/

/-- The session that was connected. -/
def target (state : Disconnecting) : Option Session :=
  state.client.sessions[state.handle]?

def SocketOpen (state : Disconnecting) : Prop :=
  ∃ session ∈ state.target, session.isOpen = true

instance (state : Disconnecting) : Decidable state.SocketOpen :=
  match hget : state.target with
  | none => isFalse (by simp [SocketOpen, hget])
  | some session => decidable_of_iff (session.isOpen = true) (by simp [SocketOpen, hget])

/-- The `do_close` of an open socket waits in the strand. -/
def CloseQueued (state : Disconnecting) : Prop :=
  ∃ session ∈ state.target, session.isOpen = true ∧ Handler.close ∈ session.strand

instance (state : Disconnecting) : Decidable state.CloseQueued :=
  match hget : state.target with
  | none => isFalse (by simp [CloseQueued, hget])
  | some session =>
      decidable_of_iff (session.isOpen = true ∧ Handler.close ∈ session.strand)
        (by simp [CloseQueued, hget])

/-- No thread runs the context or is about to. -/
def NobodyRuns (runners : List Runner) : Prop :=
  ∀ runner ∈ runners, runner = .returned

instance (runners : List Runner) : Decidable (NobodyRuns runners) :=
  inferInstanceAs (Decidable (∀ _ ∈ _, _))

/-- `disconnect` has returned, and so has every thread that ran the context. -/
def Settled (state : Disconnecting) : Prop :=
  state.phase = .returned ∧ NobodyRuns state.client.runners

instance (state : Disconnecting) : Decidable state.Settled :=
  inferInstanceAs (Decidable (_ ∧ _))

/-- `close()` is called while somebody runs the context, and no thread is the
last to return from `run()` while the queued `do_close` waits. -/
def RunsClose (state : Disconnecting) : Event → Prop
  | .close => state.SocketOpen → ¬ NobodyRuns state.client.runners
  | .enter runner => state.client.stopped = true →
      NobodyRuns (state.client.runners.set runner .returned) → ¬ state.CloseQueued
  | .leave runner =>
      NobodyRuns (state.client.runners.set runner .returned) → ¬ state.CloseQueued
  | _ => True

instance (state : Disconnecting) : (event : Event) → Decidable (state.RunsClose event)
  | .close => inferInstanceAs (Decidable (_ → _))
  | .enter _ => inferInstanceAs (Decidable (_ → _ → _))
  | .leave _ => inferInstanceAs (Decidable (_ → _))
  | .reset | .stop | .session _ _ => isTrue trivial

/-! ## What a step of a connection changes -/

section Steps

variable {state next : Disconnecting}

theorem onSession_eq {client moved : TcpClient} {handle : ℕ} {event : Session.Event}
    (hstep : onSession client handle event = some moved) :
    ∃ session after, client.sessions[handle]? = some session ∧
      session.step event = some after ∧
      moved.sessions = client.sessions.set handle after ∧
      moved.runners = client.runners ∧ moved.session = client.session := by
  simp only [onSession, Option.ite_none_right_eq_some, Option.bind_eq_some_iff,
    Option.map_eq_some_iff] at hstep
  obtain ⟨_, session, hget, after, hafter, rfl⟩ := hstep
  refine ⟨session, after, hget, hafter, ?_⟩
  split <;> exact ⟨rfl, rfl, rfl⟩

/-- The session that was connected takes the step, or is left alone. -/
theorem target_onSession {handle : ℕ} {event : Session.Event} {moved : TcpClient}
    (hstep : onSession state.client handle event = some moved) :
    target { state with client := moved } = state.target ∨
      ∃ session after, state.target = some session ∧ session.step event = some after ∧
        target { state with client := moved } = some after := by
  obtain ⟨session, after, hget, hafter, hsessions, _, _⟩ := onSession_eq hstep
  by_cases hsame : handle = state.handle
  · subst hsame
    have hlt := (List.getElem?_eq_some_iff.mp hget).1
    exact .inr ⟨session, after, hget, hafter, by simp [target, hsessions, hlt]⟩
  · exact .inl (by simp [target, hsessions, List.getElem?_set_ne hsame])

/-- A closed socket is not opened again. -/
theorem socketOpen_of_onSession {handle : ℕ} {event : Session.Event} {moved : TcpClient}
    (hstep : onSession state.client handle event = some moved)
    (hopen : SocketOpen { state with client := moved }) : state.SocketOpen := by
  obtain ⟨found, hfound, hfoundOpen⟩ := hopen
  rw [Option.mem_def] at hfound
  rcases target_onSession hstep with hsame | ⟨session, after, hget, hafter, hmoved⟩
  · exact ⟨found, hsame ▸ hfound, hfoundOpen⟩
  · obtain rfl := Option.some.inj (hmoved.symm.trans hfound)
    refine ⟨session, hget, ?_⟩
    rw [← Bool.not_eq_false]
    intro hclosed
    exact absurd (Session.closed_step hafter hclosed) (by simp [hfoundOpen])

/-- A queued `do_close` stays queued until the socket is closed. -/
theorem closeQueued_onSession {handle : ℕ} {event : Session.Event} {moved : TcpClient}
    (hstep : onSession state.client handle event = some moved) (hqueued : state.CloseQueued) :
    ¬ SocketOpen { state with client := moved } ∨
      CloseQueued { state with client := moved } := by
  obtain ⟨session, hsession, hopen, hclose⟩ := hqueued
  rw [Option.mem_def] at hsession
  rcases target_onSession hstep with hsame | ⟨before, after, hget, hafter, hmoved⟩
  · exact .inr ⟨session, hsame.trans hsession, hopen, hclose⟩
  · obtain rfl := Option.some.inj (hget.symm.trans hsession)
    cases hafterOpen : after.isOpen with
    | false =>
        refine .inl ?_
        rintro ⟨found, hfound, hfoundOpen⟩
        obtain rfl := Option.some.inj (hmoved.symm.trans hfound)
        exact absurd hfoundOpen (by simp [hafterOpen])
    | true =>
        rcases Session.close_mem_step hafter hclose with hclosed | hkept
        · exact absurd hclosed (by simp [hafterOpen])
        · exact .inr ⟨after, hmoved, hafterOpen, hkept⟩

/-! ## Runs that execute the queued close -/

/-- Before the call the client has the session; from then on its socket is
closed, or somebody runs the context and `do_close` is queued. -/
structure Pending (state : Disconnecting) : Prop where
  session : state.phase = .notCalled → state.client.session = some state.handle
  close : state.phase ≠ .notCalled →
    ¬ state.SocketOpen ∨ (state.CloseQueued ∧ ¬ NobodyRuns state.client.runners)

theorem target_closeCall (phase : DisconnectPhase)
    (hsession : state.client.session = some state.handle) :
    target { state with client := closeCall state.client, phase := phase } =
      state.target.map Session.close := by
  simp only [target, closeCall, hsession]
  rw [List.getElem?_modify_eq]
  rfl

theorem pending_close (hpending : state.Pending) (hphase : state.phase = .notCalled)
    (hguard : state.SocketOpen → ¬ NobodyRuns state.client.runners) :
    Pending { state with client := closeCall state.client, phase := .closed } := by
  have hsession := hpending.session hphase
  have htarget := target_closeCall .closed hsession
  have hrunners : (closeCall state.client).runners = state.client.runners := by
    simp only [closeCall, hsession]
  refine ⟨fun h => absurd h (by simp), fun _ => ?_⟩
  by_cases hopen : state.SocketOpen
  · refine .inr ⟨?_, hrunners ▸ hguard hopen⟩
    obtain ⟨session, hget, hisOpen⟩ := hopen
    rw [Option.mem_def] at hget
    refine ⟨session.close, ?_, hisOpen, by simp [Session.close, Session.post]⟩
    rw [Option.mem_def, htarget, hget, Option.map_some]
  · refine .inl fun hnow => hopen ?_
    obtain ⟨session, hget, hisOpen⟩ := hnow
    rw [Option.mem_def, htarget, Option.map_eq_some_iff] at hget
    obtain ⟨before, hbefore, rfl⟩ := hget
    exact ⟨before, hbefore, hisOpen⟩

/-- A queued `do_close` is work for the context. -/
theorem CloseQueued.work_ne_zero (hqueued : state.CloseQueued) : state.client.work ≠ 0 := by
  obtain ⟨session, hget, _, hclose⟩ := hqueued
  have hmem : session ∈ state.client.sessions := List.mem_of_getElem? hget
  have hpos : 0 < session.strand.length := List.length_pos_of_mem hclose
  have hle : session.work ≤ state.client.work :=
    List.single_le_sum (fun _ _ => Nat.zero_le _) _ (List.mem_map_of_mem hmem)
  simp only [Session.work] at hle
  omega

/-- Steps that leave the connections and the call alone. -/
theorem Pending.withRunners {stopped : Bool} {runners : List Runner}
    (hpending : state.Pending)
    (hrunners : state.CloseQueued → ¬ NobodyRuns state.client.runners →
      ¬ NobodyRuns runners) :
    Pending { state with client := { state.client with
      stopped := stopped, runners := runners } } := by
  refine ⟨hpending.session, fun hphase => ?_⟩
  rcases hpending.close hphase with hclosed | ⟨hqueued, hruns⟩
  · exact .inl hclosed
  · exact .inr ⟨hqueued, hrunners hqueued hruns⟩

theorem not_nobodyRuns_set {runners : List Runner} {runner : ℕ} {old : Runner}
    (hget : runners[runner]? = some old) : ¬ NobodyRuns (runners.set runner .running) := by
  intro hnobody
  have hlt := (List.getElem?_eq_some_iff.mp hget).1
  exact absurd (hnobody .running (List.mem_set hlt .running)) (by decide)

theorem pending_enter {runner : ℕ} (hpending : state.Pending)
    (hlaunched : state.client.runners[runner]? = some .launched)
    (hguard : state.RunsClose (.enter runner)) :
    Pending { state with client := state.client.enter runner } := by
  simp only [TcpClient.enter]
  split
  case isTrue hidle =>
    refine hpending.withRunners fun hqueued _ hnobody => ?_
    have hstopped := hidle.resolve_right hqueued.work_ne_zero
    exact hguard hstopped hnobody hqueued
  case isFalse =>
    exact hpending.withRunners fun _ _ => not_nobodyRuns_set hlaunched

theorem pending_onSession {handle : ℕ} {event : Session.Event} {moved : TcpClient}
    (hpending : state.Pending) (hstep : onSession state.client handle event = some moved) :
    Pending { state with client := moved } := by
  obtain ⟨_, _, _, _, _, hrunners, hsession⟩ := onSession_eq hstep
  refine ⟨fun hphase => hsession.trans (hpending.session hphase), fun hphase => ?_⟩
  rcases hpending.close hphase with hclosed | ⟨hqueued, hruns⟩
  · exact .inl fun hopen => hclosed (socketOpen_of_onSession hstep hopen)
  · rcases closeQueued_onSession hstep hqueued with hclosed | hkept
    · exact .inl hclosed
    · exact .inr ⟨hkept, hrunners ▸ hruns⟩

/-- All a step can do, with the guards it passed. -/
inductive Stepped (state : Disconnecting) : Event → Disconnecting → Prop
  | close (hphase : state.phase = .notCalled) :
      Stepped state .close { state with client := closeCall state.client, phase := .closed }
  | reset (hphase : state.phase = .closed) :
      Stepped state .reset
        { state with client := { state.client with session := none }, phase := .reset }
  | stop (hphase : state.phase = .reset) :
      Stepped state .stop { state with client := state.client.stop, phase := .returned }
  | enter (runner : ℕ) (hlaunched : state.client.runners[runner]? = some .launched) :
      Stepped state (.enter runner) { state with client := state.client.enter runner }
  | leave (runner : ℕ) (hrunning : state.client.runners[runner]? = some .running)
      (hstopped : state.client.stopped = true) :
      Stepped state (.leave runner) { state with client := { state.client with
        runners := state.client.runners.set runner .returned } }
  | session (handle : ℕ) (event : Session.Event) (moved : TcpClient)
      (hmoved : onSession state.client handle event = some moved) :
      Stepped state (.session handle event) { state with client := moved }

theorem stepped_of_step {event : Event} (hstep : state.step event = some next) :
    Stepped state event next := by
  cases event with
  | close =>
      simp only [step, Option.ite_none_right_eq_some, Option.some.injEq] at hstep
      exact hstep.2 ▸ .close hstep.1
  | reset =>
      simp only [step, Option.ite_none_right_eq_some, Option.some.injEq] at hstep
      exact hstep.2 ▸ .reset hstep.1
  | stop =>
      simp only [step, Option.ite_none_right_eq_some, Option.some.injEq] at hstep
      exact hstep.2 ▸ .stop hstep.1
  | enter runner =>
      simp only [step, Option.ite_none_right_eq_some, Option.some.injEq] at hstep
      exact hstep.2 ▸ .enter runner hstep.1
  | leave runner =>
      simp only [step, Option.ite_none_right_eq_some, Option.some.injEq] at hstep
      exact hstep.2 ▸ .leave runner hstep.1.1 hstep.1.2
  | session handle event =>
      obtain ⟨moved, hmoved, rfl⟩ := Option.map_eq_some_iff.mp hstep
      exact .session handle event moved hmoved

theorem pending_step {event : Event} (hpending : state.Pending)
    (hguard : state.RunsClose event) (hstep : state.step event = some next) :
    next.Pending := by
  cases stepped_of_step hstep with
  | close hphase => exact pending_close hpending hphase hguard
  | reset hphase =>
      exact ⟨fun h => absurd h (by simp), fun _ => hpending.close (by simp [hphase])⟩
  | stop hphase =>
      exact ⟨fun h => absurd h (by simp), fun _ => hpending.close (by simp [hphase])⟩
  | enter runner hlaunched => exact pending_enter hpending hlaunched hguard
  | leave runner hrunning hstopped =>
      exact hpending.withRunners fun hqueued _ hnobody => hguard hnobody hqueued
  | session handle event moved hmoved => exact pending_onSession hpending hmoved

/-! ## Runs that abandon it -/

/-- The socket is open and no thread will ever run its handlers again. -/
def Stranded (state : Disconnecting) : Prop :=
  state.SocketOpen ∧ NobodyRuns state.client.runners

theorem socketOpen_closeCall (phase : DisconnectPhase) (hopen : state.SocketOpen) :
    SocketOpen { state with client := closeCall state.client, phase := phase } := by
  obtain ⟨session, hget, hisOpen⟩ := hopen
  rw [Option.mem_def, target] at hget
  unfold closeCall
  split
  case h_1 => exact ⟨session, hget, hisOpen⟩
  case h_2 other _ =>
    by_cases hsame : other = state.handle
    · refine ⟨session.close, ?_, hisOpen⟩
      simp [target, hsame, hget]
    · refine ⟨session, ?_, hisOpen⟩
      simp [target, hsame, hget]

theorem runners_closeCall (client : TcpClient) : (closeCall client).runners = client.runners := by
  unfold closeCall
  split <;> rfl

theorem stranded_of_not_runsClose {event : Event} (hguard : ¬ state.RunsClose event)
    (hstep : state.step event = some next) : next.Stranded := by
  have hqueuedOpen : state.CloseQueued → state.SocketOpen :=
    fun ⟨session, hget, hopen, _⟩ => ⟨session, hget, hopen⟩
  cases stepped_of_step hstep with
  | close hphase =>
      simp only [RunsClose, Classical.not_imp, not_not] at hguard
      refine ⟨socketOpen_closeCall .closed hguard.1, ?_⟩
      rw [runners_closeCall]
      exact hguard.2
  | reset | stop | session => exact absurd trivial hguard
  | enter runner hlaunched =>
      simp only [RunsClose, Classical.not_imp, not_not] at hguard
      obtain ⟨hstopped, hnobody, hqueued⟩ := hguard
      simp only [TcpClient.enter, if_pos (Or.inl hstopped)]
      exact ⟨hqueuedOpen hqueued, hnobody⟩
  | leave runner hrunning hstopped =>
      simp only [RunsClose, Classical.not_imp, not_not] at hguard
      exact ⟨hqueuedOpen hguard.2, hguard.1⟩

/-- What the peer does closes no socket. -/
theorem isOpen_of_peer {session after : Session} {event : Session.Event}
    (hpeer : event.OfPeer) (hstep : session.step event = some after) :
    after.isOpen = session.isOpen := by
  cases Session.stepped_of_step hstep with
  | arrive segment | hangUp error => rfl
  | asyncWrite | close | readSome | readFail | writeSome | writeFail | run =>
      exact absurd hpeer id

theorem stranded_step {event : Event} (hstranded : state.Stranded)
    (hstep : state.step event = some next) : next.Stranded := by
  obtain ⟨hopen, hnobody⟩ := hstranded
  have hreturned : ∀ {position : ℕ} {runner : Runner},
      state.client.runners[position]? = some runner → runner = .returned :=
    fun hget => hnobody _ (List.mem_of_getElem? hget)
  cases stepped_of_step hstep with
  | close hphase =>
      refine ⟨socketOpen_closeCall .closed hopen, ?_⟩
      rw [runners_closeCall]
      exact hnobody
  | reset | stop => exact ⟨hopen, hnobody⟩
  | enter runner hlaunched => exact absurd (hreturned hlaunched) (by decide)
  | leave runner hrunning => exact absurd (hreturned hrunning) (by decide)
  | session handle event moved hmoved =>
      obtain ⟨_, _, _, _, _, hrunners, _⟩ := onSession_eq hmoved
      refine ⟨?_, hrunners ▸ hnobody⟩
      have hpeer : event.OfPeer := by
        simp only [onSession, Option.ite_none_right_eq_some] at hmoved
        rcases hmoved.1 with hpeer | ⟨_, hrunning⟩
        · exact hpeer
        · exact absurd (hnobody _ hrunning) (by decide)
      obtain ⟨session, hget, hisOpen⟩ := hopen
      rcases target_onSession hmoved with hsame | ⟨before, after, hbefore, hafter, hnow⟩
      · exact ⟨session, hsame.trans hget, hisOpen⟩
      · obtain rfl := Option.some.inj (hbefore.symm.trans hget)
        exact ⟨after, hnow, (isOpen_of_peer hpeer hafter).trans hisOpen⟩

end Steps

/-! ## The socket after `disconnect` -/

theorem pending_start {client : TcpClient} {handle : ℕ}
    (hsession : client.session = some handle) : Pending ⟨client, handle, .notCalled⟩ :=
  ⟨fun _ => hsession, fun hphase => absurd rfl hphase⟩

theorem guarded_of_not_stranded {state final : Disconnecting} {events : List Event}
    (hrun : Transition.run step state events = some final) (hfinal : ¬ final.Stranded) :
    Transition.Guarded step RunsClose state events := by
  induction events generalizing state with
  | nil => trivial
  | cons event events ih =>
      obtain ⟨next, hstep, hrest⟩ := Transition.run_cons.mp hrun
      refine ⟨?_, fun other hother => ?_⟩
      · by_contra hguard
        have hkept : final.Stranded := Transition.run_invariant
          (fun _ _ _ hinv hmove => stranded_step hinv hmove)
          (stranded_of_not_runsClose hguard hstep) hrest
        exact hfinal hkept
      · obtain rfl := Option.some.inj (hstep.symm.trans hother)
        exact ih hrest

/-- Whatever the threads in `run()` do during `disconnect`: when it and they have
returned, the socket of the session is closed exactly when `close()` found a
thread that runs the context and none was the last to leave before the queued
`do_close` had run. -/
theorem socket_closed_iff {client : TcpClient} {handle : ℕ} {events : List Event}
    {final : Disconnecting} (hsession : client.session = some handle)
    (hrun : Transition.run step ⟨client, handle, .notCalled⟩ events = some final)
    (hsettled : final.Settled) :
    ¬ final.SocketOpen ↔
      Transition.Guarded step RunsClose ⟨client, handle, .notCalled⟩ events := by
  constructor
  · intro hclosed
    exact guarded_of_not_stranded hrun fun hstranded => hclosed hstranded.1
  · intro hguarded
    have hpending : final.Pending := Transition.run_invariant_of_guarded
      (fun _ _ _ hinv hguard hstep => pending_step hinv hguard hstep)
      (pending_start hsession) hguarded hrun
    obtain ⟨hphase, hnobody⟩ := hsettled
    rcases hpending.close (by simp [hphase]) with hclosed | ⟨_, hruns⟩
    · exact hclosed
    · exact absurd hnobody hruns

/-- A client with one connection, whose thread is in `run()`. -/
def connectedClient : TcpClient where
  stopped := false
  runners := [.running]
  sessions := [Session.start]
  session := some 0
  connected := true

/-- The thread leaves as soon as the context is stopped. -/
def abandonedEvents : List Event :=
  [.close, .reset, .stop, .leave 0]

def abandonedFinal : Disconnecting where
  client :=
    { connectedClient.disconnect with runners := [.returned] }
  handle := 0
  phase := .returned

theorem abandonedEvents_leave_open :
    Transition.run TcpClient.step TcpClient.start [.connect true, .enter 0] =
        some connectedClient ∧
      connectedClient.IsConnected ∧
      Transition.run step ⟨connectedClient, 0, .notCalled⟩ abandonedEvents =
        some abandonedFinal ∧
      abandonedFinal.Settled ∧ abandonedFinal.SocketOpen := by
  refine ⟨by decide, ⟨Session.start, by decide, by decide⟩, by decide, by decide, by decide⟩

/-- The thread runs the queued `do_close` before it leaves. -/
def executedEvents : List Event :=
  [.close, .session 0 (.run Session.silent), .reset, .stop, .leave 0]

def executedFinal : Disconnecting where
  client :=
    { connectedClient with
      stopped := true
      runners := [.returned]
      sessions := [Session.start.doClose]
      session := none
      connected := false }
  handle := 0
  phase := .returned

theorem executedEvents_close : ¬ executedFinal.SocketOpen := by
  have hrun : Transition.run step ⟨connectedClient, 0, .notCalled⟩ executedEvents =
      some executedFinal := by decide
  exact (socket_closed_iff rfl hrun (by decide)).mpr (by decide)

end Disconnecting

end RpcDemo
