import RpcDemo.Threadpool.Exceptions
import RpcDemo.Threadpool.Futures

/-!
# Workers blocked in `get`

A task that waits for a future keeps its worker from every other task.  Once all
workers wait for states that are not completed, no one completes them: what a
caller completes has not been returned to anyone yet.
-/

namespace RpcDemo.Threadpool

open Ledger Transition

variable {Fn Value Error : Type}

namespace Code

variable {memory : Memory Fn Value Error} {move : Move Fn Value Error}
variable {code : Code Fn Value Error} {effect : Effect Fn Value Error}

/-- Only the call that completes a state completes it; a catch block comes late. -/
theorem completed_acted (hacted : Acted memory code move effect)
    (hrecover : ∀ state error stage, code.active = some (.recover state error) →
      memory.states[state]? = some stage → stage.cell.promise ≠ none) {state : ℕ}
    (hcompleted : Completed effect.memory.states state) :
    Completed memory.states state ∨
      ∃ completion, code.active = some (.complete state completion) := by
  rw [← completed_eq_one_iff] at hcompleted ⊢
  cases hacted with
  | complete other completion stack stage hstage hpromise =>
      rw [states_invokeExtracted, completed_settle hstage hpromise] at hcompleted
      by_cases heq : other = state
      · exact .inr ⟨completion, by rw [heq]⟩
      · exact .inl (by simpa [heq] using hcompleted)
  | recover other error stack stage hstage hpromise =>
      exact absurd hpromise (hrecover other error stage rfl hstage)
  | getFuture cont inlineExec stack stage hstage =>
      exact .inl ((completed_getFuture hstage state).symm.trans hcompleted)
  | stored cont inlineExec stack stage hstage =>
      exact .inl ((completed_store hstage _ state).symm.trans hcompleted)
  | execute cont inlineExec stack =>
      rw [states_invokeExtracted] at hcompleted
      exact .inl hcompleted
  | notify package =>
      exact .inl ((completed_returnPosted memory package.callable state).symm.trans hcompleted)
  | attached cont =>
      exact .inl ((completed_markReturned memory cont.next state).symm.trans hcompleted)
  | post | attach =>
      exact .inl ((completed_append memory.states _ state).symm.trans hcompleted)
  | refuse other completion => cases completion <;> exact .inl hcompleted
  | _ => exact .inl hcompleted

end Code

namespace Pool

variable {pool next : Pool Fn Value Error} {event : Threadpool.Event Fn Value Error}

/-- A step of a caller starts no task and completes no state that anyone has. -/
theorem caller_step (hlawful : pool.Lawful)
    (hcaller : pool.threads[event.thread]?.any Thread.isWorker = false)
    (hstep : pool.step event = some next) :
    next.memory.started = pool.memory.started ∧
      ∀ state, Returned pool.memory.states state →
        Completed next.memory.states state → Completed pool.memory.states state := by
  obtain ⟨thread, progress, hstepped⟩ := stepped_of_step hstep
  rw [hstepped.found] at hcaller
  have hmem := List.mem_of_getElem? hstepped.found
  have hacted := hstepped.acted
  rw [hstepped.memory]
  generalize event.move = move at hacted
  cases hacted with
  | caller code _ effect hacted =>
      refine ⟨Code.started_acted hacted, fun state hreturned hcompleted => ?_⟩
      have hrecover : ∀ state error stage, code.active = some (.recover state error) →
          pool.memory.states[state]? = some stage → stage.cell.promise ≠ none := by
        intro state error stage hactive hstage
        exact hlawful.coherent.driven.promise_ne_none (active_mem hmem hactive (by simp)) hstage
      obtain hbefore | ⟨completion, hactive⟩ := Code.completed_acted hacted hrecover hcompleted
      · exact hbefore
      · -- the future of what a caller completes is still in its hands
        obtain ⟨stage, hstage, hflag⟩ := hreturned
        have hzero : returned pool.memory.states state = 0 := by
          apply returned_eq_zero_of_caller hlawful.coherent hmem (hlawful.covered _ hmem)
          rw [Code.bag, hactive]
          simp [Active.bag, Item.works, Item.drives]
        rw [returned_of_get hstage, hflag] at hzero
        simp at hzero
  | _ => simp [Thread.isWorker] at hcaller

end Pool

namespace Futures

variable {futures next : Futures Fn Value Error} {event : Event Fn Value Error}

/-- Every worker waits in `get` or `wait` for a state that is not completed. -/
def Deadlocked (futures : Futures Fn Value Error) : Prop :=
  ∀ thread, futures.pool.threads[thread]?.any Thread.isWorker = true →
    ∃ call ∈ futures.calls, call.thread = thread ∧
      ¬Completed futures.pool.memory.states call.state

/-- From one state on to another no task starts, no future that someone had becomes
ready, and no call on such a future returns. -/
structure Stuck (earlier later : Futures Fn Value Error) : Prop where
  started : later.pool.memory.started = earlier.pool.memory.started
  pending : ∀ state, Returned earlier.pool.memory.states state →
    Completed later.pool.memory.states state → Completed earlier.pool.memory.states state
  calls : ∀ call ∈ earlier.calls, ¬Completed earlier.pool.memory.states call.state →
    call ∈ later.calls

theorem Stuck.refl (futures : Futures Fn Value Error) : futures.Stuck futures :=
  ⟨rfl, fun _ _ => id, fun _ hcall _ => hcall⟩

theorem Stuck.trans {earlier middle later : Futures Fn Value Error}
    (hfirst : earlier.Stuck middle) (hsecond : middle.Stuck later)
    (hextends : earlier.pool.memory.Extends middle.pool.memory)
    (hreturned : ∀ call ∈ earlier.calls, Returned earlier.pool.memory.states call.state) :
    earlier.Stuck later where
  started := hsecond.started.trans hfirst.started
  pending := fun state hstate hcompleted =>
    hfirst.pending state hstate (hsecond.pending state (hstate.persists hextends) hcompleted)
  calls := fun call hcall hpending =>
    hsecond.calls call (hfirst.calls call hcall hpending)
      fun hcompleted => hpending (hfirst.pending call.state (hreturned call hcall) hcompleted)

/-- A thread that is in no call is no worker of a deadlocked pool. -/
theorem Deadlocked.not_isWorker (hdeadlocked : futures.Deadlocked) {thread : ℕ}
    (hfree : futures.callOf thread = none) :
    futures.pool.threads[thread]?.any Thread.isWorker = false := by
  by_contra hworker
  rw [Bool.not_eq_false] at hworker
  obtain ⟨call, hcall, hthread, _⟩ := hdeadlocked thread hworker
  exact callOf_eq_none.mp hfree call hcall hthread

theorem stuck_step (hlawful : futures.pool.Lawful) (hholds : futures.HoldsCalls)
    (hdeadlocked : futures.Deadlocked) (hstep : futures.step event = some next) :
    futures.Stuck next := by
  cases stepped_of_step hstep with
  | pool event pool hfree hpool =>
      obtain ⟨hstarted, hpending⟩ :=
        Pool.caller_step hlawful (hdeadlocked.not_isWorker hfree) hpool
      exact ⟨hstarted, hpending, fun _ hcall _ => hcall⟩
  | noState => exact ⟨rfl, fun _ _ => id, fun _ hcall _ => hcall⟩
  | access thread state access stage hfree huser hstage hreturned =>
      refine ⟨rfl, fun other _ hcompleted => ?_, fun _ hcall _ => List.mem_cons_of_mem _ hcall⟩
      rw [← completed_eq_one_iff] at hcompleted ⊢
      exact (completed_getFuture hstage other).symm.trans hcompleted
  | ready thread call stage completion hcall hstage hpromise =>
      refine ⟨rfl, fun _ _ => id, fun other hother hpending => ?_⟩
      refine List.mem_filter.mpr ⟨hother, ?_⟩
      by_contra hsame
      have heq : other.thread = call.thread := by simpa using hsame
      have hmem := (callOf_mem hcall).1
      obtain rfl : other = call := List.inj_on_of_nodup_map hholds.once hother hmem heq
      exact hpending ⟨stage, hstage, by rw [hpromise]; rfl⟩

theorem Deadlocked.step (hdeadlocked : futures.Deadlocked) (hholds : futures.HoldsCalls)
    (hstuck : futures.Stuck next) (hstep : futures.step event = some next) :
    next.Deadlocked := by
  intro thread hworker
  rw [any_isWorker_step hstep] at hworker
  obtain ⟨call, hcall, hthread, hpending⟩ := hdeadlocked thread hworker
  refine ⟨call, hstuck.calls call hcall hpending, hthread, fun hcompleted => hpending ?_⟩
  exact hstuck.pending call.state (hholds.returned call hcall) hcompleted

/-- When every worker waits for a future that is not ready, it is so for ever: in every
continuation of the run all workers stay in these calls, no task starts, and no future
that user code had becomes ready. -/
theorem deadlocked_for_ever {workers callers : ℕ} {events later : List (Event Fn Value Error)}
    {final : Futures Fn Value Error}
    (hrun : run step (start workers callers) events = some futures)
    (hdeadlocked : futures.Deadlocked) (hlater : run step futures later = some final) :
    final.Deadlocked ∧ futures.Stuck final := by
  have hlawful := lawful_of_run hrun
  have hholds := holdsCalls_of_run hrun
  let invariant (middle : Futures Fn Value Error) : Prop :=
    middle.pool.Lawful ∧ middle.HoldsCalls ∧ middle.Deadlocked ∧ futures.Stuck middle ∧
      futures.pool.memory.Extends middle.pool.memory
  have hstep : ∀ (middle : Futures Fn Value Error) (event : Event Fn Value Error)
      (after : Futures Fn Value Error), invariant middle → middle.step event = some after →
      invariant after := by
    intro middle event after ⟨hlawful, hcalls, hdead, hstuck, hextends⟩ hafter
    have hnext := stuck_step hlawful hcalls hdead hafter
    exact ⟨lawful_step hlawful hafter, holdsCalls_step hcalls hafter,
      hdead.step hcalls hnext hafter, hstuck.trans hnext hextends hholds.returned,
      hextends.trans (extends_step hafter)⟩
  have hstart : invariant futures :=
    ⟨hlawful, hholds, hdeadlocked, .refl futures, .refl futures.pool.memory⟩
  obtain ⟨_, _, hdead, hstuck, _⟩ := run_invariant hstep hstart hlater
  exact ⟨hdead, hstuck⟩

/-- The task of the only worker posts `8` and waits for its result. -/
def innerGetEvents : List (Event ℕ ℕ ℕ) :=
  inPool ([⟨1, .call (.post 7)⟩] ++ turns 1 3 ++ [⟨1, .notifyOne 0⟩] ++ turns 0 2 ++
    [⟨0, .call (.post 8)⟩] ++ turns 0 3 ++ [⟨0, .notifyOne 0⟩]) ++ [.access 0 (some 1) .get]

def innerGet : Futures ℕ ℕ ℕ where
  pool :=
    { memory :=
        { (Pool.start 1 1 : Pool ℕ ℕ ℕ).memory with
          queues := [[⟨1, .promised 1 8⟩]]
          roundIndex := 2
          unfinished := 2
          states := [⟨.fresh, .posted 7, true⟩,
            ⟨⟨none, true, none, false, false⟩, .posted 8, true⟩]
          issued := 2
          pushed := [0, 1]
          started := [0]
          ran := [⟨0, 7, none⟩] }
      threads := [.worker 0 (.running 0 ⟨none, [.run 7 none (some 0)]⟩), .caller .idle] }
  calls := [⟨0, 1, .get⟩]
  seen := []

/-- The caller posts another task and waits for it. -/
def innerGetLater : List (Event ℕ ℕ ℕ) :=
  inPool ([⟨1, .call (.post 9)⟩] ++ turns 1 3 ++ [⟨1, .notifyOne 0⟩]) ++ [.access 1 (some 2) .wait]

theorem deadlocked_innerGet : ∃ final : Futures ℕ ℕ ℕ,
    run step innerGet innerGetLater = some final ∧ final.Deadlocked ∧ innerGet.Stuck final := by
  have hrun : run step (start 1 1) innerGetEvents = some innerGet := by decide
  have hdeadlocked : innerGet.Deadlocked := by
    intro thread hworker
    cases thread with
    | zero =>
        refine ⟨⟨0, 1, .get⟩, List.mem_cons_self, rfl, ?_⟩
        rintro ⟨stage, hstage, hpromise⟩
        obtain rfl := Option.some.inj hstage
        simp at hpromise
    | succ thread =>
        cases thread with
        | zero => simp [innerGet, Thread.isWorker] at hworker
        | succ thread => simp [innerGet] at hworker
  have hsome : (run step innerGet innerGetLater).isSome = true := by decide
  obtain ⟨final, hlater⟩ := Option.isSome_iff_exists.mp hsome
  exact ⟨final, hlater, deadlocked_for_ever hrun hdeadlocked hlater⟩

end Futures

end RpcDemo.Threadpool
