import RpcDemo.Threadpool.Chains
import RpcDemo.Threadpool.Waking

/-!
# Futures in the hands of user code

`get` and `wait` of a future block the thread that calls them until the shared
state is completed, and that thread makes no step of the pool meanwhile.  The pool
steps as it does without them.
-/

namespace RpcDemo.Threadpool

open Ledger Transition

variable {Fn Value Error : Type}

/-- The members of `Future` that wait for the result. -/
inductive Access
  | get
  | wait
  deriving DecidableEq

/-- What a call of one of them tells user code: the `no_state` exception of a future
without shared state, the return of `wait`, or the result that `get` returns or
throws. -/
inductive Seen (Value Error : Type)
  | noState
  | ready (state : ℕ)
  | result (state : ℕ) (completion : Completion Value Error)
  deriving DecidableEq

/-- A call that has not returned. -/
structure FutureCall where
  thread : ℕ
  state : ℕ
  access : Access
  deriving DecidableEq

def FutureCall.sees (call : FutureCall) (completion : Completion Value Error) :
    Seen Value Error :=
  match call.access with
  | .get => .result call.state completion
  | .wait => .ready call.state

/-- A function of the user runs, or the thread's own code. -/
def Thread.inUser : Thread Fn Value Error → Bool
  | .caller ⟨none, stack⟩ => Code.isUser stack
  | .worker _ (.running _ ⟨none, frame :: stack⟩) => Code.isUser (frame :: stack)
  | _ => false

/-- The section of `get_future`. -/
def Pool.retrieve (pool : Pool Fn Value Error) (state : ℕ) (stage : Stage Fn Value Error) :
    Pool Fn Value Error :=
  { pool with memory := pool.memory.setCell state stage stage.cell.getFuture }

/-- A pool, the calls its threads block in, and what such calls have told. -/
structure Futures (Fn Value Error : Type) where
  pool : Pool Fn Value Error
  calls : List FutureCall
  seen : List (ℕ × Seen Value Error)
  deriving DecidableEq

namespace Futures

inductive Event (Fn Value Error : Type)
  | pool (event : Threadpool.Event Fn Value Error)
  | access (thread : ℕ) (future : Option ℕ) (access : Access)
  | ready (thread : ℕ)
  deriving DecidableEq

def Event.thread : Event Fn Value Error → ℕ
  | .pool event => event.thread
  | .access thread _ _ => thread
  | .ready thread => thread

/-- Events of the pool alone. -/
def inPool (events : List (Threadpool.Event Fn Value Error)) : List (Event Fn Value Error) :=
  events.map .pool

def start (workers callers : ℕ) : Futures Fn Value Error :=
  ⟨Pool.start workers callers, [], []⟩

def callOf (futures : Futures Fn Value Error) (thread : ℕ) : Option FutureCall :=
  futures.calls.find? fun call => call.thread = thread

/-- The call of `get` or `wait`, up to the wait on the `shared_future`.  User code has
a future once it was returned. -/
def access (futures : Futures Fn Value Error) (thread : ℕ) (access : Access) :
    Option ℕ → Option (Futures Fn Value Error)
  | none => some { futures with seen := futures.seen ++ [(thread, .noState)] }
  | some state =>
      futures.pool.memory.states[state]?.bind fun stage =>
        if stage.returned then
          some { futures with
            pool := futures.pool.retrieve state stage
            calls := ⟨thread, state, access⟩ :: futures.calls }
        else none

/-- The `shared_future` is ready, and the call returns. -/
def ready (futures : Futures Fn Value Error) (call : FutureCall) :
    Option (Futures Fn Value Error) :=
  futures.pool.memory.states[call.state]?.bind fun stage =>
    stage.cell.promise.map fun completion =>
      { futures with
        calls := futures.calls.filter fun other => other.thread ≠ call.thread
        seen := futures.seen ++ [(call.thread, call.sees completion)] }

def step (futures : Futures Fn Value Error) :
    Event Fn Value Error → Option (Futures Fn Value Error)
  | .pool event =>
      if (futures.callOf event.thread).isSome then none
      else (futures.pool.step event).map fun pool => { futures with pool := pool }
  | .access thread future access =>
      if futures.pool.memory.terminated then none
      else if (futures.callOf thread).isSome then none
      else if futures.pool.threads[thread]?.any Thread.inUser then
        futures.access thread access future
      else none
  | .ready thread =>
      if futures.pool.memory.terminated then none
      else (futures.callOf thread).bind futures.ready

/-! ## What a step does -/

/-- All a step can do, with the guards it passed. -/
inductive Stepped (futures : Futures Fn Value Error) :
    Event Fn Value Error → Futures Fn Value Error → Prop
  | pool (event : Threadpool.Event Fn Value Error) (next : Pool Fn Value Error)
      (hfree : futures.callOf event.thread = none)
      (hstep : futures.pool.step event = some next) :
      Stepped futures (.pool event) { futures with pool := next }
  | noState (thread : ℕ) (access : Access) :
      Stepped futures (.access thread none access)
        { futures with seen := futures.seen ++ [(thread, .noState)] }
  | access (thread state : ℕ) (access : Access) (stage : Stage Fn Value Error)
      (hfree : futures.callOf thread = none)
      (huser : futures.pool.threads[thread]?.any Thread.inUser = true)
      (hstage : futures.pool.memory.states[state]? = some stage)
      (hreturned : stage.returned = true) :
      Stepped futures (.access thread (some state) access)
        { futures with
          pool := futures.pool.retrieve state stage
          calls := ⟨thread, state, access⟩ :: futures.calls }
  | ready (thread : ℕ) (call : FutureCall) (stage : Stage Fn Value Error)
      (completion : Completion Value Error) (hcall : futures.callOf thread = some call)
      (hstage : futures.pool.memory.states[call.state]? = some stage)
      (hpromise : stage.cell.promise = some completion) :
      Stepped futures (.ready thread)
        { futures with
          calls := futures.calls.filter fun other => other.thread ≠ call.thread
          seen := futures.seen ++ [(call.thread, call.sees completion)] }

variable {futures next : Futures Fn Value Error} {event : Event Fn Value Error}

theorem stepped_of_step (hstep : futures.step event = some next) :
    futures.Stepped event next := by
  cases event with
  | pool event =>
      simp only [step, Option.ite_none_left_eq_some, Option.map_eq_some_iff,
        Option.not_isSome_iff_eq_none] at hstep
      obtain ⟨hfree, pool, hpool, rfl⟩ := hstep
      exact .pool event pool hfree hpool
  | access thread future access =>
      simp only [step, Option.ite_none_left_eq_some, Option.ite_none_right_eq_some,
        Option.not_isSome_iff_eq_none] at hstep
      obtain ⟨-, hfree, huser, hstep⟩ := hstep
      cases future with
      | none => exact Option.some.inj hstep ▸ .noState thread access
      | some state =>
          simp only [Futures.access, Option.bind_eq_some_iff, Option.ite_none_right_eq_some,
            Option.some.injEq] at hstep
          obtain ⟨stage, hstage, hreturned, rfl⟩ := hstep
          exact .access thread state access stage hfree huser hstage hreturned
  | ready thread =>
      simp only [step, Option.ite_none_left_eq_some, Option.bind_eq_some_iff, Futures.ready,
        Option.map_eq_some_iff] at hstep
      obtain ⟨-, call, hcall, stage, hstage, completion, hpromise, rfl⟩ := hstep
      exact .ready thread call stage completion hcall hstage hpromise

end Futures

/-! ## What a step leaves alone -/

/-- A notification wakes a thread or leaves it as it is. -/
theorem Signal.getElem?_deliver {signal : Signal} {threads woken : List (Thread Fn Value Error)}
    (hdeliver : signal.deliver threads = some woken) (index : ℕ) :
    woken[index]? = threads[index]? ∨ woken[index]? = threads[index]?.map Thread.wakeWorker ∨
      woken[index]? = threads[index]?.map Thread.wakeWaiter := by
  cases signal with
  | quiet =>
      obtain rfl := Option.some.inj hdeliver
      exact .inl rfl
  | oneWorker position =>
      simp only [deliver] at hdeliver
      split at hdeliver
      · split at hdeliver
        · obtain rfl := Option.some.inj hdeliver
          by_cases heq : position = index
          · subst heq
            exact .inr (.inl (List.getElem?_modify_eq _ _ _))
          · exact .inl (List.getElem?_modify_ne _ _ heq)
        · simp at hdeliver
      · obtain rfl := Option.some.inj hdeliver
        exact .inl rfl
  | allWorkers =>
      obtain rfl := Option.some.inj hdeliver
      exact .inr (.inl List.getElem?_map)
  | waiters =>
      obtain rfl := Option.some.inj hdeliver
      exact .inr (.inr List.getElem?_map)

namespace Thread

theorem wake_of_inUser {thread : Thread Fn Value Error} (huser : thread.inUser = true) :
    thread.wakeWorker = thread ∧ thread.wakeWaiter = thread := by
  cases thread with
  | caller code =>
      obtain ⟨active, stack⟩ := code
      cases active with
      | none => exact ⟨rfl, rfl⟩
      | some active => simp [inUser] at huser
  | worker id point =>
      cases point with
      | running task code =>
          obtain ⟨active, stack⟩ := code
          cases active with
          | none => exact ⟨rfl, rfl⟩
          | some active => simp [inUser] at huser
      | _ => simp [inUser] at huser

@[simp]
theorem isWorker_wakeWorker (thread : Thread Fn Value Error) :
    thread.wakeWorker.isWorker = thread.isWorker := by
  unfold wakeWorker
  split <;> rfl

@[simp]
theorem isWorker_wakeWaiter (thread : Thread Fn Value Error) :
    thread.wakeWaiter.isWorker = thread.isWorker := by
  unfold wakeWaiter
  split <;> rfl

end Thread

namespace Pool

variable {pool next : Pool Fn Value Error} {event : Threadpool.Event Fn Value Error}
variable {thread other : Thread Fn Value Error} {progress : Progress Fn Value Error}

/-- Another thread that no notification reaches stays where it is. -/
theorem Stepped.getElem?_of_ne (hstepped : pool.Stepped event next thread progress) {index : ℕ}
    (hne : event.thread ≠ index) (hother : pool.threads[index]? = some other)
    (hworker : other.wakeWorker = other) (hwaiter : other.wakeWaiter = other) :
    next.threads[index]? = some other := by
  have hset : (pool.threads.set event.thread progress.thread)[index]? = some other := by
    rw [List.getElem?_set_ne hne, hother]
  obtain heq | heq | heq := Signal.getElem?_deliver hstepped.threads index
  · rw [heq, hset]
  · rw [heq, hset, Option.map_some, hworker]
  · rw [heq, hset, Option.map_some, hwaiter]

/-- What neither the acting thread nor a notification changes. -/
theorem Stepped.map_view {View : Type*} {view : Thread Fn Value Error → View}
    (hstepped : pool.Stepped event next thread progress)
    (hworker : ∀ thread, view thread.wakeWorker = view thread)
    (hwaiter : ∀ thread, view thread.wakeWaiter = view thread)
    (hacted : view progress.thread = view thread) (index : ℕ) :
    next.threads[index]?.map view = pool.threads[index]?.map view := by
  have hset : (pool.threads.set event.thread progress.thread)[index]?.map view =
      pool.threads[index]?.map view := by
    by_cases heq : event.thread = index
    · subst heq
      have hlt := (List.getElem?_eq_some_iff.mp hstepped.found).1
      rw [List.getElem?_set_self hlt, hstepped.found, Option.map_some, Option.map_some, hacted]
    · rw [List.getElem?_set_ne heq]
  rw [← hset]
  obtain heq | heq | heq := Signal.getElem?_deliver hstepped.threads index
  · rw [heq]
  · rw [heq, Option.map_map]
    exact Option.map_congr fun thread _ => hworker thread
  · rw [heq, Option.map_map]
    exact Option.map_congr fun thread _ => hwaiter thread

/-- A worker stays a worker, and a caller a caller. -/
theorem Stepped.any_isWorker (hstepped : pool.Stepped event next thread progress) (index : ℕ) :
    next.threads[index]?.any Thread.isWorker = pool.threads[index]?.any Thread.isWorker := by
  have hview := hstepped.map_view Thread.isWorker_wakeWorker Thread.isWorker_wakeWaiter
    (Thread.isWorker_of_acted hstepped.acted) index
  have hany : ∀ thread : Option (Thread Fn Value Error),
      thread.any Thread.isWorker = (thread.map Thread.isWorker).getD false := by
    intro thread
    cases thread <;> rfl
  rw [hany, hany, hview]

end Pool

/-! ## Retrieving a future keeps the laws -/

namespace Pool

variable {pool : Pool Fn Value Error} {state : ℕ} {stage : Stage Fn Value Error}

theorem config_retrieve (hstage : pool.memory.states[state]? = some stage) :
    (pool.retrieve state stage).config =
      ⟨pool.config.bag, pool.memory.setCell state stage stage.cell.getFuture⟩ := by
  have hset := Memory.bag_setCell hstage stage.cell.getFuture
  have hbag : (pool.memory.setCell state stage stage.cell.getFuture).bag = pool.memory.bag :=
    add_right_cancel hset
  simp only [retrieve, config, hbag]

/-- Retrieving a future is a step of one cell. -/
theorem statesChange_retrieve (sources : Sources Fn Value Error)
    (hstage : pool.memory.states[state]? = some stage) :
    StatesChange sources pool.memory.states (pool.retrieve state stage).memory.states :=
  .getFuture pool.memory.states state stage hstage

theorem retrieve_pointwise {holds : ℕ → Stage Fn Value Error → Prop}
    (hstage : pool.memory.states[state]? = some stage)
    (hgetFuture : ∀ state stage, holds state stage →
      holds state { stage with cell := stage.cell.getFuture })
    (hstates : ∀ (state : ℕ) stage, pool.memory.states[state]? = some stage → holds state stage) :
    ∀ (other : ℕ) after, (pool.retrieve state stage).memory.states[other]? = some after →
      holds other after := by
  intro other after hafter
  have hlt := (List.getElem?_eq_some_iff.mp hstage).1
  by_cases heq : state = other
  · subst heq
    have hset : (pool.retrieve state stage).memory.states[state]? =
        some { stage with cell := stage.cell.getFuture } := List.getElem?_set_self hlt
    obtain rfl := Option.some.inj (hset.symm.trans hafter)
    exact hgetFuture state stage (hstates state stage hstage)
  · have hother : (pool.retrieve state stage).memory.states[other]? = pool.memory.states[other]? :=
      List.getElem?_set_ne heq
    exact hstates other after (hother.symm.trans hafter)

theorem extends_retrieve (hstage : pool.memory.states[state]? = some stage) :
    pool.memory.Extends (pool.retrieve state stage).memory where
  states := fun _ _ hbefore =>
    (statesChange_retrieve (pool.memory.sources []) hstage).persists hbefore
  pushed := fun _ hid => hid
  results := fun _ hresult => hresult
  lost := fun _ hpackage => hpackage
  threw := fun _ hfn => hfn
  exited := List.prefix_rfl

theorem driven_retrieve (hdriven : pool.config.Driven)
    (hstage : pool.memory.states[state]? = some stage) :
    (pool.retrieve state stage).config.Driven := by
  obtain ⟨hcells, htried, hbalance⟩ := hdriven
  constructor
  · exact retrieve_pointwise hstage (fun _ _ hcell => hcell.getFuture) hcells
  · rw [config_retrieve hstage]
    simp only [completed_getFuture hstage]
    exact htried
  · rw [config_retrieve hstage]
    simp only [completed_getFuture hstage, made_setCell]
    exact hbalance

theorem sound_retrieve (hsound : pool.config.Sound)
    (hstage : pool.memory.states[state]? = some stage) :
    (pool.retrieve state stage).config.Sound := by
  have hextends := extends_retrieve hstage
  obtain ⟨hitems, hran, hpromises, hslots, hignored, horigins⟩ := hsound
  constructor
  · rw [config_retrieve hstage]
    exact fun item hitem => (hitems item hitem).persists hextends
  · constructor
    · exact fun execution hexecution => (hran execution hexecution).persists hextends
    · intro other after completion hafter hpromise
      have hkept := retrieve_pointwise hstage (fun _ _ hholds => hholds)
        (fun other before hbefore => hpromises other before completion hbefore) other after hafter
      exact (hkept hpromise).persists hextends
    · intro other after hafter callable hslot
      have hkept := retrieve_pointwise hstage (fun _ _ hholds => hholds) hslots other after hafter
      obtain ⟨hreturned, cont, inlineExec, hcallable, hupstream, hlinked⟩ := hkept callable hslot
      exact ⟨hreturned, cont, inlineExec, hcallable, hupstream, hlinked.persists hextends⟩
    · exact fun cont hcont => (hignored cont hcont).persists hextends
    · intro other after upstream fn hafter horigin
      have hkept := retrieve_pointwise hstage (fun _ _ hholds => hholds)
        (fun other before hbefore => horigins other before upstream fn hbefore) other after hafter
      obtain ⟨hlt, hreturned⟩ := hkept horigin
      exact ⟨hlt, hreturned.persists hextends⟩

theorem coherent_retrieve (hcoherent : pool.config.Coherent)
    (hstage : pool.memory.states[state]? = some stage) :
    (pool.retrieve state stage).config.Coherent where
  conserved := by
    obtain ⟨hissued, hplaced, hstarted, hcounted⟩ := hcoherent.conserved
    rw [config_retrieve hstage]
    exact ⟨hissued, hplaced, hstarted, hcounted⟩
  driven := driven_retrieve hcoherent.driven hstage
  handedOut := by
    rw [config_retrieve hstage, Config.HandedOut]
    simp only [returned_setCell hstage, made_setCell]
    exact hcoherent.handedOut
  attachedTo := by
    rw [config_retrieve hstage]
    simp only [Config.AttachedTo, completed_getFuture hstage, occupied_getFuture hstage,
      attachments_setCell hstage]
    exact hcoherent.attachedTo
  invoked := by
    obtain ⟨hresumed, hran⟩ := hcoherent.invoked
    rw [config_retrieve hstage]
    constructor
    · simp only [continued_setCell hstage]
      exact hresumed
    · simp only [made_setCell]
      exact hran
  sound := sound_retrieve hcoherent.sound hstage
  calm := by
    rw [config_retrieve hstage]
    exact hcoherent.calm

theorem Lawful.retrieve (hlawful : pool.Lawful)
    (hstage : pool.memory.states[state]? = some stage) : (pool.retrieve state stage).Lawful :=
  ⟨coherent_retrieve hlawful.coherent hstage, hlawful.covered⟩

end Pool

/-! ## Runs -/

namespace Futures

variable {futures next : Futures Fn Value Error} {event : Event Fn Value Error}

theorem lawful_step (hlawful : futures.pool.Lawful) (hstep : futures.step event = some next) :
    next.pool.Lawful := by
  cases stepped_of_step hstep with
  | pool event pool hfree hpool => exact hlawful.step hpool
  | access thread state access stage hfree huser hstage => exact hlawful.retrieve hstage
  | noState | ready => exact hlawful

theorem extends_step (hstep : futures.step event = some next) :
    futures.pool.memory.Extends next.pool.memory := by
  cases stepped_of_step hstep with
  | pool event pool hfree hpool =>
      exact Pool.extends_of_run (run_cons.mpr ⟨pool, hpool, run_nil pool⟩)
  | access thread state access stage hfree huser hstage => exact Pool.extends_retrieve hstage
  | noState | ready => exact .refl _

theorem any_isWorker_step (hstep : futures.step event = some next) (index : ℕ) :
    next.pool.threads[index]?.any Thread.isWorker =
      futures.pool.threads[index]?.any Thread.isWorker := by
  cases stepped_of_step hstep with
  | pool event pool hfree hpool =>
      obtain ⟨thread, progress, hstepped⟩ := Pool.stepped_of_step hpool
      exact hstepped.any_isWorker index
  | noState | access | ready => rfl

theorem lawful_of_run {workers callers : ℕ} {events : List (Event Fn Value Error)}
    (hrun : run step (start workers callers) events = some futures) : futures.pool.Lawful := by
  have hstart : (start workers callers : Futures Fn Value Error).pool.Lawful :=
    ⟨Pool.start_coherent workers callers, Pool.start_covered workers callers⟩
  exact run_invariant (fun _ _ _ => lawful_step) hstart hrun

theorem extends_of_run {events : List (Event Fn Value Error)}
    (hrun : run step futures events = some next) :
    futures.pool.memory.Extends next.pool.memory := by
  have hstep : ∀ (middle : Futures Fn Value Error) (event : Event Fn Value Error)
      (after : Futures Fn Value Error), futures.pool.memory.Extends middle.pool.memory →
      middle.step event = some after → futures.pool.memory.Extends after.pool.memory :=
    fun _ _ _ hextends hafter => hextends.trans (extends_step hafter)
  exact run_invariant hstep (.refl futures.pool.memory) hrun

/-! ## The calls that have not returned -/

/-- A thread is in one such call at most, made by user code on a future it has. -/
structure HoldsCalls (futures : Futures Fn Value Error) : Prop where
  once : (futures.calls.map FutureCall.thread).Nodup
  inUser : ∀ call ∈ futures.calls,
    futures.pool.threads[call.thread]?.any Thread.inUser = true
  returned : ∀ call ∈ futures.calls, Returned futures.pool.memory.states call.state

theorem callOf_mem {thread : ℕ} {call : FutureCall} (hcall : futures.callOf thread = some call) :
    call ∈ futures.calls ∧ call.thread = thread :=
  ⟨List.mem_of_find?_eq_some hcall, by simpa using List.find?_some hcall⟩

theorem callOf_eq_none {thread : ℕ} :
    futures.callOf thread = none ↔ ∀ call ∈ futures.calls, call.thread ≠ thread := by
  simp [callOf]

/-- The call a thread is in. -/
theorem HoldsCalls.callOf_eq (hholds : futures.HoldsCalls) {call : FutureCall}
    (hcall : call ∈ futures.calls) : futures.callOf call.thread = some call := by
  cases hfound : futures.callOf call.thread with
  | none => exact absurd rfl (callOf_eq_none.mp hfound call hcall)
  | some other =>
      obtain ⟨hother, hthread⟩ := callOf_mem hfound
      rw [List.inj_on_of_nodup_map hholds.once hother hcall hthread]

theorem holdsCalls_step (hholds : futures.HoldsCalls) (hstep : futures.step event = some next) :
    next.HoldsCalls := by
  have hextends := extends_step hstep
  obtain ⟨honce, huser, hreturned⟩ := hholds
  cases stepped_of_step hstep with
  | pool event pool hfree hpool =>
      obtain ⟨thread, progress, hstepped⟩ := Pool.stepped_of_step hpool
      refine ⟨honce, fun call hcall => ?_, fun call hcall =>
        (hreturned call hcall).persists hextends⟩
      obtain ⟨other, hother, hinUser⟩ := (Option.any_eq_true _ _).mp (huser call hcall)
      obtain ⟨hworker, hwaiter⟩ := Thread.wake_of_inUser hinUser
      have hne : event.thread ≠ call.thread := (callOf_eq_none.mp hfree call hcall).symm
      rw [hstepped.getElem?_of_ne hne hother hworker hwaiter]
      exact hinUser
  | noState => exact ⟨honce, huser, hreturned⟩
  | access thread state access stage hfree hinUser hstage hflag =>
      have hnew : thread ∉ futures.calls.map FutureCall.thread := by
        intro hmem
        obtain ⟨call, hcall, hthread⟩ := List.mem_map.mp hmem
        exact callOf_eq_none.mp hfree call hcall hthread
      refine ⟨List.nodup_cons.mpr ⟨hnew, honce⟩, ?_, ?_⟩
      · exact List.forall_mem_cons.mpr ⟨hinUser, huser⟩
      · have hlast : Returned futures.pool.memory.states state := ⟨stage, hstage, hflag⟩
        exact List.forall_mem_cons.mpr ⟨hlast.persists hextends,
          fun call hcall => (hreturned call hcall).persists hextends⟩
  | ready thread call stage completion hcall hstage hpromise =>
      refine ⟨?_, fun call hmem => ?_, fun call hmem => ?_⟩
      · exact (List.filter_sublist.map FutureCall.thread).nodup honce
      · exact huser call (List.mem_filter.mp hmem).1
      · exact hreturned call (List.mem_filter.mp hmem).1

theorem holdsCalls_of_run {workers callers : ℕ} {events : List (Event Fn Value Error)}
    (hrun : run step (start workers callers) events = some futures) : futures.HoldsCalls := by
  have hstart : (start workers callers : Futures Fn Value Error).HoldsCalls := by
    constructor <;> simp [start]
  exact run_invariant (fun _ _ _ => holdsCalls_step) hstart hrun

end Futures

end RpcDemo.Threadpool
