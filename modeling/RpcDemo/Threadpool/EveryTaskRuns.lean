import RpcDemo.Threadpool.FutureResults
import RpcDemo.Threadpool.WaitReturns
import RpcDemo.Threadpool.Working

/-!
# Every task runs

Threads that go on, each for as long as it can, finish everything: when user code in
good use makes no more calls, a time comes from which on no task is queued or held,
every future is ready, and no call waits any more.
-/

namespace RpcDemo.Threadpool

open Ledger Transition

variable {Fn Value Error : Type}

theorem Role.counts_of_ne {role : Role}
    (hrole : ¬(role = .posting ∨ role = .announcing ∨ role = .waiting .checked))
    (isWorker : Bool) :
    role.counts isWorker .posting = 0 ∧ role.counts isWorker .announcing = 0 ∧
      role.counts isWorker .waitChecked = 0 := by
  cases role with
  | posting | announcing => simp at hrole
  | waiting point => cases point <;> first | exact ⟨rfl, rfl, rfl⟩ | simp at hrole
  | _ => exact ⟨rfl, rfl, rfl⟩

theorem Code.counts_checked (code : Code Fn Value Error) (isWorker : Bool) :
    code.role.counts isWorker .checked = 0 := by
  unfold role
  split <;> rfl

theorem Thread.eq_of_checked {thread : Thread Fn Value Error}
    (hcounts : 0 < thread.counts .checked) : ∃ id, thread = .worker id (.wait .checked) := by
  cases thread with
  | caller code => exact absurd (code.counts_checked false) hcounts.ne'
  | worker id point =>
      cases point with
      | running task code => exact absurd (code.counts_checked true) hcounts.ne'
      | wait point =>
          cases point <;> first | exact ⟨id, rfl⟩ | simp [counts, role, Role.counts] at hcounts
      | _ => simp [counts, role, Role.counts] at hcounts

namespace Futures

variable {workers : ℕ} {futures next : Futures Fn Value Error} {event : Event Fn Value Error}

/-! ## A look for a task -/

/-- It keeps the load and the work of the other threads. -/
theorem keeps_of_searched (horderly : futures.Orderly workers) (hgoesOn : futures.GoesOn event)
    (hstep : futures.step event = some next) (hidle : ¬futures.HasWork event.thread) :
    next.load = futures.load ∧ (∀ thread, futures.HasWork thread → next.HasWork thread) ∧
      (next.Queued ↔ futures.Queued) := by
  obtain ⟨hfree, id, point, point', hfound, hsearched, hnext⟩ :=
    searched_of_step horderly hgoesOn hstep hidle
  obtain ⟨hqueues, hstates, hlockWait⟩ := hsearched.keeps
  have hthreads : next.pool.threads =
      futures.pool.threads.set event.thread (.worker id point') := by rw [hnext]
  have hcalls : next.calls = futures.calls := by rw [hnext]
  refine ⟨?_, fun thread hwork => ?_, ?_⟩
  · obtain ⟨hafter, hbefore⟩ := hsearched.load futures.pool.threads.length
    have hset : total (Thread.load futures.pool.threads.length)
        (futures.pool.threads.set event.thread (.worker id point')) +
          Thread.load futures.pool.threads.length (.worker id point) =
        total (Thread.load futures.pool.threads.length) futures.pool.threads +
          Thread.load futures.pool.threads.length (.worker id point') :=
      total_set _ hfound
    rw [hafter, hbefore, add_zero, add_zero] at hset
    rw [load, load, Pool.load, Pool.load, hthreads, hcalls, List.length_set, hset, Memory.load,
      Memory.load, hqueues, hstates]
  · have hcallOf : next.callOf thread = futures.callOf thread := by rw [callOf, callOf, hcalls]
    have hother : thread ≠ event.thread := fun heq => hidle (heq ▸ hwork)
    have hsame : next.pool.threads[thread]? = futures.pool.threads[thread]? := by
      rw [hthreads, List.getElem?_set_ne hother.symm]
    have hhas : Thread.hasWork next.pool.memory = Thread.hasWork futures.pool.memory := by
      funext other
      cases other with
      | caller code => rw [Thread.hasWork, Thread.hasWork, hlockWait]
      | worker id point => rw [Thread.hasWork, Thread.hasWork, hqueues]
    simpa only [HasWork, hcallOf, hsame, hhas, hstates] using hwork
  · rw [Queued, Queued, Memory.HasTask, Memory.HasTask, hqueues]

theorem unfinished_pos (horderly : futures.Orderly workers) (hqueued : futures.Queued) :
    futures.pool.memory.gate.tasks ≠ 0 ∧ 0 < futures.pool.memory.unfinished := by
  obtain ⟨queue, hmem, hqueue⟩ := hqueued
  have htasks : futures.pool.memory.gate.tasks ≠ 0 := by
    simp only [Memory.gate, ne_eq, List.length_eq_zero_iff, List.flatten_eq_nil_iff, not_forall]
    exact ⟨queue, hmem, hqueue⟩
  exact ⟨htasks, Pool.tasks_pos horderly.pool.lawful.coherent.conserved htasks⟩

/-- While tasks are queued it comes nearer to one, or is in front of one. -/
theorem nears_of_searched (horderly : futures.Orderly workers) (hbound : workers ≤ 2 ^ 64)
    (hgoesOn : futures.GoesOn event) (hstep : futures.step event = some next)
    (hnone : ∀ thread, ¬futures.HasWork thread) (hqueued : futures.Queued) :
    (∃ thread, next.HasWork thread) ∨ next.pool.search < futures.pool.search := by
  obtain ⟨hfree, id, point, point', hfound, hsearched, hnext⟩ :=
    searched_of_step horderly hgoesOn hstep (hnone _)
  obtain ⟨hqueues, -, -⟩ := hsearched.keeps
  have hlength := horderly.pool.memory.workers
  have hthreads : next.pool.threads =
      futures.pool.threads.set event.thread (.worker id point') := by rw [hnext]
  have hcalls : next.calls = futures.calls := by rw [hnext]
  obtain hworks | hlower := hsearched.nears hqueued
    ((horderly.pool.worker hfound).2.trans_eq hlength.symm) (hlength.trans_le hbound)
    horderly.pool.memory.round (unfinished_pos horderly hqueued).2
  · left
    have hfree' : next.callOf event.thread = none := by
      rw [← hfree, callOf, callOf, hcalls]
    have hlt := (List.getElem?_eq_some_iff.mp hfound).1
    refine ⟨event.thread, ?_⟩
    rw [hasWork_of_free hfree', hthreads, List.getElem?_set_self hlt, Option.any_some,
      Thread.hasWork, hworks]
    rfl
  · right
    have hset : total (Thread.away futures.pool.memory.queues)
        (futures.pool.threads.set event.thread (.worker id point')) +
          Thread.away futures.pool.memory.queues (.worker id point) =
        total (Thread.away futures.pool.memory.queues) futures.pool.threads +
          Thread.away futures.pool.memory.queues (.worker id point') :=
      total_set _ hfound
    rw [Pool.search, Pool.search, hthreads, hqueues]
    omega

/-- When no thread has work, no one is about to notify, or to block in `wait()`. -/
theorem tally_of_no_work (horderly : futures.Orderly workers)
    (hnone : ∀ thread, ¬futures.HasWork thread) :
    tally futures.pool.threads .posting = 0 ∧ tally futures.pool.threads .announcing = 0 ∧
      tally futures.pool.threads .waitChecked = 0 := by
  have hrole : ∀ thread ∈ futures.pool.threads, ¬(thread.role = .posting ∨
      thread.role = .announcing ∨ thread.role = .waiting .checked) := by
    intro thread hthread hrole
    obtain ⟨index, hindex⟩ := List.mem_iff_getElem?.mp hthread
    obtain ⟨hwork, huser⟩ := Thread.hasWork_of_role futures.pool.memory hrole
    exact hnone index (hasWork_of_not_inUser horderly.calls hindex huser hwork)
  exact ⟨total_eq_zero fun thread hthread => (Role.counts_of_ne (hrole thread hthread) _).1,
    total_eq_zero fun thread hthread => (Role.counts_of_ne (hrole thread hthread) _).2.1,
    total_eq_zero fun thread hthread => (Role.counts_of_ne (hrole thread hthread) _).2.2⟩

/-- A worker that looks for a task goes on unless it waits for the mutex. -/
theorem enabled_of_ready (horderly : futures.Orderly workers)
    (hnone : ∀ thread, ¬futures.HasWork thread) {thread : Thread Fn Value Error}
    (hthread : thread ∈ futures.pool.threads) (hready : 0 < thread.counts .ready)
    (hlock : futures.pool.memory.lockTh = false) :
    ∃ thread, Enabled step Event.thread GoesOn thread futures := by
  obtain ⟨index, hindex⟩ := List.mem_iff_getElem?.mp hthread
  obtain ⟨hworker, -⟩ := Thread.isWorker_of_ready hready
  cases thread with
  | caller code => simp [Thread.isWorker] at hworker
  | worker id point =>
      have hid := (horderly.pool.worker hindex).2
      have htidy := horderly.pool.tidy _ hthread
      rw [← horderly.pool.memory.workers] at hid
      have hgo : (Thread.worker id point).inUser = false →
          (Thread.worker id point).act futures.pool.memory .turn ≠ none →
          ∃ thread, Enabled step Event.thread GoesOn thread futures :=
        fun huser hact => ⟨index, enabled_of_step
          (callOf_of_not_inUser horderly.calls hindex huser) rfl
          (Pool.step_ne_none horderly.pool.alive hindex (by simp) hact)⟩
      cases point with
      | running task code => exact absurd (hasWork_of_worker horderly hindex rfl) (hnone index)
      | notify => exact absurd (hasWork_of_worker horderly hindex rfl) (hnone index)
      | loop =>
          apply hgo rfl
          simp only [Thread.act, Thread.workTurn]
          split <;> simp
      | own => exact hgo rfl (by simp [Thread.act, Thread.workTurn, hid])
      | pick => exact hgo rfl (by simp [Thread.act, Thread.workTurn])
      | steal victim =>
          have hvictim : victim < futures.pool.memory.queues.length :=
            horderly.pool.memory.workers.symm ▸ htidy
          exact hgo rfl (by simp [Thread.act, Thread.workTurn, hvictim])
      | wait point =>
          cases point with
          | check =>
              apply hgo rfl
              simp only [Thread.act, Thread.workTurn, Thread.waitTurn, hlock, Bool.false_eq_true,
                if_false]
              split <;> simp
          | checked | blocked => simp [Thread.counts, Thread.role, Role.counts] at hready
      | exited => exact htidy.elim

/-- A worker is awake while tasks are queued. -/
theorem awake_of_queued (horderly : futures.Orderly workers)
    (hnone : ∀ thread, ¬futures.HasWork thread) (hqueued : futures.Queued) :
    ∃ thread, Enabled step Event.thread GoesOn thread futures := by
  obtain ⟨hlocked, _, htasked, _⟩ := horderly.pool.wakes
  obtain ⟨hposting, _, _⟩ := tally_of_no_work horderly hnone
  have hready : 0 < tally futures.pool.threads .ready := by
    have := htasked (unfinished_pos horderly hqueued).1
    omega
  cases hlock : futures.pool.memory.lockTh with
  | false =>
      obtain ⟨thread, hthread, hcounts⟩ := total_pos_iff.mp hready
      exact enabled_of_ready horderly hnone hthread hcounts hlock
  | true =>
      -- the worker that holds the mutex is about to block
      have hchecked : 0 < tally futures.pool.threads .checked := by
        have hheld : futures.pool.memory.gate.lockTh = true := hlock
        rw [hlocked, hheld]
        exact Nat.one_pos
      obtain ⟨thread, hthread, hcounts⟩ := total_pos_iff.mp hchecked
      obtain ⟨index, hindex⟩ := List.mem_iff_getElem?.mp hthread
      obtain ⟨id, rfl⟩ := Thread.eq_of_checked hcounts
      have hstep : futures.pool.step ⟨index, .turn⟩ ≠ none :=
        Pool.step_ne_none horderly.pool.alive hindex (by simp)
          (by simp [Thread.act, Thread.workTurn, Thread.waitTurn])
      exact ⟨index, enabled_of_step (callOf_of_not_inUser horderly.calls hindex rfl) rfl hstep⟩

theorem searches (hbound : workers ≤ 2 ^ 64) :
    Searches step Event.thread GoesOn (Orderly workers) (fun futures => ¬futures.Queued) HasWork
      load (fun futures : Futures Fn Value Error => futures.pool.search) where
  enabled := fun horderly hwork => enabled_of_hasWork horderly hwork
  works := fun _ hgoesOn hstep hwork => load_lt hgoesOn hstep hwork
  keeps := by
    intro futures event next horderly hgoesOn hstep hidle
    obtain ⟨hload, hothers, hqueued⟩ := keeps_of_searched horderly hgoesOn hstep hidle
    exact ⟨hload, hothers, fun hdone hqueue => hdone (hqueued.mpr hqueue)⟩
  awake := fun horderly hnone hqueued => awake_of_queued horderly hnone (not_not.mp hqueued)
  nears := fun horderly hgoesOn hstep hnone hqueued =>
    nears_of_searched horderly hbound hgoesOn hstep hnone (not_not.mp hqueued)

/-! ## When nothing is left to do -/

/-- Everything is done: no thread is in a call or runs a task, no task is queued or
counted, every task made is finished, every shared state has its result, and no call
of `get` or `wait` is left. -/
structure Settled (futures : Futures Fn Value Error) : Prop where
  idle : ∀ thread ∈ futures.pool.threads, thread.code = .idle ∧ thread.task = none
  queues : ∀ queue ∈ futures.pool.memory.queues, queue = []
  unfinished : futures.pool.memory.unfinished = 0
  tasks : ∀ id < futures.pool.memory.issued, id ∈ futures.pool.memory.finished
  states : ∀ state < futures.pool.memory.states.length,
    Completed futures.pool.memory.states state
  calls : futures.calls = []

section Settled

variable (horderly : futures.Orderly workers) (hnone : ∀ thread, ¬futures.HasWork thread)
  (hempty : ¬futures.Queued)

include hempty in
theorem queued_eq_nil : futures.pool.queued = [] := by
  have hqueues : ∀ queue ∈ futures.pool.memory.queues, queue = [] := by
    intro queue hmem
    by_contra hqueue
    exact hempty ⟨queue, hmem, hqueue⟩
  rw [Pool.queued, List.flatten_eq_nil_iff.mpr hqueues]
  rfl

include horderly hnone

theorem held_eq_nil : futures.pool.held = [] := by
  refine List.filterMap_eq_nil_iff.mpr fun thread hthread => ?_
  obtain ⟨index, hindex⟩ := List.mem_iff_getElem?.mp hthread
  cases thread with
  | caller code => rfl
  | worker id point =>
      cases point with
      | running task code => exact absurd (hasWork_of_worker horderly hindex rfl) (hnone index)
      | _ => rfl

theorem announced_eq_zero : futures.pool.announced = 0 := by
  refine List.countP_eq_zero.mpr fun thread hthread hannounces => ?_
  unfold Thread.announces at hannounces
  split at hannounces
  case h_1 hactive =>
    obtain ⟨index, hindex⟩ := List.mem_iff_getElem?.mp hthread
    obtain ⟨hwork, huser⟩ :=
      Thread.hasWork_of_active futures.pool.memory hactive (by simp)
    exact hnone index (hasWork_of_not_inUser horderly.calls hindex huser hwork)
  case h_2 => simp at hannounces

include hempty

theorem unfinished_eq_zero : futures.pool.memory.unfinished = 0 := by
  have hcounted := horderly.pool.lawful.coherent.conserved.counted
  rw [Pool.config_memory, Pool.weight_counted, queued_eq_nil hempty,
    held_eq_nil horderly hnone, announced_eq_zero horderly hnone,
    horderly.pool.memory.lost] at hcounted
  exact hcounted.symm

theorem calls_eq_nil : futures.calls = [] := by
  refine List.eq_nil_iff_forall_not_mem.mpr fun call hcall => ?_
  apply hnone call.thread
  rw [hasWork_of_call (horderly.calls.callOf_eq hcall)]
  exact horderly.pool.lawful.completed_of_idle horderly.pool.memory.lost
    horderly.pool.memory.single
    (Pool.Lawful.not_busy (queued_eq_nil hempty) (held_eq_nil horderly hnone))
    (horderly.calls.returned call hcall)

theorem idle_of_no_work : ∀ thread ∈ futures.pool.threads,
    thread.code = .idle ∧ thread.task = none := by
  intro thread hthread
  obtain ⟨index, hindex⟩ := List.mem_iff_getElem?.mp hthread
  have hfree : futures.callOf index = none := by
    rw [callOf, calls_eq_nil horderly hnone hempty]
    rfl
  have hidle : thread.hasWork futures.pool.memory = false := by
    have hno := hnone index
    rwa [hasWork_of_free hfree, hindex, Option.any_some, Bool.not_eq_true] at hno
  cases thread with
  | worker id point =>
      cases point with
      | running task code => simp [Thread.hasWork, Thread.searches] at hidle
      | _ => exact ⟨rfl, rfl⟩
  | caller code =>
      refine ⟨?_, rfl⟩
      obtain ⟨_, hannouncing, hchecked⟩ := tally_of_no_work horderly hnone
      obtain ⟨hlocked, hdone⟩ := horderly.pool.waiters
      have hasleep := hdone (unfinished_eq_zero horderly hnone hempty)
      have hblocked : (Thread.caller code).counts .waitBlocked = 0 := by
        have hle : (Thread.caller code).counts .waitBlocked ≤
            tally futures.pool.threads .waitBlocked := le_total hthread
        omega
      obtain ⟨active, stack⟩ := code
      cases active with
      | none =>
          cases stack with
          | nil => rfl
          | cons frame stack => simp [Thread.hasWork, Code.hasWork] at hidle
      | some active =>
          cases active with
          | wait point =>
              cases point with
              | check =>
                  -- the mutex is held by a thread that is about to block, and there is none
                  have hheld : futures.pool.memory.lockWait = true := by
                    simpa [Thread.hasWork, Code.hasWork] using hidle
                  simp [Memory.gate, hheld, hchecked] at hlocked
              | checked => simp [Thread.hasWork, Code.hasWork] at hidle
              | blocked => simp [Thread.counts, Thread.role, Code.role, Role.counts] at hblocked
          | _ => simp [Thread.hasWork, Code.hasWork] at hidle

theorem thread_bag_eq_zero : ∀ thread ∈ futures.pool.threads, thread.bag = 0 := by
  intro thread hthread
  obtain ⟨hcode, htask⟩ := idle_of_no_work horderly hnone hempty thread hthread
  rw [Thread.bag, hcode, htask]
  rfl

/-- With no code under way and no task queued, only a stored continuation could still
complete a state, and it waits for an earlier one. -/
theorem completed_of_no_work : ∀ state < futures.pool.memory.states.length,
    Completed futures.pool.memory.states state := by
  intro state
  induction state using Nat.strong_induction_on with
  | _ state ih =>
      intro hlt
      have hlawful := horderly.pool.lawful
      have hstage := List.getElem?_eq_getElem hlt
      have hupstream : ∀ upstream fn, futures.pool.memory.states[state].origin =
          .attached upstream fn → Completed futures.pool.memory.states upstream := by
        intro upstream fn horigin
        obtain ⟨hearlier, _⟩ :=
          hlawful.coherent.sound.memory.origins state _ upstream fn hstage horigin
        exact ih upstream hearlier (hearlier.trans hlt)
      have hdrives : weight (Item.drives state) futures.pool.config.bag = 0 := by
        have hthreads : ∀ thread ∈ futures.pool.threads,
            weight (Item.drives state) thread.bag = 0 := by
          intro thread hthread
          rw [thread_bag_eq_zero horderly hnone hempty thread hthread]
          rfl
        rw [Pool.weight_config, total_eq_zero hthreads,
          List.map_eq_nil_iff.mp (queued_eq_nil hempty), total_nil,
          total_eq_zero (hlawful.drives_slots hstage hupstream), add_zero, add_zero]
      have hbalance :=
        hlawful.completed_add_ignored horderly.pool.memory.lost hstage hdrives
      rw [hlawful.not_ignored_of_single hstage fun upstream _ _ =>
        horderly.pool.memory.single upstream] at hbalance
      exact completed_eq_one_iff.mp hbalance

/-- Nothing is under way, and no continuation is stored. -/
theorem bag_eq_zero : futures.pool.config.bag = 0 := by
  have hthreads : total Thread.bag futures.pool.threads = 0 :=
    total_eq_zero (thread_bag_eq_zero horderly hnone hempty)
  have hstages : ∀ stage ∈ futures.pool.memory.states,
      (stage.bag : Bag Fn Value Error) = 0 := by
    intro stage hmem
    obtain ⟨state, hstage⟩ := List.mem_iff_getElem?.mp hmem
    have hlt := (List.getElem?_eq_some_iff.mp hstage).1
    obtain ⟨settled, hsettled, hpromise⟩ :=
      completed_of_no_work horderly hnone hempty state hlt
    obtain rfl := Option.some.inj (hstage.symm.trans hsettled)
    have hcell := horderly.pool.lawful.coherent.driven.cells state stage hstage
    rw [Stage.bag, hcell.continuation_eq_none (.inr (hcell.completed.trans hpromise))]
    rfl
  rw [Pool.config, Memory.bag, hthreads, total_eq_zero hstages, ← total_flatten,
    List.map_eq_nil_iff.mp (queued_eq_nil hempty)]
  rfl

theorem settled_of_no_work : futures.Settled where
  idle := idle_of_no_work horderly hnone hempty
  queues := by
    intro queue hmem
    by_contra hqueue
    exact hempty ⟨queue, hmem, hqueue⟩
  unfinished := unfinished_eq_zero horderly hnone hempty
  tasks := by
    intro task htask
    obtain ⟨hissued, hplaced, _, _⟩ := horderly.pool.lawful.coherent.conserved
    have hissue := hissued task
    have hplace := hplaced task
    have hrange : (List.range futures.pool.memory.issued).count task = 1 :=
      List.count_eq_one_of_mem List.nodup_range (List.mem_range.mpr htask)
    simp only [bag_eq_zero horderly hnone hempty, weight_zero, Pool.config_memory,
      horderly.pool.memory.lost, List.map_nil, List.count_nil, hrange] at hissue hplace
    exact List.count_pos_iff.mp (by omega)
  states := completed_of_no_work horderly hnone hempty
  calls := calls_eq_nil horderly hnone hempty

end Settled

/-! ## Behaviours -/

/-- A call of `get` or `wait` is waiting, or it has told its result. -/
def Answered (call : FutureCall) (futures : Futures Fn Value Error) : Prop :=
  call ∈ futures.calls ∨ ∃ completion, (call.thread, call.sees completion) ∈ futures.seen

theorem answered_step (hcalls : futures.HoldsCalls) {call : FutureCall}
    (hanswered : Answered call futures) (hstep : futures.step event = some next) :
    Answered call next := by
  obtain hcall | ⟨completion, hseen⟩ := hanswered
  · cases stepped_of_step hstep with
    | pool | noState => exact .inl hcall
    | access => exact .inl (List.mem_cons_of_mem _ hcall)
    | ready thread returned stage completion hreturned hstage hpromise =>
        by_cases heq : call.thread = returned.thread
        · have hmem := (callOf_mem hreturned).1
          obtain rfl : call = returned := List.inj_on_of_nodup_map hcalls.once hcall hmem heq
          exact .inr ⟨completion, List.mem_append_right _ List.mem_cons_self⟩
        · exact .inl (List.mem_filter.mpr ⟨hcall, by simpa using heq⟩)
  · have hkept := seen_of_run (run_cons.mpr ⟨next, hstep, run_nil next⟩)
    exact .inr ⟨completion, hkept _ hseen⟩

variable {behaviour : Behaviour (step : Futures Fn Value Error → Event Fn Value Error → _)}
variable {callers : ℕ}

/-- The threads go on, each for as long as it can, the functions of the user return, and
user code obeys and makes no call after some time: then everything is done in the end
and stays so, and every call of `get` or `wait` ever made has told its result. -/
theorem settles_of_fair (hworkers : 0 < workers) (hbound : workers ≤ 2 ^ 64)
    (hstart : behaviour.state 0 = start workers callers)
    (hdisciplined : behaviour.Respects Disciplined)
    (hfair : behaviour.Fair Event.thread GoesOn) {last : ℕ}
    (hlast : ∀ time event, last ≤ time → behaviour.event time = some event →
      (behaviour.state time).GoesOn event) :
    ∃ settled, (∀ time, settled ≤ time → (behaviour.state time).Settled) ∧
      ∀ time, ∀ call ∈ (behaviour.state time).calls,
        ∃ completion, (call.thread, call.sees completion) ∈ (behaviour.state settled).seen := by
  have horderly : ∀ time, Orderly workers (behaviour.state time) :=
    behaviour.invariant (fun _ _ _ => orderly_step hworkers) hdisciplined
      (hstart ▸ start_orderly workers callers)
  obtain ⟨settled, _, hsettled⟩ :=
    (searches hbound).settles hfair (fun time _ => horderly time) hlast
  have hdone : ∀ time, settled ≤ time → (behaviour.state time).Settled :=
    fun time hle => settled_of_no_work (horderly time) (hsettled time hle).2 (hsettled time hle).1
  refine ⟨settled, hdone, fun time call hcall => ?_⟩
  have hearlier : time ≤ settled := by
    by_contra hlate
    rw [(hdone time (Nat.le_of_not_le hlate)).calls] at hcall
    simp at hcall
  have hanswered : Answered call (behaviour.state settled) := by
    let answered (futures : Futures Fn Value Error) : Prop := Answered call futures
    have hwaiting : answered (behaviour.state time) := .inl hcall
    apply Behaviour.invariant_from hwaiting _ settled hearlier
    intro later event _ hevent htold
    exact answered_step (horderly later).calls htold (Behaviour.step_of_event hevent)
  obtain hwaiting | htold := hanswered
  · rw [(hdone settled le_rfl).calls] at hwaiting
    simp at hwaiting
  · exact htold

/-- The worker has run both tasks, has found no more, and blocks. -/
def restedEvents : List (Event ℕ ℕ ℕ) :=
  gotEvents ++ inPool (turns 0 4)

def restedFutures : Futures ℕ ℕ ℕ :=
  { gotFutures with
    pool :=
      { gotFutures.pool with
        threads := [.worker 0 (.wait .blocked), .caller .idle] } }

theorem run_restedEvents : run step (start 1 1) restedEvents = some restedFutures := by decide

theorem quiet_restedFutures : Quiet step GoesOn restedFutures := by
  intro event hgoesOn
  cases event with
  | access thread future access => exact absurd hgoesOn id
  | ready thread => rfl
  | pool event =>
      obtain ⟨thread, move⟩ := event
      cases thread with
      | zero => cases move <;> rfl
      | succ thread =>
          cases thread with
          | succ thread => rfl
          | zero =>
              cases move with
              | call op => simp [GoesOn, Move.goesOn] at hgoesOn
              | _ => rfl

theorem settles_of_fair_restedFutures :
    ∃ settled,
      (∀ time, settled ≤ time → ((Behaviour.ofRun run_restedEvents).state time).Settled) ∧
      ∀ time, ∀ call ∈ ((Behaviour.ofRun run_restedEvents).state time).calls,
        ∃ completion, (call.thread, call.sees completion) ∈
          ((Behaviour.ofRun run_restedEvents).state settled).seen := by
  have hguarded : Guarded step Disciplined (start 1 1) restedEvents := by decide
  have hsilent : ∀ (time : ℕ) (event : Event ℕ ℕ ℕ), restedEvents.length ≤ time →
      (Behaviour.ofRun run_restedEvents).event time = some event →
      ((Behaviour.ofRun run_restedEvents).state time).GoesOn event := by
    intro time event htime hevent
    rw [Behaviour.event_ofRun run_restedEvents htime] at hevent
    simp at hevent
  exact settles_of_fair Nat.one_pos (by decide) (Behaviour.state_ofRun_zero run_restedEvents)
    (Behaviour.respects_ofRun run_restedEvents hguarded)
    (Behaviour.fair_ofRun run_restedEvents quiet_restedFutures) hsilent

end Futures

end RpcDemo.Threadpool
