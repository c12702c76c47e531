import RpcDemo.Threadpool.Exceptions
import RpcDemo.Threadpool.Settling

/-!
# What shutdown leaves behind

A worker looks at `shutdown_` before it looks at a queue, so what is queued when
the workers leave stays queued: the counter counts it, and its future is never
completed.
-/

namespace RpcDemo.Threadpool

open Ledger Transition

variable {Fn Value Error : Type}

/-- One for a worker that has not left its loop. -/
def Thread.atWork : Thread Fn Value Error → ℕ
  | .caller _ => 0
  | .worker _ .exited => 0
  | .worker _ _ => 1

/-- A call of `post` or `post_detach` is in progress. -/
def Thread.isPosting (thread : Thread Fn Value Error) : Bool :=
  match thread.code.active with
  | some (.enqueue _ _) => true
  | _ => false

theorem Thread.announces_of_not_posting {thread : Thread Fn Value Error}
    (hposting : thread.isPosting = false) : thread.announces = false := by
  unfold isPosting at hposting
  unfold announces
  split
  case h_1 hactive => simp [hactive] at hposting
  case h_2 => rfl

theorem Thread.atWork_wakeWorker (thread : Thread Fn Value Error) :
    thread.wakeWorker.atWork = thread.atWork := by
  unfold wakeWorker
  split <;> rfl

theorem Thread.atWork_wakeWaiter (thread : Thread Fn Value Error) :
    thread.wakeWaiter.atWork = thread.atWork := by
  unfold wakeWaiter
  split <;> rfl

/-- A worker leaves its loop as the memory counts it. -/
theorem Thread.atWork_acted {memory : Memory Fn Value Error} {move : Move Fn Value Error}
    {thread : Thread Fn Value Error} {progress : Progress Fn Value Error}
    (hacted : thread.Acted memory move progress) :
    progress.thread.atWork + progress.memory.exited.length =
      thread.atWork + memory.exited.length := by
  cases hacted with
  | caller code _ effect hacted =>
      exact congrArg (fun exited => 0 + exited.length) (Code.acted_lifecycle hacted).1
  | task id task code after _ memory' signal hbusy hacted =>
      exact congrArg (fun exited => 1 + exited.length) (Code.acted_lifecycle hacted).1
  | terminate id task code _ memory' signal hacted =>
      exact congrArg (fun exited => 1 + exited.length) (Code.acted_lifecycle hacted).1
  | exit id hshutdown =>
      simp only [atWork, List.length_append, List.length_singleton]
      omega
  | popFront id package | popBack id victim package =>
      cases hcallable : package.callable <;>
        simp [Thread.startTask, Code.invoke, hcallable, atWork]
  | ownEmpty id hqueue => split <;> rfl
  | _ => rfl

namespace Pool

theorem queues_of_run {workers callers : ℕ} {events : List (Event Fn Value Error)}
    {pool : Pool Fn Value Error} (hrun : run step (start workers callers) events = some pool) :
    pool.memory.queues.length = workers := by
  refine changes_invariant (fun _ => True)
    (fun config => config.memory.queues.length = workers) ?_ (by simp [start])
    (fun _ _ => trivial) hrun
  intro move rest memory memory' removed added _ hchange hlength
  cases hchange with
  | take _ package queues hqueues =>
      obtain ⟨victim, queue, ⟨_, rfl⟩ | ⟨_, rfl⟩⟩ := hqueues <;> simpa using hlength
  | _ => simpa [Memory.setCell, Memory.setState, Memory.markReturned,
      Memory.advanceRound] using hlength

theorem atWork_of_run {workers callers : ℕ} {events : List (Event Fn Value Error)}
    {pool : Pool Fn Value Error} (hrun : run step (start workers callers) events = some pool) :
    total Thread.atWork pool.threads + pool.memory.exited.length = workers := by
  have hstep : ∀ (pool : Pool Fn Value Error) (event : Event Fn Value Error)
      (next : Pool Fn Value Error),
        total Thread.atWork pool.threads + pool.memory.exited.length = workers →
      pool.step event = some next →
      total Thread.atWork next.threads + next.memory.exited.length = workers := by
    intro pool event next hbefore hnext
    obtain ⟨thread, progress, hstepped⟩ := stepped_of_step hnext
    have htotal := hstepped.total_add Thread.atWork_wakeWorker Thread.atWork_wakeWaiter
    have hacted := Thread.atWork_acted hstepped.acted
    rw [hstepped.memory]
    omega
  have hstart : total Thread.atWork (start workers callers : Pool Fn Value Error).threads +
      (start workers callers : Pool Fn Value Error).memory.exited.length = workers := by
    rw [total_start workers callers rfl]
    exact total_one.trans List.length_range
  exact run_invariant hstep hstart hrun

/-- All workers have left their loops, so that every `join()` returns. -/
def Joined (pool : Pool Fn Value Error) : Prop :=
  pool.memory.exited.length = pool.memory.queues.length

theorem joined_of_run {workers callers : ℕ} {earlier events : List (Event Fn Value Error)}
    {joined pool : Pool Fn Value Error}
    (hearlier : run step (start workers callers) earlier = some joined) (hjoined : joined.Joined)
    (hrun : run step joined events = some pool) : pool.Joined := by
  have hall := run_append.mpr ⟨joined, hearlier, hrun⟩
  have hmono := (extends_of_run hrun).exited.length_le
  have hatWork := atWork_of_run hall
  rw [Joined, queues_of_run hearlier] at hjoined
  rw [Joined, queues_of_run hall]
  omega

theorem task_of_joined {workers callers : ℕ} {events : List (Event Fn Value Error)}
    {pool : Pool Fn Value Error} (hrun : run step (start workers callers) events = some pool)
    (hjoined : pool.Joined) : ∀ thread ∈ pool.threads, thread.task = none := by
  intro thread hthread
  have htotal := atWork_of_run hrun
  have hlength := queues_of_run hrun
  rw [Joined] at hjoined
  have hzero : total Thread.atWork pool.threads = 0 := by omega
  have hatWork := total_eq_zero_iff.mp hzero thread hthread
  cases thread with
  | caller code => rfl
  | worker id point => cases point <;> first | rfl | simp [Thread.atWork] at hatWork

/-- A task that was to complete the state is left in a queue. -/
def Abandoned (pool : Pool Fn Value Error) (state : ℕ) : Prop :=
  ∃ package ∈ pool.memory.queues.flatten, 0 < package.callable.drives state

/-- After the shutdown the counter counts the tasks left in the queues, and the
futures of the other posts are completed. -/
structure ShutDown (pool : Pool Fn Value Error) : Prop where
  counted : pool.memory.unfinished = pool.queued.length
  completed : ∀ (state : ℕ) stage fn, pool.memory.states[state]? = some stage →
    stage.origin = .posted fn → stage.returned = true →
    (Completed pool.memory.states state ↔ ¬pool.Abandoned state)

theorem shutDown_of_run {workers callers : ℕ} {earlier events : List (Event Fn Value Error)}
    {joined pool : Pool Fn Value Error}
    (hearlier : run step (start workers callers) earlier = some joined) (hjoined : joined.Joined)
    (hrun : run step joined events = some pool)
    (hposting : ∀ thread ∈ pool.threads, thread.isPosting = false)
    (hlost : pool.memory.lost = []) : pool.ShutDown := by
  have hall := run_append.mpr ⟨joined, hearlier, hrun⟩
  have hlawful := lawful_of_run hall
  have htask := task_of_joined hall (joined_of_run hearlier hjoined hrun)
  constructor
  · have hheld : pool.held = [] :=
      List.filterMap_eq_nil_iff.mpr htask
    have hannounced : pool.announced = 0 :=
      List.countP_eq_zero.mpr fun thread hthread => by
        simp [Thread.announces_of_not_posting (hposting thread hthread)]
    have hcounted := hlawful.coherent.conserved.counted
    rw [config_memory, weight_counted, hlost, hheld, hannounced] at hcounted
    simpa using hcounted.symm
  · intro state stage fn hstage horigin hreturned
    constructor
    · rintro hcompleted ⟨package, hpackage, hdrives⟩
      have hzero := hlawful.drives_of_completed hcompleted
      rw [weight_config] at hzero
      have hqueues : total (fun package =>
          (Item.package package : Item Fn Value Error).drives state)
          pool.memory.queues.flatten = 0 := by omega
      exact absurd (total_eq_zero_iff.mp hqueues package hpackage) hdrives.ne'
    · intro hkept
      refine hlawful.completed_of_upstream hlost ⟨stage, hstage, hreturned⟩ ?_ ?_
      · rintro (hqueued | ⟨thread, hthread, hbusy, _⟩)
        · exact hkept hqueued
        · exact hbusy (htask thread hthread)
      · intro own upstream fn' hown hattached
        obtain rfl := Option.some.inj (hstage.symm.trans hown)
        simp [horigin] at hattached

/-- The second post is pushed while the worker runs the first task, and the worker
leaves its loop before it looks at its queue again. -/
def abandonedEvents : List (Event ℕ ℕ ℕ) :=
  [⟨1, .call (.post 7)⟩] ++ turns 1 3 ++ [⟨1, .notifyOne 0⟩] ++ turns 0 2 ++
    [⟨0, .finish (.ok (some 5))⟩] ++ [⟨1, .call (.post 8)⟩] ++ turns 1 3 ++ [⟨1, .notifyOne 0⟩] ++
    turns 0 4 ++ [⟨1, .call .shutdown⟩] ++ turns 1 2 ++ turns 0 1

def abandonedMemory : Memory ℕ ℕ ℕ :=
  { (start 1 1 : Pool ℕ ℕ ℕ).memory with
    queues := [[⟨1, .promised 1 8⟩]]
    roundIndex := 2
    unfinished := 1
    shutdown := true
    exited := [0]
    states := [⟨⟨some (.ok (some 5)), false, none, true, false⟩, .posted 7, true⟩,
      ⟨.fresh, .posted 8, true⟩]
    issued := 2
    pushed := [0, 1]
    started := [0]
    finished := [0]
    ran := [⟨0, 7, none⟩]
    results := [(⟨0, 7, none⟩, .ok (some 5))] }

def joiningPool : Pool ℕ ℕ ℕ :=
  ⟨abandonedMemory, [.worker 0 .exited, .caller ⟨some (.shutdown .join), []⟩]⟩

def abandonedPool : Pool ℕ ℕ ℕ :=
  ⟨abandonedMemory, [.worker 0 .exited, .caller .idle]⟩

theorem shutDown_abandonedPool : abandonedPool.ShutDown := by
  have hearlier : run step (start 1 1) abandonedEvents = some joiningPool := by decide
  have hrun : run step joiningPool (turns 1 1) = some abandonedPool := by decide
  exact shutDown_of_run hearlier rfl hrun (by decide) rfl

/-- The shutdown has returned, the counter is not zero, and the second future is not
completed. -/
theorem not_settled_abandonedPool :
    run step (start 1 1) (abandonedEvents ++ turns 1 1) = some abandonedPool ∧
      abandonedPool.Joined ∧ (∀ thread ∈ abandonedPool.threads, thread.isPosting = false) ∧
      abandonedPool.memory.lost = [] ∧ abandonedPool.memory.unfinished = 1 ∧
      ∃ stage, abandonedPool.memory.states[1]? = some stage ∧ stage.origin = .posted 8 ∧
        stage.returned = true ∧ ¬Completed abandonedPool.memory.states 1 := by
  have hpending : completed abandonedPool.memory.states 1 ≠ 1 := by decide
  exact ⟨by decide, rfl, by decide, rfl, rfl, _, rfl, rfl, rfl,
    fun hcompleted => hpending (completed_eq_one_iff.mpr hcompleted)⟩

end Pool

end RpcDemo.Threadpool
