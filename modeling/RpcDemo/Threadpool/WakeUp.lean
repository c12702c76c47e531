import RpcDemo.Threadpool.Conservation
import RpcDemo.Threadpool.Waking

/-!
# Waking the workers

A post and a shutdown notify the workers without the mutex of the condition
variable, so a notification can fall between a worker's check of its predicate
and its blocking.  Runs in which this does not happen strand no worker.
-/

namespace RpcDemo.Threadpool

open Ledger Transition

variable {Fn Value Error : Type}

/-- What holds of the workers' condition variable as long as no notification is
made while its mutex is held. -/
structure Wakes (gate : Gate) (threads : List (Thread Fn Value Error)) : Prop where
  locked : tally threads .checked = gate.lockTh.toNat
  workers : tally threads .ready + tally threads .checked + tally threads .blocked = gate.workers
  tasked : gate.tasks ≠ 0 → 0 < tally threads .ready ∨ 0 < tally threads .posting
  stopped : gate.shutdown = true →
    tally threads .checked + tally threads .blocked = 0 ∨ 0 < tally threads .closing

/-- The mutex is free when a notification must not be missed: that of a shutdown,
and that of a post to a pool of one worker. -/
def Gate.NotifiesUnlocked (gate : Gate) : Role → Prop
  | .closing => gate.lockTh = false
  | .posting => gate.workers = 1 → gate.lockTh = false
  | _ => True

namespace Wakes

variable {gate gate' : Gate} {isWorker : Bool} {role role' : Role} {signal : Signal}
variable {threads acted woken : List (Thread Fn Value Error)}

/-- A step that neither wakes a worker nor puts one to sleep. -/
theorem keep (hwakes : Wakes gate threads) (hworkers : gate'.workers = gate.workers)
    (htasks : gate'.tasks = gate.tasks) (hshutdown : gate'.shutdown = gate.shutdown)
    (hlock : gate'.lockTh = gate.lockTh) (hready : tally woken .ready = tally threads .ready)
    (hchecked : tally woken .checked = tally threads .checked)
    (hblocked : tally woken .blocked = tally threads .blocked)
    (hposting : tally woken .posting = tally threads .posting)
    (hclosing : tally woken .closing = tally threads .closing) : Wakes gate' woken := by
  constructor
  · rw [hchecked, hlock, hwakes.locked]
  · rw [hready, hchecked, hblocked, hworkers, hwakes.workers]
  · rw [htasks, hready, hposting]
    exact hwakes.tasked
  · rw [hshutdown, hchecked, hblocked, hclosing]
    exact hwakes.stopped

theorem moves (hwakes : Wakes gate threads)
    (hmoves : Role.Moves gate isWorker role role' gate' signal)
    (hcounts : ∀ count, tally acted count + role.counts isWorker count =
      tally threads count + role'.counts isWorker count)
    (hacted : role'.counts isWorker .ready ≤ tally acted .ready)
    (hdeliver : signal.deliver acted = some woken) (hunlocked : gate.NotifiesUnlocked role)
    (hbusy : gate.tasks ≠ 0 → 0 < gate.unfinished) (hsome : gate.tasks ≠ 0 → 0 < gate.workers) :
    Wakes gate' woken := by
  have hready := hcounts .ready
  have hchecked := hcounts .checked
  have hblocked := hcounts .blocked
  have hposting := hcounts .posting
  have hclosing := hcounts .closing
  cases hmoves with
  | work | count | wait | waitDone | waitCheck | waitBlock | finish | rest | resume =>
      obtain rfl := Option.some.inj hdeliver
      exact hwakes.keep rfl rfl rfl rfl
        (Nat.add_right_cancel hready) (Nat.add_right_cancel hchecked)
        (Nat.add_right_cancel hblocked) (Nat.add_right_cancel hposting)
        (Nat.add_right_cancel hclosing)
  | announce =>
      have hwaiters := tally_waiters hdeliver
      exact hwakes.keep rfl rfl rfl rfl ((hwaiters .ready).trans (Nat.add_right_cancel hready))
        ((hwaiters .checked).trans (Nat.add_right_cancel hchecked))
        ((hwaiters .blocked).trans (Nat.add_right_cancel hblocked))
        ((hwaiters .posting).trans (Nat.add_right_cancel hposting))
        ((hwaiters .closing).trans (Nat.add_right_cancel hclosing))
  | push =>
      obtain rfl := Option.some.inj hdeliver
      obtain ⟨hlocked, hworkers, htasked, hstopped⟩ := hwakes
      simp only [Role.counts] at hready hchecked hblocked hposting hclosing
      refine ⟨by simp only; omega, by simp only; omega, fun _ => .inr (by omega),
        fun hshutdown => ?_⟩
      have := hstopped hshutdown
      omega
  | post woken =>
      obtain ⟨hlocked, hworkers, htasked, hstopped⟩ := hwakes
      simp only [Role.counts] at hready hchecked hblocked hposting hclosing
      have hle := Bool.toNat_le gate.lockTh
      obtain ⟨hnone, rfl⟩ | ⟨hgone, hwoken, hothers⟩ := tally_oneWorker hdeliver
      · refine ⟨by omega, by omega, fun htasks => .inl ?_, fun hshutdown => ?_⟩
        · have hsomeone := hsome htasks
          by_cases hone : gate.workers = 1
          · rw [hunlocked hone, Bool.toNat_false] at hlocked
            omega
          · omega
        · have := hstopped hshutdown
          omega
      · have hsame := hothers .checked (by simp) (by simp)
        have hsame' := hothers .closing (by simp) (by simp)
        refine ⟨by omega, by omega, fun htasks => .inl (by omega), fun hshutdown => ?_⟩
        have := hstopped hshutdown
        omega
  | close =>
      obtain rfl := Option.some.inj hdeliver
      obtain ⟨hlocked, hworkers, htasked, hstopped⟩ := hwakes
      simp only [Role.counts] at hready hchecked hblocked hposting hclosing
      refine ⟨by simp only; omega, by simp only; omega, fun htasks => ?_, fun _ => .inr (by omega)⟩
      have := htasked htasks
      omega
  | notifyAll =>
      obtain ⟨hlocked, hworkers, htasked, hstopped⟩ := hwakes
      simp only [Role.counts] at hready hchecked hblocked hposting hclosing
      have hready' : tally woken .ready = tally acted .ready + tally acted .blocked :=
        tally_allWorkers hdeliver .ready
      have hchecked' : tally woken .checked = tally acted .checked :=
        tally_allWorkers hdeliver .checked
      have hblocked' : tally woken .blocked = 0 := tally_allWorkers hdeliver .blocked
      have hposting' : tally woken .posting = tally acted .posting :=
        tally_allWorkers hdeliver .posting
      have hfree : gate.lockTh.toNat = 0 := by rw [show gate.lockTh = false from hunlocked]; rfl
      refine ⟨by omega, by omega, fun htasks => ?_, fun _ => .inl (by omega)⟩
      have := htasked htasks
      omega
  | take hworker htasks =>
      obtain rfl := Option.some.inj hdeliver
      obtain ⟨hlocked, hworkers, htasked, hstopped⟩ := hwakes
      simp only [Role.counts, hworker, Bool.toNat_true]
        at hready hchecked hblocked hposting hclosing hacted
      refine ⟨by simp only; omega, by simp only; omega, fun _ => .inl (by omega),
        fun hshutdown => ?_⟩
      have := hstopped hshutdown
      omega
  | check hworker hlock hshutdown hidle =>
      obtain rfl := Option.some.inj hdeliver
      obtain ⟨hlocked, hworkers, htasked, hstopped⟩ := hwakes
      simp only [Role.counts, hworker, Bool.toNat_true]
        at hready hchecked hblocked hposting hclosing
      rw [hlock, Bool.toNat_false] at hlocked
      refine ⟨by simp only [Bool.toNat_true]; omega, by simp only; omega,
        fun htasks => ?_, fun hstop => ?_⟩
      · have := hbusy htasks
        omega
      · simp [hshutdown] at hstop
  | block hworker =>
      obtain rfl := Option.some.inj hdeliver
      obtain ⟨hlocked, hworkers, htasked, hstopped⟩ := hwakes
      simp only [Role.counts] at hready hchecked hblocked hposting hclosing
      have hle := Bool.toNat_le gate.lockTh
      refine ⟨by simp only [Bool.toNat_false]; omega, by simp only; omega,
        fun htasks => ?_, fun hshutdown => ?_⟩
      · have := htasked htasks
        omega
      · have := hstopped hshutdown
        omega

end Wakes

namespace Pool

/-- The next step of the thread is not a notification that can be missed. -/
def NotifiesUnlocked (pool : Pool Fn Value Error) (event : Event Fn Value Error) : Prop :=
  match pool.threads[event.thread]? with
  | some thread => pool.memory.gate.NotifiesUnlocked thread.role
  | none => True

theorem start_wakes (workers callers : ℕ) :
    Wakes (start workers callers : Pool Fn Value Error).memory.gate
      (start workers callers : Pool Fn Value Error).threads := by
  have htally : ∀ count, tally (start workers callers : Pool Fn Value Error).threads count = _ :=
    tally_start workers callers
  constructor
  · exact htally .checked
  · rw [htally, htally, htally]
    exact List.length_replicate.symm
  · simp [start, Memory.gate]
  · simp [start, Memory.gate]

theorem tasks_pos {pool : Pool Fn Value Error} (hconserved : pool.config.Conserved)
    (htasks : pool.memory.gate.tasks ≠ 0) : 0 < pool.memory.unfinished := by
  have hcounted := hconserved.counted
  rw [weight_counted] at hcounted
  simp only [config_memory, queued, List.length_map] at hcounted
  simp only [Memory.gate] at htasks
  omega

theorem workers_pos {memory : Memory Fn Value Error} (htasks : memory.gate.tasks ≠ 0) :
    0 < memory.gate.workers := by
  refine Nat.pos_of_ne_zero fun hnone => htasks ?_
  rw [Memory.gate, List.length_eq_zero_iff.mp hnone]
  rfl

theorem wakes_step {pool next : Pool Fn Value Error} {event : Event Fn Value Error}
    (hconserved : pool.config.Conserved) (hwakes : Wakes pool.memory.gate pool.threads)
    (hunlocked : pool.NotifiesUnlocked event) (hstep : pool.step event = some next) :
    Wakes next.memory.gate next.threads := by
  obtain ⟨thread, progress, hstepped⟩ := stepped_of_step hstep
  have hmoves := Thread.moves_of_acted hstepped.acted
  simp only [NotifiesUnlocked, hstepped.found] at hunlocked
  rw [hstepped.memory]
  exact hwakes.moves hmoves hstepped.tally_acted (hstepped.counts_le .ready) hstepped.threads
    hunlocked (tasks_pos hconserved) workers_pos

theorem wakes_of_run {workers callers : ℕ} {events : List (Event Fn Value Error)}
    {pool : Pool Fn Value Error}
    (hunlocked : Guarded step NotifiesUnlocked (start workers callers) events)
    (hrun : run step (start workers callers) events = some pool) :
    Wakes pool.memory.gate pool.threads := by
  have hstep : ∀ (pool : Pool Fn Value Error) (event : Event Fn Value Error)
      (next : Pool Fn Value Error), pool.config.Conserved →
      Wakes pool.memory.gate pool.threads → pool.NotifiesUnlocked event →
      pool.step event = some next → Wakes next.memory.gate next.threads :=
    fun _ _ _ => wakes_step
  exact run_invariant_of_conserved hstep (start_wakes workers callers) hunlocked hrun

end Pool

/-- The thread is in a post, or in a shutdown that has not notified yet. -/
def Thread.willNotify (thread : Thread Fn Value Error) : Bool :=
  match thread.code.active with
  | some (.enqueue _ _) => true
  | some (.shutdown .store) => true
  | some (.shutdown .notify) => true
  | _ => false

theorem Code.willNotify_of_role {code : Code Fn Value Error}
    (hrole : code.role = .posting ∨ code.role = .closing) :
    (Thread.caller code).willNotify = true := by
  obtain ⟨active, stack⟩ := code
  cases active with
  | none => simp at hrole
  | some active =>
      cases active with
      | enqueue package point => rfl
      | shutdown point => cases point <;> first | rfl | simp [role] at hrole
      | _ => simp [role] at hrole

theorem Thread.willNotify_of_role {thread : Thread Fn Value Error}
    (hrole : thread.role = .posting ∨ thread.role = .closing) : thread.willNotify = true := by
  cases thread with
  | caller code => exact Code.willNotify_of_role hrole
  | worker id point =>
      cases point with
      | running task code => exact Code.willNotify_of_role hrole
      | _ => simp [role] at hrole

theorem Role.posting_of_counts {role : Role} {isWorker : Bool}
    (hcounts : 0 < role.counts isWorker .posting) : role = .posting := by
  cases role <;> first | rfl | simp [counts] at hcounts

theorem Role.closing_of_counts {role : Role} {isWorker : Bool}
    (hcounts : 0 < role.counts isWorker .closing) : role = .closing := by
  cases role <;> first | rfl | simp [counts] at hcounts

theorem Role.counts_ready_false (role : Role) : role.counts false .ready = 0 := by
  cases role with
  | sleeping point => cases point <;> rfl
  | _ => rfl

theorem Thread.isWorker_of_ready {thread : Thread Fn Value Error}
    (hready : 0 < thread.counts .ready) :
    thread.isWorker = true ∧ thread.isBlocked = false := by
  cases thread with
  | caller code => exact absurd code.role.counts_ready_false hready.ne'
  | worker id point =>
      refine ⟨rfl, ?_⟩
      cases point with
      | wait point => cases point <;> first | rfl | simp [counts, role, Role.counts] at hready
      | _ => rfl

namespace Pool

/-- No notification is to come, and a task is queued while every worker sleeps,
or a worker sleeps through the shutdown. -/
def Stranded (pool : Pool Fn Value Error) : Prop :=
  (∀ thread ∈ pool.threads, thread.willNotify = false) ∧
    ((∃ queue ∈ pool.memory.queues, queue ≠ []) ∧
        (∀ thread ∈ pool.threads, thread.isWorker = true → thread.isBlocked = true) ∨
      pool.memory.shutdown = true ∧ ∃ thread ∈ pool.threads, thread.isBlocked = true)

theorem not_stranded_of_run {workers callers : ℕ} {events : List (Event Fn Value Error)}
    {pool : Pool Fn Value Error}
    (hunlocked : Guarded step NotifiesUnlocked (start workers callers) events)
    (hrun : run step (start workers callers) events = some pool) : ¬pool.Stranded := by
  obtain ⟨_, _, htasked, hstopped⟩ := wakes_of_run hunlocked hrun
  rintro ⟨hquiet, ⟨⟨queue, hmem, hqueue⟩, hasleep⟩ | ⟨hshutdown, thread, hthread, hblocked⟩⟩
  · have htasks : pool.memory.gate.tasks ≠ 0 := by
      simp only [Memory.gate, ne_eq, List.length_eq_zero_iff, List.flatten_eq_nil_iff, not_forall]
      exact ⟨queue, hmem, hqueue⟩
    rcases htasked htasks with hready | hposting
    · obtain ⟨thread, hthread, hcounts⟩ := total_pos_iff.mp hready
      obtain ⟨hworker, hawake⟩ := Thread.isWorker_of_ready hcounts
      simp [hasleep thread hthread hworker] at hawake
    · obtain ⟨thread, hthread, hcounts⟩ := total_pos_iff.mp hposting
      have hwill := Thread.willNotify_of_role (.inl (Role.posting_of_counts hcounts))
      simp [hquiet thread hthread] at hwill
  · rcases hstopped hshutdown with hnone | hclosing
    · have hle : thread.counts .blocked ≤ tally pool.threads .blocked := le_total hthread
      rw [Thread.counts_isBlocked, hblocked, Bool.toNat_true] at hle
      omega
    · obtain ⟨other, hother, hcounts⟩ := total_pos_iff.mp hclosing
      have hwill := Thread.willNotify_of_role (.inr (Role.closing_of_counts hcounts))
      simp [hquiet other hother] at hwill

instance (gate : Gate) : (role : Role) → Decidable (gate.NotifiesUnlocked role)
  | .closing => inferInstanceAs (Decidable (gate.lockTh = false))
  | .posting => inferInstanceAs (Decidable (gate.workers = 1 → gate.lockTh = false))
  | .awake => isTrue trivial
  | .announcing => isTrue trivial
  | .waiting _ => isTrue trivial
  | .sleeping _ => isTrue trivial

instance (pool : Pool Fn Value Error) (event : Event Fn Value Error) :
    Decidable (pool.NotifiesUnlocked event) :=
  match hthread : pool.threads[event.thread]? with
  | some thread => decidable_of_iff (pool.memory.gate.NotifiesUnlocked thread.role)
      (by simp [NotifiesUnlocked, hthread])
  | none => isTrue (by simp [NotifiesUnlocked, hthread])

instance [DecidableEq Fn] (pool : Pool Fn Value Error) : Decidable pool.Stranded :=
  inferInstanceAs (Decidable (_ ∧ _))

/-- The worker sleeps before the post, whose notification wakes it, and so does
that of the shutdown. -/
def wokenEvents : List (Event ℕ ℕ ℕ) :=
  turns 0 4 ++ [⟨1, .call (.postDetach 7)⟩] ++ turns 1 3 ++ [⟨1, .notifyOne 0⟩] ++
    [⟨1, .call .shutdown⟩] ++ turns 1 2

def wokenPool : Pool ℕ ℕ ℕ where
  memory :=
    { (start 1 1 : Pool ℕ ℕ ℕ).memory with
      queues := [[⟨0, .detached 7⟩]]
      roundIndex := 1
      unfinished := 1
      shutdown := true
      issued := 1
      pushed := [0] }
  threads := [.worker 0 (.wait .check), .caller ⟨some (.shutdown .join), []⟩]

theorem not_stranded_wokenPool : ¬wokenPool.Stranded := by
  have hrun : run step (start 1 1) wokenEvents = some wokenPool := by decide
  exact not_stranded_of_run (by decide) hrun

/-- The post notifies between the worker's check and its blocking. -/
def strandedEvents : List (Event ℕ ℕ ℕ) :=
  turns 0 3 ++ [⟨1, .call (.postDetach 7)⟩] ++ turns 1 3 ++ [⟨1, .notifyOne 0⟩] ++ turns 0 1

def strandedPool : Pool ℕ ℕ ℕ where
  memory :=
    { (start 1 1 : Pool ℕ ℕ ℕ).memory with
      queues := [[⟨0, .detached 7⟩]]
      roundIndex := 1
      unfinished := 1
      issued := 1
      pushed := [0] }
  threads := [.worker 0 (.wait .blocked), .caller .idle]

theorem stranded_strandedPool :
    run step (start 1 1) strandedEvents = some strandedPool ∧ strandedPool.Stranded := by
  decide

end Pool

end RpcDemo.Threadpool
