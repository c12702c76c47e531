import RpcDemo.Threadpool.Conservation
import RpcDemo.Threadpool.Waking

/-!
# Waking the threads in `wait()`

A worker counts its task down and notifies without the mutex of `wait()`, so the
last completion can fall between a waiter's check of the counter and its
blocking.  Runs in which this does not happen leave no waiter asleep.
-/

namespace RpcDemo.Threadpool

open Ledger Transition

variable {Fn Value Error : Type}

/-- What holds of the waiters' condition variable as long as the last completion
is not announced while its mutex is held. -/
structure WaitersWake (gate : Gate) (threads : List (Thread Fn Value Error)) : Prop where
  locked : tally threads .waitChecked = gate.lockWait.toNat
  done : gate.unfinished = 0 →
    tally threads .waitChecked + tally threads .waitBlocked = 0 ∨ 0 < tally threads .announcing

def Gate.AnnouncesUnlocked (gate : Gate) : Role → Prop
  | .announcing => gate.unfinished = 0 → gate.lockWait = false
  | _ => True

namespace WaitersWake

variable {gate gate' : Gate} {isWorker : Bool} {role role' : Role} {signal : Signal}
variable {threads acted woken : List (Thread Fn Value Error)}

/-- A step that neither wakes a waiter nor puts one to sleep. -/
theorem keep (hwakes : WaitersWake gate threads) (hlock : gate'.lockWait = gate.lockWait)
    (hunfinished : gate'.unfinished = gate.unfinished)
    (hchecked : tally woken .waitChecked = tally threads .waitChecked)
    (hblocked : tally woken .waitBlocked = tally threads .waitBlocked)
    (hannouncing : tally woken .announcing = tally threads .announcing) :
    WaitersWake gate' woken := by
  constructor
  · rw [hchecked, hlock, hwakes.locked]
  · rw [hunfinished, hchecked, hblocked, hannouncing]
    exact hwakes.done

theorem moves (hwakes : WaitersWake gate threads)
    (hmoves : Role.Moves gate isWorker role role' gate' signal)
    (hcounts : ∀ count, tally acted count + role.counts isWorker count =
      tally threads count + role'.counts isWorker count)
    (hdeliver : signal.deliver acted = some woken) (hunlocked : gate.AnnouncesUnlocked role)
    (hunfinished : 0 ≤ gate.unfinished) : WaitersWake gate' woken := by
  have hchecked := hcounts .waitChecked
  have hblocked := hcounts .waitBlocked
  have hannouncing := hcounts .announcing
  cases hmoves with
  | work | push | close | wait | waitDone | take | rest | resume | check | block =>
      obtain rfl := Option.some.inj hdeliver
      exact hwakes.keep rfl rfl (Nat.add_right_cancel hchecked) (Nat.add_right_cancel hblocked)
        (Nat.add_right_cancel hannouncing)
  | post =>
      obtain ⟨_, rfl⟩ | ⟨_, _, hothers⟩ := tally_oneWorker hdeliver
      · exact hwakes.keep rfl rfl (Nat.add_right_cancel hchecked) (Nat.add_right_cancel hblocked)
          (Nat.add_right_cancel hannouncing)
      · exact hwakes.keep rfl rfl
          ((hothers .waitChecked (by simp) (by simp)).trans (Nat.add_right_cancel hchecked))
          ((hothers .waitBlocked (by simp) (by simp)).trans (Nat.add_right_cancel hblocked))
          ((hothers .announcing (by simp) (by simp)).trans (Nat.add_right_cancel hannouncing))
  | notifyAll =>
      have hall := tally_allWorkers hdeliver
      exact hwakes.keep rfl rfl ((hall .waitChecked).trans (Nat.add_right_cancel hchecked))
        ((hall .waitBlocked).trans (Nat.add_right_cancel hblocked))
        ((hall .announcing).trans (Nat.add_right_cancel hannouncing))
  | count =>
      obtain rfl := Option.some.inj hdeliver
      refine ⟨(Nat.add_right_cancel hchecked).trans hwakes.locked, fun hdone => ?_⟩
      simp only at hdone
      omega
  | waitCheck hlock hbusy =>
      obtain rfl := Option.some.inj hdeliver
      obtain ⟨hlocked, hdone⟩ := hwakes
      simp only [Role.counts] at hchecked
      rw [hlock, Bool.toNat_false] at hlocked
      exact ⟨by simp only [Bool.toNat_true]; omega, fun hzero => absurd hzero hbusy⟩
  | waitBlock =>
      obtain rfl := Option.some.inj hdeliver
      obtain ⟨hlocked, hdone⟩ := hwakes
      simp only [Role.counts] at hchecked hblocked hannouncing
      have hle := Bool.toNat_le gate.lockWait
      refine ⟨by simp only [Bool.toNat_false]; omega, fun hzero => ?_⟩
      have := hdone hzero
      omega
  | finish =>
      obtain rfl := Option.some.inj hdeliver
      simp only [Role.counts] at hannouncing
      exact ⟨(Nat.add_right_cancel hchecked).trans hwakes.locked, fun _ => .inr (by omega)⟩
  | announce =>
      have hchecked' : tally woken .waitChecked = tally acted .waitChecked :=
        tally_waiters hdeliver .waitChecked
      have hblocked' : tally woken .waitBlocked = 0 := tally_waiters hdeliver .waitBlocked
      have hsame : tally woken .waitChecked = gate.lockWait.toNat :=
        hchecked'.trans ((Nat.add_right_cancel hchecked).trans hwakes.locked)
      refine ⟨hsame, fun hzero => .inl ?_⟩
      rw [hsame, hblocked', hunlocked hzero]
      rfl

end WaitersWake

namespace Pool

/-- The next step of the thread does not announce the last completion while a
waiter is between its check and its blocking. -/
def AnnouncesUnlocked (pool : Pool Fn Value Error) (event : Event Fn Value Error) : Prop :=
  match pool.threads[event.thread]? with
  | some thread => pool.memory.gate.AnnouncesUnlocked thread.role
  | none => True

theorem waitersWake_step {pool next : Pool Fn Value Error} {event : Event Fn Value Error}
    (hconserved : pool.config.Conserved) (hwakes : WaitersWake pool.memory.gate pool.threads)
    (hunlocked : pool.AnnouncesUnlocked event) (hstep : pool.step event = some next) :
    WaitersWake next.memory.gate next.threads := by
  obtain ⟨thread, progress, hstepped⟩ := stepped_of_step hstep
  have hmoves := Thread.moves_of_acted hstepped.acted
  simp only [AnnouncesUnlocked, hstepped.found] at hunlocked
  rw [hstepped.memory]
  exact hwakes.moves hmoves hstepped.tally_acted hstepped.threads hunlocked
    (unfinished_nonneg hconserved)

theorem waitersWake_of_run {workers callers : ℕ} {events : List (Event Fn Value Error)}
    {pool : Pool Fn Value Error}
    (hunlocked : Guarded step AnnouncesUnlocked (start workers callers) events)
    (hrun : run step (start workers callers) events = some pool) :
    WaitersWake pool.memory.gate pool.threads := by
  have hstep : ∀ (pool : Pool Fn Value Error) (event : Event Fn Value Error)
      (next : Pool Fn Value Error), pool.config.Conserved →
      WaitersWake pool.memory.gate pool.threads → pool.AnnouncesUnlocked event →
      pool.step event = some next → WaitersWake next.memory.gate next.threads :=
    fun _ _ _ => waitersWake_step
  have hchecked : tally (start workers callers : Pool Fn Value Error).threads .waitChecked = 0 :=
    tally_start workers callers .waitChecked
  have hblocked : tally (start workers callers : Pool Fn Value Error).threads .waitBlocked = 0 :=
    tally_start workers callers .waitBlocked
  have hstart : WaitersWake (start workers callers : Pool Fn Value Error).memory.gate
      (start workers callers : Pool Fn Value Error).threads :=
    ⟨hchecked, fun _ => .inl (by omega)⟩
  exact run_invariant_of_conserved hstep hstart hunlocked hrun

end Pool

/-- The thread is blocked in `wait()`. -/
def Thread.isAsleep (thread : Thread Fn Value Error) : Bool :=
  match thread.code.active with
  | some (.wait .blocked) => true
  | _ => false

/-- The worker has counted its task down and not notified yet. -/
def Thread.willAnnounce : Thread Fn Value Error → Bool
  | .worker _ .notify => true
  | _ => false

theorem Thread.role_of_isAsleep {thread : Thread Fn Value Error}
    (hasleep : thread.isAsleep = true) : thread.role = .waiting .blocked := by
  have hcode : ∀ code : Code Fn Value Error, (caller code).isAsleep = true →
      code.role = .waiting .blocked := by
    intro code hcode
    simp only [isAsleep, Thread.code] at hcode
    split at hcode
    case h_1 hactive => simp only [Code.role, hactive]
    case h_2 => simp at hcode
  cases thread with
  | caller code => exact hcode code hasleep
  | worker id point =>
      cases point with
      | running task code => exact hcode code hasleep
      | _ => simp [isAsleep, Thread.code, Code.idle] at hasleep

theorem Thread.willAnnounce_of_counts {thread : Thread Fn Value Error}
    (hcounts : 0 < thread.counts .announcing) : thread.willAnnounce = true := by
  have hcode : ∀ code : Code Fn Value Error, code.role ≠ .announcing := by
    intro code
    unfold Code.role
    split <;> simp
  have hrole : thread.role = .announcing := by
    rw [counts] at hcounts
    cases hrole : thread.role <;> first | rfl | simp [hrole, Role.counts] at hcounts
  cases thread with
  | caller code => exact absurd hrole (hcode code)
  | worker id point =>
      cases point with
      | running task code => exact absurd hrole (hcode code)
      | notify => rfl
      | _ => simp [role] at hrole

namespace Pool

/-- A thread is blocked in `wait()`, the counter is zero, and no worker is to
notify. -/
def LeftAsleep (pool : Pool Fn Value Error) : Prop :=
  (∃ thread ∈ pool.threads, thread.isAsleep = true) ∧ pool.memory.unfinished = 0 ∧
    ∀ thread ∈ pool.threads, thread.willAnnounce = false

theorem not_leftAsleep_of_run {workers callers : ℕ} {events : List (Event Fn Value Error)}
    {pool : Pool Fn Value Error}
    (hunlocked : Guarded step AnnouncesUnlocked (start workers callers) events)
    (hrun : run step (start workers callers) events = some pool) : ¬pool.LeftAsleep := by
  rintro ⟨⟨thread, hthread, hasleep⟩, hzero, hquiet⟩
  rcases (waitersWake_of_run hunlocked hrun).done hzero with hnone | hannouncing
  · have hle : thread.counts .waitBlocked ≤ tally pool.threads .waitBlocked := le_total hthread
    rw [Thread.counts, Thread.role_of_isAsleep hasleep] at hle
    simp only [Role.counts] at hle
    omega
  · obtain ⟨other, hother, hcounts⟩ := total_pos_iff.mp hannouncing
    have hwill := Thread.willAnnounce_of_counts hcounts
    simp [hquiet other hother] at hwill

instance (gate : Gate) : (role : Role) → Decidable (gate.AnnouncesUnlocked role)
  | .announcing => inferInstanceAs (Decidable (gate.unfinished = 0 → gate.lockWait = false))
  | .awake => isTrue trivial
  | .posting => isTrue trivial
  | .closing => isTrue trivial
  | .waiting _ => isTrue trivial
  | .sleeping _ => isTrue trivial

instance (pool : Pool Fn Value Error) (event : Event Fn Value Error) :
    Decidable (pool.AnnouncesUnlocked event) :=
  match hthread : pool.threads[event.thread]? with
  | some thread => decidable_of_iff (pool.memory.gate.AnnouncesUnlocked thread.role)
      (by simp [AnnouncesUnlocked, hthread])
  | none => isTrue (by simp [AnnouncesUnlocked, hthread])

instance (pool : Pool Fn Value Error) : Decidable pool.LeftAsleep :=
  inferInstanceAs (Decidable (_ ∧ _))

/-- The waiter sleeps before the task ends. -/
def announcedEvents : List (Event ℕ ℕ ℕ) :=
  [⟨1, .call (.postDetach 7)⟩] ++ turns 1 3 ++ [⟨1, .notifyOne 0⟩] ++ turns 0 2 ++
    [⟨1, .call .wait⟩] ++ turns 1 2 ++ [⟨0, .finish (.ok none)⟩] ++ turns 0 2

def announcedPool : Pool ℕ ℕ ℕ where
  memory :=
    { (start 1 1 : Pool ℕ ℕ ℕ).memory with
      roundIndex := 1
      issued := 1
      pushed := [0]
      started := [0]
      finished := [0] }
  threads := [.worker 0 .loop, .caller ⟨some (.wait .check), []⟩]

theorem not_leftAsleep_announcedPool : ¬announcedPool.LeftAsleep := by
  have hrun : run step (start 1 1) announcedEvents = some announcedPool := by decide
  exact not_leftAsleep_of_run (by decide) hrun

/-- The task ends, and the worker notifies, between the waiter's check and its
blocking. -/
def leftAsleepEvents : List (Event ℕ ℕ ℕ) :=
  [⟨1, .call (.postDetach 7)⟩] ++ turns 1 3 ++ [⟨1, .notifyOne 0⟩] ++ turns 0 2 ++
    [⟨1, .call .wait⟩] ++ turns 1 1 ++ [⟨0, .finish (.ok none)⟩] ++ turns 0 2 ++ turns 1 1

def leftAsleepPool : Pool ℕ ℕ ℕ where
  memory := announcedPool.memory
  threads := [.worker 0 .loop, .caller ⟨some (.wait .blocked), []⟩]

theorem leftAsleep_leftAsleepPool :
    run step (start 1 1) leftAsleepEvents = some leftAsleepPool ∧ leftAsleepPool.LeftAsleep := by
  decide

end Pool

end RpcDemo.Threadpool
