import RpcDemo.Threadpool.Exceptions

/-!
# What a failed push leaves behind

The counter is raised before the push and not lowered when the push throws, and a
push that fails inside `set_value` makes the catch block complete a state that is
already completed.
-/

namespace RpcDemo.Threadpool

open Ledger Transition

variable {Fn Value Error : Type}

section Acted

variable {memory : Memory Fn Value Error} {error : Thrown Error}

theorem Code.acted_fail {code : Code Fn Value Error} {effect : Effect Fn Value Error}
    (hacted : Code.Acted memory code (.fail error) effect) :
    ∃ package, effect =
      .throws { memory with lost := memory.lost ++ [package] } code.stack error := by
  cases hacted with
  | fail package stack victim => exact ⟨package, rfl⟩

/-- A failed push is no move of the counter. -/
theorem Thread.acted_fail {thread : Thread Fn Value Error} {progress : Progress Fn Value Error}
    (hacted : thread.Acted memory (.fail error) progress) :
    progress.memory.unfinished = memory.unfinished ∧ progress.memory.lost ≠ [] := by
  cases hacted with
  | caller code _ effect hacted =>
      obtain ⟨package, rfl⟩ := Code.acted_fail hacted
      exact ⟨rfl, List.concat_ne_nil _ _⟩
  | task id task code after _ memory' signal hbusy hacted =>
      obtain ⟨package, heffect⟩ := Code.acted_fail hacted
      obtain ⟨_, rfl, _⟩ := Effect.mk.inj heffect
      exact ⟨rfl, List.concat_ne_nil _ _⟩
  | terminate id task code _ memory' signal hacted =>
      obtain ⟨package, heffect⟩ := Code.acted_fail hacted
      obtain ⟨_, rfl, _⟩ := Effect.mk.inj heffect
      exact ⟨rfl, List.concat_ne_nil _ _⟩

end Acted

namespace Pool

variable {workers callers : ℕ} {events : List (Event Fn Value Error)}
variable {pool next : Pool Fn Value Error} {thread : ℕ} {error : Thrown Error}

/-- What a push that throws should leave: the counter and the queues as they were
before the post, no catch block that completes a completed state, and a program
that goes on. -/
structure FailsSafely (pool next : Pool Fn Value Error) (thread : ℕ) : Prop where
  unfinished : next.memory.unfinished = pool.memory.unfinished - 1
  queues : next.memory.queues = pool.memory.queues
  once : ∀ failed, next.threads[thread]? = some failed → ∀ state error,
    failed.code.active = some (.recover state error) → ¬Completed next.memory.states state
  alive : next.memory.terminated = false

theorem unfinished_of_fail (hstep : pool.step ⟨thread, .fail error⟩ = some next) :
    next.memory.unfinished = pool.memory.unfinished ∧ next.memory.lost ≠ [] := by
  obtain ⟨failing, progress, hstepped⟩ := stepped_of_step hstep
  rw [hstepped.memory]
  exact Thread.acted_fail hstepped.acted

/-- After a failed push the counter is never zero again. -/
theorem unfinished_pos_of_lost (hlawful : pool.Lawful) (hlost : pool.memory.lost ≠ []) :
    0 < pool.memory.unfinished := by
  have hcounted := hlawful.coherent.conserved.counted
  have hlength := List.length_pos_iff.mpr hlost
  rw [config_memory] at hcounted
  omega

/-- A catch block completes a state that is already completed. -/
theorem completed_of_recover (hlawful : pool.Lawful) {failed : Thread Fn Value Error}
    (hfailed : failed ∈ pool.threads) {state : ℕ} {error : Thrown Error}
    (hactive : failed.code.active = some (.recover state error)) :
    completed pool.memory.states state = 1 := by
  have hsome := hlawful.coherent.driven.completed_of_recover
    (active_mem hfailed hactive (by simp))
  have hone : completed pool.memory.states state ≤ 1 := flag_le_one _ _ _
  rw [config_memory] at hsome
  omega

/-- No failed push is safe: the counter keeps the post, for ever, and whenever the
exception reaches a catch block it completes a completed state. -/
theorem not_failsSafely_of_run (hrun : run step (start workers callers) events = some pool)
    (hstep : pool.step ⟨thread, .fail error⟩ = some next) :
    ¬pool.FailsSafely next thread ∧
      ∀ later rest, run step next rest = some later → 0 < later.memory.unfinished ∧
        ∀ failed ∈ later.threads, ∀ state error,
          failed.code.active = some (.recover state error) →
            Completed later.memory.states state := by
  obtain ⟨hunfinished, hlost⟩ := unfinished_of_fail hstep
  constructor
  · intro hsafe
    have hlowered := hsafe.unfinished
    omega
  · intro later rest hrest
    have hlater := lawful_of_run
      (run_append.mpr ⟨pool, hrun, run_cons.mpr ⟨next, hstep, hrest⟩⟩)
    obtain ⟨package, hpackage⟩ := List.exists_mem_of_ne_nil _ hlost
    have hkept := List.ne_nil_of_mem ((extends_of_run hrest).lost package hpackage)
    refine ⟨unfinished_pos_of_lost hlater hkept, fun failed hfailed state error hactive => ?_⟩
    exact completed_eq_one_iff.mp (completed_of_recover hlater hfailed hactive)

/-- The worker completes the posted state and submits the stored continuation
inside `set_value`; the push of that fails. -/
def failingEvents : List (Event ℕ ℕ ℕ) :=
  [⟨1, .call (.post 7)⟩] ++ turns 1 3 ++ [⟨1, .notifyOne 0⟩] ++
    [⟨1, .call (.attach 0 8 false)⟩] ++ turns 1 3 ++ turns 0 2 ++ [⟨0, .finish (.ok (some 5))⟩] ++
    turns 0 3

def failingMemory : Memory ℕ ℕ ℕ :=
  { (start 1 1 : Pool ℕ ℕ ℕ).memory with
    roundIndex := 2
    unfinished := 2
    states := [⟨⟨some (.ok (some 5)), true, none, true, true⟩, .posted 7, true⟩,
      ⟨.fresh, .attached 0 8, true⟩]
    issued := 2
    pushed := [0]
    started := [0]
    ran := [⟨0, 7, none⟩]
    results := [(⟨0, 7, none⟩, .ok (some 5))] }

def failedMemory : Memory ℕ ℕ ℕ :=
  { failingMemory with lost := [⟨1, .continuation ⟨0, 1, 8⟩⟩] }

def failingPool : Pool ℕ ℕ ℕ :=
  ⟨failingMemory, [.worker 0 (.running 0
      ⟨some (.enqueue ⟨1, .continuation ⟨0, 1, 8⟩⟩ (.push 0)), [.trying 0]⟩), .caller .idle]⟩

def failedPool : Pool ℕ ℕ ℕ :=
  ⟨failedMemory, [.worker 0 (.running 0 ⟨some (.recover 0 (.user 9)), []⟩), .caller .idle]⟩

def escapedPool : Pool ℕ ℕ ℕ :=
  ⟨{ failedMemory with terminated := true }, [.worker 0 (.running 0 .idle), .caller .idle]⟩

theorem not_failsSafely_failedPool : ¬failingPool.FailsSafely failedPool 0 := by
  have hrun : run step (start 1 1) failingEvents = some failingPool := by decide
  have hstep : failingPool.step ⟨0, .fail (.user 9)⟩ = some failedPool := by decide
  exact (not_failsSafely_of_run hrun hstep).1

/-- The catch block completes the posted state again, and the exception of its
promise ends the program. -/
theorem terminated_escapedPool :
    run step (start 1 1) (failingEvents ++ [⟨0, .fail (.user 9)⟩]) = some failedPool ∧
      failedPool.memory.unfinished = failingPool.memory.unfinished ∧
      ¬failingPool.FailsSafely failedPool 0 ∧
      run step failedPool (turns 0 1) = some escapedPool ∧
      escapedPool.memory.terminated = true := by
  refine ⟨by decide, rfl, fun hsafe => ?_, by decide, rfl⟩
  exact hsafe.once _ rfl 0 (.user 9) rfl ⟨_, rfl, rfl⟩

end Pool

end RpcDemo.Threadpool
