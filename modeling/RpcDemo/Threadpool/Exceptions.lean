import RpcDemo.Threadpool.Callers

/-!
# What escapes into a worker

An exception that leaves a task ends the program.  It comes from a push that
failed or from a detached function that threw.
-/

namespace RpcDemo.Threadpool

open Ledger Transition

variable {Fn Value Error : Type}

namespace Code

variable {memory : Memory Fn Value Error} {move : Move Fn Value Error}
variable {code : Code Fn Value Error} {effect : Effect Fn Value Error}

/-- Calling a callable throws nothing, and ends no worker and no program. -/
theorem invokeExtracted_lifecycle (memory : Memory Fn Value Error)
    (stack : List (Suspended Fn Value)) (cont : Option (Callable Fn)) :
    (invokeExtracted memory stack cont).memory.exited = memory.exited ∧
      (invokeExtracted memory stack cont).memory.terminated = memory.terminated ∧
      (invokeExtracted memory stack cont).code ≠ none := by
  cases cont with
  | none => exact ⟨rfl, rfl, by simp [invokeExtracted, Effect.returns, Effect.next]⟩
  | some callable =>
      cases callable <;>
        exact ⟨rfl, rfl, by simp [invokeExtracted, Effect.next]⟩

theorem acted_lifecycle (hacted : Acted memory code move effect) :
    effect.memory.exited = memory.exited ∧ effect.memory.terminated = memory.terminated := by
  cases hacted with
  | notify package => cases package.callable <;> exact ⟨rfl, rfl⟩
  | execute | complete | recover =>
      exact ⟨(invokeExtracted_lifecycle _ _ _).1, (invokeExtracted_lifecycle _ _ _).2.1⟩
  | refuse state completion => cases completion <;> exact ⟨rfl, rfl⟩
  | _ => exact ⟨rfl, rfl⟩

/-- What an exception that escapes a task comes from. -/
theorem acted_none (hacted : Acted memory code move effect) (hnone : effect.code = none) :
    effect.memory.lost ≠ [] ∨ effect.memory.threw ≠ [] ∨
      (∃ state completion stage, code.active = some (.complete state completion) ∧
        memory.states[state]? = some stage ∧ stage.cell.promise.isSome = true) ∨
      ∃ state error, code.active = some (.recover state error) := by
  cases hacted with
  | fail => exact .inl (by simp [Effect.throws])
  | throwDetached => exact .inr (.inl (by simp [Effect.throws]))
  | refuse state completion stack stage hstage hpromise =>
      exact .inr (.inr (.inl ⟨state, completion, stage, rfl, hstage, hpromise⟩))
  | escape state error => exact .inr (.inr (.inr ⟨state, error, rfl⟩))
  | execute | complete | recover => exact absurd hnone (invokeExtracted_lifecycle _ _ _).2.2
  | joinSelf => simp [Effect.throws, raise] at hnone
  | _ => simp [Effect.next, Effect.returns] at hnone

end Code

namespace Pool

variable {pool : Pool Fn Value Error}

theorem active_mem {thread : Thread Fn Value Error} (hthread : thread ∈ pool.threads)
    {active : Active Fn Value Error} (hactive : thread.code.active = some active)
    (hwait : ∀ point, active ≠ .wait point) : .active active ∈ pool.config.bag := by
  have hbag : Item.active active ∈ thread.bag := by
    rw [Thread.bag, Code.bag, hactive]
    simp [Active.bag_of_ne_wait hwait]
  exact Multiset.mem_add.mpr (.inl (mem_total.mpr ⟨thread, hthread, hbag⟩))

/-- What is being completed has no result yet. -/
theorem Lawful.promise_eq_none (hlawful : pool.Lawful) {thread : Thread Fn Value Error}
    (hthread : thread ∈ pool.threads) {state : ℕ} {completion : Completion Value Error}
    (hactive : thread.code.active = some (.complete state completion))
    {stage : Stage Fn Value Error} (hstage : pool.memory.states[state]? = some stage) :
    stage.cell.promise = none :=
  hlawful.coherent.driven.promise_eq_none (active_mem hthread hactive (by simp)) hstage

/-- No catch block is at work when no push failed and no detached function threw. -/
theorem Lawful.not_recover (hlawful : pool.Lawful) (hlost : pool.memory.lost = [])
    (hthrew : pool.memory.threw = []) {thread : Thread Fn Value Error}
    (hthread : thread ∈ pool.threads) (state : ℕ) (error : Thrown Error) :
    thread.code.active ≠ some (.recover state error) := by
  intro hactive
  have hmem := active_mem hthread hactive (by simp)
  have hle : Item.raised (.active (.recover state error)) ≤ weight Item.raised pool.config.bag :=
    le_weight hmem
  rw [hlawful.coherent.calm hlost hthrew] at hle
  simp [Item.raised] at hle

/-- Without an exception of the user's code no task ends the program. -/
theorem Lawful.not_terminated_step (hlawful : pool.Lawful) (halive : pool.memory.terminated = false)
    {thread : Thread Fn Value Error} (hthread : thread ∈ pool.threads) {move : Move Fn Value Error}
    {progress : Progress Fn Value Error} (hacted : thread.Acted pool.memory move progress)
    (hlost : pool.memory.lost = [] ∧ progress.memory.lost = [])
    (hthrew : pool.memory.threw = [] ∧ progress.memory.threw = []) :
    progress.memory.terminated = false := by
  cases hacted with
  | caller code _ effect hacted => exact (Code.acted_lifecycle hacted).2.trans halive
  | task id task code after _ memory' signal hbusy hacted =>
      exact (Code.acted_lifecycle hacted).2.trans halive
  | terminate id task code _ memory' signal hacted =>
      obtain hfailed | hthrown | ⟨state, completion, stage, hactive, hstage, hpromise⟩ |
        ⟨state, error, hactive⟩ := Code.acted_none hacted rfl
      · exact absurd hlost.2 hfailed
      · exact absurd hthrew.2 hthrown
      · simp [hlawful.promise_eq_none hthread hactive hstage] at hpromise
      · exact absurd hactive (hlawful.not_recover hlost.1 hthrew.1 hthread state error)
  | popFront id package | popBack id victim package =>
      cases hcallable : package.callable <;>
        simpa [Thread.startTask, Code.invoke, hcallable] using halive
  | _ => exact halive

theorem not_terminated_of_run {workers callers : ℕ} {events : List (Event Fn Value Error)}
    (hrun : run step (start workers callers) events = some pool) (hlost : pool.memory.lost = [])
    (hthrew : pool.memory.threw = []) : pool.memory.terminated = false := by
  have hstep : ∀ (pool : Pool Fn Value Error) (event : Event Fn Value Error)
      (next : Pool Fn Value Error), pool.Lawful →
      (pool.memory.lost = [] → pool.memory.threw = [] → pool.memory.terminated = false) →
      pool.step event = some next →
      next.memory.lost = [] → next.memory.threw = [] → next.memory.terminated = false := by
    intro pool event next hlawful _ hnext hlost hthrew
    obtain ⟨thread, progress, hstepped⟩ := stepped_of_step hnext
    have hextends := extends_of_run (run_cons.mpr ⟨next, hnext, run_nil next⟩)
    have hbefore := List.eq_nil_iff_forall_not_mem.mpr fun package hpackage =>
      List.not_mem_nil (hlost ▸ hextends.lost package hpackage)
    have hquiet := List.eq_nil_iff_forall_not_mem.mpr fun fn hfn =>
      List.not_mem_nil (hthrew ▸ hextends.threw fn hfn)
    rw [hstepped.memory] at hlost hthrew ⊢
    exact hlawful.not_terminated_step hstepped.alive (List.mem_of_getElem? hstepped.found)
      hstepped.acted ⟨hbefore, hlost⟩ ⟨hquiet, hthrew⟩
  exact (run_invariant_of_lawful hstep (fun _ _ => rfl) hrun).2 hlost hthrew

end Pool

end RpcDemo.Threadpool
