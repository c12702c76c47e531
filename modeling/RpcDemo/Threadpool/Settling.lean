import RpcDemo.Threadpool.Callers

/-!
# When a shared state is settled

A state whose future was returned, with no task left that completes it and with
its upstream state completed, is completed unless its continuation was ignored.
-/

namespace RpcDemo.Threadpool

open Ledger Transition

variable {Fn Value Error : Type}

/-- What is to run a continuation is to complete its state. -/
theorem Item.resumes_le_drives (state : ℕ) (item : Item Fn Value Error) :
    item.resumes state ≤ item.drives state := by
  have hcallable : ∀ callable : Callable Fn, callable.resumes state ≤ callable.drives state := by
    intro callable
    cases callable <;> simp [Callable.resumes, Callable.drives]
  cases item with
  | active active =>
      cases active with
      | enqueue package point => cases point <;> first | exact hcallable _ | exact le_rfl
      | thenImpl cont inlineExec point => exact le_rfl
      | _ => exact Nat.zero_le _
  | package package => exact hcallable _
  | slot callable => exact hcallable _
  | callable callable => exact hcallable _
  | _ => exact Nat.zero_le _

namespace Pool

/-- A task that is to complete the state is queued, or a worker has it in hand. -/
def Busy (pool : Pool Fn Value Error) (state : ℕ) : Prop :=
  (∃ package ∈ pool.memory.queues.flatten, 0 < package.callable.drives state) ∨
    ∃ thread ∈ pool.threads, thread.task ≠ none ∧ 0 < weight (Item.drives state) thread.code.bag

namespace Lawful

variable {pool : Pool Fn Value Error} {state : ℕ} {stage : Stage Fn Value Error}

/-- The continuation that is to complete a state is stored upstream. -/
theorem stored_upstream (hlawful : pool.Lawful) {upstream : ℕ} {up : Stage Fn Value Error}
    (hup : pool.memory.states[upstream]? = some up) {callable : Callable Fn}
    (hslot : up.cell.continuation = some callable) (hdrives : 0 < callable.drives state) :
    up.returned = true ∧ up.cell.promise = none ∧
      ∃ fn stage, pool.memory.states[state]? = some stage ∧
        stage.origin = .attached upstream fn := by
  obtain ⟨hreturned, cont, inlineExec, rfl, rfl, stage, hstage, horigin⟩ :=
    hlawful.coherent.sound.memory.slots upstream up hup callable hslot
  have hcell := hlawful.coherent.driven.cells _ up hup
  have hnone : up.cell.completed = false := (hcell.slot (by rw [hslot]; rfl)).2
  have hpromise : up.cell.promise = none := by
    simpa [hnone] using hcell.completed
  have hnext : cont.next = state := by
    by_contra hne
    simp [hne] at hdrives
  subst hnext
  exact ⟨hreturned, hpromise, cont.func, stage, hstage, horigin⟩

theorem drives_threads (hlawful : pool.Lawful) (hstage : pool.memory.states[state]? = some stage)
    (hreturned : stage.returned = true) (hidle : ¬pool.Busy state) :
    ∀ thread ∈ pool.threads, weight (Item.drives state) thread.bag = 0 := by
  intro thread hthread
  have hbag : weight (Item.drives state) thread.bag =
      weight (Item.drives state) thread.code.bag := by
    rw [Thread.bag, weight_add]
    cases thread.task <;> simp [Item.drives]
  rw [hbag]
  by_contra hne
  have hpos := Nat.pos_of_ne_zero hne
  cases thread with
  | caller code =>
      have hworks : 0 < weight (Item.works state) code.bag :=
        hpos.trans_le (weight_le_weight (Item.drives_le_works state) _)
      have hzero := returned_eq_zero_of_caller hlawful.coherent hthread
        (hlawful.covered _ hthread) hworks
      rw [returned_of_get hstage, hreturned] at hzero
      simp at hzero
  | worker id point =>
      cases point with
      | running task code => exact hidle (.inr ⟨_, hthread, by simp [Thread.task], hpos⟩)
      | _ => simp [Thread.code] at hpos

theorem drives_slots (hlawful : pool.Lawful) (hstage : pool.memory.states[state]? = some stage)
    (hupstream : ∀ upstream fn, stage.origin = .attached upstream fn →
      Completed pool.memory.states upstream) :
    ∀ up ∈ pool.memory.states, weight (Item.drives state) (up.bag : Bag Fn Value Error) = 0 := by
  intro up hup
  obtain ⟨upstream, hget⟩ := List.mem_iff_getElem?.mp hup
  rw [Stage.weight_bag]
  cases hslot : up.cell.continuation with
  | none => rfl
  | some callable =>
      by_contra hne
      obtain ⟨_, hpromise, fn, other, hother, horigin⟩ :=
        hlawful.stored_upstream hget hslot (Nat.pos_of_ne_zero hne)
      obtain rfl := Option.some.inj (hstage.symm.trans hother)
      obtain ⟨settled, hsettled, hsome⟩ := hupstream upstream fn horigin
      obtain rfl := Option.some.inj (hget.symm.trans hsettled)
      simp [hpromise] at hsome

/-- Nothing is left that completes the state. -/
theorem drives_eq_zero (hlawful : pool.Lawful) (hstage : pool.memory.states[state]? = some stage)
    (hreturned : stage.returned = true) (hidle : ¬pool.Busy state)
    (hupstream : ∀ upstream fn, stage.origin = .attached upstream fn →
      Completed pool.memory.states upstream) :
    weight (Item.drives state) pool.config.bag = 0 := by
  have hqueued : ∀ package ∈ pool.memory.queues.flatten,
      (Item.package package : Item Fn Value Error).drives state = 0 := by
    intro package hpackage
    by_contra hne
    exact hidle (.inl ⟨package, hpackage, Nat.pos_of_ne_zero hne⟩)
  rw [weight_config, total_eq_zero (drives_threads hlawful hstage hreturned hidle),
    total_eq_zero hqueued, total_eq_zero (drives_slots hlawful hstage hupstream), add_zero,
      add_zero]

/-- A settled state is completed, or its continuation was ignored. -/
theorem completed_add_ignored (hlawful : pool.Lawful) (hlost : pool.memory.lost = [])
    (hstage : pool.memory.states[state]? = some stage)
    (hdrives : weight (Item.drives state) pool.config.bag = 0) :
    completed pool.memory.states state +
      pool.memory.ignored.countP (fun cont => cont.next = state) = 1 := by
  have hdriven := hlawful.coherent.driven.driven state
  rw [config_memory, hdrives, hlost, made_of_get hstage, total_nil] at hdriven
  omega

theorem invoked_add_ignored (hlawful : pool.Lawful) (hlost : pool.memory.lost = [])
    (hstage : pool.memory.states[state]? = some stage)
    (hdrives : weight (Item.drives state) pool.config.bag = 0) {upstream : ℕ} {fn : Fn}
    (horigin : stage.origin = .attached upstream fn) :
    pool.memory.invoked.count state +
      pool.memory.ignored.countP (fun cont => cont.next = state) = 1 := by
  have hresumed := hlawful.coherent.invoked.resumed state
  have hle : weight (Item.resumes state) pool.config.bag ≤
      weight (Item.drives state) pool.config.bag :=
    weight_le_weight (Item.resumes_le_drives state) _
  have hcontinued : continued pool.memory.states state = 1 := by
    rw [continued, flag_of_get hstage, horigin]
    rfl
  rw [config_memory, hlost, hcontinued, total_nil] at hresumed
  omega

theorem origin_of_ignored (hlawful : pool.Lawful)
    (hstage : pool.memory.states[state]? = some stage) {cont : Continuation Fn}
    (hignored : cont ∈ pool.memory.ignored) (hnext : cont.next = state) :
    stage.origin = .attached cont.upstream cont.func := by
  obtain ⟨linked, hlinked, horigin⟩ := hlawful.coherent.sound.memory.ignored cont hignored
  obtain rfl := Option.some.inj (hstage.symm.trans (hnext ▸ hlinked))
  exact horigin

/-- Nothing is left that completes a completed state. -/
theorem drives_of_completed (hlawful : pool.Lawful)
    (hcompleted : Completed pool.memory.states state) :
    weight (Item.drives state) pool.config.bag = 0 := by
  obtain ⟨stage, hstage, hpromise⟩ := hcompleted
  have hdriven := hlawful.coherent.driven.driven state
  rw [config_memory, completed_of_get hstage, hpromise, made_of_get hstage] at hdriven
  simp at hdriven
  omega

/-- The only continuation of a future is not ignored. -/
theorem not_ignored_of_single (hlawful : pool.Lawful)
    (hstage : pool.memory.states[state]? = some stage)
    (hsingle : ∀ upstream fn, stage.origin = .attached upstream fn →
      attachments pool.memory.states upstream ≤ 1) :
    pool.memory.ignored.countP (fun cont => cont.next = state) = 0 := by
  refine List.countP_eq_zero.mpr fun cont hignored hnext => ?_
  have horigin := hlawful.origin_of_ignored hstage hignored (of_decide_eq_true hnext)
  obtain ⟨hbounded, _, hfree⟩ := hlawful.coherent.attachedTo cont.upstream
  have hone := hsingle _ _ horigin
  have hpos : 0 < pool.memory.ignored.countP fun other => other.upstream = cont.upstream :=
    List.countP_pos_iff.mpr ⟨cont, hignored, by simp⟩
  simp only [config_memory] at hbounded hfree
  omega

/-- A state whose future was returned and that no task is left for is completed,
when its upstream state is and has no other continuation. -/
theorem completed_of_upstream (hlawful : pool.Lawful) (hlost : pool.memory.lost = [])
    (hreturned : Returned pool.memory.states state) (hidle : ¬pool.Busy state)
    (hupstream : ∀ stage upstream fn, pool.memory.states[state]? = some stage →
      stage.origin = .attached upstream fn →
      Completed pool.memory.states upstream ∧ attachments pool.memory.states upstream ≤ 1) :
    Completed pool.memory.states state := by
  obtain ⟨stage, hstage, hflag⟩ := hreturned
  have hdrives := hlawful.drives_eq_zero hstage hflag hidle
    fun upstream fn horigin => (hupstream stage upstream fn hstage horigin).1
  have hbalance := hlawful.completed_add_ignored hlost hstage hdrives
  rw [hlawful.not_ignored_of_single hstage fun upstream fn horigin =>
    (hupstream stage upstream fn hstage horigin).2, completed_of_get hstage] at hbalance
  exact ⟨stage, hstage, by simpa using hbalance⟩

/-- When no task is left, every state whose future was returned is completed. -/
theorem completed_of_idle (hlawful : pool.Lawful) (hlost : pool.memory.lost = [])
    (hsingle : ∀ upstream, attachments pool.memory.states upstream ≤ 1)
    (hidle : ∀ state, ¬pool.Busy state) (hreturned : Returned pool.memory.states state) :
    Completed pool.memory.states state := by
  induction state using Nat.strong_induction_on with
  | _ state ih =>
      apply hlawful.completed_of_upstream hlost hreturned (hidle state)
      intro stage upstream fn hstage horigin
      obtain ⟨hlt, hupstream⟩ :=
        hlawful.coherent.sound.memory.origins state stage upstream fn hstage horigin
      exact ⟨ih upstream hlt hupstream, hsingle upstream⟩

end Lawful

end Pool

end RpcDemo.Threadpool
