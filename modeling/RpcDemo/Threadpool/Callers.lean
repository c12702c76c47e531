import RpcDemo.Threadpool.Coherence

/-!
# What callers complete

A thread that is no worker completes a state only inside the call that makes it,
before that call returns the future.
-/

namespace RpcDemo.Threadpool

open Ledger Transition

variable {Fn Value Error : Type}

/-- The item is to complete a state, or is the rest of the try block that has. -/
@[simp]
def Item.works (state : ℕ) (item : Item Fn Value Error) : ℕ :=
  item.drives state + item.tries state

theorem Item.drives_le_works (state : ℕ) (item : Item Fn Value Error) :
    item.drives state ≤ item.works state :=
  Nat.le_add_right _ _

/-- The item works only on states whose futures it, or a frame below it, is to
return. -/
def Item.Covered (stack : List (Suspended Fn Value)) (item : Item Fn Value Error) : Prop :=
  ∀ state, item.works state ≤ item.returns state +
    weight (Item.returns state) (frames stack : Bag Fn Value Error)

def StackCovered (Error : Type) : List (Suspended Fn Value) → Prop
  | [] => True
  | frame :: stack =>
      (Item.frame frame : Item Fn Value Error).Covered stack ∧ StackCovered Error stack

structure Code.Covered (code : Code Fn Value Error) : Prop where
  active : ∀ active ∈ code.active, (Item.active active : Item Fn Value Error).Covered code.stack
  stack : StackCovered Error code.stack

/-- The code of a caller. -/
def Thread.Covered : Thread Fn Value Error → Prop
  | .caller code => code.Covered
  | .worker _ _ => True

namespace Code.Covered

variable {memory : Memory Fn Value Error} {stack : List (Suspended Fn Value)}

theorem of_none (hstack : StackCovered Error stack) :
    (⟨none, stack⟩ : Code Fn Value Error).Covered :=
  ⟨by simp, hstack⟩

theorem of_some {active : Active Fn Value Error} (hactive : (Item.active active).Covered stack)
    (hstack : StackCovered Error stack) : (⟨some active, stack⟩ : Code Fn Value Error).Covered :=
  ⟨by simpa using hactive, hstack⟩

theorem raise (error : Thrown Error) (hstack : StackCovered Error stack) :
    ((Code.raise error stack).getD .idle).Covered := by
  induction stack with
  | nil => exact of_none trivial
  | cons frame stack ih =>
      cases frame with
      | run fn arg state => exact of_none hstack
      | trying state =>
          have htop := hstack.1
          refine of_some ?_ hstack.2
          simpa [Item.Covered, Item.drives, Item.tries, Item.returns] using htop
      | attached cont => exact ih hstack.2

theorem step {code : Code Fn Value Error} {move : Move Fn Value Error}
    {effect : Effect Fn Value Error} (hcovered : code.Covered)
    (hacted : Acted memory code move effect)
    (hslot : ∀ state completion stage, code.active = some (.complete state completion) →
      memory.states[state]? = some stage → stage.cell.continuation = none)
    (hrecover : ∀ state error stage, code.active = some (.recover state error) →
      memory.states[state]? = some stage → stage.cell.promise ≠ none) :
    (effect.code.getD .idle).Covered := by
  obtain ⟨hactive, hstack⟩ := hcovered
  cases hacted with
  | fail | escape => exact raise _ hstack
  | throwDetached => exact raise _ hstack.2
  | execute cont inlineExec stack stage hstage hset hcompleted =>
      have hframe : StackCovered Error (.attached cont :: stack) :=
        ⟨by simp [Item.Covered, Item.drives, Item.tries], hstack⟩
      cases inlineExec with
      | true => exact of_some (by simp [Item.Covered, Item.drives, Item.tries, Item.returns]) hframe
      | false =>
          refine of_some ?_ hframe
          simp [Item.Covered, Item.drives, Item.tries, Item.returns, Callable.drives,
            Callable.promises]
  | complete state completion stack stage hstage hpromise =>
      rw [hslot state completion stage rfl hstage]
      cases completion with
      | ok value =>
          have htop := hactive _ rfl
          refine of_none ⟨?_, hstack⟩
          simpa [Item.Covered, Item.drives, Item.tries, Item.returns] using htop
      | error error => exact of_none hstack
  | refuse state completion stack stage hstage hpromise =>
      cases completion with
      | ok value =>
          have htop := hactive _ rfl
          refine of_some ?_ hstack
          simpa [Item.Covered, Item.drives, Item.tries, Item.returns] using htop
      | error error => exact raise _ hstack
  | recover state error stack stage hstage hpromise =>
      exact absurd hpromise (hrecover state error stage rfl hstage)
  | getValue cont stack stage value hstage hpromise =>
      have htop := hactive _ rfl
      refine of_none ⟨?_, hstack⟩
      simpa [Item.Covered, Item.drives, Item.tries, Item.returns] using htop
  | getError cont stack stage error hstage hpromise =>
      have htop := hactive _ rfl
      refine of_some ?_ hstack
      simpa [Item.Covered, Item.drives, Item.tries, Item.returns] using htop
  | finish fn arg state stack completion =>
      refine of_some ?_ hstack.2
      simpa [Item.Covered, Item.drives, Item.tries, Item.returns] using hstack.1
  | pick | count =>
      refine of_some ?_ hstack
      simpa [Item.Covered, Item.drives, Item.tries, Item.returns] using hactive _ rfl
  | ignored | stored => exact of_none ⟨by simp [Item.Covered, Item.drives, Item.tries], hstack⟩
  | notify | waitDone | destroyed | join | joinSelf => exact of_none hstack
  | tried | attached | finishDetached => exact of_none hstack.2
  | push | getFuture | postDetach | post | attach =>
      refine of_some ?_ hstack
      simp [Item.Covered, Item.drives, Item.tries, Item.returns, Callable.drives, Callable.promises]
  | _ => exact of_some (by simp [Item.Covered, Item.drives, Item.tries]) hstack

/-- A caller works on a state inside the call that makes it. -/
theorem returns_pos {code : Code Fn Value Error} (hcovered : code.Covered) {state : ℕ}
    (hworks : 0 < weight (Item.works state) code.bag) :
    0 < weight (Item.returns state) code.bag := by
  obtain ⟨active, stack⟩ := code
  obtain ⟨hactive, hstack⟩ := hcovered
  have hframes : 0 < weight (Item.works state) (frames stack : Bag Fn Value Error) →
      0 < weight (Item.returns state) (frames stack : Bag Fn Value Error) := by
    clear hworks hactive
    induction stack with
    | nil => exact id
    | cons frame stack ih =>
        have htop := hstack.1 state
        have hrest := ih hstack.2
        simp only [frames_cons, weight_add, weight_singleton]
        omega
  cases active with
  | none => simpa using hframes (by simpa using hworks)
  | some active =>
      have htop := hactive active rfl state
      cases active with
      | wait point => simpa [Active.bag] using hframes (by simpa [Active.bag] using hworks)
      | _ =>
          simp only [Code.bag_some, Active.bag, weight_add, weight_singleton] at hworks htop ⊢
          omega

end Code.Covered

namespace Pool

variable {pool next : Pool Fn Value Error} {event : Event Fn Value Error}

theorem weight_code_le {thread : Thread Fn Value Error} (hthread : thread ∈ pool.threads)
    (measure : Item Fn Value Error → ℕ) :
    weight measure thread.code.bag ≤ weight measure pool.config.bag := by
  have hbag : weight measure thread.code.bag ≤ weight measure thread.bag := by
    rw [Thread.bag, weight_add]
    exact Nat.le_add_left _ _
  calc
    weight measure thread.code.bag ≤ weight measure thread.bag := hbag
    _ ≤ total (fun thread => weight measure thread.bag) pool.threads :=
      List.single_le_sum (by simp) _ (List.mem_map_of_mem hthread)
    _ ≤ weight measure pool.config.bag := by
      rw [weight_config]
      exact Nat.le_add_right _ _

/-- What a caller is at work on has not been returned. -/
theorem returned_eq_zero_of_caller {code : Code Fn Value Error}
    (hcoherent : pool.config.Coherent) (hthread : .caller code ∈ pool.threads)
    (hcovered : code.Covered) {state : ℕ} (hworks : 0 < weight (Item.works state) code.bag) :
    returned pool.memory.states state = 0 := by
  have hreturns := hcovered.returns_pos hworks
  have hle : weight (Item.returns state) code.bag ≤ weight (Item.returns state) pool.config.bag :=
    weight_code_le hthread _
  have hhanded := hcoherent.handedOut state
  have hmade := made_le_one pool.memory.states state
  rw [config_memory] at hhanded
  omega

/-- No continuation is given to a state before its future is returned. -/
theorem continuation_eq_none_of_caller {code : Code Fn Value Error}
    (hcoherent : pool.config.Coherent) (hthread : .caller code ∈ pool.threads)
    (hcovered : code.Covered) {state : ℕ} {stage : Stage Fn Value Error}
    {completion : Completion Value Error}
    (hactive : code.active = some (.complete state completion))
    (hstage : pool.memory.states[state]? = some stage) : stage.cell.continuation = none := by
  have hzero : returned pool.memory.states state = 0 := by
    apply returned_eq_zero_of_caller hcoherent hthread hcovered
    rw [Code.bag, hactive]
    simp [Active.bag, Item.drives]
  cases hslot : stage.cell.continuation with
  | none => rfl
  | some callable =>
      obtain ⟨hreturned, _⟩ := hcoherent.sound.memory.slots state stage hstage callable hslot
      rw [returned_of_get hstage, hreturned] at hzero
      simp at hzero

theorem covered_acted {thread : Thread Fn Value Error} {progress : Progress Fn Value Error}
    (hcoherent : pool.config.Coherent) (hthread : thread ∈ pool.threads)
    (hcovered : thread.Covered) {move : Move Fn Value Error}
    (hacted : thread.Acted pool.memory move progress) : progress.thread.Covered := by
  cases hacted with
  | caller code _ effect hacted =>
      refine Code.Covered.step hcovered hacted ?_ ?_
      · intro state completion stage hactive hstage
        exact continuation_eq_none_of_caller hcoherent hthread hcovered hactive hstage
      · intro state error stage hactive hstage hpromise
        have htried := hcoherent.driven.tried state
          (by rw [config_memory, completed_of_get hstage, hpromise]; rfl)
        have hle : weight (Item.tries state) code.bag ≤ weight (Item.tries state) pool.config.bag :=
          weight_code_le hthread _
        rw [Code.bag, hactive] at hle
        simp [Active.bag, Item.tries] at hle
        omega
  | _ => trivial

theorem covered_wakeWorker (thread : Thread Fn Value Error) (hcovered : thread.Covered) :
    thread.wakeWorker.Covered := by
  unfold Thread.wakeWorker
  split
  · trivial
  · exact hcovered

theorem covered_wakeWaiter (thread : Thread Fn Value Error) (hcovered : thread.Covered) :
    thread.wakeWaiter.Covered := by
  unfold Thread.wakeWaiter
  split
  · exact Code.Covered.of_some (by simp [Item.Covered, Item.drives, Item.tries]) hcovered.stack
  · trivial
  · exact hcovered

theorem start_covered (workers callers : ℕ) :
    ∀ thread ∈ (start workers callers : Pool Fn Value Error).threads, thread.Covered := by
  intro thread hthread
  simp only [start, List.mem_append, List.mem_map, List.mem_replicate] at hthread
  obtain ⟨id, _, rfl⟩ | ⟨_, rfl⟩ := hthread
  · trivial
  · exact Code.Covered.of_none trivial

/-- What holds in every reachable state of a pool. -/
structure Lawful (pool : Pool Fn Value Error) : Prop where
  coherent : pool.config.Coherent
  covered : ∀ thread ∈ pool.threads, thread.Covered

theorem Lawful.step (hlawful : pool.Lawful) (hstep : pool.step event = some next) :
    next.Lawful := by
  obtain ⟨thread, progress, hstepped⟩ := stepped_of_step hstep
  have hthread := List.mem_of_getElem? hstepped.found
  constructor
  · exact (changes_of_step hstep).invariant Config.Coherent.change hlawful.coherent
  · exact hstepped.forall_threads covered_wakeWorker covered_wakeWaiter hlawful.covered
      (covered_acted hlawful.coherent hthread (hlawful.covered thread hthread) hstepped.acted)

/-- The rule for invariants that rest on the laws. -/
theorem run_invariant_of_lawful {invariant : Pool Fn Value Error → Prop} {workers callers : ℕ}
    (hstep : ∀ pool event next, pool.Lawful → invariant pool →
      pool.step event = some next → invariant next)
    {pool : Pool Fn Value Error} {events : List (Event Fn Value Error)}
    (hinvariant : invariant (start workers callers))
    (hrun : run step (start workers callers) events = some pool) :
    pool.Lawful ∧ invariant pool := by
  have hboth : ∀ (pool : Pool Fn Value Error) (event : Event Fn Value Error)
      (next : Pool Fn Value Error), pool.Lawful ∧ invariant pool →
      pool.step event = some next → next.Lawful ∧ invariant next :=
    fun pool event next ⟨hlawful, hholds⟩ hnext =>
      ⟨hlawful.step hnext, hstep pool event next hlawful hholds hnext⟩
  have hlawful : (start workers callers : Pool Fn Value Error).Lawful :=
    ⟨start_coherent workers callers, start_covered workers callers⟩
  exact run_invariant hboth ⟨hlawful, hinvariant⟩ hrun

theorem lawful_of_run {workers callers : ℕ} {events : List (Event Fn Value Error)}
    {pool : Pool Fn Value Error} (hrun : run step (start workers callers) events = some pool) :
    pool.Lawful :=
  (run_invariant_of_lawful (fun _ _ _ _ _ _ => trivial) trivial hrun).1

/-- What a run keeps of the memory it starts from. -/
theorem extends_of_run {pool final : Pool Fn Value Error} {events : List (Event Fn Value Error)}
    (hrun : run step pool events = some final) : pool.memory.Extends final.memory :=
  changes_invariant (fun _ => True) (fun config => pool.memory.Extends config.memory)
    (fun _ hchange hextends => hextends.trans hchange.extends) (.refl pool.memory)
    (fun _ _ => trivial) hrun

end Pool

end RpcDemo.Threadpool
