import RpcDemo.Threadpool.Stages

/-!
# Who completes a shared state

Every shared state that is not completed has one driver: a call, a frame, a
queued task or a stored continuation that completes it in the end.  An ignored
continuation, and a task lost to a failed push, leave their states without one.
-/

namespace RpcDemo.Threadpool

open Ledger

variable {Fn Value Error : Type}

def Callable.drives (state : ℕ) : Callable Fn → ℕ
  | .detached _ => 0
  | .promised posted _ => if posted = state then 1 else 0
  | .continuation cont => if cont.next = state then 1 else 0
  | .submit cont => if cont.next = state then 1 else 0

@[simp]
theorem Code.attachment_drives (cont : Continuation Fn) (inlineExec : Bool) (state : ℕ) :
    (attachment cont inlineExec).drives state = if cont.next = state then 1 else 0 := by
  cases inlineExec <;> rfl

namespace Item

/-- The items that lead to the completion of a state. -/
def drives (state : ℕ) : Item Fn Value Error → ℕ
  | .active (.enqueue _ .notify) => 0
  | .active (.enqueue pack _) => pack.callable.drives state
  | .active (.thenImpl cont _ _) => if cont.next = state then 1 else 0
  | .active (.get cont) => if cont.next = state then 1 else 0
  | .active (.complete other _) => if other = state then 1 else 0
  | .frame (.run _ _ (some other)) => if other = state then 1 else 0
  | .package pack => pack.callable.drives state
  | .slot called => called.drives state
  | .callable called => called.drives state
  | _ => 0

/-- The rest of a try block whose `set_value` has completed the state, and the
`set_exception` of its catch block. -/
def tries (state : ℕ) : Item Fn Value Error → ℕ
  | .frame (.trying other) => if other = state then 1 else 0
  | .active (.recover other _) => if other = state then 1 else 0
  | _ => 0

end Item

structure Config.Driven (config : Config Fn Value Error) : Prop where
  cells : ∀ (state : ℕ) stage, config.memory.states[state]? = some stage → stage.cell.WellFormed
  tried : ∀ state, completed config.memory.states state = 0 →
    weight (Item.tries state) config.bag = 0
  driven : ∀ state, weight (Item.drives state) config.bag + completed config.memory.states state +
    config.memory.ignored.countP (fun cont => cont.next = state) +
    total (fun package => package.callable.drives state) config.memory.lost =
      made config.memory.states state

namespace Config.Driven

section Promise

variable {config : Config Fn Value Error} {state : ℕ} {stage : Stage Fn Value Error}

theorem completed_eq (hdriven : config.Driven)
    (hstage : config.memory.states[state]? = some stage) :
    completed config.memory.states state = stage.cell.completed.toNat := by
  rw [completed_of_get hstage, (hdriven.cells state stage hstage).completed]

/-- What is still to be completed is not completed. -/
theorem completed_eq_zero (hdriven : config.Driven) {item : Item Fn Value Error}
    (hmem : item ∈ config.bag) (state : ℕ) (hdrives : 0 < item.drives state) :
    completed config.memory.states state = 0 := by
  have hle : item.drives state ≤ weight (Item.drives state) config.bag := le_weight hmem
  have hbalance := hdriven.driven state
  have hmade := made_le_one config.memory.states state
  omega

theorem promise_eq_none (hdriven : config.Driven) {completion : Completion Value Error}
    (hmem : .active (.complete state completion) ∈ config.bag)
    (hstage : config.memory.states[state]? = some stage) : stage.cell.promise = none := by
  have hzero := hdriven.completed_eq_zero hmem state (by simp [Item.drives])
  rw [completed_of_get hstage] at hzero
  simpa using hzero

/-- What a catch block is to complete is completed already. -/
theorem completed_of_recover (hdriven : config.Driven) {error : Thrown Error}
    (hmem : .active (.recover state error) ∈ config.bag) :
    completed config.memory.states state ≠ 0 := by
  intro hzero
  have hle : Item.tries state (.active (.recover state error)) ≤
      weight (Item.tries state) config.bag := le_weight hmem
  simp [hdriven.tried state hzero, Item.tries] at hle

theorem promise_ne_none (hdriven : config.Driven) {error : Thrown Error}
    (hmem : .active (.recover state error) ∈ config.bag)
    (hstage : config.memory.states[state]? = some stage) : stage.cell.promise ≠ none := by
  intro hpromise
  apply hdriven.completed_of_recover hmem
  rw [completed_of_get hstage, hpromise]
  rfl

end Promise

variable {move : Move Fn Value Error} {rest : Bag Fn Value Error}
variable {memory memory' : Memory Fn Value Error} {removed added : List (Item Fn Value Error)}

theorem cells_change (hchange : Change move memory removed added memory')
    (hbefore : Driven (.beside rest removed memory)) :
    ∀ (state : ℕ) stage, memory'.states[state]? = some stage → stage.cell.WellFormed := by
  refine hchange.states.pointwise ?_ ?_ ?_ ?_ ?_ hbefore.cells
  · exact fun _ _ => SharedState.fresh_wellFormed
  · exact fun _ _ hcell => hcell.getFuture
  · exact fun _ _ _ _ _ hcell hcompleted => hcell.store _ hcompleted
  · exact fun _ stage completion _ _ _ _ => stage.cell.settle_wellFormed completion
  · exact fun _ _ hcell => hcell

theorem tried_change (hchange : Change move memory removed added memory')
    (hbefore : Driven (.beside rest removed memory)) (state : ℕ) :
    completed memory'.states state = 0 →
      weight (Item.tries state) (beside rest added memory').bag = 0 := by
  have htried := hbefore.tried state
  simp only [weight_add, weight_coe] at htried ⊢
  cases hchange with
  | complete _ other completion stage hstage hpromise =>
      rw [completed_settle hstage hpromise]
      cases completion <;> simp [Item.tries, Code.tryBlock] at htried ⊢ <;> omega
  | recover _ other error stage hstage hpromise =>
      exact absurd hpromise (hbefore.promise_ne_none (mem_beside List.mem_cons_self) hstage)
  | refuseValue _ other value stage hstage hpromise =>
      intro hzero
      by_cases heq : other = state
      · rw [← heq, completed_of_get hstage, hpromise] at hzero
        simp at hzero
      · simpa [Item.tries, heq] using htried hzero
  | getFuture _ cont inlineExec stage hstage =>
      rw [completed_getFuture hstage]
      simpa [Item.tries] using htried
  | stored _ cont inlineExec stage hstage hset hcompleted =>
      rw [completed_store hstage]
      simpa [Item.tries] using htried
  | tried | rescue | escape =>
      simp [Item.tries] at htried ⊢
      omega
  | _ => simpa [Item.tries] using htried

theorem driven_change (hchange : Change move memory removed added memory')
    (hbefore : Driven (.beside rest removed memory)) (state : ℕ) :
    weight (Item.drives state) (beside rest added memory').bag + completed memory'.states state +
      memory'.ignored.countP (fun cont => cont.next = state) +
      total (fun package => package.callable.drives state) memory'.lost =
        made memory'.states state := by
  have hdriven := hbefore.driven state
  simp only [weight_add, weight_coe] at hdriven ⊢
  cases hchange with
  | complete _ other completion stage hstage hpromise =>
      rw [completed_settle hstage hpromise]
      cases completion <;> simp [Item.drives, Code.tryBlock] at hdriven ⊢ <;> omega
  | recover _ other error stage hstage hpromise =>
      exact absurd hpromise (hbefore.promise_ne_none (mem_beside List.mem_cons_self) hstage)
  | refuseValue _ other value stage hstage hpromise =>
      have hnone := hbefore.promise_eq_none (mem_beside List.mem_cons_self) hstage
      simp [hnone] at hpromise
  | refuseError _ other error stage hstage hpromise =>
      have hnone := hbefore.promise_eq_none (mem_beside List.mem_cons_self) hstage
      simp [hnone] at hpromise
  | getFuture _ cont inlineExec stage hstage =>
      rw [completed_getFuture hstage]
      simpa [Item.drives] using hdriven
  | stored _ cont inlineExec stage hstage hset hcompleted =>
      have hslot := (hbefore.cells _ stage hstage).continuation_eq_none (.inl hset)
      rw [completed_store hstage]
      simpa [Item.drives, hslot] using hdriven
  | fail | ignored | post | attach =>
      simp [Item.drives, Callable.drives] at hdriven ⊢
      omega
  | attached _ cont =>
      rw [completed_markReturned, made_markReturned]
      simpa [Item.drives] using hdriven
  | postDetach | runDetached | runPromised | runContinuation | submit =>
      simpa [Item.drives, Callable.drives] using hdriven
  | _ => simpa [Item.drives] using hdriven

theorem change (hchange : Change move memory removed added memory')
    (hbefore : Driven (.beside rest removed memory)) : Driven (.beside rest added memory') where
  cells := cells_change hchange hbefore
  tried := tried_change hchange hbefore
  driven := driven_change hchange hbefore

end Config.Driven

end RpcDemo.Threadpool
