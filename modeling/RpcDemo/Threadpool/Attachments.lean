import RpcDemo.Threadpool.Drivers

/-!
# Futures handed out and continuations attached

How the calls that make a shared state, the continuations attached to one, and
the runs of their functions are counted.
-/

namespace RpcDemo.Threadpool

open Ledger

variable {Fn Value Error : Type}

/-! ## Futures handed out -/

/-- One when the call that made the state has returned its future. -/
def returned (states : List (Stage Fn Value Error)) (state : ℕ) : ℕ :=
  flag Stage.returned states state

theorem returned_of_get {states : List (Stage Fn Value Error)} {state : ℕ}
    {stage : Stage Fn Value Error} (hstage : states[state]? = some stage) :
    returned states state = stage.returned.toNat :=
  flag_of_get hstage

theorem returned_setCell {memory : Memory Fn Value Error} {changed : ℕ}
    {stage : Stage Fn Value Error} (hstage : memory.states[changed]? = some stage)
    (cell : SharedState (Completion Value Error) (Callable Fn)) (state : ℕ) :
    returned (memory.setCell changed stage cell).states state =
      returned memory.states state := by
  rw [returned, flag_setCell_same hstage] <;> rfl

@[simp]
theorem returned_append (states : List (Stage Fn Value Error)) (origin : Origin Fn)
    (state : ℕ) :
    returned (states ++ [⟨.fresh, origin, false⟩]) state = returned states state := by
  simp [returned, flag_append]

/-- A future that is handed out counts once. -/
theorem returned_markReturned_le (memory : Memory Fn Value Error) (changed state : ℕ) :
    returned (memory.markReturned changed).states state ≤
      returned memory.states state + if changed = state then 1 else 0 := by
  split
  case isTrue => exact le_trans (flag_le_one _ _ state) (Nat.le_add_left _ _)
  case isFalse hne =>
    rw [returned, flag, Memory.markReturned, List.getElem?_modify_ne _ _ hne]
    exact le_rfl

def Callable.promises (state : ℕ) : Callable Fn → ℕ
  | .promised posted _ => if posted = state then 1 else 0
  | _ => 0

namespace Item

/-- The call that will return the future of a state. -/
def returns (state : ℕ) : Item Fn Value Error → ℕ
  | .active (.enqueue pack _) => pack.callable.promises state
  | .active (.thenImpl cont _ _) => if cont.next = state then 1 else 0
  | .frame (.attached cont) => if cont.next = state then 1 else 0
  | _ => 0

end Item

/-- A future is handed out once. -/
def Config.HandedOut (config : Config Fn Value Error) : Prop :=
  ∀ state, weight (Item.returns state) config.bag + returned config.memory.states state ≤
    made config.memory.states state

section Change

variable {move : Move Fn Value Error} {rest : Bag Fn Value Error}
variable {memory memory' : Memory Fn Value Error} {removed added : List (Item Fn Value Error)}

/-- A change hands out no future twice. -/
theorem Config.HandedOut.change (hchange : Change move memory removed added memory')
    (hbefore : HandedOut (.beside rest removed memory)) :
    HandedOut (.beside rest added memory') := by
  intro state
  have hhanded := hbefore state
  simp only [weight_add, weight_coe] at hhanded ⊢
  cases hchange with
  | getFuture _ cont inlineExec stage hstage =>
      rw [returned_setCell hstage]
      simpa [Item.returns] using hhanded
  | stored _ cont inlineExec stage hstage hset hcompleted =>
      rw [returned_setCell hstage]
      simp [Item.returns] at hhanded ⊢
      omega
  | complete _ other completion stage hstage hpromise =>
      rw [returned_setCell hstage]
      cases completion <;> simpa [Item.returns, Code.tryBlock] using hhanded
  | recover _ other error stage hstage hpromise =>
      rw [returned_setCell hstage]
      simpa [Item.returns] using hhanded
  | notify _ package =>
      rw [made_returnPosted]
      cases hcallable : package.callable with
      | promised posted fn =>
          have hle := returned_markReturned_le memory posted state
          simp [Item.returns, hcallable, Callable.promises, Memory.returnPosted] at hhanded ⊢
          omega
      | _ => simpa [Item.returns, hcallable, Callable.promises, Memory.returnPosted] using hhanded
  | attached _ cont =>
      have hle := returned_markReturned_le memory cont.next state
      simp [Item.returns] at hhanded ⊢
      omega
  | fail | leave =>
      simp [Item.returns] at hhanded ⊢
      omega
  | postDetach | post | attach | submit =>
      simp [Item.returns, Callable.promises] at hhanded ⊢
      omega
  | _ => simpa [Item.returns] using hhanded

end Change

/-! ## Continuations attached -/

/-- One when a continuation was stored in the state. -/
def occupied (states : List (Stage Fn Value Error)) (state : ℕ) : ℕ :=
  flag (fun stage => stage.cell.continuationSet) states state

def Origin.attaches (upstream : ℕ) : Origin Fn → ℕ
  | .posted _ => 0
  | .attached other _ => if other = upstream then 1 else 0

/-- The number of continuations that were given to the state. -/
def attachments (states : List (Stage Fn Value Error)) (upstream : ℕ) : ℕ :=
  total (fun stage => stage.origin.attaches upstream) states

section Attachments

variable {memory : Memory Fn Value Error} {changed : ℕ} {stage : Stage Fn Value Error}

theorem occupied_of_get {states : List (Stage Fn Value Error)}
    (hstage : states[changed]? = some stage) :
    occupied states changed = stage.cell.continuationSet.toNat :=
  flag_of_get hstage

theorem occupied_getFuture (hstage : memory.states[changed]? = some stage) (state : ℕ) :
    occupied (memory.setCell changed stage stage.cell.getFuture).states state =
      occupied memory.states state := by
  rw [occupied, flag_setCell_same hstage] <;> rfl

theorem occupied_settle (hstage : memory.states[changed]? = some stage)
    (completion : Completion Value Error) (state : ℕ) :
    occupied (memory.setCell changed stage (stage.cell.settle completion)).states state =
      occupied memory.states state := by
  rw [occupied, flag_setCell_same hstage] <;> rfl

/-- Storing a continuation fills the slot of one state. -/
theorem occupied_store (hstage : memory.states[changed]? = some stage)
    (hset : stage.cell.continuationSet = false) (callable : Callable Fn) (state : ℕ) :
    occupied (memory.setCell changed stage (stage.cell.store callable)).states state =
      occupied memory.states state + if changed = state then 1 else 0 := by
  rw [occupied, flag_setCell hstage]
  split
  case isTrue heq =>
    rw [← heq, occupied_of_get hstage, hset]
    rfl
  case isFalse => rfl

@[simp]
theorem occupied_append (states : List (Stage Fn Value Error)) (origin : Origin Fn)
    (state : ℕ) :
    occupied (states ++ [⟨.fresh, origin, false⟩]) state = occupied states state := by
  simp [occupied, flag_append, SharedState.fresh]

@[simp]
theorem occupied_markReturned (memory : Memory Fn Value Error) (returned state : ℕ) :
    occupied (memory.markReturned returned).states state = occupied memory.states state :=
  flag_markReturned (fun _ => rfl) memory returned state

@[simp]
theorem occupied_returnPosted (memory : Memory Fn Value Error) (callable : Callable Fn)
    (state : ℕ) : occupied (memory.returnPosted callable).states state =
      occupied memory.states state :=
  flag_returnPosted (fun _ => rfl) memory callable state

/-- What happens inside a state leaves its continuations the same in number. -/
theorem attachments_setCell (hstage : memory.states[changed]? = some stage)
    (cell : SharedState (Completion Value Error) (Callable Fn)) (upstream : ℕ) :
    attachments (memory.setCell changed stage cell).states upstream =
      attachments memory.states upstream := by
  have hset : attachments (memory.setCell changed stage cell).states upstream +
      stage.origin.attaches upstream =
        attachments memory.states upstream + stage.origin.attaches upstream :=
    total_set _ hstage
  exact add_right_cancel hset

@[simp]
theorem attachments_append (states : List (Stage Fn Value Error)) (origin : Origin Fn)
    (upstream : ℕ) :
    attachments (states ++ [⟨.fresh, origin, false⟩]) upstream =
      attachments states upstream + origin.attaches upstream := by
  simp [attachments]

@[simp]
theorem attachments_markReturned (memory : Memory Fn Value Error) (returned upstream : ℕ) :
    attachments (memory.markReturned returned).states upstream =
      attachments memory.states upstream :=
  total_modify returned fun _ => rfl

@[simp]
theorem attachments_returnPosted (memory : Memory Fn Value Error) (callable : Callable Fn)
    (upstream : ℕ) : attachments (memory.returnPosted callable).states upstream =
      attachments memory.states upstream := by
  cases callable with
  | promised posted fn => exact attachments_markReturned memory posted upstream
  | _ => rfl

end Attachments

/-- A call of `then_impl` on the state that has not reached it yet. -/
def Item.attaching (upstream : ℕ) : Item Fn Value Error → ℕ
  | .active (.thenImpl cont _ _) => if cont.upstream = upstream then 1 else 0
  | _ => 0

/-- How the continuations given to one state are spread: on their way, ignored,
stored; the others were run at once. -/
structure Attaching (attaching ignored occupied attachments completed : ℕ) : Prop where
  bounded : attaching + ignored + occupied ≤ attachments
  balanced : completed = 0 ∨ occupied = 1 → attachments = attaching + ignored + occupied
  free : occupied = 0 → ignored = 0

namespace Attaching

variable {attaching ignored occupied attachments completed : ℕ}

/-- A further continuation is given to the state. -/
theorem attach (hbefore : Attaching attaching ignored occupied attachments completed) :
    Attaching (attaching + 1) ignored occupied (attachments + 1) completed := by
  obtain ⟨hbounded, hbalanced, hfree⟩ := hbefore
  exact ⟨by omega, by omega, hfree⟩

/-- One that arrives at a filled slot is ignored. -/
theorem ignore (hbefore : Attaching (attaching + 1) ignored 1 attachments completed) :
    Attaching attaching (ignored + 1) 1 attachments completed := by
  obtain ⟨hbounded, hbalanced, hfree⟩ := hbefore
  exact ⟨by omega, by omega, by omega⟩

/-- One that arrives at an empty slot before the completion is stored. -/
theorem store (hbefore : Attaching (attaching + 1) ignored 0 attachments 0) :
    Attaching attaching ignored 1 attachments 0 := by
  obtain ⟨hbounded, hbalanced, hfree⟩ := hbefore
  exact ⟨by omega, by omega, by omega⟩

/-- One that arrives at an empty slot after the completion is run. -/
theorem execute (hbefore : Attaching (attaching + 1) ignored 0 attachments 1) :
    Attaching attaching ignored 0 attachments 1 := by
  obtain ⟨hbounded, hbalanced, hfree⟩ := hbefore
  exact ⟨by omega, by omega, hfree⟩

/-- The state is completed. -/
theorem complete (hbefore : Attaching attaching ignored occupied attachments 0) :
    Attaching attaching ignored occupied attachments 1 := by
  obtain ⟨hbounded, hbalanced, hfree⟩ := hbefore
  exact ⟨hbounded, by omega, hfree⟩

end Attaching

/-- The balance of one state in a configuration. -/
def Config.AttachedTo (config : Config Fn Value Error) (upstream : ℕ) : Prop :=
  Attaching (weight (Item.attaching upstream) config.bag)
    (config.memory.ignored.countP fun cont => cont.upstream = upstream)
    (occupied config.memory.states upstream) (attachments config.memory.states upstream)
    (completed config.memory.states upstream)

namespace Config.AttachedTo

variable {move : Move Fn Value Error} {rest : Bag Fn Value Error}
variable {memory memory' : Memory Fn Value Error} {removed added : List (Item Fn Value Error)}

/-- Every change keeps the balance. -/
theorem change {upstream : ℕ} (hchange : Change move memory removed added memory')
    (hdriven : Driven (.beside rest removed memory))
    (hbefore : AttachedTo (.beside rest removed memory) upstream) :
    AttachedTo (.beside rest added memory') upstream := by
  unfold AttachedTo at hbefore ⊢
  simp only [weight_add, weight_coe] at hbefore ⊢
  cases hchange with
  | getFuture _ cont inlineExec stage hstage =>
      simpa [completed_getFuture hstage, occupied_getFuture hstage, attachments_setCell hstage,
        Item.attaching] using hbefore
  | ignored _ cont inlineExec stage hstage hset =>
      by_cases heq : cont.upstream = upstream
      · subst heq
        have hoccupied : occupied memory.states cont.upstream = 1 := by
          rw [occupied_of_get hstage, hset]
          rfl
        simp only [Item.attaching, hoccupied, total_cons, total_nil, if_true, add_zero] at hbefore
        simpa [Item.attaching, hoccupied] using hbefore.ignore
      · simpa [Item.attaching, heq] using hbefore
  | stored _ cont inlineExec stage hstage hset hcompleted =>
      rw [completed_store hstage, occupied_store hstage hset, attachments_setCell hstage]
      by_cases heq : cont.upstream = upstream
      · subst heq
        have hoccupied : occupied memory.states cont.upstream = 0 := by
          rw [occupied_of_get hstage, hset]
          rfl
        have hzero : completed memory.states cont.upstream = 0 := by
          rw [hdriven.completed_eq hstage, hcompleted]
          rfl
        simp [Item.attaching, hoccupied, hzero] at hbefore
        simpa [Item.attaching, hoccupied, hzero] using hbefore.store
      · simpa [Item.attaching, heq] using hbefore
  | execute _ cont inlineExec stage hstage hset hcompleted =>
      by_cases heq : cont.upstream = upstream
      · subst heq
        have hoccupied : occupied memory.states cont.upstream = 0 := by
          rw [occupied_of_get hstage, hset]
          rfl
        have hone : completed memory.states cont.upstream = 1 := by
          rw [hdriven.completed_eq hstage, hcompleted]
          rfl
        simp [Item.attaching, hoccupied, hone] at hbefore
        simpa [Item.attaching, hoccupied, hone] using hbefore.execute
      · simpa [Item.attaching, heq] using hbefore
  | complete _ other completion stage hstage hpromise =>
      rw [completed_settle hstage hpromise, occupied_settle hstage, attachments_setCell hstage]
      by_cases heq : other = upstream
      · subst heq
        rw [completed_of_get hstage, hpromise] at hbefore ⊢
        cases completion <;> simpa [Item.attaching, Code.tryBlock] using hbefore.complete
      · cases completion <;> simpa [Item.attaching, Code.tryBlock, heq] using hbefore
  | recover _ other error stage hstage hpromise =>
      exact absurd hpromise (hdriven.promise_ne_none (mem_beside List.mem_cons_self) hstage)
  | attach _ other fn inlineExec stage hstage hreturned =>
      by_cases heq : other = upstream
      · simpa [Item.attaching, Origin.attaches, heq] using hbefore.attach
      · simpa [Item.attaching, Origin.attaches, heq] using hbefore
  | _ => simpa [Item.attaching, Origin.attaches] using hbefore

end Config.AttachedTo

end RpcDemo.Threadpool
