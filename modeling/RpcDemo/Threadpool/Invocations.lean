import RpcDemo.Threadpool.Attachments

/-!
# Continuations run, functions run

A continuation is run at most once, and exactly once unless it was ignored or
lost or is still on its way; a user function is run at most once for its state.
-/

namespace RpcDemo.Threadpool

open Ledger

variable {Fn Value Error : Type}

def Origin.isAttached : Origin Fn → Bool
  | .posted _ => false
  | .attached _ _ => true

/-- One when the state was made for a continuation. -/
def continued (states : List (Stage Fn Value Error)) (state : ℕ) : ℕ :=
  flag (fun stage => stage.origin.isAttached) states state

section Continued

variable {memory : Memory Fn Value Error} {changed : ℕ} {stage : Stage Fn Value Error}

theorem continued_setCell (hstage : memory.states[changed]? = some stage)
    (cell : SharedState (Completion Value Error) (Callable Fn)) (state : ℕ) :
    continued (memory.setCell changed stage cell).states state =
      continued memory.states state := by
  rw [continued, flag_setCell_same hstage] <;> rfl

@[simp]
theorem continued_append (states : List (Stage Fn Value Error)) (origin : Origin Fn)
    (state : ℕ) :
    continued (states ++ [⟨.fresh, origin, false⟩]) state =
      continued states state + if states.length = state then origin.isAttached.toNat else 0 :=
  flag_append states _ state

@[simp]
theorem continued_markReturned (memory : Memory Fn Value Error) (returned state : ℕ) :
    continued (memory.markReturned returned).states state = continued memory.states state :=
  flag_markReturned (fun _ => rfl) memory returned state

@[simp]
theorem continued_returnPosted (memory : Memory Fn Value Error) (callable : Callable Fn)
    (state : ℕ) : continued (memory.returnPosted callable).states state =
      continued memory.states state :=
  flag_returnPosted (fun _ => rfl) memory callable state

end Continued

def Callable.resumes (state : ℕ) : Callable Fn → ℕ
  | .detached _ => 0
  | .promised _ _ => 0
  | .continuation cont => if cont.next = state then 1 else 0
  | .submit cont => if cont.next = state then 1 else 0

@[simp]
theorem Code.attachment_resumes (cont : Continuation Fn) (inlineExec : Bool) (state : ℕ) :
    (attachment cont inlineExec).resumes state = if cont.next = state then 1 else 0 := by
  cases inlineExec <;> rfl

namespace Item

/-- A continuation on its way to be run. -/
def resumes (state : ℕ) : Item Fn Value Error → ℕ
  | .active (.enqueue _ .notify) => 0
  | .active (.enqueue pack _) => pack.callable.resumes state
  | .active (.thenImpl cont _ _) => if cont.next = state then 1 else 0
  | .package pack => pack.callable.resumes state
  | .slot called => called.resumes state
  | .callable called => called.resumes state
  | _ => 0

/-- A user function on its way to be run for a state. -/
def unrun (state : ℕ) : Item Fn Value Error → ℕ
  | .active (.enqueue _ .notify) => 0
  | .active (.enqueue pack _) => pack.callable.drives state
  | .active (.thenImpl cont _ _) => if cont.next = state then 1 else 0
  | .active (.get cont) => if cont.next = state then 1 else 0
  | .package pack => pack.callable.drives state
  | .slot called => called.drives state
  | .callable called => called.drives state
  | _ => 0

end Item

/-- Where the continuation of a state is: on its way, run, ignored or lost; and its user
function is run no more than once. -/
structure Config.Invoked (config : Config Fn Value Error) : Prop where
  resumed : ∀ state, weight (Item.resumes state) config.bag + config.memory.invoked.count state +
    config.memory.ignored.countP (fun cont => cont.next = state) +
      total (fun package => package.callable.resumes state) config.memory.lost =
    continued config.memory.states state
  ran : ∀ state, weight (Item.unrun state) config.bag +
    config.memory.ran.countP (fun execution => execution.state = state) ≤
      made config.memory.states state

namespace Config.Invoked

variable {move : Move Fn Value Error} {rest : Bag Fn Value Error}
variable {memory memory' : Memory Fn Value Error} {removed added : List (Item Fn Value Error)}

/-- A change moves a continuation from one place to another. -/
theorem resumed_change (hchange : Change move memory removed added memory')
    (hdriven : Driven (.beside rest removed memory))
    (hbefore : Invoked (.beside rest removed memory)) (state : ℕ) :
    weight (Item.resumes state) (beside rest added memory').bag + memory'.invoked.count state +
      memory'.ignored.countP (fun cont => cont.next = state) +
        total (fun package => package.callable.resumes state) memory'.lost =
      continued memory'.states state := by
  have hresumed := hbefore.resumed state
  simp only [weight_add, weight_coe] at hresumed ⊢
  cases hchange with
  | getFuture _ cont inlineExec stage hstage =>
      rw [continued_setCell hstage]
      simpa [Item.resumes] using hresumed
  | stored _ cont inlineExec stage hstage hset hcompleted =>
      have hslot := (hdriven.cells _ stage hstage).continuation_eq_none (.inl hset)
      rw [continued_setCell hstage]
      simpa [Item.resumes, hslot] using hresumed
  | complete _ other completion stage hstage hpromise =>
      rw [continued_setCell hstage]
      cases completion <;> simpa [Item.resumes, Code.tryBlock] using hresumed
  | recover _ other error stage hstage hpromise =>
      rw [continued_setCell hstage]
      simpa [Item.resumes] using hresumed
  | fail | ignored | runContinuation =>
      simp [Item.resumes, Callable.resumes, List.count_cons] at hresumed ⊢
      omega
  | post | attach =>
      simp [Item.resumes, Callable.resumes, Origin.isAttached] at hresumed ⊢
      omega
  | postDetach | runDetached | runPromised | submit =>
      simpa [Item.resumes, Callable.resumes] using hresumed
  | _ => simpa [Item.resumes] using hresumed

/-- A change runs a user function only when it takes it off its way. -/
theorem ran_change (hchange : Change move memory removed added memory')
    (hdriven : Driven (.beside rest removed memory))
    (hbefore : Invoked (.beside rest removed memory)) (state : ℕ) :
    weight (Item.unrun state) (beside rest added memory').bag +
      memory'.ran.countP (fun execution => execution.state = state) ≤
        made memory'.states state := by
  have hran := hbefore.ran state
  simp only [weight_add, weight_coe] at hran ⊢
  cases hchange with
  | stored _ cont inlineExec stage hstage hset hcompleted =>
      have hslot := (hdriven.cells _ stage hstage).continuation_eq_none (.inl hset)
      simpa [Item.unrun, hslot] using hran
  | complete _ other completion stage hstage hpromise =>
      cases completion <;> simpa [Item.unrun, Code.tryBlock] using hran
  | fail | ignored | getValue | getError =>
      simp [Item.unrun] at hran ⊢
      omega
  | runPromised | post | attach =>
      simp [Item.unrun, Callable.drives] at hran ⊢
      omega
  | postDetach | runDetached | runContinuation | submit =>
      simpa [Item.unrun, Callable.drives] using hran
  | _ => simpa [Item.unrun] using hran

theorem change (hchange : Change move memory removed added memory')
    (hdriven : Driven (.beside rest removed memory))
    (hbefore : Invoked (.beside rest removed memory)) : Invoked (.beside rest added memory') where
  resumed := resumed_change hchange hdriven hbefore
  ran := ran_change hchange hdriven hbefore

end Config.Invoked

end RpcDemo.Threadpool
