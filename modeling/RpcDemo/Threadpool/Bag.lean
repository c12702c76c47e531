import Mathlib.Logic.Relation
import RpcDemo.Core.Ledger
import RpcDemo.Threadpool.Steps

/-!
# The pool as a bag of items

Seen from afar the pool is a bag: active calls, frames, tasks in the hands of
workers, queued packages and stored continuations, in no order, beside the
memory.  A `Change` takes a few items out and puts a few in, and a step of the
pool is a short run of changes; so what every change preserves is preserved by
every step.  Two kinds of items live inside a step only: a callable about to be
called, and an exception on its way down the stack.
-/

namespace RpcDemo.Threadpool

open Ledger

variable {Fn Value Error : Type}

/-- The pieces a pool is made of; a step exchanges a few of them for others. -/
inductive Item (Fn Value Error : Type)
  | active (active : Active Fn Value Error)
  | frame (frame : Suspended Fn Value)
  | task (id : ℕ)
  | package (package : Package Fn)
  | slot (callable : Callable Fn)
  | callable (callable : Callable Fn)
  | thrown (error : Thrown Error)

/-! ## Changes -/

/-- One change of the bag and the memory: the items taken out and put in. -/
inductive Change : Move Fn Value Error → Memory Fn Value Error → List (Item Fn Value Error) →
    List (Item Fn Value Error) → Memory Fn Value Error → Prop
  | pick (memory : Memory Fn Value Error) (package : Package Fn) (victim : ℕ) :
      Change .turn memory [.active (.enqueue package .pick)]
        [.active (.enqueue package (.count victim))] memory.advanceRound
  | count (memory : Memory Fn Value Error) (package : Package Fn) (victim : ℕ) :
      Change .turn memory [.active (.enqueue package (.count victim))]
        [.active (.enqueue package (.push victim))]
        { memory with unfinished := memory.unfinished + 1 }
  | push (memory : Memory Fn Value Error) (package : Package Fn) (victim : ℕ)
      (queue : List (Package Fn)) (hqueue : memory.queues[victim]? = some queue) :
      Change .turn memory [.active (.enqueue package (.push victim))]
        [.active (.enqueue package .notify), .package package]
        { memory with
          queues := memory.queues.set victim (package :: queue)
          pushed := memory.pushed ++ [package.id] }
  | fail (memory : Memory Fn Value Error) (package : Package Fn) (victim : ℕ)
      (error : Thrown Error) :
      Change (.fail error) memory [.active (.enqueue package (.push victim))] [.thrown error]
        { memory with lost := memory.lost ++ [package] }
  | notify (memory : Memory Fn Value Error) (package : Package Fn) (woken : ℕ) :
      Change (.notifyOne woken) memory [.active (.enqueue package .notify)] []
        (memory.returnPosted package.callable)
  | getFuture (memory : Memory Fn Value Error) (cont : Continuation Fn) (inlineExec : Bool)
      (stage : Stage Fn Value Error) (hstage : memory.states[cont.upstream]? = some stage) :
      Change .turn memory [.active (.thenImpl cont inlineExec .getFuture)]
        [.active (.thenImpl cont inlineExec .setContinuation)]
        (memory.setCell cont.upstream stage stage.cell.getFuture)
  | ignored (memory : Memory Fn Value Error) (cont : Continuation Fn) (inlineExec : Bool)
      (stage : Stage Fn Value Error) (hstage : memory.states[cont.upstream]? = some stage)
      (hset : stage.cell.continuationSet = true) :
      Change .turn memory [.active (.thenImpl cont inlineExec .setContinuation)]
        [.frame (.attached cont)] { memory with ignored := memory.ignored ++ [cont] }
  | stored (memory : Memory Fn Value Error) (cont : Continuation Fn) (inlineExec : Bool)
      (stage : Stage Fn Value Error) (hstage : memory.states[cont.upstream]? = some stage)
      (hset : stage.cell.continuationSet = false) (hcompleted : stage.cell.completed = false) :
      Change .turn memory
        (.active (.thenImpl cont inlineExec .setContinuation) ::
          stage.cell.continuation.toList.map .slot)
        [.frame (.attached cont), .slot (Code.attachment cont inlineExec)]
        (memory.setCell cont.upstream stage
          (stage.cell.store (Code.attachment cont inlineExec)))
  | execute (memory : Memory Fn Value Error) (cont : Continuation Fn) (inlineExec : Bool)
      (stage : Stage Fn Value Error) (hstage : memory.states[cont.upstream]? = some stage)
      (hset : stage.cell.continuationSet = false) (hcompleted : stage.cell.completed = true) :
      Change .turn memory [.active (.thenImpl cont inlineExec .setContinuation)]
        [.frame (.attached cont), .callable (Code.attachment cont inlineExec)] memory
  | getValue (memory : Memory Fn Value Error) (cont : Continuation Fn)
      (stage : Stage Fn Value Error) (value : Option Value)
      (hstage : memory.states[cont.upstream]? = some stage)
      (hpromise : stage.cell.promise = some (.ok value)) :
      Change .turn memory [.active (.get cont)]
        [.frame (.run cont.func value (some cont.next))]
        { memory with ran := memory.ran ++ [⟨cont.next, cont.func, value⟩] }
  | getError (memory : Memory Fn Value Error) (cont : Continuation Fn)
      (stage : Stage Fn Value Error) (error : Thrown Error)
      (hstage : memory.states[cont.upstream]? = some stage)
      (hpromise : stage.cell.promise = some (.error error)) :
      Change .turn memory [.active (.get cont)] [.active (.complete cont.next (.error error))]
        memory
  | complete (memory : Memory Fn Value Error) (state : ℕ)
      (completion : Completion Value Error) (stage : Stage Fn Value Error)
      (hstage : memory.states[state]? = some stage) (hpromise : stage.cell.promise = none) :
      Change .turn memory
        (.active (.complete state completion) :: stage.cell.continuation.toList.map .slot)
        ((Code.tryBlock state [] completion).map .frame ++
          stage.cell.continuation.toList.map .callable)
        (memory.setCell state stage (stage.cell.settle completion))
  | refuseValue (memory : Memory Fn Value Error) (state : ℕ) (value : Option Value)
      (stage : Stage Fn Value Error) (hstage : memory.states[state]? = some stage)
      (hpromise : stage.cell.promise.isSome) :
      Change .turn memory [.active (.complete state (.ok value))]
        [.active (.recover state .promiseAlreadySatisfied)] memory
  | refuseError (memory : Memory Fn Value Error) (state : ℕ) (error : Thrown Error)
      (stage : Stage Fn Value Error) (hstage : memory.states[state]? = some stage)
      (hpromise : stage.cell.promise.isSome) :
      Change .turn memory [.active (.complete state (.error error))]
        [.thrown .promiseAlreadySatisfied] memory
  | recover (memory : Memory Fn Value Error) (state : ℕ) (error : Thrown Error)
      (stage : Stage Fn Value Error) (hstage : memory.states[state]? = some stage)
      (hpromise : stage.cell.promise = none) :
      Change .turn memory
        (.active (.recover state error) :: stage.cell.continuation.toList.map .slot)
        (stage.cell.continuation.toList.map .callable)
        (memory.setCell state stage (stage.cell.settle (.error error)))
  | escape (memory : Memory Fn Value Error) (state : ℕ) (error : Thrown Error)
      (stage : Stage Fn Value Error) (hstage : memory.states[state]? = some stage)
      (hpromise : stage.cell.promise.isSome) :
      Change .turn memory [.active (.recover state error)] [.thrown .promiseAlreadySatisfied]
        memory
  | lockWait (memory : Memory Fn Value Error) (locked : Bool) :
      Change .turn memory [] [] { memory with lockWait := locked }
  | destroyed (memory : Memory Fn Value Error) :
      Change .turn memory [.active (.shutdown .test)] [] memory
  | destroy (memory : Memory Fn Value Error) :
      Change .turn memory [.active (.shutdown .test)] [.active (.shutdown .store)] memory
  | shutdown (memory : Memory Fn Value Error) :
      Change .turn memory [.active (.shutdown .store)] [.active (.shutdown .notify)]
        { memory with shutdown := true }
  | notifyAll (memory : Memory Fn Value Error) :
      Change .turn memory [.active (.shutdown .notify)] [.active (.shutdown .join)] memory
  | join (memory : Memory Fn Value Error) :
      Change .turn memory [.active (.shutdown .join)] [] memory
  | tried (memory : Memory Fn Value Error) (state : ℕ) :
      Change .turn memory [.frame (.trying state)] [] memory
  | attached (memory : Memory Fn Value Error) (cont : Continuation Fn) :
      Change .turn memory [.frame (.attached cont)] [] (memory.markReturned cont.next)
  | finish (memory : Memory Fn Value Error) (fn : Fn) (arg : Option Value) (state : ℕ)
      (completion : Completion Value Error) :
      Change (.finish completion) memory [.frame (.run fn arg (some state))]
        [.active (.complete state completion)]
        { memory with results := memory.results ++ [(⟨state, fn, arg⟩, completion)] }
  | finishDetached (memory : Memory Fn Value Error) (fn : Fn) (arg value : Option Value) :
      Change (.finish (.ok value)) memory [.frame (.run fn arg none)] [] memory
  | throwDetached (memory : Memory Fn Value Error) (fn : Fn) (arg : Option Value)
      (error : Thrown Error) :
      Change (.finish (.error error)) memory [.frame (.run fn arg none)] [.thrown error]
        { memory with threw := memory.threw ++ [fn] }
  | postDetach (memory : Memory Fn Value Error) (fn : Fn) :
      Change (.call (.postDetach fn)) memory []
        [.active (.enqueue ⟨memory.issued, .detached fn⟩ .pick)]
        { memory with issued := memory.issued + 1 }
  | post (memory : Memory Fn Value Error) (fn : Fn) :
      Change (.call (.post fn)) memory []
        [.active (.enqueue ⟨memory.issued, .promised memory.states.length fn⟩ .pick)]
        { memory with
          issued := memory.issued + 1
          states := memory.states ++ [⟨.fresh, .posted fn, false⟩] }
  | attach (memory : Memory Fn Value Error) (upstream : ℕ) (fn : Fn) (inlineExec : Bool)
      (stage : Stage Fn Value Error) (hstage : memory.states[upstream]? = some stage)
      (hreturned : stage.returned = true) :
      Change (.call (.attach upstream fn inlineExec)) memory []
        [.active (.thenImpl ⟨upstream, memory.states.length, fn⟩ inlineExec .getFuture)]
        { memory with states := memory.states ++ [⟨.fresh, .attached upstream fn, false⟩] }
  | callShutdown (memory : Memory Fn Value Error) :
      Change (.call .shutdown) memory [] [.active (.shutdown .store)] memory
  | callDestroy (memory : Memory Fn Value Error) :
      Change (.call .destroy) memory [] [.active (.shutdown .test)] memory
  | runDetached (move : Move Fn Value Error) (memory : Memory Fn Value Error) (fn : Fn) :
      Change move memory [.callable (.detached fn)] [.frame (.run fn none none)] memory
  | runPromised (move : Move Fn Value Error) (memory : Memory Fn Value Error) (state : ℕ)
      (fn : Fn) :
      Change move memory [.callable (.promised state fn)] [.frame (.run fn none (some state))]
        { memory with ran := memory.ran ++ [⟨state, fn, none⟩] }
  | runContinuation (move : Move Fn Value Error) (memory : Memory Fn Value Error)
      (cont : Continuation Fn) :
      Change move memory [.callable (.continuation cont)] [.active (.get cont)]
        { memory with invoked := memory.invoked ++ [cont.next] }
  | submit (move : Move Fn Value Error) (memory : Memory Fn Value Error)
      (cont : Continuation Fn) :
      Change move memory [.callable (.submit cont)]
        [.active (.enqueue ⟨memory.issued, .continuation cont⟩ .pick)]
        { memory with issued := memory.issued + 1 }
  | rescue (move : Move Fn Value Error) (memory : Memory Fn Value Error) (state : ℕ)
      (error : Thrown Error) :
      Change move memory [.thrown error, .frame (.trying state)]
        [.active (.recover state error)] memory
  | leave (move : Move Fn Value Error) (memory : Memory Fn Value Error)
      (cont : Continuation Fn) (error : Thrown Error) :
      Change move memory [.thrown error, .frame (.attached cont)] [.thrown error] memory
  | land (move : Move Fn Value Error) (memory : Memory Fn Value Error)
      (error : Thrown Error) :
      Change move memory [.thrown error] [] memory
  | take (memory : Memory Fn Value Error) (package : Package Fn)
      (queues : List (List (Package Fn)))
      (hqueues : ∃ victim queue, memory.queues[victim]? = some (package :: queue) ∧
          queues = memory.queues.set victim queue ∨
        memory.queues[victim]? = some (queue ++ [package]) ∧
          queues = memory.queues.set victim queue) :
      Change .turn memory [.package package] [.task package.id, .callable package.callable]
        { memory with queues := queues, started := memory.started ++ [package.id] }
  | finishTask (memory : Memory Fn Value Error) (task : ℕ) :
      Change .turn memory [.task task] []
        { memory with
          unfinished := memory.unfinished - 1
          finished := memory.finished ++ [task] }
  | exit (memory : Memory Fn Value Error) (id : ℕ) (hshutdown : memory.shutdown = true) :
      Change .turn memory [] [] { memory with exited := memory.exited ++ [id] }
  | advanceRound (memory : Memory Fn Value Error) :
      Change .turn memory [] [] memory.advanceRound
  | lockTh (memory : Memory Fn Value Error) (locked : Bool) :
      Change .turn memory [] [] { memory with lockTh := locked }
  | terminate (move : Move Fn Value Error) (memory : Memory Fn Value Error) :
      Change move memory [] [] { memory with terminated := true }

abbrev Bag (Fn Value Error : Type) := Multiset (Item Fn Value Error)

/-- A pool without the order of its threads and queues. -/
structure Config (Fn Value Error : Type) where
  bag : Bag Fn Value Error
  memory : Memory Fn Value Error

/-- Some items in the context of the others. -/
abbrev Config.beside (rest : Bag Fn Value Error) (items : List (Item Fn Value Error))
    (memory : Memory Fn Value Error) : Config Fn Value Error :=
  ⟨rest + items, memory⟩

theorem Config.mem_beside {rest : Bag Fn Value Error} {items : List (Item Fn Value Error)}
    {memory : Memory Fn Value Error} {item : Item Fn Value Error} (hitem : item ∈ items) :
    item ∈ (Config.beside rest items memory).bag :=
  Multiset.mem_add.mpr (.inr hitem)

/-- A change in the context of the items it leaves alone. -/
inductive Config.Rewrites (move : Move Fn Value Error) :
    Config Fn Value Error → Config Fn Value Error → Prop
  | change {memory memory' : Memory Fn Value Error} {removed added : List (Item Fn Value Error)}
      (rest : Bag Fn Value Error) (hchange : Change move memory removed added memory') :
      Rewrites move (.beside rest removed memory) (.beside rest added memory')

/-! ## The bag of a pool -/

/-- A blocked thread is woken without a step of its own, so waiting counts for
nothing. -/
def Active.bag : Active Fn Value Error → Bag Fn Value Error
  | .wait _ => 0
  | active => {.active active}

def frames (stack : List (Suspended Fn Value)) : Bag Fn Value Error :=
  (stack.map Item.frame : List (Item Fn Value Error))

def Code.bag (code : Code Fn Value Error) : Bag Fn Value Error :=
  code.active.elim 0 Active.bag + frames code.stack

def Thread.bag (thread : Thread Fn Value Error) : Bag Fn Value Error :=
  thread.task.elim 0 (fun task => {.task task}) + thread.code.bag

def Stage.bag (stage : Stage Fn Value Error) : Bag Fn Value Error :=
  (stage.cell.continuation.toList.map Item.slot : List (Item Fn Value Error))

def Memory.bag (memory : Memory Fn Value Error) : Bag Fn Value Error :=
  total (total fun package => {.package package}) memory.queues + total Stage.bag memory.states

/-- The items of the threads, the queues and the states, beside the shared memory. -/
def Pool.config (pool : Pool Fn Value Error) : Config Fn Value Error :=
  ⟨total Thread.bag pool.threads + pool.memory.bag, pool.memory⟩

/-! ## Every step is a run of changes -/

def Config.Changes (move : Move Fn Value Error) :
    Config Fn Value Error → Config Fn Value Error → Prop :=
  Relation.ReflTransGen (Config.Rewrites move)

section Changes

variable {move : Move Fn Value Error} {memory memory' : Memory Fn Value Error}
variable {removed added : List (Item Fn Value Error)}

/-- A change with the bags before and after it. -/
theorem Change.between {before after : Bag Fn Value Error}
    (hchange : Change move memory removed added memory') (rest : Bag Fn Value Error)
    (hbefore : before = rest + ↑removed) (hafter : after = rest + ↑added) :
    Config.Changes move ⟨before, memory⟩ ⟨after, memory'⟩ := by
  subst hbefore hafter
  exact .single (.change rest hchange)

/-- The items a run of changes leaves alone may be anything. -/
theorem Config.Changes.frame {before after : Config Fn Value Error}
    (hchanges : Config.Changes move before after) (rest : Bag Fn Value Error) :
    Config.Changes move ⟨rest + before.bag, before.memory⟩ ⟨rest + after.bag, after.memory⟩ := by
  induction hchanges with
  | refl => exact .refl
  | tail _ hlast ih =>
      cases hlast with
      | change other hchange =>
          exact ih.trans (hchange.between (rest + other) (add_assoc _ _ _).symm
            (add_assoc _ _ _).symm)

/-- What every change preserves, a run of changes preserves. -/
theorem Config.Changes.invariant {invariant : Config Fn Value Error → Prop}
    (hchange : ∀ {rest : Bag Fn Value Error} {memory memory' : Memory Fn Value Error}
      {removed added : List (Item Fn Value Error)}, Change move memory removed added memory' →
      invariant (.beside rest removed memory) → invariant (.beside rest added memory'))
    {before after : Config Fn Value Error} (hchanges : Config.Changes move before after)
    (hbefore : invariant before) : invariant after := by
  induction hchanges with
  | refl => exact hbefore
  | tail _ hlast ih =>
      cases hlast with
      | change rest hstep => exact hchange hstep ih

end Changes

@[simp]
theorem frames_nil : (frames [] : Bag Fn Value Error) = 0 := rfl

@[simp]
theorem frames_cons (frame : Suspended Fn Value) (stack : List (Suspended Fn Value)) :
    (frames (frame :: stack) : Bag Fn Value Error) = {.frame frame} + frames stack := rfl

theorem Active.bag_of_ne_wait {active : Active Fn Value Error}
    (hactive : ∀ point, active ≠ .wait point) : active.bag = {.active active} := by
  cases active with
  | wait point => exact absurd rfl (hactive point)
  | _ => rfl

namespace Code

@[simp]
theorem bag_idle : (idle : Code Fn Value Error).bag = 0 := rfl

@[simp]
theorem bag_none (stack : List (Suspended Fn Value)) :
    (⟨none, stack⟩ : Code Fn Value Error).bag = frames stack := by
  simp [bag]

@[simp]
theorem bag_some (active : Active Fn Value Error) (stack : List (Suspended Fn Value)) :
    (⟨some active, stack⟩ : Code Fn Value Error).bag = active.bag + frames stack := rfl

end Code

section Weight

variable {Amount : Type*} [AddCommMonoid Amount] {measure : Item Fn Value Error → Amount}

theorem Code.weight_bag (hwait : ∀ point, measure (.active (.wait point)) = 0)
    (code : Code Fn Value Error) :
    weight measure code.bag = code.active.elim 0 (fun active => measure (.active active)) +
      total (fun frame => measure (.frame frame)) code.stack := by
  obtain ⟨active, stack⟩ := code
  cases active with
  | none => simp [frames]
  | some active => cases active <;> simp [frames, Active.bag, hwait]

theorem Thread.weight_bag (hwait : ∀ point, measure (.active (.wait point)) = 0)
    (thread : Thread Fn Value Error) :
    weight measure thread.bag = thread.task.elim 0 (fun id => measure (.task id)) +
      (thread.code.active.elim 0 (fun active => measure (.active active)) +
        total (fun frame => measure (.frame frame)) thread.code.stack) := by
  rw [bag, weight_add, Code.weight_bag hwait]
  cases thread.task <;> simp

theorem Stage.weight_bag (stage : Stage Fn Value Error) :
    weight measure stage.bag =
      stage.cell.continuation.elim 0 fun callable => measure (.slot callable) := by
  cases hcontinuation : stage.cell.continuation <;> simp [bag, hcontinuation]

end Weight

end RpcDemo.Threadpool
