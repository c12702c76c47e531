import Mathlib.Data.List.Basic

/-!
# The shared state of a future

`SharedState<T>` holds a promise, one slot for a continuation and three flags.
Its members are critical sections of its mutex; a continuation taken out of the
slot, or handed over after completion, runs outside the mutex, so it is returned
here for the caller to run.
-/

namespace RpcDemo.Threadpool

structure SharedState (Result Cont : Type*) where
  promise : Option Result
  futureRetrieved : Bool
  continuation : Option Cont
  completed : Bool
  continuationSet : Bool
  deriving DecidableEq

/-- What `set_continuation` does with the continuation it is given. -/
inductive Attachment (Cont : Type*)
  | ignored
  | stored
  | execute (cont : Cont)
  deriving DecidableEq

namespace SharedState

variable {Result Cont : Type*}

def fresh : SharedState Result Cont where
  promise := none
  futureRetrieved := false
  continuation := none
  completed := false
  continuationSet := false

def getFuture (state : SharedState Result Cont) : SharedState Result Cont :=
  { state with futureRetrieved := true }

/-- The promise takes the result, and the continuation leaves its slot. -/
def settle (state : SharedState Result Cont) (result : Result) : SharedState Result Cont :=
  { state with promise := some result, completed := true, continuation := none }

/-- The section of `set_value` and `set_exception`, with the continuation it
extracts; `none` when the promise throws `promise_already_satisfied`. -/
def complete (state : SharedState Result Cont) (result : Result) :
    Option (SharedState Result Cont × Option Cont) :=
  match state.promise with
  | some _ => none
  | none => some (state.settle result, state.continuation)

def store (state : SharedState Result Cont) (cont : Cont) : SharedState Result Cont :=
  { state with continuation := some cont, continuationSet := true }

/-- The section of `set_continuation`. -/
def setContinuation (state : SharedState Result Cont) (cont : Cont) :
    SharedState Result Cont × Attachment Cont :=
  if state.continuationSet then (state, .ignored)
  else if state.completed then (state, .execute cont)
  else (state.store cont, .stored)

/-- The flags agree with the promise and the slot. -/
structure WellFormed (state : SharedState Result Cont) : Prop where
  completed : state.completed = state.promise.isSome
  slot : state.continuation.isSome = true →
    state.continuationSet = true ∧ state.completed = false

theorem fresh_wellFormed : (fresh : SharedState Result Cont).WellFormed :=
  ⟨rfl, by simp [fresh]⟩

theorem WellFormed.getFuture {state : SharedState Result Cont} (hstate : state.WellFormed) :
    state.getFuture.WellFormed :=
  ⟨hstate.completed, hstate.slot⟩

theorem settle_wellFormed (state : SharedState Result Cont) (result : Result) :
    (state.settle result).WellFormed :=
  ⟨rfl, by simp [settle]⟩

theorem WellFormed.store {state : SharedState Result Cont} (hstate : state.WellFormed) (cont : Cont)
    (hcompleted : state.completed = false) : (state.store cont).WellFormed :=
  ⟨hstate.completed, fun _ => ⟨rfl, hcompleted⟩⟩

theorem WellFormed.continuation_eq_none {state : SharedState Result Cont}
    (hstate : state.WellFormed) (hempty : state.continuationSet = false ∨ state.completed = true) :
    state.continuation = none := by
  cases hslot : state.continuation with
  | none => rfl
  | some cont =>
      obtain ⟨hset, hcompleted⟩ := hstate.slot (by rw [hslot]; rfl)
      simp [hset, hcompleted] at hempty

end SharedState

end RpcDemo.Threadpool
