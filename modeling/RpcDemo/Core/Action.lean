import RpcDemo.Core.Outcome

/-!
# Actions on a state

An action of a C++ program on its memory returns a value or throws, and leaves
a memory in both cases; where its behaviour is undefined there is neither.  What
a sequence of actions does is computed from the left: an action that returns
hands its value and its state to the next, an action that throws ends the
sequence.
-/

namespace RpcDemo

/-- What an action leaves: a value or an exception, and a state; nothing where it is
undefined. -/
structure Action (State : Type*) (Value : Type*) where
  run : State → Option (Except Exn Value × State)

namespace Action

variable {State Value Result : Type _}

def bind (action : Action State Value) (next : Value → Action State Result) :
    Action State Result where
  run state :=
    match action.run state with
    | some (.ok value, after) => (next value).run after
    | some (.error exn, after) => some (.error exn, after)
    | none => none

instance : Monad (Action State) where
  pure value := ⟨fun state => some (.ok value, state)⟩
  bind := bind

/-- Throw, and change nothing. -/
def throw (exn : Exn) : Action State Value := ⟨fun state => some (.error exn, state)⟩

/-- Undefined behaviour. -/
def undefined : Action State Value := ⟨fun _ => none⟩

/-- Read a part of the state; undefined where the state has no such part. -/
def read (part : State → Option Value) : Action State Value :=
  ⟨fun state => (part state).map fun value => (.ok value, state)⟩

def modify (change : State → State) : Action State Unit :=
  ⟨fun state => some (.ok (), change state)⟩

/-- The destructor of a guard: `cleanup` runs when `action` throws. -/
def guarded (action : Action State Value) (cleanup : Action State Unit) :
    Action State Value where
  run state :=
    match action.run state with
    | some (.error exn, after) => (cleanup.bind fun _ => throw exn).run after
    | returned => returned

/-- An operation that throws `fault` before it has an effect, if there is one. -/
def throwing (fault : Option Exn) (action : Action State Value) : Action State Value :=
  match fault with
  | some exn => throw exn
  | none => action

@[simp]
theorem run_pure (value : Value) (state : State) :
    (pure value : Action State Value).run state = some (.ok value, state) := rfl

@[simp]
theorem run_throw (exn : Exn) (state : State) :
    (throw exn : Action State Value).run state = some (.error exn, state) := rfl

@[simp]
theorem run_modify (change : State → State) (state : State) :
    (modify change).run state = some (.ok (), change state) := rfl

theorem run_read {part : State → Option Value} {state : State} {value : Value}
    (hpart : part state = some value) : (read part).run state = some (.ok value, state) := by
  simp [read, hpart]

variable {action : Action State Value} {state after : State} {value : Value} {exn : Exn}

/-- An action that returns hands its value and its state to the next. -/
theorem run_bind (haction : action.run state = some (.ok value, after))
    (next : Value → Action State Result) :
    (action >>= next).run state = (next value).run after := by
  change (bind action next).run state = _
  simp [bind, haction]

/-- An action that throws ends the sequence. -/
theorem run_bind_of_throws (haction : action.run state = some (.error exn, after))
    (next : Value → Action State Result) :
    (action >>= next).run state = some (.error exn, after) := by
  change (bind action next).run state = _
  simp [bind, haction]

/-- A guard does nothing when the action returns. -/
theorem run_guarded (haction : action.run state = some (.ok value, after))
    (cleanup : Action State Unit) :
    (guarded action cleanup).run state = some (.ok value, after) := by
  simp [guarded, haction]

/-- A guard cleans up after the action that throws, and lets the exception pass. -/
theorem run_guarded_of_throws {cleaned : State} {cleanup : Action State Unit}
    (haction : action.run state = some (.error exn, after))
    (hcleanup : cleanup.run after = some (.ok (), cleaned)) :
    (guarded action cleanup).run state = some (.error exn, cleaned) := by
  simp [guarded, haction, bind, hcleanup]

end Action

end RpcDemo
