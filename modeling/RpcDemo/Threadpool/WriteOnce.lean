import RpcDemo.Core.Custody
import RpcDemo.Core.Transition
import RpcDemo.Threadpool.SharedState

/-!
# Calls on one shared state

Any number of threads call `get_future`, `set_value`, `set_exception` and
`set_continuation` on one state.  A call waits for `mtx_`, executes its section
and releases the mutex; if it then has a continuation in its hands it runs it,
and the continuation may call the same state again.  A thread is the stack of
its calls.

A section ends early when something in it throws: the promise that has a result
already, the copy of the result into the promise, the construction of the
wrapper around a continuation, and the move of a wrapper, whose callable may
have a throwing move constructor.  Continuations are numbered in the order in
which they are passed.
-/

namespace RpcDemo.Threadpool.WriteOnce

/-- A `shared_future`: without a state, or with the state of the promise. -/
inductive SharedFuture
  | noState
  | ofPromise
  deriving DecidableEq

variable {Thread Value Error : Type*}

/-- The members of a `SharedState`, the promise with its own mark that its
future has been taken. -/
structure Members (Value Error : Type*) where
  shared : SharedState (Except Error Value) ℕ
  promiseRetrieved : Bool
  sharedFuture : SharedFuture

/-- A call with its argument and what throws in its section. -/
inductive Call (Value Error : Type*)
  | getFuture
  | setValue (value : Value) (copyThrows moveThrows : Bool)
  | setException (error : Error) (moveThrows : Bool)
  | setContinuation (cont : ℕ) (throws : Bool)
  deriving DecidableEq

/-- How a call leaves its section. -/
inductive Exit
  | returns
  | stores
  | throws
  | hands (future : SharedFuture)
  | extracts (cont : ℕ)
  deriving DecidableEq

namespace Members

def fresh : Members Value Error where
  shared := .fresh
  promiseRetrieved := false
  sharedFuture := .noState

def getFuture (members : Members Value Error) : Members Value Error × Exit :=
  if members.shared.futureRetrieved then (members, .hands members.sharedFuture)
  else if members.promiseRetrieved then (members, .throws)
  else
    ({ shared := members.shared.getFuture, promiseRetrieved := true, sharedFuture := .ofPromise },
      .hands .ofPromise)

/-- The section of `set_value` and `set_exception`.  When the move throws, the
promise has its result and the continuation is still in its slot. -/
def complete (members : Members Value Error) (result : Except Error Value)
    (copyThrows moveThrows : Bool) : Members Value Error × Exit :=
  match members.shared.complete result with
  | none => (members, .throws)
  | some (settled, extracted) =>
      if copyThrows then (members, .throws)
      else
        match extracted with
        | none => ({ members with shared := settled }, .returns)
        | some cont =>
            if moveThrows then
              ({ members with shared := { settled with continuation := some cont } }, .throws)
            else ({ members with shared := settled }, .extracts cont)

/-- The section of `set_continuation`. -/
def setContinuation (members : Members Value Error) (cont : ℕ) (throws : Bool) :
    Members Value Error × Exit :=
  match members.shared.setContinuation cont with
  | (_, .ignored) => (members, .returns)
  | (stored, .stored) =>
      if throws then (members, .throws) else ({ members with shared := stored }, .stores)
  | (_, .execute cont) => if throws then (members, .throws) else (members, .extracts cont)

end Members

namespace Call

def criticalSection (call : Call Value Error) (members : Members Value Error) :
    Members Value Error × Exit :=
  match call with
  | getFuture => members.getFuture
  | setValue value copyThrows moveThrows => members.complete (.ok value) copyThrows moveThrows
  | setException error moveThrows => members.complete (.error error) false moveThrows
  | setContinuation cont throws => members.setContinuation cont throws

/-- The continuation a call brings. -/
def brought : Call Value Error → Option ℕ
  | setContinuation cont _ => some cont
  | _ => none

/-- The continuation a call brought in vain. -/
def dropped (call : Call Value Error) (exit : Exit) : List ℕ :=
  match call, exit with
  | setContinuation cont _, .returns => [cont]
  | setContinuation cont _, .throws => [cont]
  | _, _ => []

end Call

/-- A call of a thread: in front of its section, in it, and after it with a
continuation to run or running. -/
inductive Frame (Value Error : Type*)
  | waiting (call : Call Value Error)
  | inside (call : Call Value Error)
  | extracted (cont : ℕ)
  | running (cont : ℕ)
  deriving DecidableEq

def Exit.extracted : Exit → Option ℕ
  | extracts cont => some cont
  | _ => none

structure Cell (Thread Value Error : Type*) where
  members : Members Value Error
  mtx : Option Thread
  frames : Thread → List (Frame Value Error)
  passed : ℕ
  ended : List ℕ
  ran : List ℕ
  log : List (Call Value Error × Exit)

inductive Event (Thread Value Error : Type*)
  | call (thread : Thread) (call : Call Value Error)
  | lock (thread : Thread)
  | leave (thread : Thread)
  | start (thread : Thread)
  | finish (thread : Thread)
  deriving DecidableEq

/-- A thread calls from outside or from a continuation it runs. -/
def mayCall : List (Frame Value Error) → Bool
  | [] => true
  | .running _ :: _ => true
  | _ => false

namespace Cell

def fresh : Cell Thread Value Error where
  members := .fresh
  mtx := none
  frames _ := []
  passed := 0
  ended := []
  ran := []
  log := []

variable [DecidableEq Thread]

def setStack (cell : Cell Thread Value Error) (thread : Thread)
    (stack : List (Frame Value Error)) : Cell Thread Value Error :=
  { cell with frames := Function.update cell.frames thread stack }

/-- The section runs whole and releases the mutex. -/
def leave (cell : Cell Thread Value Error) (thread : Thread) (call : Call Value Error)
    (rest : List (Frame Value Error)) : Cell Thread Value Error :=
  let (members, exit) := call.criticalSection cell.members
  { cell.setStack thread ((exit.extracted.map Frame.extracted).toList ++ rest) with
    members := members
    mtx := none
    ended := cell.ended ++ call.dropped exit
    log := cell.log ++ [(call, exit)] }

end Cell

def step [DecidableEq Thread] (cell : Cell Thread Value Error) :
    Event Thread Value Error → Option (Cell Thread Value Error)
  | .call thread call =>
      if mayCall (cell.frames thread) ∧ call.brought.all (· = cell.passed) then
        some { cell.setStack thread (.waiting call :: cell.frames thread) with
          passed := cell.passed + call.brought.toList.length }
      else none
  | .lock thread =>
      match cell.frames thread, cell.mtx with
      | .waiting call :: rest, none =>
          some { cell.setStack thread (.inside call :: rest) with mtx := some thread }
      | _, _ => none
  | .leave thread =>
      match cell.frames thread with
      | .inside call :: rest => some (cell.leave thread call rest)
      | _ => none
  | .start thread =>
      match cell.frames thread with
      | .extracted cont :: rest =>
          some { cell.setStack thread (.running cont :: rest) with
            ended := cell.ended ++ [cont]
            ran := cell.ran ++ [cont] }
      | _ => none
  | .finish thread =>
      match cell.frames thread with
      | .running _ :: rest => some (cell.setStack thread rest)
      | _ => none

/-- All a step can do, with the guards it passed. -/
inductive Stepped [DecidableEq Thread] (cell : Cell Thread Value Error) :
    Event Thread Value Error → Cell Thread Value Error → Prop
  | call (thread : Thread) (call : Call Value Error)
      (hmay : mayCall (cell.frames thread) = true)
      (hbrought : call.brought.all (· = cell.passed) = true) :
      Stepped cell (.call thread call)
        { cell.setStack thread (.waiting call :: cell.frames thread) with
          passed := cell.passed + call.brought.toList.length }
  | lock (thread : Thread) (call : Call Value Error) (rest : List (Frame Value Error))
      (hstack : cell.frames thread = .waiting call :: rest) (hmtx : cell.mtx = none) :
      Stepped cell (.lock thread)
        { cell.setStack thread (.inside call :: rest) with mtx := some thread }
  | leave (thread : Thread) (call : Call Value Error) (rest : List (Frame Value Error))
      (hstack : cell.frames thread = .inside call :: rest) :
      Stepped cell (.leave thread) (cell.leave thread call rest)
  | start (thread : Thread) (cont : ℕ) (rest : List (Frame Value Error))
      (hstack : cell.frames thread = .extracted cont :: rest) :
      Stepped cell (.start thread)
        { cell.setStack thread (.running cont :: rest) with
          ended := cell.ended ++ [cont]
          ran := cell.ran ++ [cont] }
  | finish (thread : Thread) (cont : ℕ) (rest : List (Frame Value Error))
      (hstack : cell.frames thread = .running cont :: rest) :
      Stepped cell (.finish thread) (cell.setStack thread rest)

theorem stepped_of_step [DecidableEq Thread] {cell after : Cell Thread Value Error}
    {event : Event Thread Value Error} (hstep : step cell event = some after) :
    Stepped cell event after := by
  cases event with
  | call thread call =>
      simp only [step, Option.ite_none_right_eq_some, Option.some.injEq] at hstep
      obtain ⟨⟨hmay, hbrought⟩, rfl⟩ := hstep
      exact .call thread call hmay hbrought
  | lock thread =>
      simp only [step] at hstep
      split at hstep <;> cases hstep
      case h_1 call rest hstack hmtx => exact .lock thread call rest hstack hmtx
  | leave thread =>
      simp only [step] at hstep
      split at hstep <;> cases hstep
      case h_1 call rest hstack => exact .leave thread call rest hstack
  | start thread =>
      simp only [step] at hstep
      split at hstep <;> cases hstep
      case h_1 cont rest hstack => exact .start thread cont rest hstack
  | finish thread =>
      simp only [step] at hstep
      split at hstep <;> cases hstep
      case h_1 cont rest hstack => exact .finish thread cont rest hstack

end RpcDemo.Threadpool.WriteOnce
