import RpcDemo.Threadpool.Pool

/-!
# What a step of the pool can do

Every step of a thread, by cases, with the guards it passed.
-/

namespace RpcDemo.Threadpool

variable {Fn Value Error : Type}

namespace Code

/-- All that user code and the pool's code can do in one step: the code before it, the
move, the guards it passed, and what it leaves. -/
inductive Acted (memory : Memory Fn Value Error) :
    Code Fn Value Error → Move Fn Value Error → Effect Fn Value Error → Prop
  | pick (package : Package Fn) (stack : List (Suspended Fn Value)) :
      Acted memory ⟨some (.enqueue package .pick), stack⟩ .turn
        (.next memory.advanceRound ⟨some (.enqueue package (.count memory.victim)), stack⟩)
  | count (package : Package Fn) (stack : List (Suspended Fn Value)) (victim : ℕ) :
      Acted memory ⟨some (.enqueue package (.count victim)), stack⟩ .turn
        (.next { memory with unfinished := memory.unfinished + 1 }
          ⟨some (.enqueue package (.push victim)), stack⟩)
  | push (package : Package Fn) (stack : List (Suspended Fn Value)) (victim : ℕ)
      (queue : List (Package Fn)) (hqueue : memory.queues[victim]? = some queue) :
      Acted memory ⟨some (.enqueue package (.push victim)), stack⟩ .turn
        (.next { memory with
            queues := memory.queues.set victim (package :: queue)
            pushed := memory.pushed ++ [package.id] }
          ⟨some (.enqueue package .notify), stack⟩)
  | fail (package : Package Fn) (stack : List (Suspended Fn Value)) (victim : ℕ)
      (error : Thrown Error) :
      Acted memory ⟨some (.enqueue package (.push victim)), stack⟩ (.fail error)
        (.throws { memory with lost := memory.lost ++ [package] } stack error)
  | notify (package : Package Fn) (stack : List (Suspended Fn Value)) (woken : ℕ) :
      Acted memory ⟨some (.enqueue package .notify), stack⟩ (.notifyOne woken)
        ⟨some ⟨none, stack⟩, memory.returnPosted package.callable, .oneWorker woken⟩
  | getFuture (cont : Continuation Fn) (inlineExec : Bool) (stack : List (Suspended Fn Value))
      (stage : Stage Fn Value Error) (hstage : memory.states[cont.upstream]? = some stage) :
      Acted memory ⟨some (.thenImpl cont inlineExec .getFuture), stack⟩ .turn
        (.next (memory.setCell cont.upstream stage stage.cell.getFuture)
          ⟨some (.thenImpl cont inlineExec .setContinuation), stack⟩)
  | ignored (cont : Continuation Fn) (inlineExec : Bool) (stack : List (Suspended Fn Value))
      (stage : Stage Fn Value Error) (hstage : memory.states[cont.upstream]? = some stage)
      (hset : stage.cell.continuationSet = true) :
      Acted memory ⟨some (.thenImpl cont inlineExec .setContinuation), stack⟩ .turn
        (.returns { memory with ignored := memory.ignored ++ [cont] }
          (.attached cont :: stack))
  | stored (cont : Continuation Fn) (inlineExec : Bool) (stack : List (Suspended Fn Value))
      (stage : Stage Fn Value Error) (hstage : memory.states[cont.upstream]? = some stage)
      (hset : stage.cell.continuationSet = false) (hcompleted : stage.cell.completed = false) :
      Acted memory ⟨some (.thenImpl cont inlineExec .setContinuation), stack⟩ .turn
        (.returns
          (memory.setCell cont.upstream stage (stage.cell.store (attachment cont inlineExec)))
          (.attached cont :: stack))
  | execute (cont : Continuation Fn) (inlineExec : Bool) (stack : List (Suspended Fn Value))
      (stage : Stage Fn Value Error) (hstage : memory.states[cont.upstream]? = some stage)
      (hset : stage.cell.continuationSet = false) (hcompleted : stage.cell.completed = true) :
      Acted memory ⟨some (.thenImpl cont inlineExec .setContinuation), stack⟩ .turn
        (invokeExtracted memory (.attached cont :: stack) (some (attachment cont inlineExec)))
  | getValue (cont : Continuation Fn) (stack : List (Suspended Fn Value))
      (stage : Stage Fn Value Error) (value : Option Value)
      (hstage : memory.states[cont.upstream]? = some stage)
      (hpromise : stage.cell.promise = some (.ok value)) :
      Acted memory ⟨some (.get cont), stack⟩ .turn
        (.next { memory with ran := memory.ran ++ [⟨cont.next, cont.func, value⟩] }
          ⟨none, .run cont.func value (some cont.next) :: stack⟩)
  | getError (cont : Continuation Fn) (stack : List (Suspended Fn Value))
      (stage : Stage Fn Value Error) (error : Thrown Error)
      (hstage : memory.states[cont.upstream]? = some stage)
      (hpromise : stage.cell.promise = some (.error error)) :
      Acted memory ⟨some (.get cont), stack⟩ .turn
        (.next memory ⟨some (.complete cont.next (.error error)), stack⟩)
  | complete (state : ℕ) (completion : Completion Value Error)
      (stack : List (Suspended Fn Value)) (stage : Stage Fn Value Error)
      (hstage : memory.states[state]? = some stage) (hpromise : stage.cell.promise = none) :
      Acted memory ⟨some (.complete state completion), stack⟩ .turn
        (invokeExtracted (memory.setCell state stage (stage.cell.settle completion))
          (tryBlock state stack completion) stage.cell.continuation)
  | refuse (state : ℕ) (completion : Completion Value Error)
      (stack : List (Suspended Fn Value)) (stage : Stage Fn Value Error)
      (hstage : memory.states[state]? = some stage) (hpromise : stage.cell.promise.isSome) :
      Acted memory ⟨some (.complete state completion), stack⟩ .turn
        (refuse memory stack state completion)
  | recover (state : ℕ) (error : Thrown Error)
      (stack : List (Suspended Fn Value)) (stage : Stage Fn Value Error)
      (hstage : memory.states[state]? = some stage) (hpromise : stage.cell.promise = none) :
      Acted memory ⟨some (.recover state error), stack⟩ .turn
        (invokeExtracted (memory.setCell state stage (stage.cell.settle (.error error))) stack
          stage.cell.continuation)
  | escape (state : ℕ) (error : Thrown Error)
      (stack : List (Suspended Fn Value)) (stage : Stage Fn Value Error)
      (hstage : memory.states[state]? = some stage) (hpromise : stage.cell.promise.isSome) :
      Acted memory ⟨some (.recover state error), stack⟩ .turn
        (.throws memory stack .promiseAlreadySatisfied)
  | waitDone (stack : List (Suspended Fn Value)) (hlock : memory.lockWait = false)
      (hdone : memory.unfinished = 0) :
      Acted memory ⟨some (.wait .check), stack⟩ .turn (.returns memory stack)
  | waitCheck (stack : List (Suspended Fn Value)) (hlock : memory.lockWait = false)
      (hbusy : memory.unfinished ≠ 0) :
      Acted memory ⟨some (.wait .check), stack⟩ .turn
        (.next { memory with lockWait := true } ⟨some (.wait .checked), stack⟩)
  | waitBlock (stack : List (Suspended Fn Value)) :
      Acted memory ⟨some (.wait .checked), stack⟩ .turn
        (.next { memory with lockWait := false } ⟨some (.wait .blocked), stack⟩)
  | destroyed (stack : List (Suspended Fn Value)) (hshutdown : memory.shutdown = true) :
      Acted memory ⟨some (.shutdown .test), stack⟩ .turn (.returns memory stack)
  | destroy (stack : List (Suspended Fn Value)) (hshutdown : memory.shutdown = false) :
      Acted memory ⟨some (.shutdown .test), stack⟩ .turn
        (.next memory ⟨some (.shutdown .store), stack⟩)
  | shutdown (stack : List (Suspended Fn Value)) :
      Acted memory ⟨some (.shutdown .store), stack⟩ .turn
        (.next { memory with shutdown := true } ⟨some (.shutdown .notify), stack⟩)
  | notifyAll (stack : List (Suspended Fn Value)) :
      Acted memory ⟨some (.shutdown .notify), stack⟩ .turn
        ⟨some ⟨some (.shutdown .join), stack⟩, memory, .allWorkers⟩
  | join (stack : List (Suspended Fn Value))
      (hexited : memory.exited.length = memory.queues.length) :
      Acted memory ⟨some (.shutdown .join), stack⟩ .turn (.returns memory stack)
  | joinSelf (id : ℕ) (fn : Fn) (arg : Option Value) (state : Option ℕ)
      (stack : List (Suspended Fn Value)) (hlower : ∀ lower < id, lower ∈ memory.exited) :
      Acted memory ⟨some (.shutdown .join), .run fn arg state :: stack⟩ .turn
        (.throws memory (.run fn arg state :: stack) .resourceDeadlock)
  | tried (state : ℕ) (stack : List (Suspended Fn Value)) :
      Acted memory ⟨none, .trying state :: stack⟩ .turn (.returns memory stack)
  | attached (cont : Continuation Fn) (stack : List (Suspended Fn Value)) :
      Acted memory ⟨none, .attached cont :: stack⟩ .turn
        (.returns (memory.markReturned cont.next) stack)
  | finish (fn : Fn) (arg : Option Value) (state : ℕ) (stack : List (Suspended Fn Value))
      (completion : Completion Value Error) :
      Acted memory ⟨none, .run fn arg (some state) :: stack⟩ (.finish completion)
        (.next { memory with results := memory.results ++ [(⟨state, fn, arg⟩, completion)] }
          ⟨some (.complete state completion), stack⟩)
  | finishDetached (fn : Fn) (arg value : Option Value) (stack : List (Suspended Fn Value)) :
      Acted memory ⟨none, .run fn arg none :: stack⟩ (.finish (.ok value))
        (.returns memory stack)
  | throwDetached (fn : Fn) (arg : Option Value) (stack : List (Suspended Fn Value))
      (error : Thrown Error) :
      Acted memory ⟨none, .run fn arg none :: stack⟩ (.finish (.error error))
        (.throws { memory with threw := memory.threw ++ [fn] } stack error)
  | postDetach (fn : Fn) (stack : List (Suspended Fn Value)) (huser : isUser stack = true) :
      Acted memory ⟨none, stack⟩ (.call (.postDetach fn))
        (.next { memory with issued := memory.issued + 1 }
          ⟨some (.enqueue ⟨memory.issued, .detached fn⟩ .pick), stack⟩)
  | post (fn : Fn) (stack : List (Suspended Fn Value)) (huser : isUser stack = true) :
      Acted memory ⟨none, stack⟩ (.call (.post fn))
        (.next { memory with
            issued := memory.issued + 1
            states := memory.states ++ [⟨.fresh, .posted fn, false⟩] }
          ⟨some (.enqueue ⟨memory.issued, .promised memory.states.length fn⟩ .pick), stack⟩)
  | attach (upstream : ℕ) (fn : Fn) (inlineExec : Bool) (stack : List (Suspended Fn Value))
      (stage : Stage Fn Value Error) (huser : isUser stack = true)
      (hstage : memory.states[upstream]? = some stage) (hreturned : stage.returned = true) :
      Acted memory ⟨none, stack⟩ (.call (.attach upstream fn inlineExec))
        (.next { memory with
            states := memory.states ++ [⟨.fresh, .attached upstream fn, false⟩] }
          ⟨some (.thenImpl ⟨upstream, memory.states.length, fn⟩ inlineExec .getFuture), stack⟩)
  | wait (stack : List (Suspended Fn Value)) (huser : isUser stack = true) :
      Acted memory ⟨none, stack⟩ (.call .wait) (.next memory ⟨some (.wait .check), stack⟩)
  | callShutdown (stack : List (Suspended Fn Value)) (huser : isUser stack = true) :
      Acted memory ⟨none, stack⟩ (.call .shutdown)
        (.next memory ⟨some (.shutdown .store), stack⟩)
  | callDestroy (stack : List (Suspended Fn Value)) (huser : isUser stack = true) :
      Acted memory ⟨none, stack⟩ (.call .destroy)
        (.next memory ⟨some (.shutdown .test), stack⟩)

/-! ### What calling a callable leaves alone -/

section Invoke

variable {memory : Memory Fn Value Error} {code : Code Fn Value Error}
variable {move : Move Fn Value Error} {effect : Effect Fn Value Error}

@[simp]
theorem states_invoke (memory : Memory Fn Value Error) (stack : List (Suspended Fn Value))
    (callable : Callable Fn) : (invoke memory stack callable).2.states = memory.states := by
  cases callable <;> rfl

/-- Running a callable touches no shared state before its first step. -/
@[simp]
theorem states_invokeExtracted (memory : Memory Fn Value Error)
    (stack : List (Suspended Fn Value)) (cont : Option (Callable Fn)) :
    (invokeExtracted memory stack cont).memory.states = memory.states := by
  cases cont with
  | none => rfl
  | some callable => exact states_invoke memory stack callable

theorem history_invoke (stack : List (Suspended Fn Value)) (callable : Callable Fn) :
    (invoke memory stack callable).2.pushed = memory.pushed ∧
      (invoke memory stack callable).2.started = memory.started := by
  cases callable <;> exact ⟨rfl, rfl⟩

/-- Running a callable pushes and starts nothing before its first step. -/
theorem history_invokeExtracted (stack : List (Suspended Fn Value))
    (callable : Option (Callable Fn)) :
    (invokeExtracted memory stack callable).memory.pushed = memory.pushed ∧
      (invokeExtracted memory stack callable).memory.started = memory.started := by
  cases callable with
  | none => exact ⟨rfl, rfl⟩
  | some callable => exact history_invoke stack callable

/-- User code and the calls it makes start no task. -/
theorem started_acted (hacted : Acted memory code move effect) :
    effect.memory.started = memory.started := by
  cases hacted with
  | execute | complete | recover => exact (history_invokeExtracted _ _).2
  | notify => simp
  | refuse state completion => cases completion <;> rfl
  | _ => rfl

end Invoke

section Inversion

variable {memory : Memory Fn Value Error} {stack : List (Suspended Fn Value)}
variable {effect : Effect Fn Value Error}

/-- The steps of `post_detach`, and a push that throws. -/
theorem acted_of_enqueue {package : Package Fn} {point : EnqueuePoint}
    {move : Move Fn Value Error} (hact : enqueue memory stack package point move = some effect) :
    Acted memory ⟨some (.enqueue package point), stack⟩ move effect := by
  cases point with
  | pick =>
      cases move with
      | turn => exact Option.some.inj hact ▸ .pick package stack
      | _ => simp [enqueue] at hact
  | count victim =>
      cases move with
      | turn => exact Option.some.inj hact ▸ .count package stack victim
      | _ => simp [enqueue] at hact
  | push victim =>
      cases move with
      | turn =>
          simp only [enqueue, Option.map_eq_some_iff] at hact
          obtain ⟨queue, hqueue, rfl⟩ := hact
          exact .push package stack victim queue hqueue
      | fail error => exact Option.some.inj hact ▸ .fail package stack victim error
      | _ => simp [enqueue] at hact
  | notify =>
      cases move with
      | notifyOne woken => exact Option.some.inj hact ▸ .notify package stack woken
      | _ => simp [enqueue] at hact

/-- The two critical sections of `then_impl`, with the three outcomes of
`set_continuation`. -/
theorem acted_of_thenImpl {cont : Continuation Fn} {inlineExec : Bool} {point : AttachPoint}
    (hact : thenImpl memory stack cont inlineExec point = some effect) :
    Acted memory ⟨some (.thenImpl cont inlineExec point), stack⟩ .turn effect := by
  cases point with
  | getFuture =>
      simp only [thenImpl, Option.map_eq_some_iff] at hact
      obtain ⟨stage, hstage, rfl⟩ := hact
      exact .getFuture cont inlineExec stack stage hstage
  | setContinuation =>
      simp only [thenImpl, Option.map_eq_some_iff] at hact
      obtain ⟨stage, hstage, rfl⟩ := hact
      cases hset : stage.cell.continuationSet with
      | true =>
          simp only [SharedState.setContinuation, hset, if_true]
          exact .ignored cont inlineExec stack stage hstage hset
      | false =>
          cases hcompleted : stage.cell.completed with
          | true =>
              simp only [SharedState.setContinuation, hset, hcompleted, if_true, Bool.false_eq_true,
                if_false]
              exact .execute cont inlineExec stack stage hstage hset hcompleted
          | false =>
              simp only [SharedState.setContinuation, hset, hcompleted, Bool.false_eq_true,
                if_false]
              exact .stored cont inlineExec stack stage hstage hset hcompleted

/-- `get` in a continuation goes on only with a result. -/
theorem acted_of_get {cont : Continuation Fn} (hact : get memory stack cont = some effect) :
    Acted memory ⟨some (.get cont), stack⟩ .turn effect := by
  simp only [get, Option.bind_eq_some_iff, Option.map_eq_some_iff] at hact
  obtain ⟨stage, hstage, completion, hpromise, rfl⟩ := hact
  cases completion with
  | ok value => exact .getValue cont stack stage value hstage hpromise
  | error error => exact .getError cont stack stage error hstage hpromise

/-- `set_value` and `set_exception` on a promise with and without a result. -/
theorem acted_of_complete {state : ℕ} {completion : Completion Value Error}
    (hact : complete memory stack state completion = some effect) :
    Acted memory ⟨some (.complete state completion), stack⟩ .turn effect := by
  simp only [complete, Option.map_eq_some_iff] at hact
  obtain ⟨stage, hstage, rfl⟩ := hact
  cases hpromise : stage.cell.promise with
  | none =>
      simp only [SharedState.complete, hpromise]
      exact .complete state completion stack stage hstage hpromise
  | some result =>
      simp only [SharedState.complete, hpromise]
      exact .refuse state completion stack stage hstage (by simp [hpromise])

/-- The `set_exception` of a catch block. -/
theorem acted_of_recover {state : ℕ} {error : Thrown Error}
    (hact : recover memory stack state error = some effect) :
    Acted memory ⟨some (.recover state error), stack⟩ .turn effect := by
  simp only [recover, Option.map_eq_some_iff] at hact
  obtain ⟨stage, hstage, rfl⟩ := hact
  cases hpromise : stage.cell.promise with
  | none =>
      simp only [SharedState.complete, hpromise]
      exact .recover state error stack stage hstage hpromise
  | some result =>
      simp only [SharedState.complete, hpromise]
      exact .escape state error stack stage hstage (by simp [hpromise])

theorem acted_of_wait {point : WaitPoint} (hact : wait memory stack point = some effect) :
    Acted memory ⟨some (.wait point), stack⟩ .turn effect := by
  cases point with
  | check =>
      simp only [wait, Option.ite_none_left_eq_some, Bool.not_eq_true] at hact
      obtain ⟨hlock, hact⟩ := hact
      split at hact
      case isTrue hdone => exact Option.some.inj hact ▸ .waitDone stack hlock hdone
      case isFalse hbusy => exact Option.some.inj hact ▸ .waitCheck stack hlock hbusy
  | checked => exact Option.some.inj hact ▸ .waitBlock stack
  | blocked => simp [wait] at hact

/-- The steps of `shutdown` and of the destructor. -/
theorem acted_of_shutdown {point : ShutdownPoint}
    (hact : shutdown memory stack point = some effect) :
    Acted memory ⟨some (.shutdown point), stack⟩ .turn effect := by
  cases point with
  | test =>
      simp only [shutdown] at hact
      split at hact
      case isTrue hshutdown => exact Option.some.inj hact ▸ .destroyed stack hshutdown
      case isFalse hshutdown =>
        exact Option.some.inj hact ▸ .destroy stack (Bool.not_eq_true _ ▸ hshutdown)
  | store => exact Option.some.inj hact ▸ .shutdown stack
  | notify => exact Option.some.inj hact ▸ .notifyAll stack
  | join =>
      simp only [shutdown, Option.ite_none_right_eq_some, Option.some.injEq] at hact
      exact hact.2 ▸ .join stack hact.1

/-- Every turn of a call inside the pool is one of the listed ones. -/
theorem acted_of_advance {active : Active Fn Value Error}
    (hact : advance memory stack active = some effect) :
    Acted memory ⟨some active, stack⟩ .turn effect := by
  cases active with
  | enqueue package point => exact acted_of_enqueue hact
  | thenImpl cont inlineExec point => exact acted_of_thenImpl hact
  | get cont => exact acted_of_get hact
  | complete state completion => exact acted_of_complete hact
  | recover state error => exact acted_of_recover hact
  | wait point => exact acted_of_wait hact
  | shutdown point => exact acted_of_shutdown hact

/-- A frame left without an active call returns. -/
theorem acted_of_unwind (hact : unwind memory stack = some effect) :
    Acted memory ⟨none, stack⟩ .turn effect := by
  cases stack with
  | nil => simp [unwind] at hact
  | cons frame stack =>
      cases frame with
      | run fn arg state => simp [unwind] at hact
      | trying state => exact Option.some.inj hact ▸ .tried state stack
      | attached cont => exact Option.some.inj hact ▸ .attached cont stack

/-- A user function returns or throws, with or without a state for its result. -/
theorem acted_of_finish {completion : Completion Value Error}
    (hact : finish memory completion stack = some effect) :
    Acted memory ⟨none, stack⟩ (.finish completion) effect := by
  cases stack with
  | nil => simp [finish] at hact
  | cons frame stack =>
      cases frame with
      | trying state => simp [finish] at hact
      | attached cont => simp [finish] at hact
      | run fn arg state =>
          cases state with
          | some state => exact Option.some.inj hact ▸ .finish fn arg state stack completion
          | none =>
              cases completion with
              | ok value => exact Option.some.inj hact ▸ .finishDetached fn arg value stack
              | error error => exact Option.some.inj hact ▸ .throwDetached fn arg stack error

/-- User code calls a member of the pool. -/
theorem acted_of_call {op : Op Fn} (huser : isUser stack = true)
    (hact : call memory stack op = some effect) :
    Acted memory ⟨none, stack⟩ (.call op) effect := by
  cases op with
  | postDetach fn => exact Option.some.inj hact ▸ .postDetach fn stack huser
  | post fn => exact Option.some.inj hact ▸ .post fn stack huser
  | attach upstream fn inlineExec =>
      simp only [call, Option.ite_none_right_eq_some, Option.some.injEq,
        Option.any_eq_true] at hact
      obtain ⟨⟨stage, hstage, hreturned⟩, rfl⟩ := hact
      exact .attach upstream fn inlineExec stack stage huser hstage hreturned
  | wait => exact Option.some.inj hact ▸ .wait stack huser
  | shutdown => exact Option.some.inj hact ▸ .callShutdown stack huser
  | destroy => exact Option.some.inj hact ▸ .callDestroy stack huser

/-- Every step of user code or of the pool's code is one of the listed ones. -/
theorem acted_of_act {code : Code Fn Value Error} {move : Move Fn Value Error}
    (hact : code.act memory move = some effect) : Acted memory code move effect := by
  obtain ⟨active, stack⟩ := code
  cases active with
  | none =>
      cases move with
      | turn => exact acted_of_unwind hact
      | finish completion => exact acted_of_finish hact
      | call op =>
          simp only [act, Option.ite_none_right_eq_some] at hact
          exact acted_of_call hact.1 hact.2
      | notifyOne woken => simp [act] at hact
      | fail error => simp [act] at hact
  | some active =>
      cases move with
      | turn => exact acted_of_advance hact
      | _ =>
          cases active with
          | enqueue package point => exact acted_of_enqueue hact
          | _ => simp [act] at hact

/-- The join of a worker by a task of its own. -/
theorem acted_of_joinSelf {code : Code Fn Value Error} {move : Move Fn Value Error} {id : ℕ}
    (hact : code.joinSelf memory id move = some effect) : Acted memory code move effect := by
  unfold joinSelf at hact
  split at hact
  · rw [Option.ite_none_right_eq_some, Option.some.injEq] at hact
    exact hact.2 ▸ .joinSelf id _ _ _ _ hact.1
  · exact absurd hact (by simp)

end Inversion

end Code

namespace Thread

/-- All that a thread can do in one step: a caller runs its own code, a worker the code
of its task or the next part of `workThread`. -/
inductive Acted (memory : Memory Fn Value Error) :
    Thread Fn Value Error → Move Fn Value Error → Progress Fn Value Error → Prop
  | caller (code : Code Fn Value Error) (move : Move Fn Value Error)
      (effect : Effect Fn Value Error) (hacted : Code.Acted memory code move effect) :
      Acted memory (.caller code) move
        ⟨.caller (effect.code.getD .idle), effect.memory, effect.signal⟩
  | task (id task : ℕ) (code after : Code Fn Value Error) (move : Move Fn Value Error)
      (memory' : Memory Fn Value Error) (signal : Signal) (hbusy : code ≠ .idle)
      (hacted : Code.Acted memory code move ⟨some after, memory', signal⟩) :
      Acted memory (.worker id (.running task code)) move
        ⟨.worker id (.running task after), memory', signal⟩
  | terminate (id task : ℕ) (code : Code Fn Value Error) (move : Move Fn Value Error)
      (memory' : Memory Fn Value Error) (signal : Signal)
      (hacted : Code.Acted memory code move ⟨none, memory', signal⟩) :
      Acted memory (.worker id (.running task code)) move
        ⟨.worker id (.running task .idle), { memory' with terminated := true }, signal⟩
  | finishTask (id task : ℕ) :
      Acted memory (.worker id (.running task .idle)) .turn
        ⟨.worker id .notify,
          { memory with
            unfinished := memory.unfinished - 1
            finished := memory.finished ++ [task] }, .quiet⟩
  | exit (id : ℕ) (hshutdown : memory.shutdown = true) :
      Acted memory (.worker id .loop) .turn
        ⟨.worker id .exited, { memory with exited := memory.exited ++ [id] }, .quiet⟩
  | loop (id : ℕ) (hshutdown : memory.shutdown = false) :
      Acted memory (.worker id .loop) .turn ⟨.worker id .own, memory, .quiet⟩
  | popFront (id : ℕ) (package : Package Fn) (queue : List (Package Fn))
      (hqueue : memory.queues[id]? = some (package :: queue)) :
      Acted memory (.worker id .own) .turn
        (startTask { memory with queues := memory.queues.set id queue } id package)
  | ownEmpty (id : ℕ) (hqueue : memory.queues[id]? = some []) :
      Acted memory (.worker id .own) .turn
        ⟨.worker id (if 1 < memory.queues.length then .pick else .wait .check), memory, .quiet⟩
  | notify (id : ℕ) : Acted memory (.worker id .notify) .turn ⟨.worker id .loop, memory, .waiters⟩
  | pick (id victim : ℕ) :
      Acted memory (.worker id .pick) .turn
        ⟨.worker id (.steal victim), memory.advanceRound, .quiet⟩
  | popBack (id victim : ℕ) (package : Package Fn) (queue : List (Package Fn))
      (hqueue : memory.queues[victim]? = some (queue ++ [package])) :
      Acted memory (.worker id (.steal victim)) .turn
        (startTask { memory with queues := memory.queues.set victim queue } id package)
  | stealEmpty (id victim : ℕ) (hqueue : memory.queues[victim]? = some []) :
      Acted memory (.worker id (.steal victim)) .turn
        ⟨.worker id (.wait .check), memory, .quiet⟩
  | resume (id : ℕ) (hlock : memory.lockTh = false)
      (hready : memory.shutdown = true ∨ 0 < memory.unfinished) :
      Acted memory (.worker id (.wait .check)) .turn ⟨.worker id .loop, memory, .quiet⟩
  | check (id : ℕ) (hlock : memory.lockTh = false) (hshutdown : memory.shutdown = false)
      (hidle : memory.unfinished ≤ 0) :
      Acted memory (.worker id (.wait .check)) .turn
        ⟨.worker id (.wait .checked), { memory with lockTh := true }, .quiet⟩
  | block (id : ℕ) :
      Acted memory (.worker id (.wait .checked)) .turn
        ⟨.worker id (.wait .blocked), { memory with lockTh := false }, .quiet⟩

section Inversion

variable {memory : Memory Fn Value Error} {progress : Progress Fn Value Error} {id : ℕ}

/-- A worker at the condition variable of the queues. -/
theorem acted_of_waitTurn {point : WaitPoint} (hact : waitTurn memory id point = some progress) :
    Acted memory (.worker id (.wait point)) .turn progress := by
  cases point with
  | check =>
      simp only [waitTurn, Option.ite_none_left_eq_some, Bool.not_eq_true] at hact
      obtain ⟨hlock, hact⟩ := hact
      split at hact
      case isTrue hready => exact Option.some.inj hact ▸ .resume id hlock hready
      case isFalse hready =>
        rw [not_or, Bool.not_eq_true] at hready
        exact Option.some.inj hact ▸ .check id hlock hready.1 (Int.not_lt.mp hready.2)
  | checked => exact Option.some.inj hact ▸ .block id
  | blocked => simp [waitTurn] at hact

/-- The steps of `workThread` outside a task. -/
theorem acted_of_workTurn {point : WorkerPoint Fn Value Error}
    (hrunning : ∀ task code, point = .running task code → code = .idle)
    (hact : workTurn memory id point = some progress) :
    Acted memory (.worker id point) .turn progress := by
  cases point with
  | loop =>
      simp only [workTurn] at hact
      split at hact
      case isTrue hshutdown => exact Option.some.inj hact ▸ .exit id hshutdown
      case isFalse hshutdown =>
        exact Option.some.inj hact ▸ .loop id (Bool.not_eq_true _ ▸ hshutdown)
  | own =>
      simp only [workTurn, Option.map_eq_some_iff] at hact
      obtain ⟨queue, hqueue, rfl⟩ := hact
      cases queue with
      | nil => exact .ownEmpty id hqueue
      | cons package queue => exact .popFront id package queue hqueue
  | running task code =>
      obtain rfl := hrunning task code rfl
      exact Option.some.inj hact ▸ .finishTask id task
  | notify => exact Option.some.inj hact ▸ .notify id
  | pick => exact Option.some.inj hact ▸ .pick id _
  | steal victim =>
      simp only [workTurn, Option.map_eq_some_iff] at hact
      obtain ⟨queue, hqueue, rfl⟩ := hact
      rcases List.eq_nil_or_concat queue with rfl | ⟨front, package, rfl⟩
      · exact .stealEmpty id victim hqueue
      · simp only [List.concat_eq_append, List.getLast?_append, List.getLast?_singleton,
          Option.some_or, List.dropLast_concat]
        exact .popBack id victim package front (by simpa using hqueue)
  | wait point => exact acted_of_waitTurn hact
  | exited => simp [workTurn] at hact

/-- A step inside a task is one of user code, of the pool, or the end of the program by an
exception. -/
theorem acted_of_runTask {task : ℕ} {code : Code Fn Value Error} {move : Move Fn Value Error}
    (hbusy : code ≠ .idle) (hact : runTask memory id task code move = some progress) :
    Acted memory (.worker id (.running task code)) move progress := by
  simp only [runTask, Option.map_eq_some_iff] at hact
  obtain ⟨⟨after, memory', signal⟩, heffect, rfl⟩ := hact
  have hacted : Code.Acted memory code move ⟨after, memory', signal⟩ := by
    rcases Option.or_eq_some_iff.mp heffect with hown | ⟨-, hself⟩
    · exact Code.acted_of_act hown
    · exact Code.acted_of_joinSelf hself
  cases after with
  | none => exact .terminate id task code move memory' signal hacted
  | some after => exact .task id task code after move memory' signal hbusy hacted

/-- Every step of a thread is one of the listed ones. -/
theorem acted_of_act {thread : Thread Fn Value Error} {move : Move Fn Value Error}
    (hact : thread.act memory move = some progress) : Acted memory thread move progress := by
  cases thread with
  | caller code =>
      simp only [act, Option.map_eq_some_iff] at hact
      obtain ⟨effect, heffect, rfl⟩ := hact
      exact .caller code move effect (Code.acted_of_act heffect)
  | worker id point =>
      by_cases hrunning : ∀ task code, point = .running task code → code = .idle
      · cases point with
        | running task code =>
            obtain rfl := hrunning task code rfl
            cases move with
            | turn => exact acted_of_workTurn hrunning hact
            | _ => simp [act, Code.idle] at hact
        | _ =>
            cases move with
            | turn => exact acted_of_workTurn (by simp) hact
            | _ => simp [act] at hact
      · simp only [not_forall] at hrunning
        obtain ⟨task, code, rfl, hbusy⟩ := hrunning
        have hrun : act memory (.worker id (.running task code)) move =
            runTask memory id task code move := by
          obtain ⟨active, stack⟩ := code
          cases active with
          | some active => rfl
          | none =>
              cases stack with
              | nil => exact absurd rfl hbusy
              | cons frame stack => rfl
        exact acted_of_runTask hbusy (hrun ▸ hact)

end Inversion

end Thread

namespace Pool

/-- All a step can do: the thread that acts, and what it and the notified threads
become. -/
structure Stepped (pool : Pool Fn Value Error) (event : Event Fn Value Error)
    (next : Pool Fn Value Error) (thread : Thread Fn Value Error)
    (progress : Progress Fn Value Error) : Prop where
  alive : pool.memory.terminated = false
  found : pool.threads[event.thread]? = some thread
  acted : thread.Acted pool.memory event.move progress
  threads : progress.signal.deliver (pool.threads.set event.thread progress.thread) =
    some next.threads
  memory : next.memory = progress.memory

/-- Every step of the pool is one of the listed ones. -/
theorem stepped_of_step {pool next : Pool Fn Value Error} {event : Event Fn Value Error}
    (hstep : pool.step event = some next) :
    ∃ thread progress, pool.Stepped event next thread progress := by
  simp only [step, Option.ite_none_left_eq_some, Bool.not_eq_true, Option.bind_eq_some_iff,
    Option.map_eq_some_iff] at hstep
  obtain ⟨halive, thread, hthread, progress, hact, threads, hthreads, rfl⟩ := hstep
  exact ⟨thread, progress, halive, hthread, Thread.acted_of_act hact, hthreads, rfl⟩

end Pool

end RpcDemo.Threadpool
