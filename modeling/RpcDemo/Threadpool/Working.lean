import RpcDemo.Core.Fairness
import RpcDemo.Threadpool.Searching

/-!
# The threads that have work

A thread has work when its next step is more than a look for a task.  In a pool in
good use such a thread can make that step, and no look for a task takes the work
from it.
-/

namespace RpcDemo.Threadpool

open Ledger Transition

variable {Fn Value Error : Type}

/-! ## Having work -/

def Code.hasWork (locked : Bool) : Code Fn Value Error → Bool
  | ⟨none, []⟩ => false
  | ⟨some (.wait .check), _⟩ => !locked
  | ⟨some (.wait .blocked), _⟩ => false
  | _ => true

def Thread.hasWork (memory : Memory Fn Value Error) : Thread Fn Value Error → Bool
  | .caller code => code.hasWork memory.lockWait
  | .worker id point => !(worker id point).searches memory.queues

/-- A thread in a call of the pool has work unless it waits in `wait()`, and it is not in
user code. -/
theorem Thread.hasWork_of_active {thread : Thread Fn Value Error}
    (memory : Memory Fn Value Error) {active : Active Fn Value Error}
    (hactive : thread.code.active = some active)
    (hwait : ∀ point, active = .wait point → point = .checked) :
    thread.hasWork memory = true ∧ thread.inUser = false := by
  cases thread with
  | caller code =>
      obtain ⟨_, stack⟩ := code
      obtain rfl := hactive
      refine ⟨?_, rfl⟩
      cases active with
      | wait point =>
          obtain rfl := hwait point rfl
          rfl
      | _ => rfl
  | worker id point =>
      cases point with
      | running task code =>
          obtain ⟨_, stack⟩ := code
          obtain rfl := hactive
          exact ⟨rfl, rfl⟩
      | _ => simp [Thread.code, Code.idle] at hactive

theorem Code.active_of_role {code : Code Fn Value Error}
    (hrole : code.role = .posting ∨ code.role = .announcing ∨ code.role = .waiting .checked) :
    ∃ active, code.active = some active ∧ ∀ point, active = .wait point → point = .checked := by
  obtain ⟨active, stack⟩ := code
  cases active with
  | none => simp at hrole
  | some active =>
      refine ⟨active, rfl, ?_⟩
      rintro point rfl
      simpa [role] using hrole

/-- A thread about to notify, or between its check of `wait()` and its blocking. -/
theorem Thread.hasWork_of_role {thread : Thread Fn Value Error} (memory : Memory Fn Value Error)
    (hrole : thread.role = .posting ∨ thread.role = .announcing ∨
      thread.role = .waiting .checked) :
    thread.hasWork memory = true ∧ thread.inUser = false := by
  cases thread with
  | caller code =>
      obtain ⟨active, hactive, hwait⟩ := Code.active_of_role hrole
      exact hasWork_of_active memory hactive hwait
  | worker id point =>
      cases point with
      | running task code =>
          obtain ⟨active, hactive, hwait⟩ := Code.active_of_role hrole
          exact hasWork_of_active memory hactive hwait
      | notify => exact ⟨rfl, rfl⟩
      | _ => simp [role] at hrole

/-! ## Its next step is enabled -/

/-- What the next step of an active call needs. -/
def Active.Ready (memory : Memory Fn Value Error) : Active Fn Value Error → Prop
  | .enqueue _ (.push victim) => victim < memory.queues.length
  | .thenImpl cont _ _ => cont.upstream < memory.states.length
  | .get cont => Completed memory.states cont.upstream
  | .complete state _ => state < memory.states.length
  | .recover state _ => state < memory.states.length
  | .shutdown _ => False
  | _ => True

namespace Code

variable {memory : Memory Fn Value Error} {stack : List (Suspended Fn Value)}

theorem advance_ne_none {active : Active Fn Value Error} (hready : active.Ready memory)
    (hnotify : ∀ package, active ≠ .enqueue package .notify)
    (hwork : (⟨some active, stack⟩ : Code Fn Value Error).hasWork memory.lockWait = true) :
    advance memory stack active ≠ none := by
  cases active with
  | enqueue package point =>
      cases point with
      | pick | count victim => simp [advance, enqueue]
      | push victim =>
          have hlt : victim < memory.queues.length := hready
          simp [advance, enqueue, hlt]
      | notify => exact absurd rfl (hnotify package)
  | thenImpl cont inlineExec point =>
      have hlt : cont.upstream < memory.states.length := hready
      cases point <;> simp [advance, thenImpl, hlt]
  | get cont =>
      obtain ⟨stage, hstage, hpromise⟩ := hready
      obtain ⟨completion, hcompletion⟩ := Option.isSome_iff_exists.mp hpromise
      simp [advance, get, hstage, hcompletion]
  | complete state completion =>
      have hlt : state < memory.states.length := hready
      simp [advance, complete, hlt]
  | recover state error =>
      have hlt : state < memory.states.length := hready
      simp [advance, recover, hlt]
  | wait point =>
      cases point with
      | check =>
          have hfree : memory.lockWait = false := by simpa [hasWork] using hwork
          simp only [advance, wait, hfree, Bool.false_eq_true, if_false]
          split <;> simp
      | checked => simp [advance, wait]
      | blocked => simp [hasWork] at hwork
  | shutdown point => exact absurd hready id

/-- Code with work can make a step, or it can wake any worker. -/
theorem enabled_of_hasWork {code : Code Fn Value Error}
    (hwork : code.hasWork memory.lockWait = true)
    (hready : ∀ active ∈ code.active, active.Ready memory) :
    (∃ move, move.goesOn = true ∧ (∀ woken, move ≠ .notifyOne woken) ∧
      code.act memory move ≠ none) ∨
    ∃ after memory', ∀ woken,
      code.act memory (.notifyOne woken) = some ⟨some after, memory', .oneWorker woken⟩ := by
  obtain ⟨active, stack⟩ := code
  cases active with
  | none =>
      left
      cases stack with
      | nil => simp [hasWork] at hwork
      | cons frame stack =>
          cases frame with
          | run fn arg state =>
              refine ⟨.finish (.ok none), rfl, by simp, ?_⟩
              cases state <;> simp [act, finish]
          | trying state => exact ⟨.turn, rfl, by simp, by simp [act, unwind]⟩
          | attached cont => exact ⟨.turn, rfl, by simp, by simp [act, unwind]⟩
  | some active =>
      by_cases hnotify : ∃ package, active = .enqueue package .notify
      · obtain ⟨package, rfl⟩ := hnotify
        exact .inr ⟨_, _, fun woken => rfl⟩
      · have hadvance : advance memory stack active ≠ none :=
          advance_ne_none (hready active rfl) (fun package heq => hnotify ⟨package, heq⟩) hwork
        exact .inl ⟨.turn, rfl, by simp, hadvance⟩

theorem signal_oneWorker {code : Code Fn Value Error} {move : Move Fn Value Error}
    {effect : Effect Fn Value Error} {woken : ℕ} (hacted : Acted memory code move effect)
    (hsignal : effect.signal = .oneWorker woken) : move = .notifyOne woken := by
  cases hacted with
  | notify => rw [Signal.oneWorker.inj hsignal]
  | execute | complete | recover =>
      unfold invokeExtracted at hsignal
      split at hsignal <;> simp [Effect.returns, Effect.next] at hsignal
  | refuse state completion =>
      cases completion <;> simp [refuse, Effect.next, Effect.throws] at hsignal
  | _ => simp [Effect.returns, Effect.next, Effect.throws] at hsignal

end Code

namespace Thread

variable {memory : Memory Fn Value Error} {thread : Thread Fn Value Error}

theorem act_running {id task : ℕ} {code : Code Fn Value Error} {move : Move Fn Value Error}
    (hbusy : code ≠ .idle) :
    act memory (.worker id (.running task code)) move = runTask memory id task code move := by
  obtain ⟨active, stack⟩ := code
  cases active with
  | some active => rfl
  | none =>
      cases stack with
      | nil => exact absurd rfl hbusy
      | cons frame stack => rfl

/-- A task that is not done has work: it is not in `wait()`. -/
theorem hasWork_of_tidy {workers : ℕ} {code : Code Fn Value Error}
    (htidy : code.Tidy workers true) (hbusy : code ≠ .idle) (locked : Bool) :
    code.hasWork locked = true := by
  obtain ⟨active, stack⟩ := code
  cases active with
  | none =>
      cases stack with
      | nil => exact absurd rfl hbusy
      | cons frame stack => rfl
  | some active =>
      cases active with
      | wait point =>
          have hcaller : true = false := Code.tidy_some.mp htidy
          simp at hcaller
      | _ => rfl

/-- A thread with work can make a step, or it can wake any worker. -/
theorem enabled_of_hasWork {workers : ℕ} (hwork : thread.hasWork memory = true)
    (htidy : thread.Tidy workers)
    (hready : ∀ active ∈ thread.code.active, active.Ready memory) :
    (∃ move, move.goesOn = true ∧ (∀ woken, move ≠ .notifyOne woken) ∧
      thread.act memory move ≠ none) ∨
    ∃ after memory', ∀ woken,
      thread.act memory (.notifyOne woken) = some ⟨after, memory', .oneWorker woken⟩ := by
  cases thread with
  | caller code =>
      obtain ⟨move, hmove, hother, hact⟩ | ⟨after, memory', hact⟩ :=
        Code.enabled_of_hasWork hwork hready
      · exact .inl ⟨move, hmove, hother, by simpa [act] using hact⟩
      · exact .inr ⟨.caller after, memory', fun woken => by simp [act, hact]⟩
  | worker id point =>
      cases point with
      | running task code =>
          by_cases hbusy : code = .idle
          · subst hbusy
            exact .inl ⟨.turn, rfl, by simp, by simp [act, Code.idle, workTurn]⟩
          · have hcode := hasWork_of_tidy htidy hbusy memory.lockWait
            obtain ⟨move, hmove, hother, hact⟩ | ⟨after, memory', hact⟩ :=
              Code.enabled_of_hasWork hcode hready
            · refine .inl ⟨move, hmove, hother, ?_⟩
              obtain ⟨effect, heffect⟩ := Option.ne_none_iff_exists'.mp hact
              simp [act_running hbusy, runTask, heffect]
            · refine .inr ⟨.worker id (.running task after), memory', fun woken => ?_⟩
              rw [act_running hbusy, runTask, hact]
              rfl
      | notify => exact .inl ⟨.turn, rfl, by simp, by simp [act, workTurn]⟩
      | own | steal victim =>
          simp only [hasWork, searches, Bool.not_eq_true', Option.all_eq_false] at hwork
          obtain ⟨queue, hqueue, _⟩ := hwork
          exact .inl ⟨.turn, rfl, by simp, by simp [act, workTurn, hqueue]⟩
      | _ => simp [hasWork, searches] at hwork

theorem signal_oneWorker {move : Move Fn Value Error} {progress : Progress Fn Value Error}
    {woken : ℕ} (hacted : thread.Acted memory move progress)
    (hsignal : progress.signal = .oneWorker woken) : move = .notifyOne woken := by
  cases hacted with
  | caller code _ effect hacted => exact Code.signal_oneWorker hacted hsignal
  | task id task code after _ memory' signal hbusy hacted =>
      exact Code.signal_oneWorker hacted hsignal
  | terminate id task code _ memory' signal hacted => exact Code.signal_oneWorker hacted hsignal
  | _ => simp [startTask] at hsignal

end Thread

/-- There is a worker to wake, or none sleeps. -/
theorem Signal.exists_woken (threads : List (Thread Fn Value Error)) :
    ∃ woken, (Signal.oneWorker woken).deliver threads ≠ none := by
  by_cases hany : threads.any Thread.isBlocked = true
  · obtain ⟨thread, hthread, hblocked⟩ := List.any_eq_true.mp hany
    obtain ⟨woken, hwoken⟩ := List.mem_iff_getElem?.mp hthread
    exact ⟨woken, by simp [deliver, hany, hwoken, hblocked]⟩
  · exact ⟨0, by simp [deliver, hany]⟩

theorem Signal.deliver_ne_none {signal : Signal} (hsignal : ∀ woken, signal ≠ .oneWorker woken)
    (threads : List (Thread Fn Value Error)) : signal.deliver threads ≠ none := by
  cases signal with
  | oneWorker woken => exact absurd rfl (hsignal woken)
  | _ => simp [deliver]

namespace Pool

variable {workers : ℕ} {pool : Pool Fn Value Error} {thread : Thread Fn Value Error} {index : ℕ}

theorem Orderly.tidy_active (horderly : pool.Orderly workers) (hthread : thread ∈ pool.threads)
    {active : Active Fn Value Error} (hactive : thread.code.active = some active) :
    ∃ isWorker, active.Tidy workers isWorker := by
  have htidy := horderly.tidy thread hthread
  cases thread with
  | caller code => exact ⟨false, htidy active hactive⟩
  | worker id point =>
      cases point with
      | running task code => exact ⟨true, htidy active hactive⟩
      | _ => simp [Thread.code, Code.idle] at hactive

theorem lt_of_justified {memory : Memory Fn Value Error} {state : ℕ}
    {completion : Completion Value Error} (hjustified : Justified memory state completion) :
    state < memory.states.length := by
  cases hjustified with
  | result execution _ hdue hresult =>
      cases hdue with
      | posted _ _ stage hstage | attached _ _ _ _ stage _ hstage =>
          exact (List.getElem?_eq_some_iff.mp hstage).1
  | error _ _ _ _ stage _ hstage => exact (List.getElem?_eq_some_iff.mp hstage).1

/-- What the code of a thread is about to do it can do. -/
theorem Orderly.ready (horderly : pool.Orderly workers) (hthread : thread ∈ pool.threads) :
    ∀ active ∈ thread.code.active, active.Ready pool.memory := by
  intro active hactive
  obtain ⟨isWorker, htidy⟩ := horderly.tidy_active hthread hactive
  have hsound : (∀ point, active ≠ .wait point) → (Item.active active).Sound pool.memory :=
    fun hwait => horderly.lawful.coherent.sound.items _ (active_mem hthread hactive hwait)
  cases active with
  | enqueue package point =>
      cases point with
      | push victim =>
          have hlt : victim < workers := htidy
          exact hlt.trans_eq horderly.memory.workers.symm
      | _ => trivial
  | thenImpl cont inlineExec point =>
      obtain ⟨_, stage, hstage, _⟩ := hsound (by simp)
      exact (List.getElem?_eq_some_iff.mp hstage).1
  | get cont => exact (hsound (by simp)).2
  | complete state completion => exact lt_of_justified (hsound (by simp))
  | recover state error =>
      have hcompleted := horderly.lawful.coherent.driven.completed_of_recover
        (active_mem hthread hactive (by simp))
      by_contra hout
      refine hcompleted ?_
      rw [config_memory, completed, flag, List.getElem?_eq_none (Nat.not_lt.mp hout)]
      rfl
  | wait point => trivial
  | shutdown point => exact htidy

theorem step_ne_none (halive : pool.memory.terminated = false)
    (hthread : pool.threads[index]? = some thread) {move : Move Fn Value Error}
    (hother : ∀ woken, move ≠ .notifyOne woken) (hact : thread.act pool.memory move ≠ none) :
    pool.step ⟨index, move⟩ ≠ none := by
  obtain ⟨progress, hprogress⟩ := Option.ne_none_iff_exists'.mp hact
  have hsignal : ∀ woken, progress.signal ≠ .oneWorker woken :=
    fun woken hsignal => hother woken
      (Thread.signal_oneWorker (Thread.acted_of_act hprogress) hsignal)
  have hdeliver := Signal.deliver_ne_none hsignal (pool.threads.set index progress.thread)
  simpa [step, halive, hthread, hprogress] using hdeliver

theorem enabled_of_hasWork (horderly : pool.Orderly workers)
    (hthread : pool.threads[index]? = some thread) (hwork : thread.hasWork pool.memory = true) :
    ∃ move, move.goesOn = true ∧ pool.step ⟨index, move⟩ ≠ none := by
  have hmem := List.mem_of_getElem? hthread
  obtain ⟨move, hmove, hother, hact⟩ | ⟨after, memory', hact⟩ :=
    Thread.enabled_of_hasWork hwork (horderly.tidy thread hmem) (horderly.ready hmem)
  · exact ⟨move, hmove, step_ne_none horderly.alive hthread hother hact⟩
  · obtain ⟨woken, hdeliver⟩ := Signal.exists_woken (pool.threads.set index after)
    exact ⟨.notifyOne woken, rfl,
      by simpa [step, horderly.alive, hthread, hact woken] using hdeliver⟩

/-- A thread without work that makes a step looks for a task. -/
theorem searches_of_step {next : Pool Fn Value Error} {event : Threadpool.Event Fn Value Error}
    (hthread : pool.threads[event.thread]? = some thread)
    (hidle : thread.hasWork pool.memory = false) (hmove : event.move.goesOn = true)
    (hstep : pool.step event = some next) :
    ∃ id point, thread = .worker id point ∧ thread.searches pool.memory.queues = true := by
  obtain ⟨acting, progress, hstepped, hact⟩ := act_of_step hstep
  obtain rfl := Option.some.inj (hstepped.found.symm.trans hthread)
  cases acting with
  | worker id point => exact ⟨id, point, rfl, by simpa [Thread.hasWork] using hidle⟩
  | caller code =>
      simp only [Thread.act, Option.map_eq_some_iff] at hact
      obtain ⟨effect, heffect, _⟩ := hact
      obtain ⟨active, stack⟩ := code
      generalize event.move = move at hmove heffect
      cases Code.acted_of_act heffect with
      | waitCheck _ hlock | waitDone _ hlock =>
          simp [Thread.hasWork, Code.hasWork, hlock] at hidle
      | postDetach | post | attach | wait | callShutdown | callDestroy =>
          simp [Move.goesOn] at hmove
      | _ => simp [Thread.hasWork, Code.hasWork] at hidle

end Pool

/-! ## The same with futures -/

namespace Futures

variable {workers : ℕ} {futures next : Futures Fn Value Error} {event : Event Fn Value Error}

/-- Neither a call of user code nor a push that throws. -/
def GoesOn (_ : Futures Fn Value Error) : Event Fn Value Error → Prop
  | .pool event => event.move.goesOn = true
  | .access _ _ _ => False
  | .ready _ => True

/-- A call of `get` or `wait` can return, or the thread is in no such call and has
work. -/
def HasWork (futures : Futures Fn Value Error) (thread : ℕ) : Prop :=
  match futures.callOf thread with
  | some call => Completed futures.pool.memory.states call.state
  | none => futures.pool.threads[thread]?.any (Thread.hasWork futures.pool.memory) = true

def load (futures : Futures Fn Value Error) : ℕ :=
  futures.pool.load + futures.calls.length

def Queued (futures : Futures Fn Value Error) : Prop :=
  futures.pool.memory.HasTask

theorem hasWork_of_call {thread : ℕ} {call : FutureCall}
    (hcall : futures.callOf thread = some call) :
    futures.HasWork thread ↔ Completed futures.pool.memory.states call.state := by
  simp only [HasWork, hcall]

theorem hasWork_of_free {thread : ℕ} (hfree : futures.callOf thread = none) :
    futures.HasWork thread ↔
      futures.pool.threads[thread]?.any (Thread.hasWork futures.pool.memory) = true := by
  simp only [HasWork, hfree]

theorem enabled_of_step {thread : ℕ} {move : Move Fn Value Error}
    (hfree : futures.callOf thread = none) (hmove : move.goesOn = true)
    (hstep : futures.pool.step ⟨thread, move⟩ ≠ none) :
    Enabled step Event.thread GoesOn thread futures :=
  ⟨.pool ⟨thread, move⟩, rfl, hmove, by simpa [step, hfree] using hstep⟩

theorem enabled_of_hasWork (horderly : futures.Orderly workers) {thread : ℕ}
    (hwork : futures.HasWork thread) : Enabled step Event.thread GoesOn thread futures := by
  have halive := horderly.pool.alive
  cases hcall : futures.callOf thread with
  | some call =>
      obtain ⟨stage, hstage, hpromise⟩ := (hasWork_of_call hcall).mp hwork
      obtain ⟨completion, hcompletion⟩ := Option.isSome_iff_exists.mp hpromise
      exact ⟨.ready thread, rfl, trivial,
        by simp [step, halive, hcall, ready, hstage, hcompletion]⟩
  | none =>
      obtain ⟨found, hfound, hfree⟩ :=
        (Option.any_eq_true _ _).mp ((hasWork_of_free hcall).mp hwork)
      obtain ⟨move, hmove, henabled⟩ := Pool.enabled_of_hasWork horderly.pool hfound hfree
      exact enabled_of_step hcall hmove henabled

/-- A thread that is not in user code is in no call of `get` or `wait`. -/
theorem callOf_of_not_inUser (hcalls : futures.HoldsCalls) {thread : ℕ}
    {found : Thread Fn Value Error} (hfound : futures.pool.threads[thread]? = some found)
    (huser : found.inUser = false) : futures.callOf thread = none := by
  cases hcall : futures.callOf thread with
  | none => rfl
  | some call =>
      obtain ⟨hmem, rfl⟩ := callOf_mem hcall
      have hinUser := hcalls.inUser call hmem
      rw [hfound, Option.any_some, huser] at hinUser
      simp at hinUser

theorem hasWork_of_not_inUser (hcalls : futures.HoldsCalls) {thread : ℕ}
    {found : Thread Fn Value Error} (hfound : futures.pool.threads[thread]? = some found)
    (huser : found.inUser = false) (hwork : found.hasWork futures.pool.memory = true) :
    futures.HasWork thread := by
  rw [hasWork_of_free (callOf_of_not_inUser hcalls hfound huser), hfound]
  exact hwork

/-- A worker with a task has work, whether its task waits for a future or not. -/
theorem hasWork_of_worker (horderly : futures.Orderly workers) {thread id : ℕ}
    {point : WorkerPoint Fn Value Error}
    (hfound : futures.pool.threads[thread]? = some (.worker id point))
    (hwork : (Thread.worker id point).hasWork futures.pool.memory = true) :
    futures.HasWork thread := by
  cases hcall : futures.callOf thread with
  | none =>
      rw [hasWork_of_free hcall, hfound]
      exact hwork
  | some call =>
      obtain ⟨hmem, rfl⟩ := callOf_mem hcall
      rw [hasWork_of_call hcall]
      exact horderly.ready call hmem (by rw [hfound]; rfl)

/-- A step of a thread that has work lowers the load. -/
theorem load_lt (hgoesOn : futures.GoesOn event) (hstep : futures.step event = some next)
    (hwork : futures.HasWork event.thread) : next.load < futures.load := by
  cases stepped_of_step hstep with
  | pool event pool hfree hpool =>
      obtain ⟨thread, progress, hstepped⟩ := Pool.stepped_of_step hpool
      have hhas := (hasWork_of_free hfree).mp hwork
      rw [hstepped.found, Option.any_some] at hhas
      have hworks : thread.searches futures.pool.memory.queues = false := by
        cases thread with
        | caller code => rfl
        | worker id point => simpa [Thread.hasWork] using hhas
      exact Nat.add_lt_add_right (Pool.load_step hstepped hgoesOn hworks) _
  | noState | access => exact absurd hgoesOn id
  | ready thread call stage completion hcall hstage hpromise =>
      refine Nat.add_lt_add_left ?_ _
      exact List.length_filter_lt_length_iff_exists.mpr
        ⟨call, (callOf_mem hcall).1, by simp⟩

/-- A step of a thread that has none is a look for a task. -/
theorem searched_of_step (horderly : futures.Orderly workers) (hgoesOn : futures.GoesOn event)
    (hstep : futures.step event = some next) (hidle : ¬futures.HasWork event.thread) :
    futures.callOf event.thread = none ∧
      ∃ id point point', futures.pool.threads[event.thread]? = some (.worker id point) ∧
      Thread.Searched futures.pool.memory id point point' next.pool.memory ∧
      next = ⟨⟨next.pool.memory, futures.pool.threads.set event.thread (.worker id point')⟩,
        futures.calls, futures.seen⟩ := by
  cases stepped_of_step hstep with
  | pool event pool hfree hpool =>
      obtain ⟨thread, progress, hstepped⟩ := Pool.stepped_of_step hpool
      have hnone : thread.hasWork futures.pool.memory = false := by
        by_contra hwork
        rw [Bool.not_eq_false] at hwork
        exact hidle ((hasWork_of_free hfree).mpr (by rw [hstepped.found]; exact hwork))
      obtain ⟨id, point, rfl, hsearches⟩ :=
        Pool.searches_of_step hstepped.found hnone hgoesOn hpool
      obtain ⟨point', hsearched, hthreads⟩ :=
        Pool.searched_of_step hpool hstepped.found hsearches horderly.pool.memory.shutdown
      refine ⟨hfree, id, point, point', hstepped.found, hsearched, ?_⟩
      simp only [Event.thread, ← hthreads]
  | noState | access => exact absurd hgoesOn id
  | ready thread call stage completion hcall hstage hpromise =>
      refine absurd ((hasWork_of_call hcall).mpr ⟨stage, hstage, ?_⟩) hidle
      rw [hpromise]
      rfl

end Futures

end RpcDemo.Threadpool
