import RpcDemo.Threadpool.Settling

/-!
# What `wait` waits for

The counter covers a continuation before it stops covering the task that submits
it, so it is zero only when the work of all returned calls is done.
-/

namespace RpcDemo.Threadpool

open Ledger Transition

variable {Fn Value Error : Type}

/-- A thread with this code is in the run that completes the state: in the `get` of the
continuation, in its function, in the call that takes the result, or in what is left of
the try block around that. -/
inductive Code.RunsFor (state : ℕ) (code : Code Fn Value Error) : Prop
  | get (cont : Continuation Fn) (hactive : code.active = some (.get cont))
      (hnext : cont.next = state)
  | function (fn : Fn) (arg : Option Value) (hframe : .run fn arg (some state) ∈ code.stack)
  | complete (completion : Completion Value Error)
      (hactive : code.active = some (.complete state completion))
  | tryBlock (hframe : .trying state ∈ code.stack)
  | recover (error : Thrown Error) (hactive : code.active = some (.recover state error))

theorem Code.RunsFor.works_pos {code : Code Fn Value Error} {state : ℕ}
    (hruns : code.RunsFor state) : 0 < weight (Item.works state) code.bag := by
  have hframe : ∀ frame ∈ code.stack, 0 < Item.works state (.frame frame : Item Fn Value Error) →
      0 < weight (Item.works state) code.bag := by
    intro frame hmem hpos
    refine weight_pos_iff.mpr ⟨.frame frame, Multiset.mem_add.mpr (.inr ?_), hpos⟩
    exact Multiset.mem_coe.mpr (List.mem_map_of_mem hmem)
  cases hruns with
  | get cont hactive hnext => simp [Code.bag, hactive, Active.bag, Item.works, Item.drives, hnext]
  | function fn arg hmem => exact hframe _ hmem (by simp [Item.works, Item.drives])
  | complete completion hactive => simp [Code.bag, hactive, Active.bag, Item.works, Item.drives]
  | tryBlock hmem => exact hframe _ hmem (by simp [Item.works, Item.tries])
  | recover error hactive => simp [Code.bag, hactive, Active.bag, Item.works, Item.tries]

/-- Inside a call of `wait()`. -/
def Code.isWaiting (code : Code Fn Value Error) : Bool :=
  match code.active with
  | some (.wait _) => true
  | _ => false

def Thread.isWaiting (thread : Thread Fn Value Error) : Bool :=
  thread.code.isWaiting

section Acted

variable {memory : Memory Fn Value Error} {move : Move Fn Value Error}

theorem Code.acted_wait {code : Code Fn Value Error} {effect : Effect Fn Value Error}
    (hwaiting : code.isWaiting = true) (hacted : Code.Acted memory code move effect) :
    (memory.unfinished = 0 ∧ effect = .returns memory code.stack) ∨
      ∃ memory' after, after.isWaiting = true ∧ effect = .next memory' after := by
  cases hacted with
  | waitDone stack hlock hdone => exact .inl ⟨hdone, rfl⟩
  | waitCheck stack hlock hbusy => exact .inr ⟨_, _, rfl, rfl⟩
  | waitBlock stack => exact .inr ⟨_, _, rfl, rfl⟩
  | _ => simp [isWaiting] at hwaiting

/-- A step of `wait()` returns with the counter at zero, or stays inside. -/
theorem Thread.acted_wait {thread : Thread Fn Value Error} {progress : Progress Fn Value Error}
    (hwaiting : thread.isWaiting = true) (hacted : thread.Acted memory move progress) :
    (memory.unfinished = 0 ∧ progress.memory = memory) ∨
      progress.thread.isWaiting = true ∧ progress.signal = .quiet := by
  cases hacted with
  | caller code _ effect hacted =>
      obtain ⟨hdone, rfl⟩ | ⟨memory', after, hafter, rfl⟩ := Code.acted_wait hwaiting hacted
      · exact .inl ⟨hdone, rfl⟩
      · exact .inr ⟨hafter, rfl⟩
  | task id task code after _ memory' signal hbusy hacted =>
      obtain ⟨hdone, heffect⟩ | ⟨_, _, hafter, heffect⟩ := Code.acted_wait hwaiting hacted
      · obtain ⟨_, rfl, _⟩ := Effect.mk.inj heffect
        exact .inl ⟨hdone, rfl⟩
      · obtain ⟨hcode, _, rfl⟩ := Effect.mk.inj heffect
        obtain rfl := Option.some.inj hcode
        exact .inr ⟨hafter, rfl⟩
  | terminate id task code _ memory' signal hacted =>
      obtain ⟨_, heffect⟩ | ⟨_, _, _, heffect⟩ := Code.acted_wait hwaiting hacted
      · exact absurd (Effect.mk.inj heffect).1 (by simp)
      · exact absurd (Effect.mk.inj heffect).1 (by simp)
  | _ => simp [isWaiting, Thread.code, Code.isWaiting, Code.idle] at hwaiting

end Acted

namespace Pool

variable {workers callers : ℕ} {earlier events : List (Event Fn Value Error)}
variable {begun pool next : Pool Fn Value Error}

/-- The thread makes the step by which its call of `wait()` returns. -/
structure WaitReturns (pool next : Pool Fn Value Error) (thread : ℕ) : Prop where
  called : pool.threads[thread]?.any Thread.isWaiting = true
  step : pool.step ⟨thread, .turn⟩ = some next
  returned : next.threads[thread]?.any Thread.isWaiting = false

theorem unfinished_of_waitReturns {thread : ℕ} (hreturns : pool.WaitReturns next thread) :
    pool.memory.unfinished = 0 ∧ next.memory = pool.memory := by
  obtain ⟨hcalled, hstep, hreturned⟩ := hreturns
  obtain ⟨waiting, progress, hstepped⟩ := stepped_of_step hstep
  have hwaiting : waiting.isWaiting = true := by
    rwa [hstepped.found] at hcalled
  obtain ⟨hdone, hmemory⟩ | ⟨hstays, hquiet⟩ := Thread.acted_wait hwaiting hstepped.acted
  · exact ⟨hdone, hstepped.memory.trans hmemory⟩
  · have hthreads := hstepped.threads
    rw [hquiet] at hthreads
    have hlt := (List.getElem?_eq_some_iff.mp hstepped.found).1
    rw [← Option.some.inj hthreads, List.getElem?_set_self hlt] at hreturned
    exact absurd hreturned (by simp [hstays])

/-- With the counter at zero and no push failed, nothing is queued or held. -/
theorem Lawful.idle_of_unfinished (hlawful : pool.Lawful) (hlost : pool.memory.lost = [])
    (hzero : pool.memory.unfinished = 0) : pool.queued = [] ∧ pool.held = [] := by
  have hcounted := hlawful.coherent.conserved.counted
  rw [config_memory, weight_counted, hlost, hzero] at hcounted
  simp only [List.length_nil] at hcounted
  exact ⟨List.length_eq_zero_iff.mp (by omega), List.length_eq_zero_iff.mp (by omega)⟩

theorem Lawful.not_busy (hqueued : pool.queued = []) (hheld : pool.held = []) (state : ℕ) :
    ¬pool.Busy state := by
  rintro (⟨package, hpackage, _⟩ | ⟨thread, hthread, htask, _⟩)
  · rw [List.map_eq_nil_iff.mp hqueued] at hpackage
    simp at hpackage
  · obtain ⟨task, htask⟩ := Option.ne_none_iff_exists'.mp htask
    have hmem : task ∈ pool.held := List.mem_filterMap.mpr ⟨thread, hthread, htask⟩
    simp [hheld] at hmem

/-- With nothing held by a worker, no thread is in a run whose state was returned. -/
theorem Lawful.not_runsFor (hlawful : pool.Lawful) (hheld : pool.held = []) {state : ℕ}
    (hreturned : Returned pool.memory.states state) :
    ∀ thread ∈ pool.threads, ¬thread.code.RunsFor state := by
  intro thread hthread hruns
  have hworks := hruns.works_pos
  cases thread with
  | caller code =>
      obtain ⟨stage, hstage, hflag⟩ := hreturned
      have hzero := returned_eq_zero_of_caller hlawful.coherent hthread
        (hlawful.covered _ hthread) hworks
      rw [returned_of_get hstage, hflag] at hzero
      simp at hzero
  | worker id point =>
      cases point with
      | running task code =>
          have hmem : task ∈ pool.held := List.mem_filterMap.mpr ⟨_, hthread, rfl⟩
          simp [hheld] at hmem
      | _ => simp [Thread.code] at hworks

/-- What had been posted and attached in `begun` is done in `pool`: the tasks are
finished, the states completed, the continuations run once and to their end. -/
structure DoneSince (begun pool : Pool Fn Value Error) : Prop where
  tasks : ∀ task ∈ begun.memory.pushed, task ∈ pool.memory.finished
  states : ∀ state, Returned begun.memory.states state → Completed pool.memory.states state
  continuations : ∀ (state : ℕ) stage upstream fn, begun.memory.states[state]? = some stage →
    stage.returned = true → stage.origin = .attached upstream fn →
    pool.memory.invoked.count state = 1 ∧ ∀ thread ∈ pool.threads, ¬thread.code.RunsFor state

theorem doneSince_of_waitReturns {thread : ℕ}
    (hbegun : run step (start workers callers) earlier = some begun)
    (hrun : run step begun events = some pool) (hreturns : pool.WaitReturns next thread)
    (hlost : pool.memory.lost = [])
    (hsingle : ∀ upstream, attachments pool.memory.states upstream ≤ 1) :
    begun.DoneSince next := by
  obtain ⟨hzero, hmemory⟩ := unfinished_of_waitReturns hreturns
  have hlawful : next.Lawful :=
    (lawful_of_run (run_append.mpr ⟨begun, hbegun, hrun⟩)).step hreturns.step
  have hextends : begun.memory.Extends next.memory := hmemory ▸ extends_of_run hrun
  rw [← hmemory] at hzero hlost hsingle
  obtain ⟨hqueued, hheld⟩ := hlawful.idle_of_unfinished hlost hzero
  have hcompleted : ∀ state, Returned next.memory.states state →
      Completed next.memory.states state := fun state =>
    hlawful.completed_of_idle hlost hsingle (Lawful.not_busy hqueued hheld)
  constructor
  · intro task hpushed
    have hplaced := hlawful.coherent.conserved.placed task
    have hcount : 0 < next.memory.pushed.count task :=
      List.count_pos_iff.mpr (hextends.pushed task hpushed)
    rw [config_memory, weight_queued, weight_held, hqueued, hheld, List.count_nil, zero_add,
      zero_add] at hplaced
    exact List.count_pos_iff.mp (hplaced ▸ hcount)
  · exact fun state hreturned => hcompleted state (hreturned.persists hextends)
  · intro state stage upstream fn hstage hreturned horigin
    obtain ⟨after, hafter, hpersists⟩ := hextends.states state stage hstage
    have hhanded : Returned next.memory.states state :=
      ⟨after, hafter, hpersists.returned hreturned⟩
    have hinvoked := hlawful.invoked_add_ignored hlost hafter
      (hlawful.drives_of_completed (hcompleted state hhanded)) (hpersists.origin.trans horigin)
    rw [hlawful.not_ignored_of_single hafter fun upstream _ _ => hsingle upstream,
      add_zero] at hinvoked
    exact ⟨hinvoked, hlawful.not_runsFor hheld hhanded⟩

/-- A caller posts and attaches by `then`, both calls return, and it waits; the
worker runs the task and then the continuation. -/
def attachedEvents : List (Event ℕ ℕ ℕ) :=
  [⟨1, .call (.post 7)⟩] ++ turns 1 3 ++ [⟨1, .notifyOne 0⟩] ++
    [⟨1, .call (.attach 0 8 false)⟩] ++ turns 1 3

def waitingEvents : List (Event ℕ ℕ ℕ) :=
  [⟨1, .call .wait⟩] ++ turns 1 2 ++ turns 0 2 ++ [⟨0, .finish (.ok (some 5))⟩] ++ turns 0 4 ++
    [⟨0, .notifyOne 0⟩] ++ turns 0 6 ++ [⟨0, .finish (.ok (some 6))⟩] ++ turns 0 4

def attachedPool : Pool ℕ ℕ ℕ where
  memory :=
    { (start 1 1 : Pool ℕ ℕ ℕ).memory with
      queues := [[⟨0, .promised 0 7⟩]]
      roundIndex := 1
      unfinished := 1
      states := [⟨⟨none, true, some (.submit ⟨0, 1, 8⟩), false, true⟩, .posted 7, true⟩,
        ⟨.fresh, .attached 0 8, true⟩]
      issued := 1
      pushed := [0] }
  threads := [.worker 0 .loop, .caller .idle]

/-- The memory when the worker is done. -/
def doneMemory : Memory ℕ ℕ ℕ :=
  { (start 1 1 : Pool ℕ ℕ ℕ).memory with
    roundIndex := 2
    states := [⟨⟨some (.ok (some 5)), true, none, true, true⟩, .posted 7, true⟩,
      ⟨⟨some (.ok (some 6)), false, none, true, false⟩, .attached 0 8, true⟩]
    issued := 2
    pushed := [0, 1]
    started := [0, 1]
    finished := [0, 1]
    ran := [⟨0, 7, none⟩, ⟨1, 8, some 5⟩]
    results := [(⟨0, 7, none⟩, .ok (some 5)), (⟨1, 8, some 5⟩, .ok (some 6))]
    invoked := [1] }

def wokenWaiterPool : Pool ℕ ℕ ℕ :=
  ⟨doneMemory, [.worker 0 .loop, .caller ⟨some (.wait .check), []⟩]⟩

def donePool : Pool ℕ ℕ ℕ :=
  ⟨doneMemory, [.worker 0 .loop, .caller .idle]⟩

theorem attachments_doneMemory (upstream : ℕ) : attachments doneMemory.states upstream ≤ 1 := by
  simp only [attachments, doneMemory, total_cons, total_nil, Origin.attaches]
  split <;> decide

theorem doneSince_donePool : attachedPool.DoneSince donePool := by
  have hbegun : run step (start 1 1) attachedEvents = some attachedPool := by decide
  have hrun : run step attachedPool waitingEvents = some wokenWaiterPool := by decide
  have hreturns : wokenWaiterPool.WaitReturns donePool 1 := ⟨by decide, by decide, by decide⟩
  exact doneSince_of_waitReturns hbegun hrun hreturns rfl attachments_doneMemory

end Pool

end RpcDemo.Threadpool
