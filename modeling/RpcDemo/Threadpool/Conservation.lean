import RpcDemo.Threadpool.Refinement

/-!
# Tasks are conserved

A task is on its way to a queue, in a queue, in the hands of a worker, finished,
or lost to a failed push, and the counter follows it from before the push to
after the end.
-/

namespace RpcDemo.Threadpool

open Ledger Transition

variable {Fn Value Error : Type}

namespace Item

/-- A task made and not yet pushed. -/
def unpushed (id : ℕ) : Item Fn Value Error → ℕ
  | .active (.enqueue _ .notify) => 0
  | .active (.enqueue pack _) => if pack.id = id then 1 else 0
  | _ => 0

def queued (id : ℕ) : Item Fn Value Error → ℕ
  | .package pack => if pack.id = id then 1 else 0
  | _ => 0

def held (id : ℕ) : Item Fn Value Error → ℕ
  | .task taken => if taken = id then 1 else 0
  | _ => 0

/-- What the counter counts. -/
def counted : Item Fn Value Error → ℕ
  | .active (.enqueue _ (.push _)) => 1
  | .package _ => 1
  | .task _ => 1
  | _ => 0

end Item

/-- A task that was made is about to be pushed, was pushed or is lost; a pushed one is
queued, held by a worker or finished, and the counter counts those not finished. -/
structure Config.Conserved (config : Config Fn Value Error) : Prop where
  issued : ∀ id, weight (Item.unpushed id) config.bag + config.memory.pushed.count id +
    (config.memory.lost.map Package.id).count id = (List.range config.memory.issued).count id
  placed : ∀ id, weight (Item.queued id) config.bag + weight (Item.held id) config.bag +
    config.memory.finished.count id = config.memory.pushed.count id
  started : ∀ id, weight (Item.held id) config.bag + config.memory.finished.count id =
    config.memory.started.count id
  counted : ((weight Item.counted config.bag + config.memory.lost.length : ℕ) : ℤ) =
    config.memory.unfinished

namespace Config.Conserved

variable {move : Move Fn Value Error} {rest : Bag Fn Value Error}
variable {memory memory' : Memory Fn Value Error} {removed added : List (Item Fn Value Error)}

theorem issued_change (hchange : Change move memory removed added memory')
    (hbefore : Conserved (.beside rest removed memory)) (id : ℕ) :
    weight (Item.unpushed id) (beside rest added memory').bag + memory'.pushed.count id +
      (memory'.lost.map Package.id).count id = (List.range memory'.issued).count id := by
  have hissued := hbefore.issued id
  simp only [weight_add, weight_coe] at hissued ⊢
  cases hchange with
  | push | fail =>
      simp [Item.unpushed, List.count_cons] at hissued ⊢
      omega
  | postDetach | post | submit =>
      simp [Item.unpushed, List.range_succ, List.count_cons] at hissued ⊢
      omega
  | _ =>
      simpa [Item.unpushed] using hissued

theorem placed_change (hchange : Change move memory removed added memory')
    (hbefore : Conserved (.beside rest removed memory)) (id : ℕ) :
    weight (Item.queued id) (beside rest added memory').bag +
        weight (Item.held id) (beside rest added memory').bag + memory'.finished.count id =
      memory'.pushed.count id := by
  have hplaced := hbefore.placed id
  simp only [weight_add, weight_coe] at hplaced ⊢
  cases hchange with
  | push | take | finishTask =>
      simp [Item.queued, Item.held, List.count_cons] at hplaced ⊢
      omega
  | _ =>
      simpa [Item.queued, Item.held] using hplaced

theorem started_change (hchange : Change move memory removed added memory')
    (hbefore : Conserved (.beside rest removed memory)) (id : ℕ) :
    weight (Item.held id) (beside rest added memory').bag + memory'.finished.count id =
      memory'.started.count id := by
  have hstarted := hbefore.started id
  simp only [weight_add, weight_coe] at hstarted ⊢
  cases hchange with
  | take | finishTask =>
      simp [Item.held, List.count_cons] at hstarted ⊢
      omega
  | _ =>
      simpa [Item.held] using hstarted

theorem counted_change (hchange : Change move memory removed added memory')
    (hbefore : Conserved (.beside rest removed memory)) :
    ((weight Item.counted (beside rest added memory').bag + memory'.lost.length : ℕ) : ℤ) =
      memory'.unfinished := by
  have hcounted := hbefore.counted
  simp only [weight_add, weight_coe] at hcounted ⊢
  cases hchange with
  | count | push | fail | take | finishTask =>
      simp [Item.counted] at hcounted ⊢
      omega
  | _ =>
      simpa [Item.counted, Memory.advanceRound, Memory.setCell, Memory.setState,
        Memory.markReturned] using hcounted

theorem change (hchange : Change move memory removed added memory')
    (hbefore : Conserved (.beside rest removed memory)) :
      Conserved (.beside rest added memory') where
  issued := issued_change hchange hbefore
  placed := placed_change hchange hbefore
  started := started_change hchange hbefore
  counted := counted_change hchange hbefore

end Config.Conserved

/-! ## What the laws say of a pool -/

/-- The thread is between the `fetch_add` and the push of a post. -/
def Thread.announces (thread : Thread Fn Value Error) : Bool :=
  match thread.code.active with
  | some (.enqueue _ (.push _)) => true
  | _ => false

namespace Pool

def queued (pool : Pool Fn Value Error) : List ℕ :=
  pool.memory.queues.flatten.map Package.id

def held (pool : Pool Fn Value Error) : List ℕ :=
  pool.threads.filterMap Thread.task

def announced (pool : Pool Fn Value Error) : ℕ :=
  pool.threads.countP Thread.announces

theorem weight_queued (pool : Pool Fn Value Error) (id : ℕ) :
    weight (Item.queued id) pool.config.bag = pool.queued.count id := by
  have hthread : ∀ thread : Thread Fn Value Error,
      weight (Item.queued id) thread.bag = 0 := by
    intro thread
    rw [Thread.weight_bag fun _ => rfl]
    cases thread.task <;> cases thread.code.active <;> simp [Item.queued]
  have hstage : ∀ stage : Stage Fn Value Error, weight (Item.queued id) stage.bag = 0 := by
    intro stage
    rw [Stage.weight_bag]
    cases stage.cell.continuation <;> rfl
  rw [weight_config, total_eq_zero fun thread _ => hthread thread,
    total_eq_zero fun stage _ => hstage stage, zero_add, add_zero, queued, ← total_count,
    total_comp]
  rfl

theorem weight_held (pool : Pool Fn Value Error) (id : ℕ) :
    weight (Item.held id) pool.config.bag = pool.held.count id := by
  have hthread : ∀ thread : Thread Fn Value Error, weight (Item.held id) thread.bag =
      thread.task.elim 0 fun task => if task = id then 1 else 0 := by
    intro thread
    rw [Thread.weight_bag fun _ => rfl]
    cases thread.code.active <;> simp [Item.held]
  have hstage : ∀ stage : Stage Fn Value Error, weight (Item.held id) stage.bag = 0 := by
    intro stage
    rw [Stage.weight_bag]
    cases stage.cell.continuation <;> rfl
  rw [weight_config, total_eq_zero fun stage _ => hstage stage, held, ← total_count,
    total_filterMap]
  simp [hthread, Item.held]

theorem weight_counted (pool : Pool Fn Value Error) :
    weight Item.counted pool.config.bag =
      pool.queued.length + pool.held.length + pool.announced := by
  have hthread : ∀ thread : Thread Fn Value Error, weight Item.counted thread.bag =
      thread.task.elim 0 (fun _ => 1) + if thread.announces then 1 else 0 := by
    intro thread
    rw [Thread.weight_bag fun _ => rfl, Thread.announces]
    have hframes : total (fun frame => Item.counted (.frame frame : Item Fn Value Error))
        thread.code.stack = 0 := total_eq_zero fun _ _ => rfl
    rw [hframes, add_zero]
    congr 1
    cases thread.code.active with
    | none => rfl
    | some active =>
        cases active with
        | enqueue package point => cases point <;> rfl
        | _ => rfl
  have hstage : ∀ stage : Stage Fn Value Error, weight Item.counted stage.bag = 0 := by
    intro stage
    rw [Stage.weight_bag]
    cases stage.cell.continuation <;> rfl
  rw [weight_config, total_eq_zero fun stage _ => hstage stage, add_zero, add_comm, add_assoc]
  congr 1
  · rw [queued, List.length_map]
    exact total_one
  · simp only [hthread, total_add, total_countP]
    congr 1
    rw [held, ← total_one, total_filterMap]

theorem start_conserved (workers callers : ℕ) :
    (start workers callers : Pool Fn Value Error).config.Conserved := by
  rw [start_config]
  constructor <;> intros <;> rfl

/-- Tasks are conserved in every run. -/
theorem conserved_of_run {workers callers : ℕ} {events : List (Event Fn Value Error)}
    {pool : Pool Fn Value Error} (hrun : run step (start workers callers) events = some pool) :
    pool.config.Conserved :=
  changes_invariant (fun _ => True) Config.Conserved (fun _ => Config.Conserved.change)
    (start_conserved workers callers) (fun _ _ => trivial) hrun

/-- The rule for invariants that rest on the conservation of tasks. -/
theorem run_invariant_of_conserved {guard : Pool Fn Value Error → Event Fn Value Error → Prop}
    {invariant : Pool Fn Value Error → Prop} {workers callers : ℕ}
    (hstep : ∀ pool event next, pool.config.Conserved → invariant pool → guard pool event →
      pool.step event = some next → invariant next)
    {pool : Pool Fn Value Error} {events : List (Event Fn Value Error)}
    (hinvariant : invariant (start workers callers))
    (hguarded : Guarded step guard (start workers callers) events)
    (hrun : run step (start workers callers) events = some pool) : invariant pool := by
  have hboth : ∀ (pool : Pool Fn Value Error) (event : Event Fn Value Error)
      (next : Pool Fn Value Error), pool.config.Conserved ∧ invariant pool → guard pool event →
      pool.step event = some next → next.config.Conserved ∧ invariant next := by
    intro pool event next ⟨hconserved, hholds⟩ hguard hnext
    exact ⟨(changes_of_step hnext).invariant Config.Conserved.change hconserved,
      hstep pool event next hconserved hholds hguard hnext⟩
  exact (run_invariant_of_guarded hboth ⟨start_conserved workers callers, hinvariant⟩ hguarded
    hrun).2

theorem unfinished_nonneg {pool : Pool Fn Value Error} (hconserved : pool.config.Conserved) :
    0 ≤ pool.memory.unfinished := by
  have hcounted := hconserved.counted
  rw [config_memory] at hcounted
  omega

/-- Every pushed task is in one place, no task is started twice, and the counter
counts the tasks that are queued or held and the posts between their `fetch_add`
and their push. -/
structure TasksConserved (pool : Pool Fn Value Error) : Prop where
  placed : ∀ id ∈ pool.memory.pushed,
    pool.queued.count id + pool.held.count id + pool.memory.finished.count id = 1
  once : pool.memory.started.Nodup
  counted : pool.memory.unfinished =
    (pool.queued.length + pool.held.length + pool.announced : ℕ)

theorem tasksConserved_of_run {workers callers : ℕ} {events : List (Event Fn Value Error)}
    {pool : Pool Fn Value Error} (hrun : run step (start workers callers) events = some pool)
    (hlost : pool.memory.lost = []) : pool.TasksConserved := by
  obtain ⟨hissued, hplaced, hstarted, hcounted⟩ := conserved_of_run hrun
  simp only [config_memory, weight_queued, weight_held, weight_counted, hlost]
    at hissued hplaced hstarted hcounted
  have hpushed : ∀ id, pool.memory.pushed.count id ≤ 1 := by
    intro id
    have hrange : (List.range pool.memory.issued).count id ≤ 1 :=
      List.nodup_iff_count_le_one.mp List.nodup_range id
    exact le_trans (by have := hissued id; omega) hrange
  constructor
  · intro id hmem
    rw [hplaced id]
    exact le_antisymm (hpushed id) (List.count_pos_iff.mpr hmem)
  · refine List.nodup_iff_count_le_one.mpr fun id => le_trans ?_ (hpushed id)
    rw [← hstarted id, ← hplaced id]
    omega
  · rw [← hcounted]
    rfl

/-- A caller posts twice; worker 1 steals the first task and runs it while the
second is in the queue. -/
def stolenEvents : List (Event ℕ ℕ ℕ) :=
  [⟨2, .call (.postDetach 7)⟩] ++ turns 2 3 ++ [⟨2, .notifyOne 0⟩] ++ turns 1 4 ++
    [⟨2, .call (.postDetach 8)⟩] ++ turns 2 3 ++ [⟨1, .finish (.ok none)⟩]

def stolenPool : Pool ℕ ℕ ℕ where
  memory :=
    { (start 2 1 : Pool ℕ ℕ ℕ).memory with
      queues := [[⟨1, .detached 8⟩], []]
      roundIndex := 3
      unfinished := 2
      issued := 2
      pushed := [0, 1]
      started := [0] }
  threads := [.worker 0 .loop, .worker 1 (.running 0 .idle),
    .caller ⟨some (.enqueue ⟨1, .detached 8⟩ .notify), []⟩]

theorem tasksConserved_stolenPool : stolenPool.TasksConserved := by
  have hrun : run step (start 2 1) stolenEvents = some stolenPool := by decide
  exact tasksConserved_of_run hrun rfl

end Pool

end RpcDemo.Threadpool
