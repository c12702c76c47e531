import RpcDemo.Threadpool.Discipline
import RpcDemo.Threadpool.Workload

/-!
# The search for a task

A worker without a task goes round its loop: its own queue, a queue picked by the
round counter, the wait.  Every pick moves the counter on by one, whoever makes it,
so while tasks are queued the counter comes to a queue with a task.
-/

namespace RpcDemo.Threadpool

open Ledger Transition

variable {Fn Value Error : Type}

/-! ## The steps of a search -/

/-- The queue a worker steals from. -/
def Memory.stealVictim (memory : Memory Fn Value Error) (id : ℕ) : ℕ :=
  if memory.victim = id then (id + 1) % memory.queues.length else memory.victim

namespace Thread

/-- A step of a worker that looks for a task, in a pool that is not shut down. -/
inductive Searched (memory : Memory Fn Value Error) (id : ℕ) :
    WorkerPoint Fn Value Error → WorkerPoint Fn Value Error → Memory Fn Value Error → Prop
  | loop : Searched memory id .loop .own memory
  | own (hqueue : memory.queues[id]? = some []) :
      Searched memory id .own (if 1 < memory.queues.length then .pick else .wait .check) memory
  | pick : Searched memory id .pick (.steal (memory.stealVictim id)) memory.advanceRound
  | steal (victim : ℕ) (hqueue : memory.queues[victim]? = some []) :
      Searched memory id (.steal victim) (.wait .check) memory
  | resume (hlock : memory.lockTh = false) (hready : 0 < memory.unfinished) :
      Searched memory id (.wait .check) .loop memory
  | check (hlock : memory.lockTh = false) (hidle : memory.unfinished ≤ 0) :
      Searched memory id (.wait .check) (.wait .checked) { memory with lockTh := true }
  | block : Searched memory id (.wait .checked) (.wait .blocked) { memory with lockTh := false }

variable {memory memory' : Memory Fn Value Error} {id : ℕ}
variable {point point' : WorkerPoint Fn Value Error} {progress : Progress Fn Value Error}

theorem searched_of_act {move : Move Fn Value Error}
    (hact : (worker id point).act memory move = some progress)
    (hsearches : (worker id point).searches memory.queues = true)
    (hopen : memory.shutdown = false) :
    ∃ point' memory', Searched memory id point point' memory' ∧
      progress = ⟨.worker id point', memory', .quiet⟩ := by
  cases acted_of_act hact with
  | task | terminate | finishTask | notify => simp [searches] at hsearches
  | popFront _ package queue hqueue => simp [searches, hqueue] at hsearches
  | popBack _ victim package queue hqueue => simp [searches, hqueue] at hsearches
  | exit _ hshutdown => simp [hopen] at hshutdown
  | loop => exact ⟨_, _, .loop, rfl⟩
  | ownEmpty _ hqueue => exact ⟨_, _, .own hqueue, rfl⟩
  | pick _ victim => exact ⟨_, _, .pick, (Option.some.inj hact).symm⟩
  | stealEmpty _ victim hqueue => exact ⟨_, _, .steal victim hqueue, rfl⟩
  | resume _ hlock hready =>
      simp only [hopen, Bool.false_eq_true, false_or] at hready
      exact ⟨_, _, .resume hlock hready, rfl⟩
  | check _ hlock _ hidle => exact ⟨_, _, .check hlock hidle, rfl⟩
  | block => exact ⟨_, _, .block, rfl⟩

/-- A search changes the round counter and the mutex, and stays a search or finds a
task. -/
structure Searched.Keeps (memory memory' : Memory Fn Value Error) : Prop where
  queues : memory'.queues = memory.queues
  states : memory'.states = memory.states
  lockWait : memory'.lockWait = memory.lockWait

theorem Searched.keeps (hsearched : Searched memory id point point' memory') :
    Searched.Keeps memory memory' := by
  cases hsearched <;> exact ⟨rfl, rfl, rfl⟩

theorem Searched.load (hsearched : Searched memory id point point' memory') (threads : ℕ) :
    (worker id point' : Thread Fn Value Error).load threads = 0 ∧
      (worker id point : Thread Fn Value Error).load threads = 0 := by
  cases hsearched with
  | own hqueue =>
      split <;> exact ⟨rfl, rfl⟩
  | _ => exact ⟨rfl, rfl⟩

end Thread

namespace Pool

variable {pool next : Pool Fn Value Error} {event : Threadpool.Event Fn Value Error}
variable {id : ℕ} {point : WorkerPoint Fn Value Error}

theorem searched_of_step (hstep : pool.step event = some next)
    (hfound : pool.threads[event.thread]? = some (.worker id point))
    (hsearches : (Thread.worker id point).searches pool.memory.queues = true)
    (hopen : pool.memory.shutdown = false) :
    ∃ point', Thread.Searched pool.memory id point point' next.memory ∧
      next.threads = pool.threads.set event.thread (.worker id point') := by
  obtain ⟨thread, progress, hstepped, hact⟩ := act_of_step hstep
  obtain rfl := Option.some.inj (hstepped.found.symm.trans hfound)
  obtain ⟨point', memory', hsearched, rfl⟩ := Thread.searched_of_act hact hsearches hopen
  have hthreads := Option.some.inj hstepped.threads
  rw [hstepped.memory]
  exact ⟨point', hsearched, hthreads.symm⟩

end Pool

/-! ## How long it takes -/

namespace Memory

variable {memory : Memory Fn Value Error}

/-- The first queue with a task. -/
def target (memory : Memory Fn Value Error) : ℕ :=
  memory.queues.findIdx fun queue => !queue.isEmpty

/-- The picks until the round counter is at that queue. -/
def distance (memory : Memory Fn Value Error) : ℕ :=
  if memory.roundIndex ≤ memory.target then memory.target - memory.roundIndex
  else memory.target + 2 ^ 64 - memory.roundIndex

/-- Some queue has a task. -/
def HasTask (memory : Memory Fn Value Error) : Prop :=
  ∃ queue ∈ memory.queues, queue ≠ []

theorem HasTask.target (htask : memory.HasTask) :
    memory.target < memory.queues.length ∧
      (memory.queues[memory.target]?.all List.isEmpty) = false := by
  obtain ⟨queue, hmem, hqueue⟩ := htask
  have hlt : memory.target < memory.queues.length :=
    List.findIdx_lt_length_of_exists ⟨queue, hmem, by simpa using hqueue⟩
  refine ⟨hlt, ?_⟩
  have hfound := List.findIdx_getElem (w := hlt)
  rw [List.getElem?_eq_getElem hlt, Option.all_some]
  exact (Bool.not_eq_true' _).mp hfound

theorem distance_lt (hround : memory.roundIndex < 2 ^ 64) (htarget : memory.target < 2 ^ 64) :
    memory.distance < 2 ^ 64 := by
  simp only [distance]
  split <;> omega

/-- A pick before the target comes nearer to it. -/
theorem distance_advanceRound (hround : memory.roundIndex < 2 ^ 64)
    (htarget : memory.target < 2 ^ 64) (hne : memory.roundIndex ≠ memory.target) :
    memory.advanceRound.distance + 1 = memory.distance := by
  have hsame : memory.advanceRound.target = memory.target := rfl
  have hnext : memory.advanceRound.roundIndex = (memory.roundIndex + 1) % 2 ^ 64 := rfl
  simp only [distance, hsame, hnext]
  split <;> split <;> omega

end Memory

/-- The steps of a worker until its next pick, and until it looks into its own queue when
that has a task; the pick it makes before is the one that may miss the target. -/
def WorkerPoint.away (queued : Bool) : WorkerPoint Fn Value Error → ℕ
  | .loop => if queued then 1 else 2
  | .own => if queued then 0 else 1
  | .pick => if queued then 5 * 2 ^ 64 else 0
  | .steal _ => if queued then 3 else 4
  | .wait .check => if queued then 2 else 3
  | .wait .checked => 1
  | _ => 0

def Thread.away (queues : List (List (Package Fn))) : Thread Fn Value Error → ℕ
  | .caller _ => 0
  | .worker id point => point.away (!queues[id]?.all List.isEmpty)

def Pool.search (pool : Pool Fn Value Error) : ℕ :=
  total (Thread.away pool.memory.queues) pool.threads + 5 * pool.memory.distance

namespace Thread

variable {memory memory' : Memory Fn Value Error} {id : ℕ}
variable {point point' : WorkerPoint Fn Value Error}

/-- A step of a search finds a queue with a task, or is one step of the way. -/
theorem Searched.nears (hsearched : Searched memory id point point' memory')
    (htask : memory.HasTask) (hid : id < memory.queues.length)
    (hlength : memory.queues.length ≤ 2 ^ 64) (hround : memory.roundIndex < 2 ^ 64)
    (hbusy : 0 < memory.unfinished) :
    (worker id point' : Thread Fn Value Error).searches memory'.queues = false ∨
      (worker id point').away memory.queues + 5 * memory'.distance <
        (worker id point).away memory.queues + 5 * memory.distance := by
  obtain ⟨htarget, hqueued⟩ := htask.target
  cases hsearched with
  | loop =>
      simp only [away, WorkerPoint.away]
      right
      split <;> omega
  | own hqueue =>
      right
      have hlarge : 1 < memory.queues.length := by
        by_contra hone
        have hsame : memory.target = id := by omega
        simp [hsame, hqueue] at hqueued
      simp [away, WorkerPoint.away, hqueue, hlarge]
  | pick =>
      by_cases hqueue : memory.queues[id]?.all List.isEmpty = true
      · by_cases hround' : memory.roundIndex = memory.target
        · -- the counter is at the target, which is not the worker's own queue
          have hvictim : memory.victim = memory.target := by
            rw [Memory.victim, hround', Nat.mod_eq_of_lt htarget]
          have hne : memory.target ≠ id := by
            rintro rfl
            simp [hqueue] at hqueued
          left
          rw [Memory.stealVictim, hvictim, if_neg hne]
          exact hqueued
        · right
          have hnearer := Memory.distance_advanceRound hround (by omega) hround'
          simp only [away, WorkerPoint.away, hqueue, Bool.not_true, Bool.false_eq_true, if_false]
          omega
      · right
        have hfar : memory.advanceRound.distance < 2 ^ 64 :=
          Memory.distance_lt (Nat.mod_lt _ (Nat.two_pow_pos 64))
            (htarget.trans_le hlength)
        simp only [away, WorkerPoint.away, hqueue, Bool.not_false, if_true]
        omega
  | steal victim hqueue =>
      simp only [away, WorkerPoint.away]
      right
      split <;> omega
  | resume hlock hready =>
      simp only [away, WorkerPoint.away]
      right
      split <;> omega
  | check hlock hidle => omega
  | block =>
      right
      have hsame : Memory.distance { memory with lockTh := false } = memory.distance := rfl
      simp only [away, WorkerPoint.away, hsame]
      omega

end Thread

end RpcDemo.Threadpool
