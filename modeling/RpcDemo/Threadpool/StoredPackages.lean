import RpcDemo.Threadpool.CallableOwnership
import RpcDemo.Threadpool.Futures

/-!
# Where the pool keeps its callables

A package is a wrapper around one callable.  `post` fills a package of its own,
moves it into a queue and destroys what is left of it; a worker moves it out of the
queue, removes the queue's element, calls it and destroys it.  A run of the pool is
thus a program over wrappers, and the pool's numbered tasks are their contents.
-/

namespace RpcDemo.MFunction

/-- When no variable is left, everything has ended once. -/
theorem Memory.Sound.ended {Var : Type*} {memory : Memory Var} (hsound : memory.Sound)
    (hgone : ∀ var, memory.contents var = none) :
    (∀ id < memory.nextObject, memory.destroyed.count id = 1) ∧
      ∀ block < memory.nextBlock, memory.freed.count block = 1 := by
  constructor
  · intro id hid
    refine hsound.objects.count_ended (fun var => ?_) hid
    exact Option.map_eq_none_iff.mpr (owned_eq_none (.inl (hgone var)))
  · intro block hblock
    refine hsound.blocks.count_ended (fun var => ?_) hblock
    have hpack := contents_eq_none_iff.mp (hgone var)
    exact ownedBlock_of_vacant (by simp [hpack])

end RpcDemo.MFunction

namespace RpcDemo.Threadpool

open Ledger Transition
open MFunction (CallableType Contents expectedAll)

variable {Fn Value Error : Type}

/-- The wrappers of a run: the local `pack` of the post a thread is in and the
temporary of its `make_detach`, the elements of the queues, and a worker's `task`. -/
inductive Slot
  | pack (thread : ℕ)
  | temporary (thread : ℕ)
  | element (id : ℕ)
  | task (thread : ℕ)
  deriving DecidableEq

/-- The lambda of `make_detach` for a task, whose type depends on the posted function
and its arguments. -/
def wrapped (typeOf : ℕ → CallableType) (id : ℕ) : MFunction.Callable := ⟨typeOf id, id⟩

/-! ## The operations of a step -/

section Operations

variable (typeOf : ℕ → CallableType) (thread : ℕ)

/-- A package and its `make_detach`. -/
def makeDetach (id : ℕ) : List (MFunction.Op Slot) :=
  [.construct (.pack thread),
    .constructFrom (.temporary thread) (wrapped typeOf id) ⟨false, none⟩,
    .moveAssign (.pack thread) (.temporary thread) none,
    .destruct (.temporary thread)]

/-- `push_front` that throws: the queue has no room, and then nothing has been moved, or
the move of a callable in place has thrown; that of a callable on the heap does not. -/
def failedPush (id : ℕ) : Thrown Error → List (MFunction.Op Slot)
  | .badAlloc => []
  | _ =>
      if MFunction.requireOnHeap (typeOf id) then []
      else [.moveConstruct (.element id) (.pack thread) (some .other)]

/-- `package task = std::move(..)`, the pop, and `task()`. -/
def takeTask (id : ℕ) : List (MFunction.Op Slot) :=
  [.moveConstruct (.task thread) (.element id) none, .destruct (.element id),
    .invoke (.task thread)]

/-- A post that begins, by the code it leaves. -/
def Code.begun (code : Code Fn Value Error) : List (MFunction.Op Slot) :=
  match code.active with
  | some (.enqueue package .pick) => makeDetach typeOf thread package.id
  | _ => []

/-- What a step of a call does with the package of a post. -/
def Code.operations (move : Move Fn Value Error) (code after : Code Fn Value Error) :
    List (MFunction.Op Slot) :=
  match code.active, move with
  | some (.enqueue package (.push _)), .turn =>
      [.moveConstruct (.element package.id) (.pack thread) none]
  | some (.enqueue package (.push _)), .fail error =>
      failedPush typeOf thread package.id error ++ [.destruct (.pack thread)]
  | some (.enqueue _ .notify), .notifyOne _ => [.destruct (.pack thread)]
  | _, _ => after.begun typeOf thread

def Thread.operations (move : Move Fn Value Error) :
    Thread Fn Value Error → Thread Fn Value Error → List (MFunction.Op Slot)
  | .caller code, .caller after => code.operations typeOf thread move after
  | .worker _ (.running _ code), .worker _ (.running _ after) =>
      code.operations typeOf thread move after
  | .worker _ _, .worker _ (.running task after) =>
      takeTask thread task ++ after.begun typeOf thread
  | .worker _ .notify, _ => [.destruct (.task thread)]
  | _, _ => []

end Operations

namespace Pool

def operations (typeOf : ℕ → CallableType) (pool : Pool Fn Value Error)
    (event : Event Fn Value Error) : List (MFunction.Op Slot) :=
  (pool.threads[event.thread]?.bind fun thread =>
    (thread.act pool.memory event.move).map fun progress =>
      thread.operations typeOf event.thread event.move progress.thread).getD []

/-- The operations on wrappers of a run. -/
def program (typeOf : ℕ → CallableType) :
    Pool Fn Value Error → List (Event Fn Value Error) → List (MFunction.Op Slot)
  | _, [] => []
  | pool, event :: events =>
      pool.operations typeOf event ++
        (pool.step event).elim [] fun next => program typeOf next events

end Pool

/-- The callables that ran. -/
def invoked (results : List (Except Exn (Option MFunction.Callable))) :
    List MFunction.Callable :=
  results.filterMap fun result => result.toOption.join

/-- No call was that of an empty wrapper. -/
def NoneEmpty (results : List (Except Exn (Option MFunction.Callable))) : Prop :=
  .error (.stdException "Invaild function.") ∉ results

/-! ## What the wrappers hold -/

/-- The `pack` of a thread: not in scope, moved from, or with a task. -/
def Code.packed (code : Code Fn Value Error) : Option (Option ℕ) :=
  match code.active with
  | some (.enqueue _ .notify) => some none
  | some (.enqueue package _) => some (some package.id)
  | _ => none

def Thread.packed (thread : Thread Fn Value Error) : Option (Option ℕ) :=
  thread.code.packed

/-- The `task` of a worker, which stays in scope until the worker has notified. -/
def Thread.tasked : Thread Fn Value Error → Option (Option ℕ)
  | .worker _ (.running task _) => some (some task)
  | .worker _ .notify => some none
  | _ => none

def PackHolds (typeOf : ℕ → CallableType) (pack : Option (Option ℕ))
    (content : Option (Option MFunction.Callable)) : Prop :=
  content = pack.map (Option.map (wrapped typeOf))

def TaskHolds (typeOf : ℕ → CallableType) :
    Option (Option ℕ) → Option (Option MFunction.Callable) → Prop
  | none, content => content = none
  | some (some task), content => content = some (some (wrapped typeOf task))
  | some none, content => ∃ task, content = some (some (wrapped typeOf task))

/-- Every wrapper holds what the state of the pool says. -/
structure Pool.Stored (typeOf : ℕ → CallableType) (pool : Pool Fn Value Error)
    (table : Contents Slot) : Prop where
  pack : ∀ thread, PackHolds typeOf (pool.threads[thread]?.bind Thread.packed)
    (table (.pack thread))
  temporary : ∀ thread, table (.temporary thread) = none
  element : ∀ id, table (.element id) =
    if id ∈ pool.queued then some (some (wrapped typeOf id)) else none
  task : ∀ thread, TaskHolds typeOf (pool.threads[thread]?.bind Thread.tasked)
    (table (.task thread))

/-! ## What the groups of operations do -/

section Groups

variable {typeOf : ℕ → CallableType} {table middle final : Contents Slot} {thread id : ℕ}
  {ops others : List (MFunction.Op Slot)} {held : Option MFunction.Callable}
  {callable : MFunction.Callable} {slot : Slot}
  {results rest : List (Except Exn (Option MFunction.Callable))}

theorem expectedAll_append (hops : expectedAll ops table = some (results, middle))
    (hothers : expectedAll others middle = some (rest, final)) :
    expectedAll (ops ++ others) table = some (results ++ rest, final) := by
  induction ops generalizing table results with
  | nil =>
      cases hops
      exact hothers
  | cons op ops ih =>
      obtain ⟨⟨result, next⟩, hop, hrest⟩ := Option.bind_eq_some_iff.mp hops
      obtain ⟨⟨results, last⟩, hresults, heq⟩ := Option.map_eq_some_iff.mp hrest
      cases heq
      simp [expectedAll, hop, ih hresults]

@[simp]
theorem invoked_append : invoked (results ++ rest) = invoked results ++ invoked rest :=
  List.filterMap_append

theorem NoneEmpty.append (hresults : NoneEmpty results) (hrest : NoneEmpty rest) :
    NoneEmpty (results ++ rest) := by
  intro hmem
  rcases List.mem_append.mp hmem with hmem | hmem
  · exact hresults hmem
  · exact hrest hmem

/-- The temporary of `make_detach` comes and goes. -/
theorem update_temporary (htemporary : table (.temporary thread) = none)
    (created : Option (Option MFunction.Callable)) :
    Function.update (Function.update (Function.update (Function.update table
      (.pack thread) (some none)) (.temporary thread) created) (.pack thread)
      (some (some callable))) (.temporary thread) none =
        Function.update table (.pack thread) (some (some callable)) := by
  have hne : Slot.pack thread ≠ .temporary thread := by simp
  calc
    _ = Function.update (Function.update (Function.update (Function.update table
          (.pack thread) (some none)) (.temporary thread) created) (.temporary thread) none)
          (.pack thread) (some (some callable)) := Function.update_comm hne _ _ _
    _ = Function.update (Function.update (Function.update table (.temporary thread) none)
          (.pack thread) (some none)) (.pack thread) (some (some callable)) := by
        rw [Function.update_idem, Function.update_comm hne]
    _ = _ := by
        rw [Function.update_idem, ← htemporary, Function.update_eq_self]

theorem expectedAll_makeDetach (hpack : table (.pack thread) = none)
    (htemporary : table (.temporary thread) = none) :
    expectedAll (makeDetach typeOf thread id) table =
      some (List.replicate 4 (.ok none),
        Function.update table (.pack thread) (some (some (wrapped typeOf id)))) := by
  rw [← update_temporary htemporary (some (some (wrapped typeOf id)))]
  simp [makeDetach, expectedAll, MFunction.expected, hpack, htemporary,
    MFunction.constructionFault, MFunction.moveFault]

theorem expectedAll_push (hpack : table (.pack thread) = some (some callable))
    (helement : table (.element id) = none) :
    expectedAll [.moveConstruct (.element id) (.pack thread) none] table =
      some ([.ok none], Function.update
        (Function.update table (.element id) (some (some callable)))
        (.pack thread) (some none)) := by
  simp [expectedAll, MFunction.expected, hpack, helement, MFunction.moveFault]

theorem expectedAll_failedPush (hpack : table (.pack thread) = some (some (wrapped typeOf id)))
    (helement : table (.element id) = none) (error : Thrown Error) :
    ∃ results, expectedAll (failedPush typeOf thread id error) table = some (results, table) ∧
      invoked results = [] ∧ NoneEmpty results := by
  have hmove : ∃ results, expectedAll (if MFunction.requireOnHeap (typeOf id) then []
      else [.moveConstruct (.element id) (.pack thread) (some .other)]) table =
        some (results, table) ∧ invoked results = [] ∧ NoneEmpty results := by
    split
    case isTrue => exact ⟨[], rfl, rfl, by simp [NoneEmpty]⟩
    case isFalse hstack =>
      refine ⟨[.error .other], ?_, rfl, by simp [NoneEmpty]⟩
      simp [expectedAll, MFunction.expected, hpack, helement, MFunction.moveFault, wrapped, hstack]
  cases error with
  | badAlloc => exact ⟨[], rfl, rfl, by simp [NoneEmpty]⟩
  | _ => exact hmove

theorem expectedAll_destruct (hslot : table slot = some held) :
    expectedAll [.destruct slot] table =
      some ([.ok none], Function.update table slot none) := by
  simp [expectedAll, MFunction.expected, hslot]

theorem expectedAll_takeTask (htask : table (.task thread) = none)
    (helement : table (.element id) = some (some callable)) :
    expectedAll (takeTask thread id) table =
      some ([.ok none, .ok none, .ok (some callable)], Function.update
        (Function.update table (.task thread) (some (some callable)))
        (.element id) none) := by
  simp [takeTask, expectedAll, MFunction.expected, htask, helement, MFunction.moveFault]

end Groups

/-! ## A step of a call -/

/-- The wrappers of a thread's posts and of the queues, in which are the tasks pushed and
not started. -/
structure Memory.Stores (typeOf : ℕ → CallableType) (memory : Memory Fn Value Error)
    (thread : ℕ) (pack : Option (Option ℕ)) (table : Contents Slot) : Prop where
  pack : PackHolds typeOf pack (table (.pack thread))
  temporary : table (.temporary thread) = none
  element : ∀ id, table (.element id) =
    if id ∈ memory.pushed ∧ id ∉ memory.started then some (some (wrapped typeOf id)) else none

variable {typeOf : ℕ → CallableType} {table : Contents Slot} {index : ℕ}
variable {memory memory' : Memory Fn Value Error} {pack pack' : Option (Option ℕ)}

theorem Memory.Stores.update_pack (hstores : memory.Stores typeOf index pack table) :
    memory.Stores typeOf index pack' (Function.update table (.pack index)
      (pack'.map (Option.map (wrapped typeOf)))) where
  pack := Function.update_self _ _ _
  temporary := by
    rw [Function.update_of_ne (by simp), hstores.temporary]
  element := by
    intro id
    rw [Function.update_of_ne (by simp), hstores.element]

theorem Memory.Stores.update_task (hstores : memory.Stores typeOf index pack table)
    (content : Option (Option MFunction.Callable)) :
    memory.Stores typeOf index pack (Function.update table (.task index) content) where
  pack := by
    rw [Function.update_of_ne (by simp)]
    exact hstores.pack
  temporary := by
    rw [Function.update_of_ne (by simp), hstores.temporary]
  element := by
    intro id
    rw [Function.update_of_ne (by simp), hstores.element]

theorem Memory.Stores.of_history (hstores : memory.Stores typeOf index pack table)
    (hpushed : memory'.pushed = memory.pushed) (hstarted : memory'.started = memory.started) :
    memory'.Stores typeOf index pack table where
  pack := hstores.pack
  temporary := hstores.temporary
  element := by
    rw [hpushed, hstarted]
    exact hstores.element

namespace Code

variable {code after : Code Fn Value Error} {move : Move Fn Value Error}
variable {effect : Effect Fn Value Error}

/-- No post is on its way, or one begins. -/
def Fresh (code : Code Fn Value Error) : Prop :=
  match code.active with
  | some (.enqueue _ .pick) => True
  | some (.enqueue _ _) => False
  | _ => True

theorem fresh_invoke (stack : List (Suspended Fn Value)) (callable : Callable Fn) :
    (invoke memory stack callable).1.Fresh := by
  cases callable <;> trivial

theorem fresh_invokeExtracted (stack : List (Suspended Fn Value))
    (callable : Option (Callable Fn)) :
    ((invokeExtracted memory stack callable).code.getD .idle).Fresh := by
  cases callable with
  | none => trivial
  | some callable => exact fresh_invoke stack callable

theorem fresh_raise (error : Thrown Error) (stack : List (Suspended Fn Value)) :
    ((raise error stack).getD .idle).Fresh := by
  induction stack with
  | nil => trivial
  | cons frame stack ih =>
      cases frame with
      | attached cont => exact ih
      | _ => trivial

theorem expectedAll_begun (hfresh : after.Fresh)
    (hstores : memory.Stores typeOf index none table) :
    ∃ results, expectedAll (after.begun typeOf index) table =
        some (results, Function.update table (.pack index)
          (after.packed.map (Option.map (wrapped typeOf)))) ∧
      invoked results = [] ∧ NoneEmpty results := by
  have hpack : table (.pack index) = none := hstores.pack
  have hnothing : expectedAll [] table =
      some ([], Function.update table (.pack index) none) := by
    rw [← hpack, Function.update_eq_self]
    rfl
  obtain ⟨active, stack⟩ := after
  cases active with
  | none => exact ⟨[], hnothing, rfl, by simp [NoneEmpty]⟩
  | some active =>
      cases active with
      | enqueue package point =>
          cases point with
          | pick =>
              exact ⟨_, expectedAll_makeDetach hpack hstores.temporary, rfl,
                by simp [NoneEmpty]⟩
          | count | push | notify => exact absurd hfresh id
      | _ => exact ⟨[], hnothing, rfl, by simp [NoneEmpty]⟩

/-- What the operations of a step of a call lead to. -/
structure Performs (typeOf : ℕ → CallableType) (index : ℕ) (memory : Memory Fn Value Error)
    (pack : Option (Option ℕ)) (ops : List (MFunction.Op Slot)) (table : Contents Slot) :
    Prop where
  performs : ∃ results after, expectedAll ops table = some (results, after) ∧
    invoked results = [] ∧ NoneEmpty results ∧ memory.Stores typeOf index pack after ∧
    ∀ slot, slot ≠ .pack index → (∀ id, slot ≠ .element id) → after slot = table slot

theorem performs_begun (hfresh : after.Fresh) (hstores : memory.Stores typeOf index none table) :
    Performs typeOf index memory after.packed (after.begun typeOf index) table := by
  obtain ⟨results, hresults, hinvoked, hempty⟩ := expectedAll_begun hfresh hstores
  exact ⟨results, _, hresults, hinvoked, hempty, hstores.update_pack,
    fun slot hpack _ => Function.update_of_ne hpack _ _⟩

/-- A step that concerns no post but one it begins. -/
theorem performs_of_fresh (hpacked : code.packed = none) (hfresh : after.Fresh)
    (hstores : memory.Stores typeOf index code.packed table)
    (hpushed : memory'.pushed = memory.pushed) (hstarted : memory'.started = memory.started) :
    Performs typeOf index memory' after.packed
      (code.operations typeOf index move after) table := by
  have hops : code.operations typeOf index move after = after.begun typeOf index := by
    obtain ⟨active, stack⟩ := code
    cases active with
    | none => rfl
    | some active =>
        cases active with
        | enqueue package point => cases point <;> simp [packed] at hpacked
        | _ => rfl
  rw [hops]
  rw [hpacked] at hstores
  exact performs_begun hfresh (hstores.of_history hpushed hstarted)

theorem performs_push {package : Package Fn} (hnew : package.id ∉ memory.pushed)
    (hsub : ∀ id ∈ memory.started, id ∈ memory.pushed)
    (hstores : memory.Stores typeOf index (some (some package.id)) table)
    (hpushed : memory'.pushed = memory.pushed ++ [package.id])
    (hstarted : memory'.started = memory.started) :
    Performs typeOf index memory' (some none)
      [.moveConstruct (.element package.id) (.pack index) none] table := by
  have helement : table (.element package.id) = none := by
    rw [hstores.element, if_neg fun hqueued => hnew hqueued.1]
  refine ⟨_, _, expectedAll_push hstores.pack helement, rfl, by simp [NoneEmpty],
    ⟨?_, ?_, ?_⟩, ?_⟩
  · exact Function.update_self _ _ _
  · simp [hstores.temporary]
  · intro id
    rw [Function.update_of_ne (by simp), hpushed, hstarted]
    by_cases hid : id = package.id
    · subst hid
      rw [Function.update_self, if_pos]
      exact ⟨by simp, fun hmem => hnew (hsub _ hmem)⟩
    · rw [Function.update_of_ne (by simpa using hid), hstores.element]
      simp [hid]
  · intro slot hpack hslot
    rw [Function.update_of_ne hpack, Function.update_of_ne (hslot _)]

theorem performs_destruct {held : Option ℕ}
    (hstores : memory.Stores typeOf index (some held) table)
    (hpushed : memory'.pushed = memory.pushed) (hstarted : memory'.started = memory.started) :
    Performs typeOf index memory' none [.destruct (.pack index)] table :=
  ⟨_, _, expectedAll_destruct hstores.pack, rfl, by simp [NoneEmpty],
    (hstores.of_history hpushed hstarted).update_pack,
    fun _ hpack _ => Function.update_of_ne hpack _ _⟩

theorem performs_failedPush {package : Package Fn} (error : Thrown Error)
    (hnew : package.id ∉ memory.pushed)
    (hstores : memory.Stores typeOf index (some (some package.id)) table)
    (hpushed : memory'.pushed = memory.pushed) (hstarted : memory'.started = memory.started) :
    Performs typeOf index memory' none
      (failedPush typeOf index package.id error ++ [.destruct (.pack index)]) table := by
  have helement : table (.element package.id) = none := by
    rw [hstores.element, if_neg fun hqueued => hnew hqueued.1]
  obtain ⟨failed, hfailed, hnone, hempty⟩ := expectedAll_failedPush hstores.pack helement error
  obtain ⟨results, after, hdestruct, hinvoked, hempty', hafter, hothers⟩ :=
    performs_destruct hstores hpushed hstarted
  exact ⟨failed ++ results, after, expectedAll_append hfailed hdestruct,
    by rw [invoked_append, hnone, hinvoked, List.nil_append], hempty.append hempty', hafter,
    hothers⟩

theorem packed_raise (error : Thrown Error) (stack : List (Suspended Fn Value)) :
    ((raise error stack).getD .idle).packed = none := by
  induction stack with
  | nil => rfl
  | cons frame stack ih =>
      cases frame with
      | attached cont => exact ih
      | _ => rfl

/-- The task a push puts into a queue. -/
def pushes (code : Code Fn Value Error) : Option ℕ :=
  match code.active with
  | some (.enqueue package (.push _)) => some package.id
  | _ => none

theorem performs_of_acted (hacted : Acted memory code move effect)
    (hstores : memory.Stores typeOf index code.packed table)
    (hnew : ∀ id ∈ code.pushes, id ∉ memory.pushed)
    (hsub : ∀ id ∈ memory.started, id ∈ memory.pushed) :
    Performs typeOf index effect.memory (effect.code.getD .idle).packed
      (code.operations typeOf index move (effect.code.getD .idle)) table := by
  cases hacted with
  | pick | count =>
      exact ⟨[], table, rfl, rfl, by simp [NoneEmpty], hstores.of_history rfl rfl,
        fun _ _ _ => rfl⟩
  | push package => exact performs_push (hnew _ rfl) hsub hstores rfl rfl
  | fail package stack victim error =>
      rw [show (Effect.throws { memory with lost := memory.lost ++ [package] } stack
        error).code = raise error stack from rfl, packed_raise]
      exact performs_failedPush error (hnew _ rfl) hstores rfl rfl
  | notify => exact performs_destruct hstores (by simp) (by simp)
  | execute cont inlineExec stack =>
      obtain ⟨hpushed, hstarted⟩ := history_invokeExtracted (.attached cont :: stack)
        (some (attachment cont inlineExec))
      exact performs_of_fresh rfl (fresh_invokeExtracted _ _) hstores hpushed hstarted
  | complete | recover =>
      obtain ⟨hpushed, hstarted⟩ := history_invokeExtracted _ _
      exact performs_of_fresh rfl (fresh_invokeExtracted _ _) hstores hpushed hstarted
  | refuse state completion =>
      cases completion with
      | ok value => exact performs_of_fresh rfl trivial hstores rfl rfl
      | error error => exact performs_of_fresh rfl (fresh_raise _ _) hstores rfl rfl
  | escape | throwDetached => exact performs_of_fresh rfl (fresh_raise _ _) hstores rfl rfl
  | _ => exact performs_of_fresh rfl trivial hstores rfl rfl

end Code

/-! ## A step of a thread -/

namespace Thread

variable {thread : Thread Fn Value Error} {move : Move Fn Value Error}
variable {progress : Progress Fn Value Error}

/-- What the operations of a step of a thread lead to; the callables that ran are those of
the tasks started. -/
structure Performs (typeOf : ℕ → CallableType) (index : ℕ) (memory : Memory Fn Value Error)
    (progress : Progress Fn Value Error) (ops : List (MFunction.Op Slot))
    (table : Contents Slot) : Prop where
  performs : ∃ results after, expectedAll ops table = some (results, after) ∧
    progress.memory.started.map (wrapped typeOf) =
      memory.started.map (wrapped typeOf) ++ invoked results ∧
    NoneEmpty results ∧
    progress.memory.Stores typeOf index progress.thread.code.packed after ∧
    TaskHolds typeOf progress.thread.tasked (after (.task index)) ∧
    ∀ slot, slot ≠ .pack index → slot ≠ .task index → (∀ id, slot ≠ .element id) →
      after slot = table slot

theorem performs_of_code {after : Code Fn Value Error} {memory' : Memory Fn Value Error}
    {ops : List (MFunction.Op Slot)} (hcode : progress.thread.code = after)
    (hperforms : Code.Performs typeOf index memory' after.packed ops table)
    (hpushed : progress.memory.pushed = memory'.pushed)
    (hstarted : progress.memory.started = memory'.started)
    (hsame : memory'.started = memory.started)
    (htask : TaskHolds typeOf progress.thread.tasked (table (.task index))) :
    Performs typeOf index memory progress ops table := by
  obtain ⟨results, after, hresults, hinvoked, hempty, hstores, hothers⟩ := hperforms
  refine ⟨results, after, hresults, ?_, hempty, ?_, ?_, ?_⟩
  · rw [hstarted, hsame, hinvoked, List.append_nil]
  · rw [hcode]
    exact hstores.of_history hpushed hstarted
  · rw [hothers _ (by simp) (by simp)]
    exact htask
  · exact fun slot hpack _ helement => hothers slot hpack helement

/-- A step with no operation on a wrapper. -/
theorem performs_nil (hstores : memory.Stores typeOf index none table)
    (htask : TaskHolds typeOf progress.thread.tasked (table (.task index)))
    (hcode : progress.thread.code = .idle)
    (hpushed : progress.memory.pushed = memory.pushed)
    (hstarted : progress.memory.started = memory.started) :
    Performs typeOf index memory progress [] table := by
  refine ⟨[], table, rfl, ?_, by simp [NoneEmpty], ?_, htask, fun _ _ _ _ => rfl⟩
  · rw [hstarted]
    exact (List.append_nil _).symm
  · rw [hcode]
    exact hstores.of_history hpushed hstarted

theorem history_startTask (memory : Memory Fn Value Error) (queues : List (List (Package Fn)))
    (id : ℕ) (package : Package Fn) :
    (startTask { memory with queues := queues } id package).memory.pushed = memory.pushed ∧
      (startTask { memory with queues := queues } id package).memory.started =
        memory.started ++ [package.id] :=
  Code.history_invoke _ _

theorem performs_startTask {package : Package Fn} {queues : List (List (Package Fn))} (id : ℕ)
    (hstores : memory.Stores typeOf index none table) (htask : table (.task index) = none)
    (hnew : package.id ∉ memory.started) (hpushed : package.id ∈ memory.pushed) :
    Performs typeOf index memory (startTask { memory with queues := queues } id package)
      (takeTask index package.id ++ (Code.invoke { memory with
        queues := queues
        started := memory.started ++ [package.id] } [] package.callable).1.begun typeOf index)
      table := by
  have helement : table (.element package.id) = some (some (wrapped typeOf package.id)) := by
    rw [hstores.element, if_pos ⟨hpushed, hnew⟩]
  let taken : Memory Fn Value Error :=
    { memory with queues := queues, started := memory.started ++ [package.id] }
  have htaken : taken.Stores typeOf index none (Function.update
      (Function.update table (.task index) (some (some (wrapped typeOf package.id))))
      (.element package.id) none) := by
    refine ⟨?_, ?_, ?_⟩
    · simpa using hstores.pack
    · simpa using hstores.temporary
    · intro other
      by_cases hother : other = package.id
      · subst hother
        simp [taken]
      · rw [Function.update_of_ne (by simpa using hother), Function.update_of_ne (by simp),
          hstores.element]
        simp [taken, hother]
  have hfresh : (Code.invoke taken [] package.callable).1.Fresh := Code.fresh_invoke _ _
  obtain ⟨hpushes, hstarts⟩ := history_startTask memory queues id package
  obtain ⟨results, after, hresults, hinvoked, hempty, hafter, hothers⟩ :=
    Code.performs_begun hfresh htaken
  refine ⟨_, after, expectedAll_append (expectedAll_takeTask htask helement) hresults, ?_,
    NoneEmpty.append (by simp [NoneEmpty]) hempty, hafter.of_history hpushes hstarts, ?_, ?_⟩
  · calc
      (startTask { memory with queues := queues } id package).memory.started.map (wrapped typeOf)
      _ = (memory.started ++ [package.id]).map (wrapped typeOf) := congrArg _ hstarts
      _ = memory.started.map (wrapped typeOf) ++ [wrapped typeOf package.id] := List.map_append
      _ = _ := by
          rw [invoked_append, hinvoked]
          rfl
  · change after (.task index) = some (some (wrapped typeOf package.id))
    rw [hothers _ (by simp) (by simp), Function.update_of_ne (by simp), Function.update_self]
  · intro slot hpack htask helement
    rw [hothers slot hpack helement, Function.update_of_ne (helement _),
      Function.update_of_ne htask]

/-- A task that starts was pushed and had not started. -/
theorem pushed_of_startTask {package : Package Fn} {queues : List (List (Package Fn))} {id : ℕ}
    (hnodup : (startTask { memory with queues := queues } id
      package).memory.started.Nodup)
    (hsub : ∀ other ∈ (startTask { memory with queues := queues } id package).memory.started,
      other ∈ (startTask { memory with queues := queues } id package).memory.pushed) :
    package.id ∉ memory.started ∧ package.id ∈ memory.pushed := by
  obtain ⟨hpushed, hstarted⟩ := history_startTask memory queues id package
  rw [hstarted] at hnodup hsub
  rw [hpushed] at hsub
  constructor
  · intro hmem
    exact List.disjoint_of_nodup_append hnodup hmem (List.mem_singleton.mpr rfl)
  · exact hsub _ (by simp)

theorem performs_of_acted (hacted : thread.Acted memory move progress)
    (hstores : memory.Stores typeOf index thread.code.packed table)
    (htask : TaskHolds typeOf thread.tasked (table (.task index)))
    (hpush : ∀ id ∈ thread.code.pushes, id ∉ memory.pushed)
    (hsub : ∀ id ∈ memory.started, id ∈ memory.pushed)
    (hnodup : progress.memory.started.Nodup)
    (hsub' : ∀ id ∈ progress.memory.started, id ∈ progress.memory.pushed) :
    Performs typeOf index memory progress
      (thread.operations typeOf index move progress.thread) table := by
  cases hacted with
  | caller code move effect hacted =>
      exact performs_of_code rfl (Code.performs_of_acted hacted hstores hpush hsub) rfl rfl
        (Code.started_acted hacted) htask
  | task id task code after move memory' signal hbusy hacted =>
      exact performs_of_code rfl (Code.performs_of_acted hacted hstores hpush hsub) rfl rfl
        (Code.started_acted hacted) htask
  | terminate id task code move memory' signal hacted =>
      exact performs_of_code rfl (Code.performs_of_acted hacted hstores hpush hsub) rfl rfl
        (Code.started_acted hacted) htask
  | finishTask id task => exact performs_nil hstores ⟨task, htask⟩ rfl rfl rfl
  | popFront id package queue hqueue =>
      obtain ⟨hnew, hmem⟩ := pushed_of_startTask hnodup hsub'
      exact performs_startTask id hstores htask hnew hmem
  | popBack id victim package queue hqueue =>
      obtain ⟨hnew, hmem⟩ := pushed_of_startTask hnodup hsub'
      exact performs_startTask id hstores htask hnew hmem
  | notify id =>
      obtain ⟨task, htask⟩ := htask
      refine ⟨_, _, expectedAll_destruct htask, ?_, by simp [NoneEmpty],
        hstores.update_task none, ?_, ?_⟩
      · exact (List.append_nil _).symm
      · exact Function.update_self _ _ _
      · exact fun slot _ htask _ => Function.update_of_ne htask _ _
  | ownEmpty id hqueue =>
      split
      · exact performs_nil hstores htask rfl rfl rfl
      · exact performs_nil hstores htask rfl rfl rfl
  | _ => exact performs_nil hstores htask rfl rfl rfl

end Thread

/-! ## Runs of the pool -/

namespace Pool

variable {pool next : Pool Fn Value Error} {event : Event Fn Value Error}

theorem count_pushed_le_one (hconserved : pool.config.Conserved) (id : ℕ) :
    pool.memory.pushed.count id ≤ 1 := by
  have hissued := hconserved.issued id
  have hrange : (List.range pool.memory.issued).count id ≤ 1 :=
    List.nodup_iff_count_le_one.mp List.nodup_range id
  rw [config_memory] at hissued
  omega

theorem count_queued (hconserved : pool.config.Conserved) (id : ℕ) :
    pool.queued.count id + pool.memory.started.count id = pool.memory.pushed.count id := by
  have hplaced := hconserved.placed id
  have hstarted := hconserved.started id
  rw [config_memory, weight_queued, weight_held] at hplaced
  rw [config_memory, weight_held] at hstarted
  omega

/-- What is in a queue was pushed and has not started. -/
theorem mem_queued (hconserved : pool.config.Conserved) {id : ℕ} :
    id ∈ pool.queued ↔ id ∈ pool.memory.pushed ∧ id ∉ pool.memory.started := by
  have hcount := count_queued hconserved id
  have hle := count_pushed_le_one hconserved id
  rw [← List.count_pos_iff, ← List.count_pos_iff, ← List.count_eq_zero]
  omega

theorem started_nodup (hconserved : pool.config.Conserved) : pool.memory.started.Nodup := by
  apply List.nodup_iff_count_le_one.mpr
  intro id
  have hcount := count_queued hconserved id
  have hle := count_pushed_le_one hconserved id
  omega

theorem pushed_of_started (hconserved : pool.config.Conserved) :
    ∀ id ∈ pool.memory.started, id ∈ pool.memory.pushed := by
  intro id hid
  have hcount := count_queued hconserved id
  rw [← List.count_pos_iff] at hid ⊢
  omega

theorem pushes_notMem (hconserved : pool.config.Conserved) {thread : Thread Fn Value Error}
    (hthread : thread ∈ pool.threads) :
    ∀ id ∈ thread.code.pushes, id ∉ pool.memory.pushed := by
  intro id hid
  obtain ⟨package, victim, hactive, rfl⟩ : ∃ package victim,
      thread.code.active = some (.enqueue package (.push victim)) ∧ package.id = id := by
    unfold Code.pushes at hid
    split at hid
    case h_1 package victim hactive => exact ⟨package, victim, hactive, Option.some.inj hid⟩
    case h_2 => simp at hid
  have hmem := active_mem hthread hactive (by simp)
  have hle : Item.unpushed package.id (.active (.enqueue package (.push victim))) ≤
      weight (Item.unpushed package.id) pool.config.bag := le_weight hmem
  have hone : Item.unpushed package.id
      (.active (.enqueue package (.push victim)) : Item Fn Value Error) = 1 := if_pos rfl
  have hissued := hconserved.issued package.id
  have hrange : (List.range pool.memory.issued).count package.id ≤ 1 :=
    List.nodup_iff_count_le_one.mp List.nodup_range package.id
  rw [config_memory] at hissued
  rw [← List.count_eq_zero]
  omega

/-- Each thread is seen as it was, but for the one that acted. -/
theorem Stepped.bind_threads {View : Type} {view : Thread Fn Value Error → Option View}
    {thread : Thread Fn Value Error} {progress : Progress Fn Value Error}
    (hstepped : pool.Stepped event next thread progress)
    (hworker : ∀ thread, view thread.wakeWorker = view thread)
    (hwaiter : ∀ thread, view thread.wakeWaiter = view thread) (index : ℕ) :
    next.threads[index]?.bind view =
      if index = event.thread then view progress.thread else pool.threads[index]?.bind view := by
  have hset : (pool.threads.set event.thread progress.thread)[index]?.bind view =
      if index = event.thread then view progress.thread
      else pool.threads[index]?.bind view := by
    split
    case isTrue heq =>
      subst heq
      have hlt := (List.getElem?_eq_some_iff.mp hstepped.found).1
      rw [List.getElem?_set_self hlt, Option.bind_some]
    case isFalse hne => rw [List.getElem?_set_ne (Ne.symm hne)]
  rw [← hset]
  obtain heq | heq | heq := Signal.getElem?_deliver hstepped.threads index
  · rw [heq]
  · rw [heq, Option.bind_map]
    exact Option.bind_congr fun thread _ => hworker thread
  · rw [heq, Option.bind_map]
    exact Option.bind_congr fun thread _ => hwaiter thread

theorem packed_wakeWorker (thread : Thread Fn Value Error) :
    thread.wakeWorker.packed = thread.packed := by
  unfold Thread.wakeWorker
  split <;> rfl

theorem packed_wakeWaiter (thread : Thread Fn Value Error) :
    thread.wakeWaiter.packed = thread.packed := by
  unfold Thread.wakeWaiter
  split <;> rfl

theorem tasked_wakeWorker (thread : Thread Fn Value Error) :
    thread.wakeWorker.tasked = thread.tasked := by
  unfold Thread.wakeWorker
  split <;> rfl

theorem tasked_wakeWaiter (thread : Thread Fn Value Error) :
    thread.wakeWaiter.tasked = thread.tasked := by
  unfold Thread.wakeWaiter
  split <;> rfl

theorem operations_of_step (typeOf : ℕ → CallableType) (hstep : pool.step event = some next) :
    ∃ thread progress, pool.Stepped event next thread progress ∧
      pool.operations typeOf event =
        thread.operations typeOf event.thread event.move progress.thread := by
  have hfull := hstep
  simp only [step, Option.ite_none_left_eq_some, Bool.not_eq_true, Option.bind_eq_some_iff,
    Option.map_eq_some_iff] at hstep
  obtain ⟨halive, thread, hthread, progress, hact, threads, hthreads, rfl⟩ := hstep
  refine ⟨thread, progress,
    ⟨halive, hthread, Thread.acted_of_act hact, hthreads, rfl⟩, ?_⟩
  simp [operations, hthread, hact]

theorem stored_step (hconserved : pool.config.Conserved) (hstored : pool.Stored typeOf table)
    (hstep : pool.step event = some next) :
    ∃ results after, expectedAll (pool.operations typeOf event) table = some (results, after) ∧
      next.memory.started.map (wrapped typeOf) =
        pool.memory.started.map (wrapped typeOf) ++ invoked results ∧
      NoneEmpty results ∧ next.Stored typeOf after := by
  have hconserved' : next.config.Conserved :=
    (changes_of_step hstep).invariant Config.Conserved.change hconserved
  obtain ⟨thread, progress, hstepped, hops⟩ := operations_of_step typeOf hstep
  have hstores : pool.memory.Stores typeOf event.thread thread.code.packed table := by
    refine ⟨?_, hstored.temporary _, fun id => ?_⟩
    · have hpack := hstored.pack event.thread
      rwa [hstepped.found] at hpack
    · simp only [hstored.element, mem_queued hconserved]
  have htask : TaskHolds typeOf thread.tasked (table (.task event.thread)) := by
    have htask := hstored.task event.thread
    rwa [hstepped.found] at htask
  have hnodup := started_nodup hconserved'
  have hsub := pushed_of_started hconserved'
  rw [hstepped.memory] at hnodup hsub
  obtain ⟨results, after, hresults, hstarted, hempty, hafter, htasked, hothers⟩ :=
    Thread.performs_of_acted hstepped.acted hstores htask
      (pushes_notMem hconserved (List.mem_of_getElem? hstepped.found))
      (pushed_of_started hconserved) hnodup hsub
  refine ⟨results, after, hops ▸ hresults, by rw [hstepped.memory, hstarted], hempty,
    ?_, ?_, ?_, ?_⟩
  · intro index
    rw [hstepped.bind_threads packed_wakeWorker packed_wakeWaiter]
    split
    case isTrue heq =>
      subst heq
      exact hafter.pack
    case isFalse hne =>
      rw [hothers _ (by simpa using hne) (by simp) (by simp)]
      exact hstored.pack index
  · intro index
    by_cases heq : index = event.thread
    · subst heq
      exact hafter.temporary
    · rw [hothers _ (by simp) (by simp) (by simp)]
      exact hstored.temporary index
  · intro id
    simp only [hafter.element, mem_queued hconserved', hstepped.memory]
  · intro index
    rw [hstepped.bind_threads tasked_wakeWorker tasked_wakeWaiter]
    split
    case isTrue heq =>
      subst heq
      exact htasked
    case isFalse hne =>
      rw [hothers _ (by simp) (by simpa using hne) (by simp)]
      exact hstored.task index

theorem stored_run {events : List (Event Fn Value Error)} {final : Pool Fn Value Error}
    (hconserved : pool.config.Conserved) (hstored : pool.Stored typeOf table)
    (hrun : run step pool events = some final) :
    ∃ results after, expectedAll (program typeOf pool events) table = some (results, after) ∧
      final.memory.started.map (wrapped typeOf) =
        pool.memory.started.map (wrapped typeOf) ++ invoked results ∧
      NoneEmpty results ∧ final.Stored typeOf after := by
  induction events generalizing pool table with
  | nil =>
      obtain rfl := Option.some.inj hrun
      exact ⟨[], table, rfl, (List.append_nil _).symm, by simp [NoneEmpty], hstored⟩
  | cons event events ih =>
      obtain ⟨next, hstep, hrest⟩ := run_cons.mp hrun
      obtain ⟨results, middle, hresults, hstarted, hempty, hmiddle⟩ :=
        stored_step hconserved hstored hstep
      have hconserved' : next.config.Conserved :=
        (changes_of_step hstep).invariant Config.Conserved.change hconserved
      obtain ⟨others, after, hothers, hlater, hempty', hafter⟩ := ih hconserved' hmiddle hrest
      refine ⟨results ++ others, after, ?_, ?_, hempty.append hempty', hafter⟩
      · rw [program, hstep]
        exact expectedAll_append hresults hothers
      · rw [hlater, hstarted, invoked_append, List.append_assoc]

/-- No thread is in a post, no worker has a task, and the queues are empty. -/
def Emptied (pool : Pool Fn Value Error) : Prop :=
  pool.queued = [] ∧ ∀ thread ∈ pool.threads, thread.packed = none ∧ thread.tasked = none

theorem Emptied.bind (hemptied : pool.Emptied) (index : ℕ) :
    pool.threads[index]?.bind Thread.packed = none ∧
      pool.threads[index]?.bind Thread.tasked = none := by
  cases hthread : pool.threads[index]? with
  | none => exact ⟨rfl, rfl⟩
  | some thread => exact hemptied.2 thread (List.mem_of_getElem? hthread)

/-- There are no wrappers then. -/
theorem Stored.iff_none (hemptied : pool.Emptied) :
    pool.Stored typeOf table ↔ ∀ slot, table slot = none := by
  constructor
  · intro hstored slot
    cases slot with
    | pack index =>
        have hpack := hstored.pack index
        rw [(hemptied.bind index).1] at hpack
        exact hpack
    | temporary index => exact hstored.temporary index
    | element id =>
        have helement := hstored.element id
        rwa [hemptied.1, if_neg List.not_mem_nil] at helement
    | task index =>
        have htask := hstored.task index
        rw [(hemptied.bind index).2] at htask
        exact htask
  · intro hnone
    refine ⟨fun index => ?_, fun index => hnone _, fun id => ?_, fun index => ?_⟩
    · rw [(hemptied.bind index).1]
      exact hnone _
    · rw [hemptied.1, if_neg List.not_mem_nil]
      exact hnone _
    · rw [(hemptied.bind index).2]
      exact hnone _

theorem start_emptied (workers callers : ℕ) :
    (start workers callers : Pool Fn Value Error).Emptied := by
  constructor
  · simp [queued, start]
  · intro thread hmem
    simp only [start, List.mem_append, List.mem_map, List.mem_replicate] at hmem
    obtain ⟨id, -, rfl⟩ | ⟨-, rfl⟩ := hmem
    · exact ⟨rfl, rfl⟩
    · exact ⟨rfl, rfl⟩

/-- Every run of the pool uses its packages as they are meant to be used, whatever the
types of the callables: nothing it does to them is undefined and no empty one is called,
the callables that ran are those of the tasks started, in this order, and each wrapper
holds what the pool says.  A callable has one owner or has been destroyed once, and when
nothing is left in the pool every callable has been destroyed and every block freed. -/
theorem packages_of_run (typeOf : ℕ → CallableType) {workers callers : ℕ}
    {events : List (Event Fn Value Error)}
    (hrun : run step (start workers callers) events = some pool) :
    ∃ results memory,
      MFunction.performAll (program typeOf (start workers callers) events) .start =
        some (results, memory) ∧
      invoked results = pool.memory.started.map (wrapped typeOf) ∧ NoneEmpty results ∧
      pool.Stored typeOf memory.contents ∧ memory.OwnedOnce ∧
      (pool.Emptied → (∀ id < memory.nextObject, memory.destroyed.count id = 1) ∧
        ∀ block < memory.nextBlock, memory.freed.count block = 1) := by
  have hstart : (start workers callers : Pool Fn Value Error).Stored typeOf fun _ => none :=
    (Stored.iff_none (start_emptied workers callers)).mpr fun _ => rfl
  obtain ⟨results, table, hresults, hstarted, hempty, hstored⟩ :=
    stored_run (start_conserved workers callers) hstart hrun
  obtain ⟨memory, hperforms, hsound, rfl⟩ :=
    MFunction.performAll_refines MFunction.Memory.start_sound hresults
  refine ⟨results, memory, hperforms, hstarted.symm, hempty, hstored, hsound.ownedOnce, ?_⟩
  exact fun hemptied => hsound.ended ((Stored.iff_none hemptied).mp hstored)

/-- The push of a task fails in the move of its callable, that of a second one for want
of memory, and a third task runs. -/
def drainedEvents : List (Event ℕ ℕ ℕ) :=
  [⟨1, .call (.postDetach 7)⟩] ++ turns 1 2 ++ [⟨1, .fail (.user 5)⟩] ++
    [⟨1, .call (.postDetach 7)⟩] ++ turns 1 2 ++ [⟨1, .fail .badAlloc⟩] ++
    [⟨1, .call (.postDetach 8)⟩] ++ turns 1 3 ++ [⟨1, .notifyOne 0⟩] ++ turns 0 2 ++
    [⟨0, .finish (.ok none)⟩] ++ turns 0 2

def drainedPool : Pool ℕ ℕ ℕ where
  memory :=
    { (start 1 1 : Pool ℕ ℕ ℕ).memory with
      roundIndex := 3
      unfinished := 2
      issued := 3
      pushed := [2]
      started := [2]
      finished := [2]
      lost := [⟨0, .detached 7⟩, ⟨1, .detached 7⟩] }
  threads := [.worker 0 .loop, .caller .idle]

/-- Two words, and sixteen for the last. -/
def drainedType (id : ℕ) : CallableType :=
  if id < 2 then ⟨0, 16, 8⟩ else ⟨1, 128, 8⟩

theorem packages_of_run_drainedPool : ∃ results memory,
    MFunction.performAll (program drainedType (start 1 1) drainedEvents) .start =
      some (results, memory) ∧
    invoked results = [wrapped drainedType 2] ∧
    (∀ id < memory.nextObject, memory.destroyed.count id = 1) ∧
      ∀ block < memory.nextBlock, memory.freed.count block = 1 := by
  have hrun : run step (start 1 1) drainedEvents = some drainedPool := by decide
  obtain ⟨results, memory, hperforms, hinvoked, -, -, -, hended⟩ :=
    packages_of_run drainedType hrun
  refine ⟨results, memory, hperforms, hinvoked, hended ⟨rfl, ?_⟩⟩
  intro thread hthread
  obtain rfl | rfl : thread = .worker 0 .loop ∨ thread = .caller .idle := by
    simpa [drainedPool] using hthread
  · exact ⟨rfl, rfl⟩
  · exact ⟨rfl, rfl⟩

end Pool

end RpcDemo.Threadpool
