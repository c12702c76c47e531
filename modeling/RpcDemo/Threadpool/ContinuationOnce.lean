import RpcDemo.Threadpool.WriteOnce

/-!
# Write once, run once

A continuation is in the custody of the call that passes it, of the slot, or of
the call that extracted it; running it or dropping it ends it.  With the sound
custody, the mutex and the flags as an invariant of all steps, the result of the
state is written once and every continuation runs at most once.
-/

namespace RpcDemo.Threadpool.WriteOnce

variable {Thread Value Error : Type*}

/-- Where a continuation can be: the slot, or a call of a thread by its depth. -/
inductive Place (Thread : Type*)
  | slot
  | frame (thread : Thread) (depth : ℕ)
  deriving DecidableEq

def Frame.holds : Frame Value Error → Option ℕ
  | waiting call => call.brought
  | inside call => call.brought
  | extracted cont => some cont
  | running _ => none

def heldAt (stack : List (Frame Value Error)) (depth : ℕ) : Option ℕ :=
  stack.reverse[depth]?.bind Frame.holds

theorem heldAt_length (stack : List (Frame Value Error)) : heldAt stack stack.length = none := by
  simp [heldAt]

theorem heldAt_cons (frame : Frame Value Error) (rest : List (Frame Value Error)) :
    heldAt (frame :: rest) = Function.update (heldAt rest) rest.length frame.holds := by
  funext depth
  rcases Nat.lt_trichotomy depth rest.length with hlt | rfl | hgt
  · have hin : depth < rest.reverse.length := by simpa using hlt
    rw [Function.update_of_ne (Nat.ne_of_lt hlt), heldAt, heldAt, List.reverse_cons,
      List.getElem?_append_left hin]
  · simp [heldAt]
  · have hout : (frame :: rest).reverse.length ≤ depth := by
      rw [List.length_reverse]
      exact hgt
    have hout' : rest.reverse.length ≤ depth := by
      rw [List.length_reverse]
      exact Nat.le_of_lt hgt
    rw [Function.update_of_ne (Nat.ne_of_gt hgt), heldAt, heldAt,
      List.getElem?_eq_none hout, List.getElem?_eq_none hout']

theorem heldAt_top (top : Option (Frame Value Error)) (rest : List (Frame Value Error)) :
    heldAt (top.toList ++ rest) =
      Function.update (heldAt rest) rest.length (top.bind Frame.holds) := by
  cases top with
  | none => exact (Function.update_eq_self_iff.mpr (heldAt_length rest).symm).symm
  | some frame => exact heldAt_cons frame rest

namespace Cell

def held (cell : Cell Thread Value Error) : Place Thread → Option ℕ
  | .slot => cell.members.shared.continuation
  | .frame thread depth => heldAt (cell.frames thread) depth

def custody (cell : Cell Thread Value Error) : Custody (Place Thread) where
  held := cell.held
  next := cell.passed
  ended := cell.ended

variable [DecidableEq Thread] {cell after : Cell Thread Value Error} {thread : Thread}
  {rest : List (Frame Value Error)}

/-- What is where after a thread has replaced its innermost call and a section
may have changed the slot. -/
theorem held_eq_update (before next : Option (Frame Value Error))
    (hbefore : cell.frames thread = before.toList ++ rest)
    (hframes : after.frames = Function.update cell.frames thread (next.toList ++ rest)) :
    after.held =
      Function.update (Function.update cell.held .slot after.members.shared.continuation)
        (.frame thread rest.length) (next.bind Frame.holds) := by
  funext place
  cases place with
  | slot => simp [held]
  | frame other depth =>
      by_cases hthread : other = thread
      · subst hthread
        by_cases hdepth : depth = rest.length
        · subst hdepth
          simp [held, hframes, heldAt_top]
        · simp [held, hframes, hbefore, heldAt_top, hdepth]
      · simp [held, hframes, hthread]

end Cell

/-! ## Sections -/

namespace Members

/-- The flags agree with the promise, the slot and the future. -/
structure Sound (members : Members Value Error) : Prop where
  completed : members.shared.completed = members.shared.promise.isSome
  slot : members.shared.continuation.isSome = true → members.shared.continuationSet = true
  retrieved : members.promiseRetrieved = members.shared.futureRetrieved
  future : members.shared.futureRetrieved = true → members.sharedFuture = .ofPromise

variable {members after : Members Value Error} {exit : Exit}

theorem fresh_sound : (fresh : Members Value Error).Sound := by
  constructor <;> simp [fresh, SharedState.fresh]

theorem Sound.slot_eq_none (hsound : members.Sound)
    (hmark : members.shared.continuationSet = false) : members.shared.continuation = none := by
  by_contra hfull
  have hset := hsound.slot (Option.isSome_iff_ne_none.mpr hfull)
  simp [hset] at hmark

/-- `get_future` never asks the promise twice, and touches neither its result
nor the slot. -/
theorem getFuture_spec (hsound : members.Sound) (hget : members.getFuture = (after, exit)) :
    exit = .hands .ofPromise ∧ after.Sound ∧ after.shared.promise = members.shared.promise ∧
      after.shared.completed = members.shared.completed ∧
      after.shared.continuation = members.shared.continuation := by
  cases hretrieved : members.shared.futureRetrieved with
  | true =>
      simp only [getFuture, hretrieved, if_true, hsound.future hretrieved, Prod.mk.injEq] at hget
      obtain ⟨rfl, rfl⟩ := hget
      exact ⟨rfl, hsound, rfl, rfl, rfl⟩
  | false =>
      have hpromise := hsound.retrieved.trans hretrieved
      simp only [getFuture, hretrieved, hpromise, Bool.false_eq_true, if_false,
        Prod.mk.injEq] at hget
      obtain ⟨rfl, rfl⟩ := hget
      exact ⟨rfl, ⟨hsound.completed, hsound.slot, rfl, fun _ => rfl⟩, rfl, rfl, rfl⟩

variable {result : Except Error Value} {copyThrows moveThrows : Bool}

/-- Once the promise has its result, completing throws and changes nothing. -/
theorem complete_of_satisfied (hpromise : members.shared.promise.isSome = true) :
    members.complete result copyThrows moveThrows = (members, .throws) := by
  obtain ⟨earlier, hearlier⟩ := Option.isSome_iff_exists.mp hpromise
  simp [complete, SharedState.complete, hearlier]

theorem complete_of_copyThrows :
    members.complete result true moveThrows = (members, .throws) := by
  unfold complete
  split <;> rfl

section First

variable (hpromise : members.shared.promise = none)

include hpromise

theorem complete_of_empty (hslot : members.shared.continuation = none) :
    members.complete result false moveThrows =
      ({ members with shared := members.shared.settle result }, .returns) := by
  simp [complete, SharedState.complete, hpromise, hslot]

theorem complete_extracts {cont : ℕ} (hslot : members.shared.continuation = some cont) :
    members.complete result false false =
      ({ members with shared := members.shared.settle result }, .extracts cont) := by
  simp [complete, SharedState.complete, hpromise, hslot]

/-- The move of the wrapper throws after the promise has its result. -/
theorem complete_strands {cont : ℕ} (hslot : members.shared.continuation = some cont) :
    members.complete result false true =
      ({ members with shared :=
          { members.shared.settle result with continuation := some cont } }, .throws) := by
  simp [complete, SharedState.complete, hpromise, hslot]

end First

theorem Sound.settle (hsound : members.Sound) (result : Except Error Value) :
    Sound { members with shared := members.shared.settle result } :=
  ⟨rfl, by simp [SharedState.settle], hsound.retrieved, hsound.future⟩

theorem Sound.strand (hsound : members.Sound) (result : Except Error Value) {cont : ℕ}
    (hslot : members.shared.continuation = some cont) :
    Sound { members with shared :=
      { members.shared.settle result with continuation := some cont } } :=
  ⟨rfl, fun _ => hsound.slot (by simp [hslot]), hsound.retrieved, hsound.future⟩

/-- What `set_continuation` does: nothing, or it fills the empty slot of a state
that is not completed, or it hands the continuation back for one that is. -/
theorem setContinuation_cases {cont : ℕ} {throws : Bool}
    (hset : members.setContinuation cont throws = (after, exit)) :
    (after = members ∧ (exit = .returns ∨ exit = .throws)) ∨
      (members.shared.continuationSet = false ∧ members.shared.completed = false ∧
        after = { members with shared := members.shared.store cont } ∧ exit = .stores) ∨
      (members.shared.completed = true ∧ after = members ∧ exit = .extracts cont) := by
  unfold setContinuation SharedState.setContinuation at hset
  cases hmark : members.shared.continuationSet <;>
    cases hcompleted : members.shared.completed <;> cases throws <;>
      simp_all

end Members

/-! ## The invariant -/

def Frame.isRunning : Frame Value Error → Bool
  | running _ => true
  | _ => false

/-- The innermost call of the thread is in its section. -/
def isInside : List (Frame Value Error) → Bool
  | .inside _ :: _ => true
  | _ => false

namespace Cell

structure Sound (cell : Cell Thread Value Error) : Prop where
  members : cell.members.Sound
  custody : cell.custody.Sound
  outer : ∀ thread, ∀ frame ∈ (cell.frames thread).tail, frame.isRunning = true
  mutex : ∀ thread, cell.mtx = some thread ↔ isInside (cell.frames thread) = true
  extracted : ∀ thread cont rest, cell.frames thread = .extracted cont :: rest →
    cell.members.shared.completed = true
  futures : ∀ exit, (Call.getFuture, exit) ∈ cell.log → exit = .hands .ofPromise
  ran_nodup : cell.ran.Nodup
  ran_ended : ∀ cont ∈ cell.ran, cont ∈ cell.ended

theorem fresh_sound : (fresh : Cell Thread Value Error).Sound where
  members := Members.fresh_sound
  custody := by
    have hempty : (fresh : Cell Thread Value Error).custody = Custody.empty := by
      have hheld : (fresh : Cell Thread Value Error).held = fun _ => none := by
        funext place
        cases place <;> rfl
      simp only [custody, hheld]
      rfl
    rw [hempty]
    exact Custody.empty_sound
  outer := by simp [fresh]
  mutex := by simp [fresh, isInside]
  extracted := by simp [fresh]
  futures := by simp [fresh]
  ran_nodup := List.nodup_nil
  ran_ended := by simp [fresh]

/-- The frames below the innermost call of every thread stay running. -/
theorem outer_update [DecidableEq Thread] {cell after : Cell Thread Value Error}
    {thread : Thread} {rest : List (Frame Value Error)} (next : Option (Frame Value Error))
    (houter : ∀ other, ∀ frame ∈ (cell.frames other).tail, frame.isRunning = true)
    (hrest : ∀ frame ∈ rest, frame.isRunning = true)
    (hframes : after.frames = Function.update cell.frames thread (next.toList ++ rest)) :
    ∀ other, ∀ frame ∈ (after.frames other).tail, frame.isRunning = true := by
  intro other frame hframe
  by_cases hother : other = thread
  · subst hother
    rw [hframes, Function.update_self] at hframe
    cases next with
    | none => exact hrest frame (List.mem_of_mem_tail hframe)
    | some top => exact hrest frame hframe
  · rw [hframes, Function.update_of_ne hother] at hframe
    exact houter other frame hframe

theorem isInside_eq_false {stack : List (Frame Value Error)}
    (hstack : ∀ frame ∈ stack, frame.isRunning = true) : isInside stack = false := by
  cases stack with
  | nil => rfl
  | cons frame rest =>
      have hframe := hstack frame List.mem_cons_self
      cases frame <;> simp_all [Frame.isRunning, isInside]

variable [DecidableEq Thread] {cell after : Cell Thread Value Error} {thread : Thread}
  {call : Call Value Error} {cont : ℕ} {rest : List (Frame Value Error)}

omit [DecidableEq Thread] in
theorem Sound.rest_running (hsound : cell.Sound) {frame : Frame Value Error}
    (hstack : cell.frames thread = frame :: rest) :
    ∀ frame ∈ rest, frame.isRunning = true := by
  intro other hother
  exact hsound.outer thread other (by rw [hstack]; exact hother)

/-- Only the top of a stack can hold an extracted continuation. -/
theorem extracted_update (next : Option (Frame Value Error)) {completed : Bool}
    (hextracted : ∀ other cont rest, cell.frames other = .extracted cont :: rest →
      completed = true)
    (hrest : ∀ frame ∈ rest, frame.isRunning = true)
    (hnext : ∀ cont, next = some (.extracted cont) → completed = true)
    (hframes : after.frames = Function.update cell.frames thread (next.toList ++ rest)) :
    ∀ other cont rest, after.frames other = .extracted cont :: rest → completed = true := by
  intro other cont below hstack
  by_cases hother : other = thread
  · subst hother
    rw [hframes, Function.update_self] at hstack
    cases next with
    | none =>
        have hframe := hrest (.extracted cont) (by simp_all)
        cases hframe
    | some top =>
        obtain ⟨rfl, -⟩ := List.cons.inj hstack
        exact hnext cont rfl
  · rw [hframes, Function.update_of_ne hother] at hstack
    exact hextracted other cont below hstack

omit [DecidableEq Thread] in
theorem held_top {frame : Frame Value Error} (hstack : cell.frames thread = frame :: rest) :
    cell.held (.frame thread rest.length) = frame.holds := by
  simp [held, hstack, heldAt_cons]

/-- A step of a thread that leaves the slot alone. -/
theorem held_of_slot (before next : Option (Frame Value Error))
    (hbefore : cell.frames thread = before.toList ++ rest)
    (hframes : after.frames = Function.update cell.frames thread (next.toList ++ rest))
    (hslot : after.members.shared.continuation = cell.members.shared.continuation) :
    after.held =
      Function.update cell.held (.frame thread rest.length) (next.bind Frame.holds) := by
  have hkept : cell.held .slot = after.members.shared.continuation := hslot.symm
  rw [held_eq_update before next hbefore hframes, ← hkept, Function.update_eq_self]

/-- A thread that goes on with the same continuation changes no custody. -/
theorem held_of_same {frame : Frame Value Error} (next : Option (Frame Value Error))
    (hstack : cell.frames thread = frame :: rest)
    (hframes : after.frames = Function.update cell.frames thread (next.toList ++ rest))
    (hslot : after.members.shared.continuation = cell.members.shared.continuation)
    (hsame : next.bind Frame.holds = frame.holds) : after.held = cell.held := by
  have hbefore : cell.frames thread = (some frame).toList ++ rest := hstack
  rw [held_of_slot (some frame) next hbefore hframes hslot, hsame, ← held_top hstack,
    Function.update_eq_self]

/-! ## Steps -/

theorem Sound.enter (hsound : cell.Sound) (hmay : mayCall (cell.frames thread) = true)
    (hbrought : call.brought.all (· = cell.passed) = true) :
    Sound { cell.setStack thread (.waiting call :: cell.frames thread) with
      passed := cell.passed + call.brought.toList.length } := by
  have hrunning : ∀ frame ∈ cell.frames thread, frame.isRunning = true := by
    cases hstack : cell.frames thread with
    | nil => simp
    | cons frame rest =>
        intro other hother
        rcases List.mem_cons.mp hother with rfl | hrest
        · rw [hstack] at hmay
          cases other <;> simp_all [mayCall, Frame.isRunning]
        · exact hsound.rest_running hstack other hrest
  have hheld : ({ cell.setStack thread (.waiting call :: cell.frames thread) with
      passed := cell.passed + call.brought.toList.length } : Cell Thread Value Error).held =
        Function.update cell.held (.frame thread (cell.frames thread).length) call.brought := by
    refine held_of_slot none (some (.waiting call)) ?_ ?_ ?_ <;> rfl
  have hfree : cell.held (.frame thread (cell.frames thread).length) = none := heldAt_length _
  constructor
  case members => exact hsound.members
  case custody =>
    simp only [Cell.custody, hheld]
    cases hcall : call.brought with
    | none =>
        rw [Function.update_eq_self_iff.mpr hfree.symm]
        exact hsound.custody
    | some cont =>
        obtain rfl : cont = cell.passed := by simpa [hcall] using hbrought
        exact hsound.custody.acquire hfree
  case outer => exact outer_update (some _) hsound.outer hrunning rfl
  case mutex =>
    intro other
    by_cases hother : other = thread
    · subst hother
      have hnot := (hsound.mutex other).not.mpr (by simp [isInside_eq_false hrunning])
      simp [setStack, isInside, hnot]
    · simp [setStack, hother, hsound.mutex other]
  case extracted =>
    exact extracted_update (some _) hsound.extracted hrunning (fun _ hframe => by cases hframe) rfl
  case futures => exact hsound.futures
  case ran_nodup => exact hsound.ran_nodup
  case ran_ended => exact hsound.ran_ended

theorem Sound.lock (hsound : cell.Sound) (hmtx : cell.mtx = none)
    (hstack : cell.frames thread = .waiting call :: rest) :
    Sound { cell.setStack thread (.inside call :: rest) with mtx := some thread } where
  members := hsound.members
  custody := by
    have hheld : ({ cell.setStack thread (.inside call :: rest) with
        mtx := some thread } : Cell Thread Value Error).held = cell.held :=
      held_of_same (some (.inside call)) hstack rfl rfl rfl
    simp only [Cell.custody, hheld]
    exact hsound.custody
  outer := outer_update (some _) hsound.outer (hsound.rest_running hstack) rfl
  mutex := by
    intro other
    by_cases hother : other = thread
    · subst hother
      simp [setStack, isInside]
    · have hfree := (hsound.mutex other).not.mp (by simp [hmtx])
      simp [setStack, hother, hfree, Ne.symm hother]
  extracted := extracted_update (some _) hsound.extracted (hsound.rest_running hstack)
    (fun _ hframe => by cases hframe) rfl
  futures := hsound.futures
  ran_nodup := hsound.ran_nodup
  ran_ended := hsound.ran_ended

/-- Running a continuation ends it. -/
theorem Sound.start (hsound : cell.Sound) (hstack : cell.frames thread = .extracted cont :: rest) :
    Sound { cell.setStack thread (.running cont :: rest) with
      ended := cell.ended ++ [cont]
      ran := cell.ran ++ [cont] } := by
  have hholds : cell.custody.held (.frame thread rest.length) = some cont := held_top hstack
  have hheld : ({ cell.setStack thread (.running cont :: rest) with
      ended := cell.ended ++ [cont]
      ran := cell.ran ++ [cont] } : Cell Thread Value Error).held =
        Function.update cell.held (.frame thread rest.length) none := by
    refine held_of_slot (some (.extracted cont)) (some (.running cont)) hstack ?_ ?_ <;> rfl
  constructor
  case members => exact hsound.members
  case custody =>
    simp only [Cell.custody, hheld]
    exact hsound.custody.finish hholds
  case outer => exact outer_update (some _) hsound.outer (hsound.rest_running hstack) rfl
  case mutex =>
    intro other
    by_cases hother : other = thread
    · subst hother
      have hfree := (hsound.mutex other).not.mpr (by simp [hstack, isInside])
      simp [setStack, isInside, hfree]
    · simp [setStack, hother, hsound.mutex other]
  case extracted =>
    exact extracted_update (some _) hsound.extracted (hsound.rest_running hstack)
      (fun _ hframe => by cases hframe) rfl
  case futures => exact hsound.futures
  case ran_nodup =>
    have hfresh : cont ∉ cell.ran := fun hran =>
      hsound.custody.held_not_ended hholds (hsound.ran_ended cont hran)
    exact List.nodup_append.mpr ⟨hsound.ran_nodup, List.nodup_singleton cont,
      fun other hran last hlast heq => hfresh (List.mem_singleton.mp hlast ▸ heq ▸ hran)⟩
  case ran_ended =>
    intro other hother
    rcases List.mem_append.mp hother with hran | hlast
    · exact List.mem_append_left _ (hsound.ran_ended other hran)
    · exact List.mem_append_right _ hlast

theorem Sound.finish (hsound : cell.Sound) (hstack : cell.frames thread = .running cont :: rest) :
    (cell.setStack thread rest).Sound where
  members := hsound.members
  custody := by
    have hheld : (cell.setStack thread rest).held = cell.held :=
      held_of_same none hstack rfl rfl rfl
    simp only [Cell.custody, hheld]
    exact hsound.custody
  outer := outer_update none hsound.outer (hsound.rest_running hstack) rfl
  mutex := by
    intro other
    by_cases hother : other = thread
    · subst hother
      have hfree := (hsound.mutex other).not.mpr (by simp [hstack, isInside])
      simp [setStack, isInside_eq_false (hsound.rest_running hstack), hfree]
    · simp [setStack, hother, hsound.mutex other]
  extracted := extracted_update none hsound.extracted (hsound.rest_running hstack)
    (fun _ hframe => by cases hframe) rfl
  futures := hsound.futures
  ran_nodup := hsound.ran_nodup
  ran_ended := hsound.ran_ended

/-! ### The end of a section -/

section Leave

variable {members : Members Value Error} {exit : Exit}
  (hstack : cell.frames thread = .inside call :: rest)
  (hsection : call.criticalSection cell.members = (members, exit))

include hsection

theorem leave_eq : cell.leave thread call rest =
    { cell.setStack thread ((exit.extracted.map Frame.extracted).toList ++ rest) with
      members := members
      mtx := none
      ended := cell.ended ++ call.dropped exit
      log := cell.log ++ [(call, exit)] } := by
  simp [leave, hsection]

theorem leave_frames : (cell.leave thread call rest).frames =
    Function.update cell.frames thread ((exit.extracted.map Frame.extracted).toList ++ rest) := by
  rw [leave_eq hsection]
  rfl

include hstack

theorem leave_held : (cell.leave thread call rest).held =
    Function.update (Function.update cell.held .slot members.shared.continuation)
      (.frame thread rest.length) exit.extracted := by
  have hholds : (exit.extracted.map Frame.extracted : Option (Frame Value Error)).bind
      Frame.holds = exit.extracted := by
    cases exit <;> rfl
  have hheld := held_eq_update (some (.inside call)) _ hstack (leave_frames hsection)
  rw [hholds] at hheld
  simpa [leave, hsection] using hheld

/-- A section that neither takes a continuation nor puts one down. -/
theorem leave_custody_same
    (hslot : members.shared.continuation = cell.members.shared.continuation)
    (hextracted : exit.extracted = call.brought) (hdropped : call.dropped exit = []) :
    (cell.leave thread call rest).custody = cell.custody := by
  have hkept : members.shared.continuation = cell.held .slot := hslot
  have hbrought : call.brought = cell.held (.frame thread rest.length) := (held_top hstack).symm
  simp only [custody, leave_held hstack hsection, hkept, hextracted, hbrought,
    Function.update_eq_self]
  simp [leave_eq hsection, hdropped, setStack]

/-- The continuation leaves the slot for the call that completed the state. -/
theorem leave_custody_extracts (hslot : cell.members.shared.continuation = some cont)
    (hempty : members.shared.continuation = none) (hexit : exit = .extracts cont)
    (hbrought : call.brought = none) :
    (cell.leave thread call rest).custody =
      cell.custody.transfer .slot (.frame thread rest.length) := by
  subst hexit
  have hdropped : call.dropped (.extracts cont) = [] := by
    cases call <;> rfl
  have hheld : cell.held .slot = some cont := hslot
  simp only [custody, Custody.transfer, leave_held hstack hsection, hempty, hheld]
  rw [Function.update_comm (by simp)]
  simp [leave_eq hsection, hdropped, setStack, Exit.extracted]

/-- The continuation of a call leaves its hands for the slot. -/
theorem leave_custody_stores (hslot : members.shared.continuation = some cont)
    (hexit : exit = .stores) (hbrought : call.brought = some cont) :
    (cell.leave thread call rest).custody =
      cell.custody.transfer (.frame thread rest.length) .slot := by
  subst hexit
  have hdropped : call.dropped .stores = [] := by
    cases call <;> rfl
  have hheld : cell.held (.frame thread rest.length) = some cont :=
    (held_top hstack).trans hbrought
  simp only [custody, Custody.transfer, leave_held hstack hsection, hslot, hheld]
  simp [leave_eq hsection, hdropped, setStack, Exit.extracted]

/-- A continuation that is neither stored nor handed back ends. -/
theorem leave_custody_dropped
    (hslot : members.shared.continuation = cell.members.shared.continuation)
    (hextracted : exit.extracted = none) (hdropped : call.dropped exit = [cont]) :
    (cell.leave thread call rest).custody =
      cell.custody.finish (.frame thread rest.length) cont := by
  have hkept : members.shared.continuation = cell.held .slot := hslot
  simp only [custody, Custody.finish, leave_held hstack hsection, hkept, hextracted,
    Function.update_eq_self]
  simp [leave_eq hsection, hdropped, setStack]

theorem Sound.leave_of (hsound : cell.Sound) (hmembers : members.Sound)
    (hcompleted : cell.members.shared.completed = true → members.shared.completed = true)
    (hextracts : ∀ cont, exit = .extracts cont → members.shared.completed = true)
    (hfuture : call = .getFuture → exit = .hands .ofPromise)
    (hcustody : (cell.leave thread call rest).custody.Sound) :
    (cell.leave thread call rest).Sound := by
  have hrest := hsound.rest_running hstack
  have hmine := (hsound.mutex thread).mpr (by simp [hstack, isInside])
  have hframes : (cell.leave thread call rest).frames = _ := leave_frames hsection
  have hmtx : (cell.leave thread call rest).mtx = none := by rw [leave_eq hsection]
  constructor
  case members => simpa [leave_eq hsection] using hmembers
  case custody => exact hcustody
  case outer => exact outer_update _ hsound.outer hrest hframes
  case mutex =>
    intro other
    by_cases hother : other = thread
    · subst hother
      have hout : isInside ((exit.extracted.map Frame.extracted).toList ++ rest) = false := by
        cases exit.extracted with
        | none => exact isInside_eq_false hrest
        | some cont => rfl
      simp [hmtx, hframes, hout]
    · have hfree := (hsound.mutex other).not.mp (by simp [hmine, Ne.symm hother])
      simp [hmtx, hframes, hother, hfree]
  case extracted =>
    rw [leave_eq hsection]
    refine extracted_update _ (fun other cont below hother => hcompleted
      (hsound.extracted other cont below hother)) hrest ?_ rfl
    intro cont hframe
    cases exit <;> simp [Exit.extracted] at hframe
    exact hextracts _ rfl
  case futures =>
    intro handed hmem
    rw [leave_eq hsection] at hmem
    rcases List.mem_append.mp hmem with hearlier | hlast
    · exact hsound.futures handed hearlier
    · obtain ⟨hcall, rfl⟩ := Prod.mk.inj (List.mem_singleton.mp hlast)
      exact hfuture hcall.symm
  case ran_nodup =>
    rw [leave_eq hsection]
    exact hsound.ran_nodup
  case ran_ended =>
    intro cont hran
    rw [leave_eq hsection] at hran ⊢
    exact List.mem_append_left _ (hsound.ran_ended cont hran)

/-- The end of a section that keeps every continuation where it is. -/
theorem Sound.leave_of_same (hsound : cell.Sound) (hmembers : members.Sound)
    (hcompleted : cell.members.shared.completed = true → members.shared.completed = true)
    (hextracts : ∀ cont, exit = .extracts cont → members.shared.completed = true)
    (hfuture : call = .getFuture → exit = .hands .ofPromise)
    (hslot : members.shared.continuation = cell.members.shared.continuation)
    (hextracted : exit.extracted = call.brought) (hdropped : call.dropped exit = []) :
    (cell.leave thread call rest).Sound := by
  have hsame := leave_custody_same hstack hsection hslot hextracted hdropped
  apply Sound.leave_of hstack hsection hsound hmembers hcompleted hextracts hfuture
  rw [hsame]
  exact hsound.custody

end Leave

/-- The sections of `set_value` and `set_exception`. -/
theorem Sound.leave_complete (hsound : cell.Sound) {result : Except Error Value}
    {copyThrows moveThrows : Bool} (hstack : cell.frames thread = .inside call :: rest)
    (hsection : call.criticalSection cell.members =
      cell.members.complete result copyThrows moveThrows)
    (hbrought : call.brought = none) (hget : call ≠ .getFuture) :
    (cell.leave thread call rest).Sound := by
  have hdropped : ∀ exit, call.dropped exit = [] := by
    intro exit
    cases call <;> simp_all [Call.brought, Call.dropped]
  have hfuture : ∀ exit : Exit, call = .getFuture → exit = .hands .ofPromise :=
    fun _ hcall => absurd hcall hget
  have hunchanged : cell.members.complete result copyThrows moveThrows =
      (cell.members, .throws) → (cell.leave thread call rest).Sound := by
    intro hthrows
    exact Sound.leave_of_same hstack (hsection.trans hthrows) hsound hsound.members id
      (fun _ hexit => by cases hexit) (hfuture _) rfl hbrought.symm (hdropped _)
  cases hpromise : cell.members.shared.promise with
  | some earlier => exact hunchanged (Members.complete_of_satisfied (by simp [hpromise]))
  | none =>
      cases copyThrows with
      | true => exact hunchanged Members.complete_of_copyThrows
      | false =>
          cases hslot : cell.members.shared.continuation with
          | none =>
              have hempty := hsection.trans (Members.complete_of_empty hpromise hslot)
              exact Sound.leave_of_same hstack hempty hsound (hsound.members.settle result)
                (fun _ => rfl) (fun _ hexit => by cases hexit) (hfuture _) hslot.symm
                hbrought.symm (hdropped _)
          | some cont =>
              cases moveThrows with
              | true =>
                  have hstrands := hsection.trans (Members.complete_strands hpromise hslot)
                  exact Sound.leave_of_same hstack hstrands hsound
                    (hsound.members.strand result hslot) (fun _ => rfl)
                    (fun _ hexit => by cases hexit) (hfuture _) hslot.symm hbrought.symm
                    (hdropped _)
              | false =>
                  have hextracts := hsection.trans (Members.complete_extracts hpromise hslot)
                  have htransfer := leave_custody_extracts hstack hextracts hslot rfl rfl hbrought
                  refine Sound.leave_of hstack hextracts hsound (hsound.members.settle result)
                    (fun _ => rfl) (fun _ _ => rfl) (hfuture _) ?_
                  rw [htransfer]
                  exact hsound.custody.transfer ((held_top hstack).trans hbrought)

theorem Sound.leave (hsound : cell.Sound) (hstack : cell.frames thread = .inside call :: rest) :
    (cell.leave thread call rest).Sound := by
  cases call with
  | getFuture =>
      obtain ⟨members, exit, hsection⟩ : ∃ members exit,
          cell.members.getFuture = (members, exit) := ⟨_, _, rfl⟩
      obtain ⟨rfl, hmembers, hpromise, hcompleted, hslot⟩ :=
        Members.getFuture_spec hsound.members hsection
      exact Sound.leave_of_same hstack hsection hsound hmembers (hcompleted ▸ ·)
        (fun _ hexit => by cases hexit) (fun _ => rfl) hslot rfl rfl
  | setValue value copyThrows moveThrows =>
      exact hsound.leave_complete hstack rfl rfl (by simp)
  | setException error moveThrows =>
      exact hsound.leave_complete hstack rfl rfl (by simp)
  | setContinuation cont throws =>
      obtain ⟨members, exit, hsection⟩ : ∃ members exit,
          cell.members.setContinuation cont throws = (members, exit) := ⟨_, _, rfl⟩
      rcases Members.setContinuation_cases hsection with
        ⟨rfl, hexit⟩ | ⟨hmark, hcompleted, rfl, rfl⟩ | ⟨hcompleted, rfl, rfl⟩
      case inl =>
        have hfinish : (cell.leave thread (.setContinuation cont throws) rest).custody =
            cell.custody.finish (.frame thread rest.length) cont := by
          rcases hexit with rfl | rfl <;>
            exact leave_custody_dropped hstack hsection rfl rfl rfl
        refine Sound.leave_of hstack hsection hsound hsound.members id ?_
          (fun hcall => by cases hcall) ?_
        · rintro other rfl
          simp at hexit
        · rw [hfinish]
          exact hsound.custody.finish (held_top hstack)
      case inr.inl =>
        have htransfer := leave_custody_stores hstack hsection rfl rfl rfl
        refine Sound.leave_of hstack hsection hsound ?_ id (fun _ hexit => by cases hexit)
          (fun hcall => by cases hcall) ?_
        · exact ⟨hsound.members.completed, fun _ => rfl, hsound.members.retrieved,
            hsound.members.future⟩
        · rw [htransfer]
          exact hsound.custody.transfer (hsound.members.slot_eq_none hmark)
      case inr.inr =>
        exact Sound.leave_of_same hstack hsection hsound hsound.members id (fun _ _ => hcompleted)
          (fun hcall => by cases hcall) rfl rfl rfl

end Cell

end RpcDemo.Threadpool.WriteOnce
