import RpcDemo.Threadpool.ContinuationOnce

/-!
# The first completion and the stored continuation

The first completion fixes the result, and it alone takes the continuation out
of the slot.  The move that takes it out is the last thing of the section that
can throw: then the state is completed, the continuation is still in its slot,
and no later call reaches it.  A run strands a continuation exactly when such a
move throws in it.
-/

namespace RpcDemo.Threadpool.WriteOnce

open Transition

variable {Thread Value Error : Type*}

namespace Call

/-- The result that `set_value` or `set_exception` is given. -/
def result : Call Value Error → Option (Except Error Value)
  | setValue value _ _ => some (.ok value)
  | setException error _ => some (.error error)
  | _ => none

def copyThrows : Call Value Error → Bool
  | setValue _ copyThrows _ => copyThrows
  | _ => false

def moveThrows : Call Value Error → Bool
  | setValue _ _ moveThrows => moveThrows
  | setException _ moveThrows => moveThrows
  | _ => false

theorem criticalSection_of_result {call : Call Value Error} {result : Except Error Value}
    (hresult : call.result = some result) (members : Members Value Error) :
    call.criticalSection members =
      members.complete result call.copyThrows call.moveThrows := by
  cases call <;> simp_all [Call.result, criticalSection, Call.copyThrows, Call.moveThrows]

end Call

namespace Cell

/-- The call that completes the state: the promise takes its result. -/
def Completes (cell : Cell Thread Value Error) (call : Call Value Error) : Prop :=
  call.result ≠ none ∧ cell.members.shared.promise = none ∧ call.copyThrows = false

/-- A completed state with a continuation in its slot. -/
def Stranded (cell : Cell Thread Value Error) : Prop :=
  cell.members.shared.completed = true ∧ cell.members.shared.continuation ≠ none

end Cell

/-- A completing call that finds a continuation in the slot moves it out. -/
def MoveSucceeds (cell : Cell Thread Value Error) (event : Event Thread Value Error) : Prop :=
  ∀ thread call rest, event = .leave thread → cell.frames thread = .inside call :: rest →
    cell.Completes call → cell.members.shared.continuation ≠ none → call.moveThrows = false

variable [DecidableEq Thread] {cell after : Cell Thread Value Error}
  {event : Event Thread Value Error} {thread : Thread} {call : Call Value Error} {cont : ℕ}
  {rest : List (Frame Value Error)}

theorem step_sound (hsound : cell.Sound) (hstep : step cell event = some after) :
    after.Sound := by
  cases stepped_of_step hstep with
  | call _ _ hmay hbrought => exact hsound.enter hmay hbrought
  | lock _ _ _ hstack hmtx => exact hsound.lock hmtx hstack
  | leave _ _ _ hstack => exact hsound.leave hstack
  | start _ _ _ hstack => exact hsound.start hstack
  | finish _ _ _ hstack => exact hsound.finish hstack

/-- Only the end of a section changes the members. -/
theorem step_members (hstep : step cell event = some after) :
    ((∀ thread, event ≠ .leave thread) ∧ after.members = cell.members) ∨
      ∃ thread call rest, event = .leave thread ∧ cell.frames thread = .inside call :: rest ∧
        after = cell.leave thread call rest := by
  cases stepped_of_step hstep with
  | leave thread call rest hstack => exact .inr ⟨thread, call, rest, rfl, hstack, rfl⟩
  | call => exact .inl ⟨by simp, rfl⟩
  | lock => exact .inl ⟨by simp, rfl⟩
  | start => exact .inl ⟨by simp, rfl⟩
  | finish => exact .inl ⟨by simp, rfl⟩

theorem leave_members (cell : Cell Thread Value Error) (thread : Thread)
    (call : Call Value Error) (rest : List (Frame Value Error)) :
    (cell.leave thread call rest).members = (call.criticalSection cell.members).1 := rfl

omit [DecidableEq Thread] in
/-- The completing section writes the result and empties the slot, unless the
move out of the slot throws. -/
theorem section_of_completes (hcompletes : cell.Completes call) :
    ∃ result, call.result = some result ∧
      (call.criticalSection cell.members).1.shared.promise = some result ∧
      (call.criticalSection cell.members).1.shared.completed = true ∧
      (call.criticalSection cell.members).1.shared.continuation =
        if call.moveThrows then cell.members.shared.continuation else none := by
  obtain ⟨hresult, hpromise, hcopy⟩ := hcompletes
  obtain ⟨result, hresult⟩ := Option.ne_none_iff_exists'.mp hresult
  refine ⟨result, hresult, ?_⟩
  rw [Call.criticalSection_of_result hresult, hcopy]
  cases hslot : cell.members.shared.continuation with
  | none =>
      rw [Members.complete_of_empty hpromise hslot]
      exact ⟨rfl, rfl, by split <;> rfl⟩
  | some cont =>
      cases hmove : call.moveThrows with
      | true =>
          rw [Members.complete_strands hpromise hslot]
          exact ⟨rfl, rfl, rfl⟩
      | false =>
          rw [Members.complete_extracts hpromise hslot]
          exact ⟨rfl, rfl, rfl⟩

omit [DecidableEq Thread] in
/-- Every other section keeps the result and what is in the slot, and fills an
empty slot only before completion. -/
theorem section_of_not_completes (hsound : cell.Sound) (hother : ¬ cell.Completes call) :
    (call.criticalSection cell.members).1.shared.promise = cell.members.shared.promise ∧
      (call.criticalSection cell.members).1.shared.completed = cell.members.shared.completed ∧
      ((call.criticalSection cell.members).1.shared.continuation =
          cell.members.shared.continuation ∨
        cell.members.shared.completed = false ∧ cell.members.shared.continuation = none) := by
  cases hresult : call.result with
  | some result =>
      have hsame : call.criticalSection cell.members = (cell.members, .throws) := by
        rw [Call.criticalSection_of_result hresult]
        cases hcopy : call.copyThrows with
        | true => exact Members.complete_of_copyThrows
        | false =>
            apply Members.complete_of_satisfied
            rw [Option.isSome_iff_ne_none]
            exact fun hpromise => hother ⟨by simp [hresult], hpromise, hcopy⟩
      rw [hsame]
      exact ⟨rfl, rfl, .inl rfl⟩
  | none =>
      cases call with
      | getFuture =>
          obtain ⟨-, -, hpromise, hcompleted, hslot⟩ :=
            Members.getFuture_spec hsound.members (Eq.refl cell.members.getFuture)
          exact ⟨hpromise, hcompleted, .inl hslot⟩
      | setContinuation cont throws =>
          obtain ⟨members, exit, hsection⟩ : ∃ members exit,
              cell.members.setContinuation cont throws = (members, exit) := ⟨_, _, rfl⟩
          simp only [Call.criticalSection, hsection]
          rcases Members.setContinuation_cases hsection with
            ⟨rfl, -⟩ | ⟨hmark, hcompleted, rfl, -⟩ | ⟨-, rfl, -⟩
          · exact ⟨rfl, rfl, .inl rfl⟩
          · exact ⟨rfl, rfl, .inr ⟨hcompleted, hsound.members.slot_eq_none hmark⟩⟩
          · exact ⟨rfl, rfl, .inl rfl⟩
      | setValue => cases hresult
      | setException => cases hresult

/-- What one step keeps: the result, and the continuation in the slot unless
the completing call takes it; whoever completes later throws and changes
nothing; a continuation starts once, after completion and outside the mutex. -/
structure StepOnce (cell : Cell Thread Value Error) (event : Event Thread Value Error)
    (after : Cell Thread Value Error) : Prop where
  result : ∀ result, cell.members.shared.promise = some result →
    after.members.shared.promise = some result
  first : ∀ thread call rest, event = .leave thread → cell.frames thread = .inside call :: rest →
    cell.Completes call → after.members.shared.promise = call.result
  later : ∀ thread call rest, event = .leave thread → cell.frames thread = .inside call :: rest →
    call.result ≠ none → cell.members.shared.promise ≠ none →
      after.members = cell.members ∧ after.frames thread = rest ∧
        after.log = cell.log ++ [(call, .throws)]
  slot : ∀ cont, cell.members.shared.continuation = some cont →
    after.members.shared.continuation = some cont ∨
      ∃ thread call rest, event = .leave thread ∧ cell.frames thread = .inside call :: rest ∧
        cell.Completes call ∧ after.members.shared.continuation = none ∧
          after.frames thread = .extracted cont :: rest
  ran : after.ran = cell.ran ∨
    ∃ thread cont rest, event = .start thread ∧ cell.frames thread = .extracted cont :: rest ∧
      after.ran = cell.ran ++ [cont] ∧ cont ∉ cell.ran ∧
        cell.members.shared.completed = true ∧ cell.mtx ≠ some thread

theorem leave_later (hresult : call.result ≠ none) (hpromise : cell.members.shared.promise ≠ none) :
    (cell.leave thread call rest).members = cell.members ∧
      (cell.leave thread call rest).frames thread = rest ∧
        (cell.leave thread call rest).log = cell.log ++ [(call, .throws)] := by
  obtain ⟨result, hresult⟩ := Option.ne_none_iff_exists'.mp hresult
  have hsection : call.criticalSection cell.members = (cell.members, .throws) := by
    rw [Call.criticalSection_of_result hresult,
      Members.complete_of_satisfied (Option.isSome_iff_ne_none.mpr hpromise)]
  rw [Cell.leave_eq hsection]
  exact ⟨rfl, Function.update_self _ _ _, rfl⟩

theorem leave_slot (hsound : cell.Sound)
    (hslot : cell.members.shared.continuation = some cont) :
    (cell.leave thread call rest).members.shared.continuation = some cont ∨
      cell.Completes call ∧ (cell.leave thread call rest).members.shared.continuation = none ∧
        (cell.leave thread call rest).frames thread = .extracted cont :: rest := by
  by_cases hcompletes : cell.Completes call
  · obtain ⟨result, hresult⟩ := Option.ne_none_iff_exists'.mp hcompletes.1
    have hsection := Call.criticalSection_of_result hresult cell.members
    rw [hcompletes.2.2] at hsection
    cases hmove : call.moveThrows with
    | true =>
        rw [hmove, Members.complete_strands hcompletes.2.1 hslot] at hsection
        exact .inl (by rw [Cell.leave_eq hsection])
    | false =>
        rw [hmove, Members.complete_extracts hcompletes.2.1 hslot] at hsection
        refine .inr ⟨hcompletes, ?_⟩
        rw [Cell.leave_eq hsection]
        exact ⟨rfl, Function.update_self _ _ _⟩
  · obtain ⟨-, -, hkept | ⟨-, hempty⟩⟩ := section_of_not_completes hsound hcompletes
    · exact .inl (hkept.trans hslot)
    · rw [hslot] at hempty
      cases hempty

theorem step_leave (hstack : cell.frames thread = .inside call :: rest)
    (hstep : step cell (.leave thread) = some after) : after = cell.leave thread call rest := by
  simpa [step, hstack, eq_comm] using hstep

theorem step_ran (hsound : cell.Sound) (hstep : step cell event = some after) :
    after.ran = cell.ran ∨
      ∃ thread cont rest, event = .start thread ∧ cell.frames thread = .extracted cont :: rest ∧
        after.ran = cell.ran ++ [cont] ∧ cont ∉ cell.ran ∧
          cell.members.shared.completed = true ∧ cell.mtx ≠ some thread := by
  cases stepped_of_step hstep with
  | start thread cont rest hstack =>
      have hholds : cell.custody.held (.frame thread rest.length) = some cont :=
        Cell.held_top hstack
      refine .inr ⟨thread, cont, rest, rfl, hstack, rfl, ?_, ?_, ?_⟩
      · exact fun hran => hsound.custody.held_not_ended hholds (hsound.ran_ended cont hran)
      · exact hsound.extracted thread cont rest hstack
      · exact (hsound.mutex thread).not.mpr (by simp [hstack, isInside])
  | call => exact .inl rfl
  | lock => exact .inl rfl
  | leave => exact .inl rfl
  | finish => exact .inl rfl

theorem step_once (hsound : cell.Sound) (hstep : step cell event = some after) :
    StepOnce cell event after where
  result := by
    intro result hpromise
    rcases step_members hstep with ⟨-, hsame⟩ | ⟨thread, call, rest, -, -, rfl⟩
    · rw [hsame, hpromise]
    · have hother : ¬ cell.Completes call := fun hcompletes => by
        simp [hcompletes.2.1] at hpromise
      exact (section_of_not_completes hsound hother).1.trans hpromise
  first := by
    rintro thread call rest rfl hstack hcompletes
    obtain ⟨result, hresult, hpromise, -⟩ := section_of_completes hcompletes
    rw [step_leave hstack hstep, leave_members, hpromise, hresult]
  later := by
    rintro thread call rest rfl hstack hresult hpromise
    rw [step_leave hstack hstep]
    exact leave_later hresult hpromise
  slot := by
    intro cont hslot
    rcases step_members hstep with ⟨-, hsame⟩ | ⟨thread, call, rest, rfl, hstack, rfl⟩
    · exact .inl (by rw [hsame, hslot])
    · exact (leave_slot hsound hslot).imp id fun htaken =>
        ⟨thread, call, rest, rfl, hstack, htaken⟩
  ran := step_ran hsound hstep

/-! ## Stranded continuations -/

/-- A completed state with this continuation in its slot. -/
structure Strands (cont : ℕ) (cell : Cell Thread Value Error) : Prop where
  sound : cell.Sound
  completed : cell.members.shared.completed = true
  slot : cell.members.shared.continuation = some cont

omit [DecidableEq Thread] in
/-- A stranded continuation has not run. -/
theorem Strands.not_ran (hstrands : Strands cont cell) : cont ∉ cell.ran := by
  intro hran
  have hheld : cell.custody.held .slot = some cont := hstrands.slot
  exact hstrands.sound.custody.held_not_ended hheld (hstrands.sound.ran_ended cont hran)

/-- A stranded continuation stays where it is. -/
theorem Strands.kept (hstrands : Strands cont cell) (hstep : step cell event = some after) :
    Strands cont after := by
  have hpromise : cell.members.shared.promise ≠ none := by
    rw [← Option.isSome_iff_ne_none, ← hstrands.sound.members.completed, hstrands.completed]
  obtain ⟨result, hresult⟩ := Option.ne_none_iff_exists'.mp hpromise
  have hsound := step_sound hstrands.sound hstep
  have honce := step_once hstrands.sound hstep
  refine ⟨hsound, ?_, ?_⟩
  · rw [hsound.members.completed, honce.result result hresult]
    rfl
  · rcases honce.slot cont hstrands.slot with hsame | ⟨thread, call, rest, -, -, hcompletes, -⟩
    · exact hsame
    · exact absurd hcompletes.2.1 hpromise

theorem Strands.run_kept {events : List (Event Thread Value Error)} (hstrands : Strands cont cell)
    (hrun : run step cell events = some after) : Strands cont after :=
  run_invariant (fun _ _ _ hstate => hstate.kept) hstrands hrun

/-- From a state that strands nothing, a step strands a continuation exactly when
the move of the completing call throws. -/
theorem not_stranded_iff (hsound : cell.Sound) (hfree : ¬ cell.Stranded)
    (hstep : step cell event = some after) : ¬ after.Stranded ↔ MoveSucceeds cell event := by
  rcases step_members hstep with ⟨hevent, hsame⟩ | ⟨thread, call, rest, rfl, hstack, rfl⟩
  case inl =>
    have hafter : ¬ after.Stranded := by
      rw [Cell.Stranded, hsame]
      exact hfree
    exact iff_of_true hafter fun thread _ _ hleave => absurd hleave (hevent thread)
  case inr =>
    have hmove : MoveSucceeds cell (.leave thread) ↔
        (cell.Completes call → cell.members.shared.continuation ≠ none →
          call.moveThrows = false) := by
      constructor
      · exact fun hmoves => hmoves thread call rest rfl hstack
      · rintro hmoves other call' rest' hleave hother
        obtain rfl : thread = other := by simpa using hleave
        obtain ⟨rfl, rfl⟩ : call = call' ∧ rest = rest' := by simpa [hstack] using hother
        exact hmoves
    rw [hmove, Cell.Stranded, leave_members]
    by_cases hcompletes : cell.Completes call
    · obtain ⟨result, -, -, hcompleted, hslot⟩ := section_of_completes hcompletes
      rw [hcompleted, hslot]
      cases call.moveThrows <;> simp [hcompletes]
    · obtain ⟨-, hcompleted, hslot⟩ := section_of_not_completes hsound hcompletes
      refine iff_of_true ?_ fun hyes => absurd hyes hcompletes
      rintro ⟨hafter, hfull⟩
      rw [hcompleted] at hafter
      rcases hslot with hsame | ⟨hopen, -⟩
      · exact hfree ⟨hafter, hsame ▸ hfull⟩
      · simp [hopen] at hafter

/-- A run ends with nothing stranded exactly when all its moves succeed. -/
theorem guarded_iff_not_stranded {events : List (Event Thread Value Error)}
    (hsound : cell.Sound) (hfree : ¬ cell.Stranded) (hrun : run step cell events = some after) :
    Guarded step MoveSucceeds cell events ↔ ¬ after.Stranded := by
  induction events generalizing cell with
  | nil =>
      rw [run_nil, Option.some.injEq] at hrun
      subst hrun
      exact iff_of_true trivial hfree
  | cons event events ih =>
      obtain ⟨next, hstep, hrest⟩ := run_cons.mp hrun
      have hnext := not_stranded_iff hsound hfree hstep
      by_cases hmove : MoveSucceeds cell event
      · rw [← ih (step_sound hsound hstep) (hnext.mpr hmove) hrest]
        constructor
        · exact fun hguarded => hguarded.2 next hstep
        · refine fun hguarded => ⟨hmove, fun other hother => ?_⟩
          obtain rfl := Option.some.inj (hstep.symm.trans hother)
          exact hguarded
      · refine iff_of_false (fun hguarded => hmove hguarded.1) (not_not.mpr ?_)
        obtain ⟨hcompleted, hfull⟩ := not_not.mp (hnext.not.mpr hmove)
        obtain ⟨cont, hslot⟩ := Option.ne_none_iff_exists'.mp hfull
        have hkept : Strands cont after :=
          Strands.run_kept ⟨step_sound hsound hstep, hcompleted, hslot⟩ hrest
        exact ⟨hkept.completed, by simp [hkept.slot]⟩

/-! ## Runs -/

omit [DecidableEq Thread] in
theorem fresh_not_stranded : ¬ (Cell.fresh : Cell Thread Value Error).Stranded := by
  rintro ⟨hcompleted, -⟩
  cases hcompleted

theorem run_sound {events : List (Event Thread Value Error)}
    (hrun : run step Cell.fresh events = some cell) : cell.Sound :=
  run_invariant (fun _ _ _ => step_sound) Cell.fresh_sound hrun

/-- A state whose promise has this result. -/
structure Written (result : Except Error Value) (cell : Cell Thread Value Error) : Prop where
  sound : cell.Sound
  result : cell.members.shared.promise = some result

theorem Written.run_kept {result : Except Error Value} {events : List (Event Thread Value Error)}
    (hwritten : Written result cell) (hrun : run step cell events = some after) :
    Written result after := by
  refine run_invariant (fun _ _ _ hstate hstep => ?_) hwritten hrun
  exact ⟨step_sound hstate.sound hstep, (step_once hstate.sound hstep).result _ hstate.result⟩

/-- In every state of every run: each continuation has run at most once, every
future is the one of the promise, and the next step keeps the result and the
slot as it should; the result of a completed state stays for ever.  The first
completing call has taken the stored continuation exactly when no such move
has thrown. -/
theorem written_once_extracted_iff {events : List (Event Thread Value Error)}
    (hrun : run step Cell.fresh events = some cell) :
    (cell.ran.Nodup ∧ (∀ exit, (Call.getFuture, exit) ∈ cell.log → exit = .hands .ofPromise)) ∧
      (∀ event after, step cell event = some after → StepOnce cell event after) ∧
      (∀ later final result, run step cell later = some final →
        cell.members.shared.promise = some result →
          final.members.shared.promise = some result) ∧
      (Guarded step MoveSucceeds Cell.fresh events ↔
        (cell.members.shared.completed = true → cell.members.shared.continuation = none)) := by
  have hsound := run_sound hrun
  refine ⟨⟨hsound.ran_nodup, hsound.futures⟩, fun _ _ => step_once hsound, ?_, ?_⟩
  · intro later final result hlater hpromise
    exact (Written.run_kept ⟨hsound, hpromise⟩ hlater).result
  · rw [guarded_iff_not_stranded Cell.fresh_sound fresh_not_stranded hrun, Cell.Stranded, not_and,
      not_not]

/-- A continuation is stored, a second thread takes the future and completes the
state, and the continuation it runs tries to complete the state again. -/
def completedTwice : List (Event ℕ ℕ ℕ) :=
  [.call 0 (.setContinuation 0 false), .lock 0, .leave 0, .call 1 .getFuture, .lock 1, .leave 1,
    .call 1 (.setValue 7 false false), .lock 1, .leave 1, .start 1,
    .call 1 (.setException 3 false), .lock 1, .leave 1, .finish 1]

theorem written_once_completedTwice :
    Guarded step MoveSucceeds (Cell.fresh : Cell ℕ ℕ ℕ) completedTwice := by
  have hrun : run step Cell.fresh completedTwice = some _ := rfl
  exact (written_once_extracted_iff hrun).2.2.2.mpr fun _ => rfl

/-- The move of the stored continuation throws in `set_value`. -/
def throwingMove : List (Event ℕ ℕ ℕ) :=
  [.call 0 (.setContinuation 0 false), .lock 0, .leave 0,
    .call 0 (.setValue 7 false true), .lock 0, .leave 0]

/-- The first completing call throws with the state completed, and nobody ever
takes the continuation out of its slot. -/
theorem throwingMove_strands :
    ∃ cell : Cell ℕ ℕ ℕ, run step Cell.fresh throwingMove = some cell ∧
      cell.members.shared.promise = some (.ok 7) ∧
      cell.members.shared.continuation = some 0 ∧
      cell.log = [(.setContinuation 0 false, .stores), (.setValue 7 false true, .throws)] ∧
      ∀ later final, run step cell later = some final →
        final.members.shared.continuation = some 0 ∧ 0 ∉ final.ran := by
  have hrun : run step Cell.fresh throwingMove = some _ := rfl
  refine ⟨_, hrun, rfl, rfl, rfl, fun later final hlater => ?_⟩
  have hstrands : Strands 0 final := Strands.run_kept ⟨run_sound hrun, rfl, rfl⟩ hlater
  exact ⟨hstrands.slot, hstrands.not_ran⟩

end RpcDemo.Threadpool.WriteOnce
