import Mathlib.Data.List.Basic

/-!
# Runs of executable transition systems

A system is a partial step function: `step state event` is `none` when the
event is not enabled.  This module runs lists of events and carries an invariant
over a run from what one step preserves.
-/

namespace RpcDemo.Transition

variable {State Event : Type*}

/-- Run a list of events from a state. -/
def run (step : State → Event → Option State) : State → List Event → Option State
  | state, [] => some state
  | state, event :: events =>
      (step state event).bind fun next => run step next events

/-- Every step of the run from `state` satisfies `guard` in the state before
it. -/
def Guarded (step : State → Event → Option State)
    (guard : State → Event → Prop) : State → List Event → Prop
  | _, [] => True
  | state, event :: events =>
      guard state event ∧
        ∀ next, step state event = some next → Guarded step guard next events

def Reachable (step : State → Event → Option State) (start state : State) : Prop :=
  ∃ events, run step start events = some state

variable {step : State → Event → Option State}

@[simp]
theorem run_nil (state : State) : run step state [] = some state := rfl

theorem run_cons {state final : State} {event : Event} {events : List Event} :
    run step state (event :: events) = some final ↔
      ∃ next, step state event = some next ∧ run step next events = some final := by
  simp only [run, Option.bind_eq_some_iff]

theorem run_append {state final : State} {left right : List Event} :
    run step state (left ++ right) = some final ↔
      ∃ middle, run step state left = some middle ∧
        run step middle right = some final := by
  induction left generalizing state with
  | nil => simp
  | cons event events ih =>
      simp only [List.cons_append, run_cons, ih]
      constructor
      · rintro ⟨next, hstep, middle, hleft, hright⟩
        exact ⟨middle, ⟨next, hstep, hleft⟩, hright⟩
      · rintro ⟨middle, ⟨next, hstep, hleft⟩, hright⟩
        exact ⟨next, hstep, middle, hleft, hright⟩

/-- The induction rule for guarded runs: what every guarded step preserves
holds at the end of every guarded run. -/
theorem run_invariant_of_guarded {guard : State → Event → Prop}
    {invariant : State → Prop}
    (hstep : ∀ state event next, invariant state → guard state event →
      step state event = some next → invariant next)
    {state final : State} {events : List Event}
    (hinvariant : invariant state) (hguarded : Guarded step guard state events)
    (hrun : run step state events = some final) : invariant final := by
  induction events generalizing state with
  | nil =>
      rw [run_nil, Option.some.injEq] at hrun
      exact hrun ▸ hinvariant
  | cons event events ih =>
      obtain ⟨next, hnext, hrest⟩ := run_cons.mp hrun
      obtain ⟨hguard, hguards⟩ := hguarded
      exact ih (hstep state event next hinvariant hguard hnext)
        (hguards next hnext) hrest

/-- What every event of a run satisfies in all states guards the run. -/
theorem guarded_of_forall {guard : State → Event → Prop} {events : List Event}
    (hguard : ∀ event ∈ events, ∀ state, guard state event) (state : State) :
    Guarded step guard state events := by
  induction events generalizing state with
  | nil => trivial
  | cons event events ih =>
      refine ⟨hguard event List.mem_cons_self state, fun next _ => ?_⟩
      exact ih (fun other hother => hguard other (List.mem_cons_of_mem event hother)) next

instance decidableGuarded {guard : State → Event → Prop}
    [∀ state event, Decidable (guard state event)] :
    (state : State) → (events : List Event) → Decidable (Guarded step guard state events)
  | _, [] => isTrue trivial
  | state, event :: events =>
      match hstep : step state event with
      | none =>
          decidable_of_iff (guard state event)
            ⟨fun hguard => ⟨hguard, fun next hnext => by simp [hstep] at hnext⟩, And.left⟩
      | some next =>
          have : Decidable (Guarded step guard next events) := decidableGuarded next events
          decidable_of_iff (guard state event ∧ Guarded step guard next events)
            ⟨fun h => ⟨h.1, fun other hother =>
                (Option.some.inj (hstep.symm.trans hother)) ▸ h.2⟩,
              fun h => ⟨h.1, h.2 next hstep⟩⟩

theorem Guarded.and {guard other : State → Event → Prop} {state : State}
    {events : List Event} (hguard : Guarded step guard state events)
    (hother : Guarded step other state events) :
    Guarded step (fun state event => guard state event ∧ other state event) state events := by
  induction events generalizing state with
  | nil => trivial
  | cons event events ih =>
      exact ⟨⟨hguard.1, hother.1⟩, fun next hnext => ih (hguard.2 next hnext) (hother.2 next hnext)⟩

/-- A guard of a run can be strengthened by what its steps preserve. -/
theorem Guarded.strengthen {guard stronger : State → Event → Prop}
    {invariant : State → Prop}
    (hstep : ∀ state event next, invariant state → guard state event →
      step state event = some next → invariant next ∧ stronger state event)
    {state final : State} {events : List Event}
    (hinvariant : invariant state) (hguarded : Guarded step guard state events)
    (hrun : run step state events = some final) : Guarded step stronger state events := by
  induction events generalizing state with
  | nil => trivial
  | cons event events ih =>
      obtain ⟨next, hnext, hrest⟩ := run_cons.mp hrun
      obtain ⟨hguard, hguards⟩ := hguarded
      obtain ⟨hkept, hstronger⟩ := hstep state event next hinvariant hguard hnext
      refine ⟨hstronger, fun other hother => ?_⟩
      obtain rfl := Option.some.inj (hnext.symm.trans hother)
      exact ih hkept (hguards next hnext) hrest

theorem run_invariant_of_forall {allowed : Event → Prop} {invariant : State → Prop}
    (hstep : ∀ state event next, invariant state → allowed event →
      step state event = some next → invariant next)
    {state final : State} {events : List Event}
    (hinvariant : invariant state) (hallowed : ∀ event ∈ events, allowed event)
    (hrun : run step state events = some final) : invariant final := by
  have hguarded : Guarded step (fun _ event => allowed event) state events :=
    guarded_of_forall (fun event hmem _ => hallowed event hmem) state
  exact run_invariant_of_guarded hstep hinvariant hguarded hrun

theorem run_invariant {invariant : State → Prop}
    (hstep : ∀ state event next, invariant state →
      step state event = some next → invariant next)
    {state final : State} {events : List Event}
    (hinvariant : invariant state)
    (hrun : run step state events = some final) : invariant final := by
  have hallowed : ∀ event ∈ events, (fun _ : Event => True) event :=
    fun _ _ => trivial
  exact run_invariant_of_forall
    (fun state event next h _ => hstep state event next h) hinvariant hallowed hrun

/-- What does not hold at the start of a run and holds at its end comes to hold by one of
its steps. -/
theorem exists_step_of_run (holds : State → Prop) {state final : State} {events : List Event}
    (hstart : ¬holds state) (hfinal : holds final) (hrun : run step state events = some final) :
    ∃ earlier event later before after, events = earlier ++ event :: later ∧
      run step state earlier = some before ∧ ¬holds before ∧
      step before event = some after ∧ holds after ∧ run step after later = some final := by
  induction events generalizing state with
  | nil =>
      rw [run_nil, Option.some.injEq] at hrun
      exact absurd (hrun ▸ hfinal) hstart
  | cons event events ih =>
      obtain ⟨next, hnext, hrest⟩ := run_cons.mp hrun
      by_cases hholds : holds next
      · exact ⟨[], event, events, state, next, rfl, rfl, hstart, hnext, hholds, hrest⟩
      · obtain ⟨earlier, last, later, before, after, rfl, hbefore, hrun'⟩ := ih hholds hrest
        exact ⟨event :: earlier, last, later, before, after, rfl,
          run_cons.mpr ⟨next, hnext, hbefore⟩, hrun'⟩

theorem reachable_invariant {invariant : State → Prop}
    (hstep : ∀ state event next, invariant state →
      step state event = some next → invariant next)
    {start state : State} (hinvariant : invariant start)
    (hreach : Reachable step start state) : invariant state := by
  obtain ⟨events, hrun⟩ := hreach
  exact run_invariant hstep hinvariant hrun

end RpcDemo.Transition
