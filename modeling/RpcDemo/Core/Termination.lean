import Mathlib.Order.WellFounded
import RpcDemo.Core.Transition

/-!
# Runs that come to an end

Some events of a system go on by themselves and some wait for its environment.
A ranking lowers with every event of the first kind, so a run of such events
cannot go on for ever; what it leads to is a quiet state, where none of them is
enabled.  With an order that has no infinite descent the bound may depend on
what happens in the run; with the natural numbers it is known in advance.
-/

namespace RpcDemo.Transition

variable {State Event Rank : Type*}

/-- None of the allowed events is enabled. -/
def Quiet (step : State → Event → Option State) (allowed : State → Event → Prop)
    (state : State) : Prop :=
  ∀ event, allowed state event → step state event = none

/-- The allowed events preserve the invariant and lower the rank. -/
structure Ranked [LT Rank] (step : State → Event → Option State)
    (allowed : State → Event → Prop) (invariant : State → Prop) (rank : State → Rank) :
    Prop where
  kept : ∀ {state event next}, invariant state → allowed state event →
    step state event = some next → invariant next
  lower : ∀ {state event next}, invariant state → allowed state event →
    step state event = some next → rank next < rank state

namespace Ranked

variable {step : State → Event → Option State} {allowed : State → Event → Prop}
  {invariant : State → Prop}

theorem run_kept [LT Rank] {rank : State → Rank} (hranked : Ranked step allowed invariant rank)
    {state final : State} {events : List Event} (hinvariant : invariant state)
    (hguarded : Guarded step allowed state events) (hrun : run step state events = some final) :
    invariant final :=
  run_invariant_of_guarded (fun _ _ _ => hranked.kept) hinvariant hguarded hrun

section WellFounded

variable [Preorder Rank] [WellFoundedLT Rank] {rank : State → Rank}

/-- Every state can be run to a quiet one. -/
theorem exists_quiet (hranked : Ranked step allowed invariant rank) {state : State}
    (hinvariant : invariant state) :
    ∃ events final, Guarded step allowed state events ∧
      run step state events = some final ∧ Quiet step allowed final := by
  induction hrank : rank state using WellFoundedLT.induction generalizing state with
  | ind top ih =>
      by_cases hquiet : Quiet step allowed state
      · exact ⟨[], state, trivial, rfl, hquiet⟩
      · simp only [Quiet, not_forall] at hquiet
        obtain ⟨event, hallowed, henabled⟩ := hquiet
        obtain ⟨next, hnext⟩ := Option.ne_none_iff_exists'.mp henabled
        have hlower : rank next < top := hrank ▸ hranked.lower hinvariant hallowed hnext
        obtain ⟨events, final, hguarded, hrun, hfinal⟩ :=
          ih (rank next) hlower (hranked.kept hinvariant hallowed hnext) rfl
        refine ⟨event :: events, final, ⟨hallowed, fun other hother => ?_⟩,
          run_cons.mpr ⟨next, hnext, hrun⟩, hfinal⟩
        obtain rfl := Option.some.inj (hnext.symm.trans hother)
        exact hguarded

/-- No run of allowed events goes on for ever. -/
theorem not_infinite (hranked : Ranked step allowed invariant rank) {states : ℕ → State}
    (hinvariant : invariant (states 0)) :
    ¬ ∀ n, ∃ event, allowed (states n) event ∧ step (states n) event = some (states (n + 1)) := by
  intro hforever
  have hkept : ∀ n, invariant (states n) := by
    intro n
    induction n with
    | zero => exact hinvariant
    | succ n ih =>
        obtain ⟨event, hallowed, hstep⟩ := hforever n
        exact hranked.kept ih hallowed hstep
  obtain ⟨n, hnot⟩ := WellFounded.not_rel_apply_succ (r := (· < ·)) fun n => rank (states n)
  obtain ⟨event, hallowed, hstep⟩ := hforever n
  exact hnot (hranked.lower (hkept n) hallowed hstep)

end WellFounded

/-- The rank bounds the length of a run. -/
theorem length_add_le {rank : State → ℕ} (hranked : Ranked step allowed invariant rank)
    {state final : State} {events : List Event} (hinvariant : invariant state)
    (hguarded : Guarded step allowed state events) (hrun : run step state events = some final) :
    events.length + rank final ≤ rank state := by
  induction events generalizing state with
  | nil =>
      rw [run_nil, Option.some.injEq] at hrun
      rw [hrun, List.length_nil, Nat.zero_add]
  | cons event events ih =>
      obtain ⟨next, hnext, hrest⟩ := run_cons.mp hrun
      have hlower := hranked.lower hinvariant hguarded.1 hnext
      have hbound := ih (hranked.kept hinvariant hguarded.1 hnext) (hguarded.2 next hnext) hrest
      rw [List.length_cons]
      omega

end Ranked

end RpcDemo.Transition
