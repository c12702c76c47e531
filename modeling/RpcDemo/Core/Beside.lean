import RpcDemo.Core.Ledger
import RpcDemo.Core.Termination

/-!
# Systems beside each other

Any number of copies of one system, of which one at a time makes a step.  If what
one of them does by itself lowers a rank, what all of them do lowers the sum of
the ranks; and all are at rest when each is.  A system that such copies simulate
inherits their ranking.
-/

namespace RpcDemo.Transition

open Ledger

variable {State Event Rank : Type*}

/-- One of the systems makes a step. -/
def stepAt (step : State → Event → Option State) (states : List State) (event : ℕ × Event) :
    Option (List State) :=
  states[event.1]?.bind fun state => (step state event.2).map (states.set event.1)

/-- What is required of an event is required in the system that makes the step. -/
def At (guard : State → Event → Prop) (states : List State) (event : ℕ × Event) : Prop :=
  ∀ state ∈ states[event.1]?, guard state event.2

variable {step : State → Event → Option State} {allowed : State → Event → Prop}
  {invariant : State → Prop} {states next : List State} {event : ℕ × Event}

theorem stepAt_eq_some : stepAt step states event = some next ↔
    ∃ state moved, states[event.1]? = some state ∧ step state event.2 = some moved ∧
      states.set event.1 moved = next := by
  simp only [stepAt, Option.bind_eq_some_iff, Option.map_eq_some_iff]
  constructor
  · rintro ⟨state, hstate, moved, hmoved, hnext⟩
    exact ⟨state, moved, hstate, hmoved, hnext⟩
  · rintro ⟨state, moved, hstate, hmoved, hnext⟩
    exact ⟨state, hstate, moved, hmoved, hnext⟩

theorem forall_set {index : ℕ} {moved : State} (hall : ∀ state ∈ states, invariant state)
    (hmoved : invariant moved) : ∀ state ∈ states.set index moved, invariant state := by
  intro state hstate
  rcases List.mem_or_eq_of_mem_set hstate with hold | rfl
  · exact hall state hold
  · exact hmoved

/-- Each system is at rest when nothing moves. -/
theorem Quiet.of_stepAt (hquiet : Quiet (stepAt step) (At allowed) states) {index : ℕ}
    {state : State} (hstate : states[index]? = some state) : Quiet step allowed state := by
  intro event hallowed
  have hat : At allowed states (index, event) := by
    intro other hother
    obtain rfl := Option.some.inj (hstate.symm.trans hother)
    exact hallowed
  have hnone := hquiet (index, event) hat
  simpa [stepAt, hstate] using hnone

section Rank

variable [AddCommMonoid Rank] [PartialOrder Rank] [IsOrderedCancelAddMonoid Rank]
variable {rank : State → Rank}

theorem total_set_lt {index : ℕ} {state moved : State} (hstate : states[index]? = some state)
    (hlower : rank moved < rank state) :
    total rank (states.set index moved) < total rank states := by
  have hset : total rank (states.set index moved) + rank state = total rank states + rank moved :=
    total_set moved hstate
  have hsum : total rank (states.set index moved) + rank moved <
      total rank (states.set index moved) + rank state := by gcongr
  rw [hset] at hsum
  exact lt_of_add_lt_add_right hsum

theorem Ranked.stepAt (hranked : Ranked step allowed invariant rank) :
    Ranked (stepAt step) (At allowed) (fun states => ∀ state ∈ states, invariant state)
      (total rank) where
  kept := by
    intro states event next hall hallowed hstep
    obtain ⟨state, moved, hstate, hmoved, rfl⟩ := stepAt_eq_some.mp hstep
    have hholds := hall state (List.mem_of_getElem? hstate)
    exact forall_set hall (hranked.kept hholds (hallowed state hstate) hmoved)
  lower := by
    intro states event next hall hallowed hstep
    obtain ⟨state, moved, hstate, hmoved, rfl⟩ := stepAt_eq_some.mp hstep
    have hholds := hall state (List.mem_of_getElem? hstate)
    exact total_set_lt hstate (hranked.lower hholds (hallowed state hstate) hmoved)

end Rank

/-! ## A system seen as another -/

section View

variable {Whole Action : Type*} {whole : Whole → Action → Option Whole}
  {may : Whole → Action → Prop} {holds : Whole → Prop} {view : Whole → State} [LT Rank]
  {rank : State → Rank}

/-- What is allowed shows as something that is allowed in the view. -/
theorem Ranked.of_view (hranked : Ranked step allowed invariant rank)
    (hinvariant : ∀ {state}, holds state → invariant (view state))
    (hkept : ∀ {state action next}, holds state → may state action →
      whole state action = some next → holds next)
    (hview : ∀ {state action next}, holds state → may state action →
      whole state action = some next →
      ∃ event, allowed (view state) event ∧ step (view state) event = some (view next)) :
    Ranked whole may holds (rank ∘ view) where
  kept := hkept
  lower := by
    intro state action next hholds hmay hstep
    obtain ⟨event, hallowed, hmoved⟩ := hview hholds hmay hstep
    exact hranked.lower (hinvariant hholds) hallowed hmoved

end View

/-! ## Longer runs -/

theorem Guarded.concat {guard : State → Event → Prop} {state middle : State}
    {events : List Event} {event : Event} (hguarded : Guarded step guard state events)
    (hrun : run step state events = some middle) (hguard : guard middle event) :
    Guarded step guard state (events ++ [event]) := by
  induction events generalizing state with
  | nil =>
      rw [run_nil, Option.some.injEq] at hrun
      exact ⟨hrun ▸ hguard, fun _ _ => trivial⟩
  | cons first events ih =>
      obtain ⟨next, hnext, hrest⟩ := run_cons.mp hrun
      refine ⟨hguarded.1, fun other hother => ?_⟩
      obtain rfl := Option.some.inj (hnext.symm.trans hother)
      exact ih (hguarded.2 next hnext) hrest

theorem run_concat {state middle final : State} {events : List Event} {event : Event}
    (hrun : run step state events = some middle) (hstep : step middle event = some final) :
    run step state (events ++ [event]) = some final :=
  run_append.mpr ⟨middle, hrun, run_cons.mpr ⟨final, hstep, run_nil final⟩⟩

end RpcDemo.Transition
