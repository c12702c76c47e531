import Mathlib.Order.Lattice.Nat
import RpcDemo.Core.Termination

/-!
# Fair behaviours

An endless behaviour of a system: at each time an event happens, or nothing.  An
agent that could make a step of its own for as long as it makes none must make
one in the end; nothing else is assumed about how fast the agents are.  A rank
that never rises is constant from some time on.
-/

namespace RpcDemo.Transition

variable {State Event Agent : Type*}

structure Behaviour (step : State → Event → Option State) where
  state : ℕ → State
  event : ℕ → Option Event
  next : ∀ time, (event time).elim (some (state time)) (step (state time)) =
    some (state (time + 1))

/-- The agent could make a step that is allowed. -/
def Enabled (step : State → Event → Option State) (agent : Event → Agent)
    (allowed : State → Event → Prop) (actor : Agent) (state : State) : Prop :=
  ∃ event, agent event = actor ∧ allowed state event ∧ step state event ≠ none

variable {step : State → Event → Option State} {agent : Event → Agent}
  {allowed : State → Event → Prop}

theorem not_enabled_of_quiet {state : State} (hquiet : Quiet step allowed state) (actor : Agent) :
    ¬Enabled step agent allowed actor state := by
  rintro ⟨event, -, hallowed, henabled⟩
  exact henabled (hquiet event hallowed)

namespace Behaviour

/-- Every event of the behaviour satisfies the guard when it happens. -/
def Respects (behaviour : Behaviour step) (guard : State → Event → Prop) : Prop :=
  ∀ time event, behaviour.event time = some event → guard (behaviour.state time) event

/-- Weak fairness. -/
def Fair (behaviour : Behaviour step) (agent : Event → Agent)
    (allowed : State → Event → Prop) : Prop :=
  ∀ actor start,
    (∀ time, start ≤ time → Enabled step agent allowed actor (behaviour.state time)) →
    ∃ time event, start ≤ time ∧ behaviour.event time = some event ∧ agent event = actor

variable {behaviour : Behaviour step}

theorem step_of_event {time : ℕ} {event : Event} (hevent : behaviour.event time = some event) :
    step (behaviour.state time) event = some (behaviour.state (time + 1)) := by
  have hnext := behaviour.next time
  rwa [hevent] at hnext

theorem state_of_no_event {time : ℕ} (hevent : behaviour.event time = none) :
    behaviour.state (time + 1) = behaviour.state time := by
  have hnext := behaviour.next time
  rw [hevent] at hnext
  exact (Option.some.inj hnext).symm

/-- What the steps after a time keep, all states after it have. -/
theorem invariant_from {holds : State → Prop} {start : ℕ} (hstart : holds (behaviour.state start))
    (hstep : ∀ time event, start ≤ time → behaviour.event time = some event →
      holds (behaviour.state time) → holds (behaviour.state (time + 1))) :
    ∀ time, start ≤ time → holds (behaviour.state time) := by
  intro time hle
  induction time, hle using Nat.le_induction with
  | base => exact hstart
  | succ time hle ih =>
      cases hevent : behaviour.event time with
      | none => rwa [state_of_no_event hevent]
      | some event => exact hstep time event hle hevent ih

theorem invariant {guard : State → Event → Prop} {holds : State → Prop}
    (hstep : ∀ state event next, holds state → guard state event →
      step state event = some next → holds next)
    (hrespects : behaviour.Respects guard) (hstart : holds (behaviour.state 0)) (time : ℕ) :
    holds (behaviour.state time) := by
  apply invariant_from hstart _ time (Nat.zero_le time)
  intro time event _ hevent hholds
  exact hstep _ event _ hholds (hrespects time event hevent) (step_of_event hevent)

/-- What holds until the agent steps, and lets it step, holds when it steps. -/
theorem Fair.exists_step (hfair : behaviour.Fair agent allowed) {actor : Agent} {start : ℕ}
    {holds : State → Prop} (hstart : holds (behaviour.state start))
    (hkeep : ∀ time event, start ≤ time → behaviour.event time = some event →
      agent event ≠ actor → holds (behaviour.state time) → holds (behaviour.state (time + 1)))
    (henabled : ∀ time, start ≤ time → holds (behaviour.state time) →
      Enabled step agent allowed actor (behaviour.state time)) :
    ∃ time event, start ≤ time ∧ behaviour.event time = some event ∧ agent event = actor ∧
      holds (behaviour.state time) := by
  by_contra hnone
  simp only [not_exists, not_and] at hnone
  have hholds : ∀ time, start ≤ time → holds (behaviour.state time) := by
    apply invariant_from hstart
    intro time event hle hevent htime
    apply hkeep time event hle hevent _ htime
    exact fun hactor => hnone time event hle hevent hactor htime
  obtain ⟨time, event, hle, hevent, hactor⟩ :=
    hfair actor start fun time hle => henabled time hle (hholds time hle)
  exact hnone time event hle hevent hactor (hholds time hle)

/-- A rank that no step raises settles. -/
theorem exists_constant {rank : State → ℕ} {start : ℕ}
    (hle : ∀ time event, start ≤ time → behaviour.event time = some event →
      rank (behaviour.state (time + 1)) ≤ rank (behaviour.state time)) :
    ∃ settled, start ≤ settled ∧
      ∀ time, settled ≤ time → rank (behaviour.state time) = rank (behaviour.state settled) := by
  let ranks : Set ℕ := {value | ∃ time, start ≤ time ∧ rank (behaviour.state time) = value}
  have hranks : ranks.Nonempty := ⟨_, start, le_rfl, rfl⟩
  obtain ⟨settled, hsettled, hmin⟩ := Nat.sInf_mem hranks
  refine ⟨settled, hsettled, fun time htime => le_antisymm ?_ ?_⟩
  · let below (state : State) : Prop := rank state ≤ rank (behaviour.state settled)
    have hstart : below (behaviour.state settled) := le_rfl
    apply invariant_from hstart _ time htime
    intro time event hlater hevent hbelow
    exact (hle time event (hsettled.trans hlater) hevent).trans hbelow
  · have hmem : rank (behaviour.state time) ∈ ranks :=
      ⟨time, hsettled.trans htime, rfl⟩
    calc
      rank (behaviour.state settled) = sInf ranks := hmin
      _ ≤ rank (behaviour.state time) := Nat.sInf_le hmem

/-- Without an event nothing changes. -/
theorem state_of_silent {start : ℕ} (hsilent : ∀ time, start ≤ time → behaviour.event time = none) :
    ∀ time, start ≤ time → behaviour.state time = behaviour.state start := by
  let same (state : State) : Prop := state = behaviour.state start
  have hstart : same (behaviour.state start) := rfl
  apply invariant_from hstart
  intro time event hle hevent _
  rw [hsilent time hle] at hevent
  simp at hevent

end Behaviour

/-! ## Working and searching -/

/-- Agents that have work or look for it.  A step of an agent that has work lowers the
load.  A step of one that has none keeps the load and the work of the others, and
while nobody has work, short of the goal, it brings the search nearer to its end. -/
structure Searches (step : State → Event → Option State) (agent : Event → Agent)
    (allowed : State → Event → Prop) (holds goal : State → Prop)
    (working : State → Agent → Prop) (load search : State → ℕ) : Prop where
  enabled : ∀ {state actor}, holds state → working state actor →
    Enabled step agent allowed actor state
  works : ∀ {state event next}, holds state → allowed state event →
    step state event = some next → working state (agent event) → load next < load state
  keeps : ∀ {state event next}, holds state → allowed state event →
    step state event = some next → ¬working state (agent event) →
    load next = load state ∧ (∀ actor, working state actor → working next actor) ∧
      (goal next → goal state)
  awake : ∀ {state}, holds state → (∀ actor, ¬working state actor) → ¬goal state →
    ∃ actor, Enabled step agent allowed actor state
  nears : ∀ {state event next}, holds state → allowed state event →
    step state event = some next → (∀ actor, ¬working state actor) → ¬goal state →
    (∃ actor, working next actor) ∨ search next < search state

namespace Searches

open Behaviour

variable {holds goal : State → Prop} {working : State → Agent → Prop} {load search : State → ℕ}
  {behaviour : Behaviour step} {start : ℕ}

theorem load_le (hsearches : Searches step agent allowed holds goal working load search)
    {state next : State} {event : Event} (hholds : holds state) (hallowed : allowed state event)
    (hstep : step state event = some next) : load next ≤ load state := by
  by_cases hworking : working state (agent event)
  · exact (hsearches.works hholds hallowed hstep hworking).le
  · exact (hsearches.keeps hholds hallowed hstep hworking).1.le

section Settled

variable (hsearches : Searches step agent allowed holds goal working load search)
  (hfair : behaviour.Fair agent allowed)
  (hholds : ∀ time, start ≤ time → holds (behaviour.state time))
  (hallowed : ∀ time event, start ≤ time → behaviour.event time = some event →
    allowed (behaviour.state time) event)
  (hload : ∀ time, start ≤ time → load (behaviour.state time) = load (behaviour.state start))

include hsearches hholds hallowed hload

/-- With a constant load no agent that has work makes a step. -/
theorem not_working_of_event {time : ℕ} {event : Event} (hle : start ≤ time)
    (hevent : behaviour.event time = some event) :
    ¬working (behaviour.state time) (agent event) := by
  intro hworking
  have hlower := hsearches.works (hholds time hle) (hallowed time event hle hevent)
    (step_of_event hevent) hworking
  have hbefore := hload time hle
  have hafter := hload (time + 1) (Nat.le_succ_of_le hle)
  omega

include hfair

theorem not_working {time : ℕ} (hle : start ≤ time) (actor : Agent) :
    ¬working (behaviour.state time) actor := by
  intro hworking
  let still (state : State) : Prop := working state actor
  have hkeep : ∀ later event, time ≤ later → behaviour.event later = some event →
      agent event ≠ actor → still (behaviour.state later) →
      still (behaviour.state (later + 1)) := by
    intro later event hlater hevent _ hstill
    have hidle := hsearches.not_working_of_event hholds hallowed hload (hle.trans hlater) hevent
    obtain ⟨_, hothers, _⟩ := hsearches.keeps (hholds later (hle.trans hlater))
      (hallowed later event (hle.trans hlater) hevent) (step_of_event hevent) hidle
    exact hothers actor hstill
  have henabled : ∀ later, time ≤ later → still (behaviour.state later) →
      Enabled step agent allowed actor (behaviour.state later) :=
    fun later hlater hstill => hsearches.enabled (hholds later (hle.trans hlater)) hstill
  obtain ⟨later, event, hlater, hevent, rfl, hstill⟩ :=
    hfair.exists_step hworking hkeep henabled
  exact hsearches.not_working_of_event hholds hallowed hload (hle.trans hlater) hevent hstill

/-- The search does not go on for ever. -/
theorem goal_of_constant {time : ℕ} (hle : start ≤ time) : goal (behaviour.state time) := by
  have hnone : ∀ later, time ≤ later → ∀ actor, ¬working (behaviour.state later) actor :=
    fun later hlater =>
      hsearches.not_working hfair hholds hallowed hload (hle.trans hlater)
  have hstep : ∀ later event, time ≤ later → behaviour.event later = some event →
      holds (behaviour.state later) ∧ allowed (behaviour.state later) event ∧
        step (behaviour.state later) event = some (behaviour.state (later + 1)) :=
    fun later event hlater hevent => ⟨hholds later (hle.trans hlater),
      hallowed later event (hle.trans hlater) hevent, step_of_event hevent⟩
  by_contra hshort
  let short (state : State) : Prop := ¬goal state
  have hstart : short (behaviour.state time) := hshort
  have hnever : ∀ later, time ≤ later → short (behaviour.state later) := by
    apply invariant_from hstart
    intro later event hlater hevent hstill hgoal
    obtain ⟨hat, hmay, hnext⟩ := hstep later event hlater hevent
    exact hstill ((hsearches.keeps hat hmay hnext (hnone later hlater _)).2.2 hgoal)
  have hnears : ∀ later event, time ≤ later → behaviour.event later = some event →
      search (behaviour.state (later + 1)) < search (behaviour.state later) := by
    intro later event hlater hevent
    obtain ⟨hat, hmay, hnext⟩ := hstep later event hlater hevent
    obtain ⟨actor, hworking⟩ | hlower :=
      hsearches.nears hat hmay hnext (hnone later hlater) (hnever later hlater)
    · exact absurd hworking (hnone (later + 1) (Nat.le_succ_of_le hlater) actor)
    · exact hlower
  obtain ⟨last, hlast, hconstant⟩ := exists_constant
    fun later event hlater hevent => (hnears later event hlater hevent).le
  have hsilent : ∀ later, last ≤ later → behaviour.event later = none := by
    intro later hlater
    cases hevent : behaviour.event later with
    | none => rfl
    | some event =>
        have hlower := hnears later event (hlast.trans hlater) hevent
        have hsame := (hconstant (later + 1) (Nat.le_succ_of_le hlater)).trans
          (hconstant later hlater).symm
        exact absurd hsame hlower.ne
  obtain ⟨actor, henabled⟩ :=
    hsearches.awake (hholds last (hle.trans hlast)) (hnone last hlast) (hnever last hlast)
  obtain ⟨later, event, hlater, hevent, _⟩ := hfair actor last fun later hlater => by
    rwa [state_of_silent hsilent later hlater]
  simp [hsilent later hlater] at hevent

end Settled

/-- Under fairness all work is done in the end, and the goal reached. -/
theorem settles (hsearches : Searches step agent allowed holds goal working load search)
    (hfair : behaviour.Fair agent allowed)
    (hholds : ∀ time, start ≤ time → holds (behaviour.state time))
    (hallowed : ∀ time event, start ≤ time → behaviour.event time = some event →
      allowed (behaviour.state time) event) :
    ∃ settled, start ≤ settled ∧ ∀ time, settled ≤ time →
      goal (behaviour.state time) ∧ ∀ actor, ¬working (behaviour.state time) actor := by
  obtain ⟨settled, hsettled, hload⟩ := exists_constant
    fun time event hle hevent =>
      hsearches.load_le (hholds time hle) (hallowed time event hle hevent) (step_of_event hevent)
  have hlater : ∀ time, settled ≤ time → holds (behaviour.state time) :=
    fun time hle => hholds time (hsettled.trans hle)
  have hmay : ∀ time event, settled ≤ time → behaviour.event time = some event →
      allowed (behaviour.state time) event :=
    fun time event hle => hallowed time event (hsettled.trans hle)
  exact ⟨settled, hsettled, fun time hle =>
    ⟨hsearches.goal_of_constant hfair hlater hmay hload hle,
      hsearches.not_working hfair hlater hmay hload hle⟩⟩

end Searches

/-! ## Finite runs -/

namespace Behaviour

section OfRun

variable {start final : State} {events : List Event}

theorem exists_run_take (hrun : run step start events = some final) (time : ℕ) :
    ∃ state, run step start (events.take time) = some state := by
  rw [← List.take_append_drop time events] at hrun
  obtain ⟨state, hstate, _⟩ := run_append.mp hrun
  exact ⟨state, hstate⟩

/-- A run, and nothing after it. -/
def ofRun (hrun : run step start events = some final) : Behaviour step where
  state time := (run step start (events.take time)).getD start
  event time := events[time]?
  next time := by
    obtain ⟨state, hstate⟩ := exists_run_take hrun time
    obtain ⟨next, hnext⟩ := exists_run_take hrun (time + 1)
    rw [hstate, hnext]
    rw [List.take_add_one, run_append] at hnext
    obtain ⟨middle, hmiddle, hlast⟩ := hnext
    obtain rfl := Option.some.inj (hstate.symm.trans hmiddle)
    cases hevent : events[time]? with
    | none =>
        rw [hevent] at hlast
        exact hlast
    | some event =>
        rw [hevent] at hlast
        obtain ⟨other, hother, hdone⟩ := run_cons.mp hlast
        rw [run_nil] at hdone
        exact hother.trans hdone

theorem state_ofRun (hrun : run step start events = some final) {time : ℕ}
    (htime : events.length ≤ time) : (ofRun hrun).state time = final := by
  simp only [ofRun, List.take_of_length_le htime, hrun, Option.getD_some]

theorem state_ofRun_zero (hrun : run step start events = some final) :
    (ofRun hrun).state 0 = start := by
  simp [ofRun]

theorem event_ofRun (hrun : run step start events = some final) {time : ℕ}
    (htime : events.length ≤ time) : (ofRun hrun).event time = none :=
  List.getElem?_eq_none htime

/-- A run to a quiet state is fair. -/
theorem fair_ofRun (hrun : run step start events = some final)
    (hquiet : Quiet step allowed final) : (ofRun hrun).Fair agent allowed := by
  intro actor time henabled
  have hfinal := henabled (max time events.length) (le_max_left _ _)
  rw [state_ofRun hrun (le_max_right _ _)] at hfinal
  exact absurd hfinal (not_enabled_of_quiet hquiet actor)

theorem respects_ofRun {guard : State → Event → Prop} (hrun : run step start events = some final)
    (hguarded : Guarded step guard start events) : (ofRun hrun).Respects guard := by
  intro time event hevent
  induction events generalizing start time with
  | nil => simp [ofRun] at hevent
  | cons first rest ih =>
      obtain ⟨next, hnext, hrest⟩ := run_cons.mp hrun
      cases time with
      | zero =>
          obtain rfl : first = event := Option.some.inj hevent
          rw [state_ofRun_zero hrun]
          exact hguarded.1
      | succ time =>
          have hlater := ih hrest (hguarded.2 next hnext) time hevent
          obtain ⟨state, hstate⟩ := exists_run_take hrest time
          simp only [ofRun, List.take_succ_cons, run, hnext, hstate, Option.bind_some,
            Option.getD_some] at hlater ⊢
          exact hlater

end OfRun

end Behaviour

end RpcDemo.Transition
