import RpcDemo.Threadpool.Futures

/-!
# What `get` returns

A call of `get` or `wait` returns once the shared state is completed, and what it
told stays true: all calls on one future tell the same result, and on the last
future of a chain it is the composition of the functions.
-/

namespace RpcDemo.Threadpool

open Ledger Transition

variable {Fn Value Error : Type}

/-- What a call has told is so. -/
def Seen.Holds (states : List (Stage Fn Value Error)) : Seen Value Error → Prop
  | .noState => True
  | .ready state => Completed states state
  | .result state completion =>
      ∃ stage, states[state]? = some stage ∧ stage.cell.promise = some completion

theorem Seen.Holds.persists {memory memory' : Memory Fn Value Error} {seen : Seen Value Error}
    (hholds : seen.Holds memory.states) (hextends : memory.Extends memory') :
    seen.Holds memory'.states := by
  cases seen with
  | noState => trivial
  | ready state => exact Completed.persists hholds hextends
  | result state completion =>
      obtain ⟨before, hbefore, hpromise⟩ := hholds
      obtain ⟨after, hafter, hpersists⟩ := hextends.states state before hbefore
      exact ⟨after, hafter, hpersists.promise completion hpromise⟩

/-- A call tells what the promise holds. -/
theorem FutureCall.sees_holds {states : List (Stage Fn Value Error)} {call : FutureCall}
    {stage : Stage Fn Value Error} {completion : Completion Value Error}
    (hstage : states[call.state]? = some stage)
    (hpromise : stage.cell.promise = some completion) : (call.sees completion).Holds states := by
  cases haccess : call.access with
  | get =>
      simp only [sees, haccess]
      exact ⟨stage, hstage, hpromise⟩
  | wait =>
      simp only [sees, haccess]
      exact ⟨stage, hstage, by rw [hpromise]; rfl⟩

namespace Futures

variable {futures next : Futures Fn Value Error} {event : Event Fn Value Error}

/-- All that the calls have told is so. -/
def SeenHolds (futures : Futures Fn Value Error) : Prop :=
  ∀ entry ∈ futures.seen, entry.2.Holds futures.pool.memory.states

theorem seenHolds_step (hholds : futures.SeenHolds) (hstep : futures.step event = some next) :
    next.SeenHolds := by
  have hextends := extends_step hstep
  cases stepped_of_step hstep with
  | pool | access => exact fun entry hentry => (hholds entry hentry).persists hextends
  | noState thread access =>
      intro entry hentry
      rcases List.mem_append.mp hentry with hold | hnew
      · exact hholds entry hold
      · rw [List.mem_singleton.mp hnew]
        trivial
  | ready thread call stage completion hcall hstage hpromise =>
      intro entry hentry
      rcases List.mem_append.mp hentry with hold | hnew
      · exact hholds entry hold
      · rw [List.mem_singleton.mp hnew]
        exact FutureCall.sees_holds hstage hpromise

theorem seenHolds_of_run {workers callers : ℕ} {events : List (Event Fn Value Error)}
    (hrun : run step (start workers callers) events = some futures) : futures.SeenHolds := by
  have hstart : (start workers callers : Futures Fn Value Error).SeenHolds := by
    simp [SeenHolds, start]
  exact run_invariant (fun _ _ _ => seenHolds_step) hstart hrun

/-- What the calls have told is not forgotten. -/
theorem seen_of_run {events : List (Event Fn Value Error)}
    (hrun : run step futures events = some next) : ∀ entry ∈ futures.seen, entry ∈ next.seen := by
  have hstep : ∀ (middle : Futures Fn Value Error) (event : Event Fn Value Error)
      (after : Futures Fn Value Error), (∀ entry ∈ futures.seen, entry ∈ middle.seen) →
      middle.step event = some after → ∀ entry ∈ futures.seen, entry ∈ after.seen := by
    intro middle event after hseen hafter entry hentry
    cases stepped_of_step hafter with
    | pool | access => exact hseen entry hentry
    | noState | ready => exact List.mem_append_left _ (hseen entry hentry)
  exact run_invariant hstep (fun _ hentry => hentry) hrun

/-- A `wait` that has returned leaves its future ready for good.  A `get` that has
returned tells what the promise holds from then on; every other `get` of the future,
earlier or later and on any thread, tells the same; and on a future at the end of a
chain it is the composition of the functions, which have all returned when it is a
value. -/
theorem results_of_run {workers callers : ℕ} {events later : List (Event Fn Value Error)}
    {final : Futures Fn Value Error}
    (hrun : run step (start workers callers) events = some futures)
    (hlater : run step futures later = some final) :
    (∀ thread state, (thread, .ready state) ∈ futures.seen →
      Completed final.pool.memory.states state) ∧
    ∀ thread state completion, (thread, .result state completion) ∈ futures.seen →
      (∃ stage, final.pool.memory.states[state]? = some stage ∧
        stage.cell.promise = some completion) ∧
      (∀ other completion', (other, .result state completion') ∈ final.seen →
        completion' = completion) ∧
      ∀ stages apply, Chain final.pool.memory.states stages state →
        Applies final.pool.memory apply stages →
        completion = compose apply stages ∧
          ∀ value, completion = .ok value →
            ∀ stage ∈ stages, HasReturned final.pool.memory stage := by
  have hall : run step (start workers callers) (events ++ later) = some final :=
    run_append.mpr ⟨futures, hrun, hlater⟩
  have hholds := seenHolds_of_run hall
  have hsound := (lawful_of_run hall).coherent.sound.memory
  have hkept := seen_of_run hlater
  refine ⟨fun thread state hready => hholds _ (hkept _ hready), ?_⟩
  intro thread state completion hresult
  obtain ⟨stage, hstage, hpromise⟩ := hholds _ (hkept _ hresult)
  refine ⟨⟨stage, hstage, hpromise⟩, ?_, ?_⟩
  · intro other completion' hother
    obtain ⟨same, hsame, hpromise'⟩ := hholds _ hother
    obtain rfl := Option.some.inj (hstage.symm.trans hsame)
    exact Option.some.inj (hpromise'.symm.trans hpromise)
  · intro stages apply hchain happlies
    obtain ⟨hcompose, hreturned⟩ := hchain.compose_of_promise hsound happlies hstage hpromise
    exact ⟨hcompose.symm, hreturned⟩

/-- The caller attaches `8` to the future of `7` and blocks in `get` of the last
future until the worker has run both. -/
def gotEvents : List (Event ℕ ℕ ℕ) :=
  inPool ([⟨1, .call (.post 7)⟩] ++ turns 1 3 ++ [⟨1, .notifyOne 0⟩] ++
    [⟨1, .call (.attach 0 8 false)⟩] ++ turns 1 3) ++ [.access 1 (some 1) .get] ++
  inPool (turns 0 2 ++ [⟨0, .finish (.ok (some 5))⟩] ++ turns 0 4 ++ [⟨0, .notifyOne 0⟩] ++
    turns 0 6 ++ [⟨0, .finish (.ok (some 6))⟩] ++ turns 0 4) ++ [.ready 1]

def gotFutures : Futures ℕ ℕ ℕ where
  pool :=
    { memory :=
        { (Pool.start 1 1 : Pool ℕ ℕ ℕ).memory with
          roundIndex := 2
          states := [⟨⟨some (.ok (some 5)), true, none, true, true⟩, .posted 7, true⟩,
            ⟨⟨some (.ok (some 6)), true, none, true, false⟩, .attached 0 8, true⟩]
          issued := 2
          pushed := [0, 1]
          started := [0, 1]
          finished := [0, 1]
          ran := [⟨0, 7, none⟩, ⟨1, 8, some 5⟩]
          results := [(⟨0, 7, none⟩, .ok (some 5)), (⟨1, 8, some 5⟩, .ok (some 6))]
          invoked := [1] }
      threads := [.worker 0 .loop, .caller .idle] }
  calls := []
  seen := [(1, .result 1 (.ok (some 6)))]

/-- `7` returns `5`, and `8` one more than it is given. -/
def gotApply (fn : ℕ) (arg : Option ℕ) : Completion ℕ ℕ :=
  if fn = 8 then .ok (arg.map (· + 1)) else .ok (some 5)

theorem results_of_run_gotFutures :
    run step (start 1 1) gotEvents = some gotFutures ∧
      (1, .result 1 (.ok (some 6))) ∈ gotFutures.seen ∧
      (∀ thread completion, (thread, .result 1 completion) ∈ gotFutures.seen →
        completion = .ok (some 6)) ∧
      (.ok (some 6) : Completion ℕ ℕ) = compose gotApply [(0, 7), (1, 8)] ∧
      ∀ stage ∈ [(0, 7), (1, 8)], HasReturned gotFutures.pool.memory stage := by
  have hrun : run step (start 1 1) gotEvents = some gotFutures := by decide
  have hseen : (1, .result 1 (.ok (some 6))) ∈ gotFutures.seen := by decide
  have hchain : Chain gotFutures.pool.memory.states [(0, 7), (1, 8)] 1 :=
    .next (.root 0 7 _ rfl rfl) 1 8 _ rfl rfl (by decide)
  have happlies : Applies gotFutures.pool.memory gotApply [(0, 7), (1, 8)] := by
    intro execution completion hresult _
    simp only [gotFutures, List.mem_cons, Prod.mk.injEq, List.not_mem_nil, or_false] at hresult
    obtain ⟨rfl, rfl⟩ | ⟨rfl, rfl⟩ := hresult <;> rfl
  obtain ⟨-, hresults⟩ := results_of_run hrun (run_nil gotFutures)
  obtain ⟨-, hsame, hcomposed⟩ := hresults 1 1 (.ok (some 6)) hseen
  obtain ⟨hcompose, hreturned⟩ := hcomposed _ _ hchain happlies
  exact ⟨hrun, hseen, hsame, hcompose, hreturned _ rfl⟩

end Futures

end RpcDemo.Threadpool
