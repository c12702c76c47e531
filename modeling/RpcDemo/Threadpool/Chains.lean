import RpcDemo.Threadpool.Exceptions
import RpcDemo.Threadpool.Settling

/-!
# Continuation chains compute the composition

A chain is a posted function and the continuations attached one to the future of
the other, each the only one there.  Whichever thread runs a stage, and whenever
it was attached, the last state holds the composition of the functions.
-/

namespace RpcDemo.Threadpool

open Ledger Transition

variable {Fn Value Error : Type}

/-- The states and functions of a chain, and its last state. -/
inductive Chain (states : List (Stage Fn Value Error)) : List (ℕ × Fn) → ℕ → Prop
  | root (state : ℕ) (fn : Fn) (stage : Stage Fn Value Error)
      (hstage : states[state]? = some stage) (horigin : stage.origin = .posted fn) :
      Chain states [(state, fn)] state
  | next {stages : List (ℕ × Fn)} {upstream : ℕ} (hchain : Chain states stages upstream)
      (state : ℕ) (fn : Fn) (stage : Stage Fn Value Error) (hstage : states[state]? = some stage)
      (horigin : stage.origin = .attached upstream fn)
      (hsingle : attachments states upstream ≤ 1) :
      Chain states (stages ++ [(state, fn)]) state

/-- The functions one after the other, up to the first that throws. -/
def compose (apply : Fn → Option Value → Completion Value Error) (stages : List (ℕ × Fn)) :
    Completion Value Error :=
  stages.foldl (fun result stage => result.bind (apply stage.2)) (.ok none)

@[simp]
theorem compose_append (apply : Fn → Option Value → Completion Value Error)
    (stages : List (ℕ × Fn)) (stage : ℕ × Fn) :
    compose apply (stages ++ [stage]) = (compose apply stages).bind (apply stage.2) := by
  simp [compose]

/-- The function of the stage was run and returned a value. -/
def HasReturned (memory : Memory Fn Value Error) (stage : ℕ × Fn) : Prop :=
  ∃ arg value,
    ((⟨stage.1, stage.2, arg⟩, .ok value) : Execution Fn Value × Completion Value Error) ∈
      memory.results

namespace Chain

variable {states : List (Stage Fn Value Error)} {stages : List (ℕ × Fn)} {last : ℕ}

/-- What comes before a stage of a chain is a chain. -/
theorem split {earlier later : List (ℕ × Fn)} {state : ℕ} {fn : Fn}
    (hchain : Chain states (earlier ++ (state, fn) :: later) last) :
    Chain states (earlier ++ [(state, fn)]) state := by
  generalize hstages : earlier ++ (state, fn) :: later = stages at hchain
  induction hchain generalizing later with
  | root root fn' stage hstage horigin =>
      obtain ⟨rfl, hrest⟩ | ⟨_, hrest⟩ := List.append_eq_cons_iff.mp hstages
      · obtain ⟨hpair, rfl⟩ := List.cons.inj hrest
        obtain ⟨rfl, rfl⟩ := Prod.mk.inj hpair
        exact .root state fn stage hstage horigin
      · simp at hrest
  | next hchain other fn' stage hstage horigin hsingle ih =>
      rcases List.eq_nil_or_concat later with rfl | ⟨front, final, rfl⟩
      · obtain ⟨rfl, hpair⟩ := List.append_inj' hstages rfl
        obtain ⟨rfl, rfl⟩ := Prod.mk.inj (List.cons.inj hpair).1
        exact .next hchain state fn stage hstage horigin hsingle
      · rw [List.concat_eq_append, ← List.cons_append, ← List.append_assoc] at hstages
        exact ih (List.append_inj' hstages rfl).1

theorem exists_last (hchain : Chain states stages last) :
    ∃ earlier fn, stages = earlier ++ [(last, fn)] := by
  cases hchain with
  | root state fn => exact ⟨[], fn, rfl⟩
  | next hchain state fn => exact ⟨_, fn, rfl⟩

end Chain

/-! ## What the states of a chain hold -/

/-- The functions of the stages compute what `apply` says. -/
def Applies (memory : Memory Fn Value Error)
    (apply : Fn → Option Value → Completion Value Error) (stages : List (ℕ × Fn)) : Prop :=
  ∀ execution completion, (execution, completion) ∈ memory.results →
    execution.state ∈ stages.map Prod.fst → completion = apply execution.func execution.arg

namespace Chain

variable {memory : Memory Fn Value Error} {stages : List (ℕ × Fn)} {last : ℕ}
variable {apply : Fn → Option Value → Completion Value Error}

theorem applies_left {later : List (ℕ × Fn)} (happlies : Applies memory apply (stages ++ later)) :
    Applies memory apply stages :=
  fun execution completion hresult hstate =>
    happlies execution completion hresult (by simp [hstate])

theorem compose_of_promise (hsound : memory.Sound) (hchain : Chain memory.states stages last)
    (happlies : Applies memory apply stages) {own : Stage Fn Value Error}
    {completion : Completion Value Error} (hown : memory.states[last]? = some own)
    (hpromise : own.cell.promise = some completion) :
    compose apply stages = completion ∧
      ∀ value, completion = .ok value → ∀ stage ∈ stages, HasReturned memory stage := by
  induction hchain generalizing own completion with
  | root state fn stage hstage horigin =>
      obtain rfl := Option.some.inj (hstage.symm.trans hown)
      have hresult := (hsound.promises state stage completion hown hpromise).of_posted hown horigin
      refine ⟨(happlies _ _ hresult (by simp)).symm, ?_⟩
      rintro value rfl stage hmem
      obtain rfl := List.mem_singleton.mp hmem
      exact ⟨none, value, hresult⟩
  | next hchain state fn stage hstage horigin hsingle ih =>
      obtain rfl := Option.some.inj (hstage.symm.trans hown)
      obtain ⟨up, settled, hup, hsettled, hcases⟩ :=
        (hsound.promises state stage completion hown hpromise).of_attached hown horigin
      obtain ⟨hcompose, hearlier⟩ := ih (applies_left happlies) hup hsettled
      rw [compose_append, hcompose]
      obtain ⟨arg, rfl, hresult⟩ | ⟨error, rfl, rfl⟩ := hcases
      · refine ⟨(happlies _ _ hresult (by simp)).symm, ?_⟩
        rintro value rfl stage hmem
        rcases List.mem_append.mp hmem with hbefore | hlast
        · exact hearlier arg rfl stage hbefore
        · obtain rfl := List.mem_singleton.mp hlast
          exact ⟨arg, value, hresult⟩
      · exact ⟨rfl, fun value hvalue => by simp at hvalue⟩

/-- A stage runs its function on what the earlier stages made, when they all
returned. -/
theorem compose_of_ran (hsound : memory.Sound) {earlier : List (ℕ × Fn)} {fn : Fn}
    (hchain : Chain memory.states (earlier ++ [(last, fn)]) last)
    (happlies : Applies memory apply earlier) {execution : Execution Fn Value}
    (hran : execution ∈ memory.ran) (hstate : execution.state = last) :
    execution.func = fn ∧ compose apply earlier = .ok execution.arg ∧
      ∀ stage ∈ earlier, HasReturned memory stage := by
  have hdue := hsound.ran execution hran
  subst hstate
  generalize hstages : earlier ++ [(execution.state, fn)] = stages at hchain
  cases hchain with
  | root _ fn' stage hstage horigin =>
      obtain ⟨rfl, hpair⟩ := List.append_inj' (hstages.trans (List.nil_append _).symm) rfl
      obtain ⟨hfunc, harg⟩ := hdue.of_posted hstage horigin
      obtain ⟨_, rfl⟩ := Prod.mk.inj (List.cons.inj hpair).1
      exact ⟨hfunc, by rw [harg]; rfl, by simp⟩
  | next hchain _ fn' stage hstage horigin hsingle =>
      obtain ⟨rfl, hpair⟩ := List.append_inj' hstages rfl
      obtain ⟨_, rfl⟩ := Prod.mk.inj (List.cons.inj hpair).1
      obtain ⟨hfunc, up, hup, hpromise⟩ := hdue.of_attached hstage horigin
      obtain ⟨hcompose, hearlier⟩ := compose_of_promise hsound hchain happlies hup hpromise
      exact ⟨hfunc, hcompose, hearlier execution.arg rfl⟩

end Chain

namespace Pool

variable {pool : Pool Fn Value Error} {stages : List (ℕ × Fn)} {last : ℕ}
variable {apply : Fn → Option Value → Completion Value Error}

theorem Lawful.completed_of_chain (hlawful : pool.Lawful) (hlost : pool.memory.lost = [])
    (hchain : Chain pool.memory.states stages last)
    (hsettled : ∀ stage ∈ stages, Returned pool.memory.states stage.1 ∧ ¬pool.Busy stage.1) :
    ∀ stage ∈ stages, Completed pool.memory.states stage.1 := by
  induction hchain with
  | root state fn stage hstage horigin =>
      intro other hmem
      obtain rfl := List.mem_singleton.mp hmem
      obtain ⟨hreturned, hidle⟩ := hsettled _ hmem
      apply hlawful.completed_of_upstream hlost hreturned hidle
      intro own upstream fn' hown hattached
      obtain rfl := Option.some.inj (hstage.symm.trans hown)
      simp [horigin] at hattached
  | @next earlier upstream hchain state fn stage hstage horigin hsingle ih =>
      have hearlier := ih fun other hother => hsettled other (List.mem_append_left _ hother)
      obtain ⟨front, fn', rfl⟩ := hchain.exists_last
      intro other hmem
      rcases List.mem_append.mp hmem with hbefore | hlast
      · exact hearlier other hbefore
      · obtain rfl := List.mem_singleton.mp hlast
        obtain ⟨hreturned, hidle⟩ := hsettled _ hmem
        apply hlawful.completed_of_upstream hlost hreturned hidle
        intro own _ _ hown hattached
        obtain rfl := Option.some.inj (hstage.symm.trans hown)
        obtain ⟨rfl, _⟩ := Origin.attached.inj (horigin.symm.trans hattached)
        exact ⟨hearlier (upstream, fn') (by simp), hsingle⟩

/-- What a chain of continuations does.  A detached function that throws, which is
no part of a chain, ends the program by itself. -/
structure ChainRuns (pool : Pool Fn Value Error)
    (apply : Fn → Option Value → Completion Value Error) (stages : List (ℕ × Fn))
    (last : ℕ) : Prop where
  once : ∀ thread ∈ pool.threads, ∀ state completion stage,
    thread.code.active = some (.complete state completion) →
    pool.memory.states[state]? = some stage → stage.cell.promise = none
  uncaught : pool.memory.threw = [] → ∀ thread ∈ pool.threads, ∀ state error,
    thread.code.active ≠ some (.recover state error)
  ranOnce : ∀ stage ∈ stages,
    pool.memory.ran.countP (fun execution => execution.state = stage.1) ≤ 1
  argument : ∀ earlier state fn later, stages = earlier ++ (state, fn) :: later →
    ∀ execution ∈ pool.memory.ran, execution.state = state →
      execution.func = fn ∧ compose apply earlier = .ok execution.arg ∧
        ∀ stage ∈ earlier, HasReturned pool.memory stage
  ready : ∀ thread ∈ pool.threads, ∀ cont, thread.code.active = some (.get cont) →
    Completed pool.memory.states cont.upstream
  alive : pool.memory.threw = [] → pool.memory.terminated = false
  composed : (∀ stage ∈ stages, Returned pool.memory.states stage.1 ∧ ¬pool.Busy stage.1) →
    (∀ stage ∈ stages, Completed pool.memory.states stage.1) ∧
      ∃ stage, pool.memory.states[last]? = some stage ∧
        stage.cell.promise = some (compose apply stages)

theorem chainRuns_of_run {workers callers : ℕ} {events : List (Event Fn Value Error)}
    (hrun : run step (start workers callers) events = some pool) (hlost : pool.memory.lost = [])
    (hchain : Chain pool.memory.states stages last)
    (happlies : Applies pool.memory apply stages) : pool.ChainRuns apply stages last := by
  have hlawful := lawful_of_run hrun
  have hsound := hlawful.coherent.sound
  constructor
  · intro thread hthread state completion stage hactive hstage
    exact hlawful.promise_eq_none hthread hactive hstage
  · exact fun hthrew thread hthread => hlawful.not_recover hlost hthrew hthread
  · intro stage _
    have hran := hlawful.coherent.invoked.ran stage.1
    have hmade := made_le_one pool.memory.states stage.1
    rw [config_memory] at hran
    omega
  · rintro earlier state fn later rfl execution hran hstate
    exact hchain.split.compose_of_ran hsound.memory (Chain.applies_left happlies) hran hstate
  · intro thread hthread cont hactive
    exact (hsound.items _ (active_mem hthread hactive (by simp))).2
  · exact not_terminated_of_run hrun hlost
  · intro hsettled
    have hcompleted := hlawful.completed_of_chain hlost hchain hsettled
    refine ⟨hcompleted, ?_⟩
    obtain ⟨earlier, fn, rfl⟩ := hchain.exists_last
    obtain ⟨stage, hstage, hpromise⟩ := hcompleted (last, fn) (by simp)
    obtain ⟨completion, hcompletion⟩ := Option.isSome_iff_exists.mp hpromise
    obtain ⟨hcompose, _⟩ := hchain.compose_of_promise hsound.memory happlies hstage hcompletion
    exact ⟨stage, hstage, by rw [hcompletion, hcompose]⟩

/-- The second stage is attached after the first is completed, and throws in the
attaching thread. -/
def lateStageEvents : List (Event ℕ ℕ ℕ) :=
  [⟨1, .call (.post 7)⟩] ++ turns 1 3 ++ [⟨1, .notifyOne 0⟩] ++ turns 0 2 ++
    [⟨0, .finish (.ok (some 5))⟩] ++ turns 0 4 ++ [⟨1, .call (.attach 0 8 true)⟩] ++ turns 1 3 ++
    [⟨1, .finish (.error (.user 4))⟩] ++ turns 1 2

def lateStagePool : Pool ℕ ℕ ℕ where
  memory :=
    { (start 1 1 : Pool ℕ ℕ ℕ).memory with
      roundIndex := 1
      states := [⟨⟨some (.ok (some 5)), true, none, true, false⟩, .posted 7, true⟩,
        ⟨⟨some (.error (.user 4)), false, none, true, false⟩, .attached 0 8, true⟩]
      issued := 1
      pushed := [0]
      started := [0]
      finished := [0]
      ran := [⟨0, 7, none⟩, ⟨1, 8, some 5⟩]
      results := [(⟨0, 7, none⟩, .ok (some 5)), (⟨1, 8, some 5⟩, .error (.user 4))]
      invoked := [1] }
  threads := [.worker 0 .loop, .caller .idle]

/-- `8` throws, every other function returns `5`. -/
def lateStageApply (fn : ℕ) (_ : Option ℕ) : Completion ℕ ℕ :=
  if fn = 8 then .error (.user 4) else .ok (some 5)

theorem chainRuns_lateStagePool : lateStagePool.ChainRuns lateStageApply [(0, 7), (1, 8)] 1 := by
  have hrun : run step (start 1 1) lateStageEvents = some lateStagePool := by decide
  have hchain : Chain lateStagePool.memory.states [(0, 7), (1, 8)] 1 :=
    .next (.root 0 7 _ rfl rfl) 1 8 _ rfl rfl (by decide)
  have happlies : Applies lateStagePool.memory lateStageApply [(0, 7), (1, 8)] := by
    intro execution completion hresult _
    simp only [lateStagePool, List.mem_cons, Prod.mk.injEq, List.not_mem_nil, or_false] at hresult
    obtain ⟨rfl, rfl⟩ | ⟨rfl, rfl⟩ := hresult <;> rfl
  exact chainRuns_of_run hrun rfl hchain happlies

end Pool

end RpcDemo.Threadpool
