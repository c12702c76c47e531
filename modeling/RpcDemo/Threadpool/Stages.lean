import RpcDemo.Threadpool.Refinement

/-!
# The shared states of a run

A change adds a shared state, marks one as returned, or makes one step of the
cell of one.  What a shared state has, it keeps: its origin, its result, its
place in the list.
-/

namespace RpcDemo.Threadpool

open Ledger

variable {Fn Value Error : Type}

/-- Which continuations a change may store, which results it may give to a state,
and for which calls it may make one. -/
structure Sources (Fn Value Error : Type) where
  stores : Continuation Fn → Prop
  settles : ℕ → Completion Value Error → Prop
  makes : Origin Fn → Prop

/-- What a change does to the list of shared states. -/
inductive StatesChange (sources : Sources Fn Value Error) :
    List (Stage Fn Value Error) → List (Stage Fn Value Error) → Prop
  | keep (states : List (Stage Fn Value Error)) : StatesChange sources states states
  | getFuture (states : List (Stage Fn Value Error)) (state : ℕ) (stage : Stage Fn Value Error)
      (hstage : states[state]? = some stage) :
      StatesChange sources states (states.set state { stage with cell := stage.cell.getFuture })
  | store (states : List (Stage Fn Value Error)) (cont : Continuation Fn) (inlineExec : Bool)
      (stage : Stage Fn Value Error) (hstores : sources.stores cont)
      (hstage : states[cont.upstream]? = some stage)
      (hcompleted : stage.cell.completed = false) :
      StatesChange sources states (states.set cont.upstream
        { stage with cell := stage.cell.store (Code.attachment cont inlineExec) })
  | settle (states : List (Stage Fn Value Error)) (state : ℕ) (stage : Stage Fn Value Error)
      (completion : Completion Value Error) (hsettles : sources.settles state completion)
      (hstage : states[state]? = some stage) (hpromise : stage.cell.promise = none) :
      StatesChange sources states
        (states.set state { stage with cell := stage.cell.settle completion })
  | append (states : List (Stage Fn Value Error)) (origin : Origin Fn)
      (hmakes : sources.makes origin) :
      StatesChange sources states (states ++ [⟨.fresh, origin, false⟩])
  | markReturned (states : List (Stage Fn Value Error)) (state : ℕ) :
      StatesChange sources states
        (states.modify state fun stage => { stage with returned := true })

/-- A continuation is stored by the call that was given it, a result comes from the
call that completes its state, and a continuation is given to a future that was
returned. -/
def Memory.sources (memory : Memory Fn Value Error) (removed : List (Item Fn Value Error)) :
    Sources Fn Value Error where
  stores cont := ∃ inlineExec, .active (.thenImpl cont inlineExec .setContinuation) ∈ removed
  settles state completion := .active (.complete state completion) ∈ removed ∨
    ∃ error, .active (.recover state error) ∈ removed
  makes origin := ∀ upstream fn, origin = .attached upstream fn →
    ∃ stage, memory.states[upstream]? = some stage ∧ stage.returned = true

theorem Change.states {move : Move Fn Value Error} {memory memory' : Memory Fn Value Error}
    {removed added : List (Item Fn Value Error)}
    (hchange : Change move memory removed added memory') :
    StatesChange (memory.sources removed) memory.states memory'.states := by
  cases hchange with
  | notify _ package =>
      cases hcallable : package.callable with
      | promised state fn => exact .markReturned memory.states state
      | _ => exact .keep memory.states
  | getFuture _ cont inlineExec stage hstage => exact .getFuture _ _ stage hstage
  | stored _ cont inlineExec stage hstage hset hcompleted =>
      exact .store _ cont inlineExec stage ⟨inlineExec, List.mem_cons_self⟩ hstage hcompleted
  | complete _ state completion stage hstage hpromise =>
      exact .settle _ state stage completion (.inl List.mem_cons_self) hstage hpromise
  | recover _ state error stage hstage hpromise =>
      exact .settle _ state stage (.error error) (.inr ⟨error, List.mem_cons_self⟩) hstage hpromise
  | attached _ cont => exact .markReturned memory.states cont.next
  | post _ fn => exact .append memory.states (.posted fn) (by simp [Memory.sources])
  | attach _ upstream fn _ stage hstage hreturned =>
      refine .append memory.states (.attached upstream fn) ?_
      rintro _ _ ⟨⟩
      exact ⟨stage, hstage, hreturned⟩
  | _ => exact .keep memory.states

/-! ## What persists -/

/-- What a shared state has, it keeps. -/
structure Stage.Persists (before after : Stage Fn Value Error) : Prop where
  origin : after.origin = before.origin
  promise : ∀ result, before.cell.promise = some result → after.cell.promise = some result
  continuationSet : before.cell.continuationSet = true → after.cell.continuationSet = true
  returned : before.returned = true → after.returned = true

namespace Stage.Persists

variable {before middle after : Stage Fn Value Error}

theorem refl (stage : Stage Fn Value Error) : stage.Persists stage :=
  ⟨rfl, fun _ => id, id, id⟩

theorem trans (hfirst : before.Persists middle) (hsecond : middle.Persists after) :
    before.Persists after where
  origin := hsecond.origin.trans hfirst.origin
  promise := fun result hresult => hsecond.promise result (hfirst.promise result hresult)
  continuationSet := fun hset => hsecond.continuationSet (hfirst.continuationSet hset)
  returned := fun hreturned => hsecond.returned (hfirst.returned hreturned)

end Stage.Persists

namespace StatesChange

variable {sources : Sources Fn Value Error} {states states' : List (Stage Fn Value Error)}

theorem set_get {state other : ℕ} {stage stage' before : Stage Fn Value Error}
    (hstage : states[state]? = some stage) (hbefore : states[other]? = some before)
    (hpersists : stage.Persists stage') :
    ∃ after, (states.set state stage')[other]? = some after ∧ before.Persists after := by
  have hlt := (List.getElem?_eq_some_iff.mp hstage).1
  by_cases heq : state = other
  · subst heq
    obtain rfl := Option.some.inj (hstage.symm.trans hbefore)
    exact ⟨stage', by rw [List.getElem?_set_self hlt], hpersists⟩
  · exact ⟨before, by rw [List.getElem?_set_ne heq, hbefore], .refl before⟩

theorem persists (hchange : StatesChange sources states states') {state : ℕ}
    {before : Stage Fn Value Error} (hbefore : states[state]? = some before) :
    ∃ after, states'[state]? = some after ∧ before.Persists after := by
  cases hchange with
  | keep => exact ⟨before, hbefore, .refl before⟩
  | getFuture other stage hstage => exact set_get hstage hbefore ⟨rfl, fun _ h => h, id, id⟩
  | store cont inlineExec stage hstores hstage hcompleted =>
      exact set_get hstage hbefore ⟨rfl, fun _ h => h, fun _ => rfl, id⟩
  | settle other stage completion hsettles hstage hpromise =>
      refine set_get hstage hbefore ⟨rfl, fun result hresult => ?_, id, id⟩
      simp [hpromise] at hresult
  | append origin hmakes =>
      refine ⟨before, ?_, .refl before⟩
      rw [List.getElem?_append_left (List.getElem?_eq_some_iff.mp hbefore).1, hbefore]
  | markReturned other =>
      by_cases heq : other = state
      · subst heq
        exact ⟨{ before with returned := true }, by simp [hbefore],
          rfl, fun _ h => h, id, fun _ => rfl⟩
      · exact ⟨before, by simp [heq, hbefore], .refl before⟩

/-- What holds of a fresh shared state and is kept by the steps of a cell holds of
every shared state. -/
theorem pointwise {holds : ℕ → Stage Fn Value Error → Prop}
    (hchange : StatesChange sources states states')
    (hfresh : ∀ origin, sources.makes origin → holds states.length ⟨.fresh, origin, false⟩)
    (hgetFuture : ∀ state stage, holds state stage →
      holds state { stage with cell := stage.cell.getFuture })
    (hstore : ∀ (cont : Continuation Fn) inlineExec stage, sources.stores cont →
      states[cont.upstream]? = some stage → holds cont.upstream stage →
      stage.cell.completed = false → holds cont.upstream
        { stage with cell := stage.cell.store (Code.attachment cont inlineExec) })
    (hsettle : ∀ (state : ℕ) stage completion, sources.settles state completion →
      states[state]? = some stage → holds state stage → stage.cell.promise = none →
      holds state { stage with cell := stage.cell.settle completion })
    (hreturned : ∀ state stage, holds state stage → holds state { stage with returned := true })
    (hstates : ∀ (state : ℕ) stage, states[state]? = some stage → holds state stage) :
    ∀ (state : ℕ) stage, states'[state]? = some stage → holds state stage := by
  have hset : ∀ {changed : ℕ} {stage' : Stage Fn Value Error}, holds changed stage' →
      ∀ (state : ℕ) stage, (states.set changed stage')[state]? = some stage →
        holds state stage := by
    intro changed stage' hchanged state stage hget
    by_cases heq : changed = state
    · subst heq
      rw [List.getElem?_set_self', Option.map_eq_map, Option.map_eq_some_iff] at hget
      obtain ⟨_, _, rfl⟩ := hget
      exact hchanged
    · exact hstates state stage (by rwa [List.getElem?_set_ne heq] at hget)
  cases hchange with
  | keep => exact hstates
  | getFuture changed before hget => exact hset (hgetFuture _ _ (hstates _ _ hget))
  | store cont inlineExec before hstores hget hcompleted =>
      exact hset (hstore _ _ _ hstores hget (hstates _ _ hget) hcompleted)
  | settle changed before completion hsettles hget hpromise =>
      exact hset (hsettle _ _ _ hsettles hget (hstates _ _ hget) hpromise)
  | append origin hmakes =>
      intro state stage hget
      rcases lt_or_ge state states.length with hlt | hge
      · exact hstates state stage (by rwa [List.getElem?_append_left hlt] at hget)
      · rw [List.getElem?_append_right hge, List.getElem?_singleton] at hget
        obtain ⟨hlast, hnew⟩ := Option.ite_none_right_eq_some.mp hget
        obtain rfl : states.length = state := by omega
        exact Option.some.inj hnew ▸ hfresh origin hmakes
  | markReturned changed =>
      intro state stage hget
      rw [List.getElem?_modify, Option.map_eq_map, Option.map_eq_some_iff] at hget
      obtain ⟨before, hbefore, rfl⟩ := hget
      by_cases heq : changed = state
      · simp only [heq, if_true]
        exact hreturned _ _ (hstates _ _ hbefore)
      · simp only [heq, if_false]
        exact hstates _ _ hbefore

end StatesChange

/-! ## Flags as numbers -/

/-- One when the state exists and its flag holds. -/
def flag (holds : Stage Fn Value Error → Bool) (states : List (Stage Fn Value Error))
    (state : ℕ) : ℕ :=
  (states[state]?.any holds).toNat

section Flag

variable {holds : Stage Fn Value Error → Bool} {memory : Memory Fn Value Error} {changed : ℕ}
variable {states : List (Stage Fn Value Error)} {stage : Stage Fn Value Error}

theorem flag_le_one (holds : Stage Fn Value Error → Bool) (states : List (Stage Fn Value Error))
    (state : ℕ) : flag holds states state ≤ 1 :=
  Bool.toNat_le _

theorem flag_of_get (hstage : states[changed]? = some stage) :
    flag holds states changed = (holds stage).toNat := by
  rw [flag, hstage]
  rfl

theorem flag_setCell (hstage : memory.states[changed]? = some stage)
    (cell : SharedState (Completion Value Error) (Callable Fn)) (state : ℕ) :
    flag holds (memory.setCell changed stage cell).states state =
      if changed = state then (holds { stage with cell := cell }).toNat
      else flag holds memory.states state := by
  have hlt := (List.getElem?_eq_some_iff.mp hstage).1
  rw [flag, Memory.setCell, Memory.setState]
  split
  case isTrue heq => rw [← heq, List.getElem?_set_self hlt]; rfl
  case isFalse hne => rw [List.getElem?_set_ne hne]; rfl

theorem flag_setCell_same (hstage : memory.states[changed]? = some stage)
    {cell : SharedState (Completion Value Error) (Callable Fn)}
    (hsame : holds { stage with cell := cell } = holds stage) (state : ℕ) :
    flag holds (memory.setCell changed stage cell).states state =
      flag holds memory.states state := by
  rw [flag_setCell hstage]
  split
  case isTrue heq => rw [← heq, flag_of_get hstage, hsame]
  case isFalse => rfl

theorem flag_append (states : List (Stage Fn Value Error)) (last : Stage Fn Value Error)
    (state : ℕ) : flag holds (states ++ [last]) state =
      flag holds states state + if states.length = state then (holds last).toNat else 0 := by
  rcases lt_trichotomy state states.length with hlt | rfl | hgt
  · rw [flag, List.getElem?_append_left hlt, if_neg hlt.ne']
    rfl
  · simp [flag]
  · have hout : (states ++ [last])[state]? = none :=
      List.getElem?_eq_none (by rw [List.length_append]; exact hgt)
    rw [flag, flag, hout, List.getElem?_eq_none hgt.le, if_neg hgt.ne]
    rfl

theorem flag_markReturned (hsame : ∀ stage, holds { stage with returned := true } = holds stage)
    (memory : Memory Fn Value Error) (returned state : ℕ) :
    flag holds (memory.markReturned returned).states state = flag holds memory.states state := by
  simp only [flag, Memory.markReturned, List.getElem?_modify]
  cases memory.states[state]? with
  | none => rfl
  | some stage => by_cases heq : returned = state <;> simp [heq, hsame]

theorem flag_returnPosted (hsame : ∀ stage, holds { stage with returned := true } = holds stage)
    (memory : Memory Fn Value Error) (callable : Callable Fn) (state : ℕ) :
    flag holds (memory.returnPosted callable).states state = flag holds memory.states state := by
  cases callable with
  | promised posted fn => exact flag_markReturned hsame memory posted state
  | _ => rfl

end Flag

/-! ## Completed states -/

/-- One when the state has its result. -/
def completed (states : List (Stage Fn Value Error)) (state : ℕ) : ℕ :=
  flag (fun stage => stage.cell.promise.isSome) states state

section Completed

variable {memory : Memory Fn Value Error} {changed : ℕ} {stage : Stage Fn Value Error}

theorem completed_of_get {states : List (Stage Fn Value Error)}
    (hstage : states[changed]? = some stage) :
    completed states changed = stage.cell.promise.isSome.toNat :=
  flag_of_get hstage

theorem completed_getFuture (hstage : memory.states[changed]? = some stage) (state : ℕ) :
    completed (memory.setCell changed stage stage.cell.getFuture).states state =
      completed memory.states state := by
  rw [completed, flag_setCell_same hstage] <;> rfl

theorem completed_store (hstage : memory.states[changed]? = some stage) (callable : Callable Fn)
    (state : ℕ) :
    completed (memory.setCell changed stage (stage.cell.store callable)).states state =
      completed memory.states state := by
  rw [completed, flag_setCell_same hstage] <;> rfl

/-- The promise takes the result of a state that had none. -/
theorem completed_settle (hstage : memory.states[changed]? = some stage)
    (hpromise : stage.cell.promise = none) (completion : Completion Value Error) (state : ℕ) :
    completed (memory.setCell changed stage (stage.cell.settle completion)).states state =
      completed memory.states state + if changed = state then 1 else 0 := by
  rw [completed, flag_setCell hstage]
  split
  case isTrue heq =>
    rw [← heq, completed_of_get hstage, hpromise]
    rfl
  case isFalse => rfl

@[simp]
theorem completed_append (states : List (Stage Fn Value Error)) (origin : Origin Fn)
    (state : ℕ) :
    completed (states ++ [⟨.fresh, origin, false⟩]) state = completed states state := by
  simp [completed, flag_append, SharedState.fresh]

@[simp]
theorem completed_markReturned (memory : Memory Fn Value Error) (returned state : ℕ) :
    completed (memory.markReturned returned).states state = completed memory.states state :=
  flag_markReturned (fun _ => rfl) memory returned state

@[simp]
theorem completed_returnPosted (memory : Memory Fn Value Error) (callable : Callable Fn)
    (state : ℕ) : completed (memory.returnPosted callable).states state =
      completed memory.states state :=
  flag_returnPosted (fun _ => rfl) memory callable state

end Completed

/-- One when the state has been made. -/
def made (states : List (Stage Fn Value Error)) (state : ℕ) : ℕ :=
  (List.range states.length).count state

section Made

@[simp]
theorem made_setCell (memory : Memory Fn Value Error) (changed : ℕ)
    (stage : Stage Fn Value Error) (cell : SharedState (Completion Value Error) (Callable Fn))
    (state : ℕ) : made (memory.setCell changed stage cell).states state =
      made memory.states state := by
  simp only [made, Memory.setCell, Memory.setState, List.length_set]

@[simp]
theorem made_append (states : List (Stage Fn Value Error)) (stage : Stage Fn Value Error)
    (state : ℕ) :
    made (states ++ [stage]) state =
      made states state + if states.length = state then 1 else 0 := by
  rw [made, List.length_append, List.length_singleton, List.range_succ, List.count_append,
    List.count_singleton']
  rfl

@[simp]
theorem made_markReturned (memory : Memory Fn Value Error) (returned state : ℕ) :
    made (memory.markReturned returned).states state = made memory.states state := by
  simp only [made, Memory.markReturned, List.length_modify]

@[simp]
theorem made_returnPosted (memory : Memory Fn Value Error) (callable : Callable Fn)
    (state : ℕ) : made (memory.returnPosted callable).states state = made memory.states state := by
  cases callable with
  | promised posted fn => exact made_markReturned memory posted state
  | _ => rfl

theorem made_le_one (states : List (Stage Fn Value Error)) (state : ℕ) : made states state ≤ 1 :=
  List.nodup_iff_count_le_one.mp List.nodup_range state

theorem made_of_get {states : List (Stage Fn Value Error)} {state : ℕ}
    {stage : Stage Fn Value Error} (hstage : states[state]? = some stage) :
    made states state = 1 :=
  List.count_eq_one_of_mem List.nodup_range
    (List.mem_range.mpr (List.getElem?_eq_some_iff.mp hstage).1)

end Made

end RpcDemo.Threadpool
