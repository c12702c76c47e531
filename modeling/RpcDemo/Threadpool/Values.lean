import RpcDemo.Threadpool.Drivers

/-!
# Where the results come from

A user function is run for its own state, with the result of the upstream state
as its argument; a state takes what its function returned or threw, or the
exception of its upstream state.
-/

namespace RpcDemo.Threadpool

open Ledger

variable {Fn Value Error : Type}

/-- The continuation belongs to the state it completes. -/
def Linked (states : List (Stage Fn Value Error)) (cont : Continuation Fn) : Prop :=
  ∃ stage, states[cont.next]? = some stage ∧ stage.origin = .attached cont.upstream cont.func

/-- The state has a result. -/
def Completed (states : List (Stage Fn Value Error)) (state : ℕ) : Prop :=
  ∃ stage, states[state]? = some stage ∧ stage.cell.promise.isSome = true

theorem completed_eq_one_iff {states : List (Stage Fn Value Error)} {state : ℕ} :
    completed states state = 1 ↔ Completed states state := by
  rw [completed, flag, Bool.toNat_eq_one, Option.any_eq_true]
  rfl

/-- The call that made the state has returned its future. -/
def Returned (states : List (Stage Fn Value Error)) (state : ℕ) : Prop :=
  ∃ stage, states[state]? = some stage ∧ stage.returned = true

/-- The run of a user function that its state asks for. -/
inductive Due (states : List (Stage Fn Value Error)) : Execution Fn Value → Prop
  | posted (state : ℕ) (fn : Fn) (stage : Stage Fn Value Error)
      (hstage : states[state]? = some stage) (horigin : stage.origin = .posted fn) :
      Due states ⟨state, fn, none⟩
  | attached (state upstream : ℕ) (fn : Fn) (value : Option Value)
      (stage up : Stage Fn Value Error) (hstage : states[state]? = some stage)
      (horigin : stage.origin = .attached upstream fn) (hup : states[upstream]? = some up)
      (hpromise : up.cell.promise = some (.ok value)) : Due states ⟨state, fn, value⟩

section Due

variable {states : List (Stage Fn Value Error)} {execution : Execution Fn Value}
variable {stage : Stage Fn Value Error} {upstream : ℕ} {fn : Fn}

theorem Due.of_posted (hdue : Due states execution)
    (hstage : states[execution.state]? = some stage) (horigin : stage.origin = .posted fn) :
    execution.func = fn ∧ execution.arg = none := by
  cases hdue with
  | posted state fn' due hdue hposted =>
      obtain rfl := Option.some.inj (hstage.symm.trans hdue)
      exact ⟨Origin.posted.inj (hposted.symm.trans horigin), rfl⟩
  | attached state upstream fn' value due up hdue hattached hup hpromise =>
      obtain rfl := Option.some.inj (hstage.symm.trans hdue)
      simp [horigin] at hattached

theorem Due.of_attached (hdue : Due states execution)
    (hstage : states[execution.state]? = some stage)
    (horigin : stage.origin = .attached upstream fn) :
    execution.func = fn ∧
      ∃ up, states[upstream]? = some up ∧ up.cell.promise = some (.ok execution.arg) := by
  cases hdue with
  | posted state fn' due hdue hposted =>
      obtain rfl := Option.some.inj (hstage.symm.trans hdue)
      simp [horigin] at hposted
  | attached state upstream' fn' value due up hdue hattached hup hpromise =>
      obtain rfl := Option.some.inj (hstage.symm.trans hdue)
      obtain ⟨rfl, rfl⟩ := Origin.attached.inj (hattached.symm.trans horigin)
      exact ⟨rfl, up, hup, hpromise⟩

end Due

/-- A result a state may take. -/
inductive Justified (memory : Memory Fn Value Error) : ℕ → Completion Value Error → Prop
  | result (execution : Execution Fn Value) (completion : Completion Value Error)
      (hdue : Due memory.states execution) (hresult : (execution, completion) ∈ memory.results) :
      Justified memory execution.state completion
  | error (state upstream : ℕ) (fn : Fn) (error : Thrown Error) (stage up : Stage Fn Value Error)
      (hstage : memory.states[state]? = some stage)
      (horigin : stage.origin = .attached upstream fn) (hup : memory.states[upstream]? = some up)
      (hpromise : up.cell.promise = some (.error error)) : Justified memory state (.error error)

section Justified

variable {memory : Memory Fn Value Error} {state upstream : ℕ} {completion : Completion Value Error}
variable {stage : Stage Fn Value Error} {fn : Fn}

/-- A posted state takes what its function returned or threw. -/
theorem Justified.of_posted (hjustified : Justified memory state completion)
    (hstage : memory.states[state]? = some stage) (horigin : stage.origin = .posted fn) :
    (⟨state, fn, none⟩, completion) ∈ memory.results := by
  cases hjustified with
  | result execution _ hdue hresult =>
      obtain ⟨rfl, harg⟩ := hdue.of_posted hstage horigin
      rwa [← harg]
  | error _ upstream fn' error own up hown hattached hup hpromise =>
      obtain rfl := Option.some.inj (hstage.symm.trans hown)
      simp [horigin] at hattached

/-- An attached state takes what its function made of the upstream value, or the
exception of the upstream state. -/
theorem Justified.of_attached (hjustified : Justified memory state completion)
    (hstage : memory.states[state]? = some stage)
    (horigin : stage.origin = .attached upstream fn) :
    ∃ up settled, memory.states[upstream]? = some up ∧ up.cell.promise = some settled ∧
      ((∃ arg, settled = .ok arg ∧ (⟨state, fn, arg⟩, completion) ∈ memory.results) ∨
        ∃ error, settled = .error error ∧ completion = .error error) := by
  cases hjustified with
  | result execution _ hdue hresult =>
      obtain ⟨rfl, up, hup, hpromise⟩ := hdue.of_attached hstage horigin
      exact ⟨up, _, hup, hpromise, .inl ⟨execution.arg, rfl, hresult⟩⟩
  | error _ upstream' fn' error own up hown hattached hup hpromise =>
      obtain rfl := Option.some.inj (hstage.symm.trans hown)
      obtain ⟨rfl, rfl⟩ := Origin.attached.inj (hattached.symm.trans horigin)
      exact ⟨up, _, hup, hpromise, .inr ⟨error, rfl, rfl⟩⟩

end Justified

/-- What a callable that is about to be called relies on. -/
def Callable.Sound (states : List (Stage Fn Value Error)) : Callable Fn → Prop
  | .detached _ => True
  | .promised state fn => ∃ stage, states[state]? = some stage ∧ stage.origin = .posted fn
  | .continuation cont => Linked states cont ∧ Completed states cont.upstream
  | .submit cont => Linked states cont ∧ Completed states cont.upstream

def Item.Sound (memory : Memory Fn Value Error) : Item Fn Value Error → Prop
  | .active (.enqueue pack _) => pack.callable.Sound memory.states
  | .active (.thenImpl cont _ _) =>
      Linked memory.states cont ∧ Returned memory.states cont.upstream
  | .active (.get cont) => Linked memory.states cont ∧ Completed memory.states cont.upstream
  | .active (.complete state completion) => Justified memory state completion
  | .frame (.run fn arg (some state)) => Due memory.states ⟨state, fn, arg⟩
  | .package pack => pack.callable.Sound memory.states
  | .callable called => called.Sound memory.states
  | _ => True

/-- The continuation stored in a state was given to it. -/
def Memory.Placed (memory : Memory Fn Value Error) (state : ℕ) (stage : Stage Fn Value Error) :
    Prop :=
  ∀ callable, stage.cell.continuation = some callable → stage.returned = true ∧
    ∃ cont inlineExec, callable = Code.attachment cont inlineExec ∧ cont.upstream = state ∧
      Linked memory.states cont

structure Memory.Sound (memory : Memory Fn Value Error) : Prop where
  ran : ∀ execution ∈ memory.ran, Due memory.states execution
  promises : ∀ (state : ℕ) stage completion, memory.states[state]? = some stage →
    stage.cell.promise = some completion → Justified memory state completion
  slots : ∀ (state : ℕ) stage, memory.states[state]? = some stage → memory.Placed state stage
  ignored : ∀ cont ∈ memory.ignored, Linked memory.states cont
  origins : ∀ (state : ℕ) stage upstream fn, memory.states[state]? = some stage →
    stage.origin = .attached upstream fn → upstream < state ∧ Returned memory.states upstream

/-- The memory is sound, and so is every item that may still act on it. -/
structure Config.Sound (config : Config Fn Value Error) : Prop where
  items : ∀ item ∈ config.bag, item.Sound config.memory
  memory : config.memory.Sound

/-! ## Nothing is taken back -/

section Persists

variable {memory memory' : Memory Fn Value Error}

/-- What a later memory keeps of an earlier one. -/
structure Memory.Extends (memory memory' : Memory Fn Value Error) : Prop where
  states : ∀ (state : ℕ) before, memory.states[state]? = some before →
    ∃ after, memory'.states[state]? = some after ∧ before.Persists after
  pushed : ∀ id ∈ memory.pushed, id ∈ memory'.pushed
  results : ∀ result ∈ memory.results, result ∈ memory'.results
  lost : ∀ package ∈ memory.lost, package ∈ memory'.lost
  threw : ∀ fn ∈ memory.threw, fn ∈ memory'.threw
  exited : memory.exited <+: memory'.exited

theorem Memory.Extends.refl (memory : Memory Fn Value Error) : memory.Extends memory where
  states := fun _ before hbefore => ⟨before, hbefore, .refl before⟩
  pushed := fun _ hid => hid
  results := fun _ hresult => hresult
  lost := fun _ hpackage => hpackage
  threw := fun _ hfn => hfn
  exited := List.prefix_rfl

/-- What is kept twice is kept. -/
theorem Memory.Extends.trans {later : Memory Fn Value Error} (hfirst : memory.Extends memory')
    (hsecond : memory'.Extends later) : memory.Extends later where
  states := fun state before hbefore => by
    obtain ⟨middle, hmiddle, hpersists⟩ := hfirst.states state before hbefore
    obtain ⟨after, hafter, hpersists'⟩ := hsecond.states state middle hmiddle
    exact ⟨after, hafter, hpersists.trans hpersists'⟩
  pushed := fun id hid => hsecond.pushed id (hfirst.pushed id hid)
  results := fun result hresult => hsecond.results result (hfirst.results result hresult)
  lost := fun package hpackage => hsecond.lost package (hfirst.lost package hpackage)
  threw := fun fn hfn => hsecond.threw fn (hfirst.threw fn hfn)
  exited := hfirst.exited.trans hsecond.exited

theorem Change.extends {move : Move Fn Value Error} {removed added : List (Item Fn Value Error)}
    (hchange : Change move memory removed added memory') : memory.Extends memory' where
  states := fun _ _ hbefore => hchange.states.persists hbefore
  pushed := by
    cases hchange <;> simp +contextual
  results := by
    cases hchange <;> simp +contextual
  lost := by
    cases hchange <;> simp +contextual
  threw := by
    cases hchange <;> simp +contextual
  exited := by
    cases hchange with
    | notify _ package => cases hcallable : package.callable <;> exact List.prefix_rfl
    | exit => exact List.prefix_append _ _
    | _ => exact List.prefix_rfl

theorem Linked.persists {cont : Continuation Fn} (hlinked : Linked memory.states cont)
    (hextends : memory.Extends memory') : Linked memory'.states cont := by
  obtain ⟨stage, hstage, horigin⟩ := hlinked
  obtain ⟨after, hafter, hpersists⟩ := hextends.states _ _ hstage
  exact ⟨after, hafter, hpersists.origin.trans horigin⟩

theorem Returned.persists {state : ℕ} (hreturned : Returned memory.states state)
    (hextends : memory.Extends memory') : Returned memory'.states state := by
  obtain ⟨stage, hstage, hflag⟩ := hreturned
  obtain ⟨after, hafter, hpersists⟩ := hextends.states _ _ hstage
  exact ⟨after, hafter, hpersists.returned hflag⟩

theorem Completed.persists {state : ℕ} (hcompleted : Completed memory.states state)
    (hextends : memory.Extends memory') : Completed memory'.states state := by
  obtain ⟨stage, hstage, hpromise⟩ := hcompleted
  obtain ⟨after, hafter, hpersists⟩ := hextends.states _ _ hstage
  obtain ⟨result, hresult⟩ := Option.isSome_iff_exists.mp hpromise
  exact ⟨after, hafter, by rw [hpersists.promise result hresult]; rfl⟩

theorem Due.persists {execution : Execution Fn Value} (hdue : Due memory.states execution)
    (hextends : memory.Extends memory') : Due memory'.states execution := by
  cases hdue with
  | posted state fn stage hstage horigin =>
      obtain ⟨after, hafter, hpersists⟩ := hextends.states _ _ hstage
      exact .posted state fn after hafter (hpersists.origin.trans horigin)
  | attached state upstream fn value stage up hstage horigin hup hpromise =>
      obtain ⟨after, hafter, hpersists⟩ := hextends.states _ _ hstage
      obtain ⟨upAfter, hupAfter, hupPersists⟩ := hextends.states _ _ hup
      exact .attached state upstream fn value after upAfter hafter
        (hpersists.origin.trans horigin) hupAfter (hupPersists.promise _ hpromise)

theorem Justified.persists {state : ℕ} {completion : Completion Value Error}
    (hjustified : Justified memory state completion) (hextends : memory.Extends memory') :
    Justified memory' state completion := by
  cases hjustified with
  | result execution _ hdue hresult =>
      exact .result execution completion (hdue.persists hextends) (hextends.results _ hresult)
  | error _ upstream fn error stage up hstage horigin hup hpromise =>
      obtain ⟨after, hafter, hpersists⟩ := hextends.states _ _ hstage
      obtain ⟨upAfter, hupAfter, hupPersists⟩ := hextends.states _ _ hup
      exact .error state upstream fn error after upAfter hafter
        (hpersists.origin.trans horigin) hupAfter (hupPersists.promise _ hpromise)

theorem Callable.Sound.persists {callable : Callable Fn} (hsound : callable.Sound memory.states)
    (hextends : memory.Extends memory') : callable.Sound memory'.states := by
  cases callable with
  | detached fn => trivial
  | promised state fn =>
      obtain ⟨stage, hstage, horigin⟩ := hsound
      obtain ⟨after, hafter, hpersists⟩ := hextends.states _ _ hstage
      exact ⟨after, hafter, hpersists.origin.trans horigin⟩
  | continuation cont => exact ⟨hsound.1.persists hextends, hsound.2.persists hextends⟩
  | submit cont => exact ⟨hsound.1.persists hextends, hsound.2.persists hextends⟩

theorem Item.Sound.persists {item : Item Fn Value Error} (hsound : item.Sound memory)
    (hextends : memory.Extends memory') : item.Sound memory' := by
  cases item with
  | active active =>
      cases active with
      | enqueue package point => exact Callable.Sound.persists hsound hextends
      | thenImpl cont inlineExec point =>
          exact ⟨hsound.1.persists hextends, hsound.2.persists hextends⟩
      | get cont => exact ⟨hsound.1.persists hextends, hsound.2.persists hextends⟩
      | complete state completion => exact Justified.persists hsound hextends
      | _ => trivial
  | frame frame =>
      cases frame with
      | run fn arg state =>
          cases state with
          | none => trivial
          | some state => exact Due.persists hsound hextends
      | _ => trivial
  | package package => exact Callable.Sound.persists hsound hextends
  | callable called => exact Callable.Sound.persists hsound hextends
  | _ => trivial

end Persists

/-! ## Every change keeps it -/

namespace Config.Sound

variable {move : Move Fn Value Error} {rest : Bag Fn Value Error}
variable {memory memory' : Memory Fn Value Error} {removed added : List (Item Fn Value Error)}

theorem completed_of_settle {states : List (Stage Fn Value Error)} {state : ℕ}
    {stage : Stage Fn Value Error} (hstage : states[state]? = some stage)
    (completion : Completion Value Error) :
    Completed (states.set state { stage with cell := stage.cell.settle completion }) state :=
  ⟨_, List.getElem?_set_self (List.getElem?_eq_some_iff.mp hstage).1, rfl⟩

/-- The continuation a state had stored may run once the state is settled. -/
theorem callables_of_settle {state : ℕ} {stage : Stage Fn Value Error}
    {completion : Completion Value Error} (hmemory : memory.Sound)
    (hstage : memory.states[state]? = some stage)
    (hextends : memory.Extends (memory.setCell state stage (stage.cell.settle completion))) :
    ∀ called ∈ stage.cell.continuation.toList,
      called.Sound (memory.setCell state stage (stage.cell.settle completion)).states := by
  intro called hcalled
  obtain ⟨_, cont, inlineExec, rfl, rfl, hlinked⟩ :=
    hmemory.slots state stage hstage called (Option.mem_toList.mp hcalled)
  have hnext := hlinked.persists hextends
  have hup := completed_of_settle hstage completion
  cases inlineExec <;> exact ⟨hnext, hup⟩

theorem items_added (hchange : Change move memory removed added memory')
    (hdriven : Driven (.beside rest removed memory)) (hmemory : memory.Sound)
    (hremoved : ∀ item ∈ removed, item.Sound memory) : ∀ item ∈ added, item.Sound memory' := by
  have hextends := hchange.extends
  have hkeep := fun item hitem => (hremoved item hitem).persists hextends
  cases hchange with
  | execute _ cont inlineExec stage hstage hset hcompleted =>
      have hpromise := (hdriven.cells _ stage hstage).completed
      obtain ⟨hlinked, _⟩ := hremoved _ List.mem_cons_self
      have hup : Completed memory.states cont.upstream :=
        ⟨stage, hstage, by rw [← hpromise, hcompleted]⟩
      cases inlineExec <;> simpa [Item.Sound, Callable.Sound, Code.attachment] using ⟨hlinked, hup⟩
  | getValue _ cont stage value hstage hpromise =>
      obtain ⟨⟨next, hnext, horigin⟩, _⟩ := hremoved _ List.mem_cons_self
      simp only [List.mem_singleton, forall_eq]
      exact .attached cont.next cont.upstream cont.func value next stage hnext horigin hstage
        hpromise
  | getError _ cont stage error hstage hpromise =>
      obtain ⟨⟨next, hnext, horigin⟩, _⟩ := hremoved _ List.mem_cons_self
      simp only [List.mem_singleton, forall_eq]
      exact .error cont.next cont.upstream cont.func error next stage hnext horigin hstage hpromise
  | complete _ state completion stage hstage hpromise =>
      have hcallables := callables_of_settle hmemory hstage hextends
      cases completion <;> simpa [Item.Sound, Code.tryBlock] using hcallables
  | recover _ state error stage hstage hpromise =>
      simpa [Item.Sound] using callables_of_settle hmemory hstage hextends
  | finish _ fn arg state completion =>
      have hdue := hkeep _ List.mem_cons_self
      simp only [List.mem_singleton, forall_eq]
      exact .result ⟨state, fn, arg⟩ completion hdue (by simp)
  | attach _ upstream fn inlineExec stage hstage hreturned =>
      have hupstream := Returned.persists ⟨stage, hstage, hreturned⟩ hextends
      simp only [List.mem_singleton, forall_eq]
      exact ⟨⟨⟨.fresh, .attached upstream fn, false⟩, by simp, rfl⟩, hupstream⟩
  | runPromised _ _ state fn =>
      obtain ⟨stage, hstage, horigin⟩ := hremoved _ List.mem_cons_self
      simp only [List.mem_singleton, forall_eq]
      exact .posted state fn stage hstage horigin
  | pick | count | push | getFuture | take | runContinuation | submit =>
      simpa [Item.Sound, Callable.Sound] using hkeep
  | _ => simp [Item.Sound, Callable.Sound]

theorem ran_change (hchange : Change move memory removed added memory')
    (hmemory : memory.Sound) (hadded : ∀ item ∈ added, item.Sound memory') :
    ∀ execution ∈ memory'.ran, Due memory'.states execution := by
  have hkeep := fun execution hran => (hmemory.ran execution hran).persists hchange.extends
  cases hchange with
  | getValue | runPromised =>
      intro execution hran
      rcases List.mem_append.mp hran with hbefore | hnew
      · exact hkeep execution hbefore
      · obtain rfl := List.mem_singleton.mp hnew
        exact hadded _ List.mem_cons_self
  | notify =>
      intro execution hran
      rw [Memory.returnPosted_toHistory] at hran
      exact hkeep execution hran
  | _ => exact hkeep

theorem promises_change (hchange : Change move memory removed added memory')
    (hdriven : Driven (.beside rest removed memory)) (hmemory : memory.Sound)
    (hremoved : ∀ item ∈ removed, item.Sound memory) :
    ∀ (state : ℕ) stage, memory'.states[state]? = some stage →
      ∀ completion, stage.cell.promise = some completion → Justified memory' state completion := by
  have hextends := hchange.extends
  refine hchange.states.pointwise ?_ ?_ ?_ ?_ ?_ ?_
  · intro origin _ completion hpromise
    simp [SharedState.fresh] at hpromise
  · exact fun _ _ hjustified => hjustified
  · exact fun _ _ _ _ _ hjustified _ => hjustified
  · intro state stage completion hsettles hstage _ hnone result hresult
    obtain rfl := Option.some.inj hresult
    rcases hsettles with hcomplete | ⟨error, hrecover⟩
    · exact Justified.persists (hremoved _ hcomplete) hextends
    · exact absurd hnone (hdriven.promise_ne_none (mem_beside hrecover) hstage)
  · exact fun _ _ hjustified => hjustified
  · intro state stage hstage completion hpromise
    exact (hmemory.promises state stage completion hstage hpromise).persists hextends

theorem slots_change (hchange : Change move memory removed added memory')
    (hmemory : memory.Sound) (hremoved : ∀ item ∈ removed, item.Sound memory) :
    ∀ (state : ℕ) stage, memory'.states[state]? = some stage → memory'.Placed state stage := by
  have hextends := hchange.extends
  refine hchange.states.pointwise ?_ ?_ ?_ ?_ ?_ ?_
  · intro origin _ callable hcallable
    simp [SharedState.fresh] at hcallable
  · exact fun _ _ hplaced => hplaced
  · intro cont inlineExec stage hasked hstage _ _ callable hcallable
    obtain ⟨asked, hmem⟩ := hasked
    obtain ⟨hlinked, up, hup, hreturned⟩ := hremoved _ hmem
    obtain rfl := Option.some.inj (hup.symm.trans hstage)
    obtain rfl := Option.some.inj hcallable
    exact ⟨hreturned, cont, inlineExec, rfl, rfl, hlinked.persists hextends⟩
  · intro state stage completion _ _ _ _ callable hcallable
    simp [SharedState.settle] at hcallable
  · intro state stage hplaced callable hcallable
    exact ⟨rfl, (hplaced callable hcallable).2⟩
  · intro state stage hstage callable hcallable
    obtain ⟨hreturned, cont, inlineExec, hattachment, hupstream, hlinked⟩ :=
      hmemory.slots state stage hstage callable hcallable
    exact ⟨hreturned, cont, inlineExec, hattachment, hupstream, hlinked.persists hextends⟩

theorem ignored_change (hchange : Change move memory removed added memory')
    (hmemory : memory.Sound) (hremoved : ∀ item ∈ removed, item.Sound memory) :
    ∀ cont ∈ memory'.ignored, Linked memory'.states cont := by
  have hextends := hchange.extends
  have hkeep := fun cont hignored => (hmemory.ignored cont hignored).persists hextends
  cases hchange with
  | ignored _ cont =>
      intro other hignored
      rcases List.mem_append.mp hignored with hbefore | hnew
      · exact hkeep other hbefore
      · obtain rfl := List.mem_singleton.mp hnew
        exact (hremoved _ List.mem_cons_self).1.persists hextends
  | notify =>
      intro cont hignored
      rw [Memory.returnPosted_toHistory] at hignored
      exact hkeep cont hignored
  | _ => exact hkeep

theorem origins_change (hchange : Change move memory removed added memory')
    (hmemory : memory.Sound) :
    ∀ (state : ℕ) stage, memory'.states[state]? = some stage →
      ∀ upstream fn, stage.origin = .attached upstream fn →
        upstream < state ∧ Returned memory'.states upstream := by
  have hextends := hchange.extends
  refine hchange.states.pointwise ?_ ?_ ?_ ?_ ?_ ?_
  · intro origin hmakes upstream fn horigin
    obtain ⟨stage, hstage, hreturned⟩ := hmakes upstream fn horigin
    exact ⟨(List.getElem?_eq_some_iff.mp hstage).1,
      Returned.persists ⟨stage, hstage, hreturned⟩ hextends⟩
  · exact fun _ _ horigin => horigin
  · exact fun _ _ _ _ _ horigin _ => horigin
  · exact fun _ _ _ _ _ horigin _ => horigin
  · exact fun _ _ horigin => horigin
  · intro state stage hstage upstream fn horigin
    obtain ⟨hlt, hupstream⟩ := hmemory.origins state stage upstream fn hstage horigin
    exact ⟨hlt, hupstream.persists hextends⟩

/-- Every change keeps the configuration sound. -/
theorem change (hchange : Change move memory removed added memory')
    (hdriven : Driven (.beside rest removed memory))
    (hbefore : Sound (.beside rest removed memory)) : Sound (.beside rest added memory') := by
  have hrest : ∀ item ∈ rest, item.Sound memory :=
    fun item hitem => hbefore.items item (Multiset.mem_add.mpr (.inl hitem))
  have hremoved : ∀ item ∈ removed, item.Sound memory :=
    fun item hitem => hbefore.items item (mem_beside hitem)
  have hadded := items_added hchange hdriven hbefore.memory hremoved
  constructor
  · intro item hitem
    rcases Multiset.mem_add.mp hitem with hkept | hnew
    · exact (hrest item hkept).persists hchange.extends
    · exact hadded item hnew
  · exact {
      ran := ran_change hchange hbefore.memory hadded
      promises := fun state stage completion hstage hpromise =>
        promises_change hchange hdriven hbefore.memory hremoved state stage hstage completion
          hpromise
      slots := slots_change hchange hbefore.memory hremoved
      ignored := ignored_change hchange hbefore.memory hremoved
      origins := fun state stage upstream fn hstage horigin =>
        origins_change hchange hbefore.memory state stage hstage upstream fn horigin }

end Config.Sound

end RpcDemo.Threadpool
