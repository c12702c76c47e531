import RpcDemo.Threadpool.Settling

/-!
# Which continuations run

A state keeps the first continuation that is attached before it is completed and
ignores every later one; with none kept, all that come after the completion are
run at once.
-/

namespace RpcDemo.Threadpool

open Ledger Transition

variable {Fn Value Error : Type}

/-- The states made for the continuations of `upstream`. -/
def continuations (states : List (Stage Fn Value Error)) (upstream : ℕ) : List ℕ :=
  (states.zipIdx.filter fun entry => entry.1.origin.attaches upstream = 1).map Prod.snd

section Continuations

variable {states : List (Stage Fn Value Error)} {upstream state : ℕ}

theorem Origin.attaches_eq_one {origin : Origin Fn} :
    origin.attaches upstream = 1 ↔ ∃ fn, origin = .attached upstream fn := by
  cases origin with
  | posted fn => simp [attaches]
  | attached other fn => simp [attaches]

theorem mem_continuations : state ∈ continuations states upstream ↔
    ∃ stage fn, states[state]? = some stage ∧ stage.origin = .attached upstream fn := by
  simp [continuations, List.mem_zipIdx_iff_getElem?, Origin.attaches_eq_one]

theorem continuations_nodup (states : List (Stage Fn Value Error)) (upstream : ℕ) :
    (continuations states upstream).Nodup := by
  have hindices : (states.zipIdx.map Prod.snd).Nodup := by
    rw [List.zipIdx_map_snd]
    exact List.nodup_range'
  exact hindices.sublist (List.filter_sublist.map Prod.snd)

theorem length_continuations (states : List (Stage Fn Value Error)) (upstream : ℕ) :
    (continuations states upstream).length = attachments states upstream := by
  have hattaches : ∀ stage ∈ states,
      (if decide (stage.origin.attaches upstream = 1) then 1 else 0) =
        stage.origin.attaches upstream := by
    intro stage _
    cases stage.origin <;> simp [Origin.attaches]
  calc
    (continuations states upstream).length
      = (states.zipIdx.map Prod.fst).countP fun stage => stage.origin.attaches upstream = 1 := by
        rw [continuations, List.length_map, ← List.countP_eq_length_filter, List.countP_map]
        rfl
    _ = states.countP fun stage => stage.origin.attaches upstream = 1 := by
        rw [List.zipIdx_map_fst]
    _ = attachments states upstream := by
        rw [← total_countP, total_congr hattaches, attachments]

end Continuations

/-! ## The continuation in the slot -/

/-- The slot of the state `upstream` holds the continuation for the state `next`. -/
def Stores (states : List (Stage Fn Value Error)) (upstream next : ℕ) : Prop :=
  ∃ stage cont inlineExec, states[upstream]? = some stage ∧
    stage.cell.continuation = some (Code.attachment cont inlineExec) ∧ cont.next = next

/-- A call of `then_impl` for the state, whose continuation may still be ignored. -/
def Item.undecided (next : ℕ) : Item Fn Value Error → ℕ
  | .active (.thenImpl cont _ _) => if cont.next = next then 1 else 0
  | _ => 0

theorem Item.undecided_le_drives (next : ℕ) (item : Item Fn Value Error) :
    item.undecided next ≤ item.drives next := by
  cases item with
  | active active => cases active <;> first | exact le_rfl | exact Nat.zero_le _
  | _ => exact Nat.zero_le _

/-- No call is on its way in the queues and slots. -/
theorem Memory.undecided_eq_zero (memory : Memory Fn Value Error) (next : ℕ) :
    weight (Item.undecided next) memory.bag = 0 := by
  have hslots : ∀ stage : Stage Fn Value Error,
      weight (Item.undecided next) (stage.bag : Bag Fn Value Error) = 0 := by
    intro stage
    rw [Stage.weight_bag]
    cases stage.cell.continuation <;> rfl
  simp [Memory.bag, weight_total, hslots, Item.undecided]

theorem Memory.drives_of_slot {memory : Memory Fn Value Error} {upstream next : ℕ}
    {stage : Stage Fn Value Error} {cont : Continuation Fn} {inlineExec : Bool}
    (hstage : memory.states[upstream]? = some stage)
    (hslot : stage.cell.continuation = some (Code.attachment cont inlineExec))
    (hnext : cont.next = next) : 0 < weight (Item.drives next) memory.bag := by
  refine weight_pos_iff.mpr ⟨.slot (Code.attachment cont inlineExec), ?_, by
    simp [Item.drives, hnext]⟩
  refine Multiset.mem_add.mpr (.inr (mem_total.mpr ⟨stage, ?_, ?_⟩))
  · exact List.mem_of_getElem? hstage
  · simp [Stage.bag, hslot]

/-- The state was made for a continuation that is not ignored any more. -/
structure Config.Accepted (config : Config Fn Value Error) (cont : Continuation Fn) : Prop where
  linked : Linked config.memory.states cont
  decided : weight (Item.undecided cont.next) config.bag = 0
  kept : ∀ other ∈ config.memory.ignored, other.next ≠ cont.next

theorem Config.Accepted.change {move : Move Fn Value Error} {rest : Bag Fn Value Error}
    {memory memory' : Memory Fn Value Error} {removed added : List (Item Fn Value Error)}
    {cont : Continuation Fn} (hchange : Change move memory removed added memory')
    (hbefore : Accepted (.beside rest removed memory) cont) :
    Accepted (.beside rest added memory') cont := by
  obtain ⟨hlinked, hdecided, hkept⟩ := hbefore
  refine ⟨hlinked.persists hchange.extends, ?_, ?_⟩
  · simp only [weight_add, weight_coe] at hdecided ⊢
    cases hchange with
    | attach _ upstream fn inlineExec stage hstage hreturned =>
        -- the new state is none of those made before
        obtain ⟨made, hmade, -⟩ := hlinked
        have hlt := (List.getElem?_eq_some_iff.mp hmade).1
        simpa [Item.undecided, hlt.ne'] using hdecided
    | complete _ other completion stage hstage hpromise =>
        cases completion <;> simpa [Item.undecided, Code.tryBlock] using hdecided
    | ignored | stored | execute =>
        simp [Item.undecided] at hdecided ⊢
        exact hdecided.1
    | _ => simpa [Item.undecided] using hdecided
  · cases hchange with
    | ignored _ other inlineExec stage hstage hset =>
        have hne : other.next ≠ cont.next := by
          intro heq
          simp [Item.undecided, heq] at hdecided
        exact List.forall_mem_append.mpr ⟨hkept, List.forall_mem_singleton.mpr hne⟩
    | notify => simpa using hkept
    | _ => exact hkept

/-- A slot is filled by the call that was given the continuation. -/
theorem Code.stores_acted {memory : Memory Fn Value Error} {code : Code Fn Value Error}
    {move : Move Fn Value Error} {effect : Effect Fn Value Error}
    (hacted : Acted memory code move effect) {upstream : ℕ}
    (hbefore : occupied memory.states upstream ≠ 1)
    (hafter : occupied effect.memory.states upstream = 1) :
    ∃ next, Stores effect.memory.states upstream next := by
  have hchanged : occupied effect.memory.states upstream ≠ occupied memory.states upstream := by
    rw [hafter]
    exact hbefore.symm
  cases hacted with
  | stored cont inlineExec stack stage hstage hset hcompleted =>
      change occupied (memory.setCell _ _ _).states upstream = 1 at hafter
      rw [occupied_store hstage hset] at hafter
      have heq : cont.upstream = upstream := by
        by_contra hne
        exact hbefore (by simpa [hne] using hafter)
      subst heq
      have hlt := (List.getElem?_eq_some_iff.mp hstage).1
      exact ⟨cont.next, _, cont, inlineExec, List.getElem?_set_self hlt, rfl, rfl⟩
  | getFuture cont inlineExec stack stage hstage =>
      exact absurd (occupied_getFuture hstage upstream) hchanged
  | complete state completion stack stage hstage hpromise =>
      rw [states_invokeExtracted, occupied_settle hstage] at hchanged
      exact absurd rfl hchanged
  | recover state error stack stage hstage hpromise =>
      rw [states_invokeExtracted, occupied_settle hstage] at hchanged
      exact absurd rfl hchanged
  | execute =>
      rw [states_invokeExtracted] at hchanged
      exact absurd rfl hchanged
  | notify package =>
      exact absurd (occupied_returnPosted memory package.callable upstream) hchanged
  | attached cont =>
      exact absurd (occupied_markReturned memory cont.next upstream) hchanged
  | post | attach =>
      exact absurd (occupied_append memory.states _ upstream) hchanged
  | refuse state completion => cases completion <;> exact absurd rfl hchanged
  | _ => exact absurd rfl hchanged

theorem Thread.stores_acted {memory : Memory Fn Value Error} {thread : Thread Fn Value Error}
    {move : Move Fn Value Error} {progress : Progress Fn Value Error}
    (hacted : thread.Acted memory move progress) {upstream : ℕ}
    (hbefore : occupied memory.states upstream ≠ 1)
    (hafter : occupied progress.memory.states upstream = 1) :
    ∃ next, Stores progress.memory.states upstream next := by
  cases hacted with
  | caller code _ effect hacted => exact Code.stores_acted hacted hbefore hafter
  | task id task code after _ memory' signal hbusy hacted =>
      exact Code.stores_acted hacted hbefore hafter
  | terminate id task code _ memory' signal hacted =>
      exact Code.stores_acted hacted hbefore hafter
  | popFront | popBack =>
      simp only [startTask, Code.states_invoke] at hafter
      exact absurd hafter hbefore
  | _ => exact absurd hafter hbefore

namespace Pool

/-- The continuation of the state was run once, and the state is completed. -/
def Ran (pool : Pool Fn Value Error) (state : ℕ) : Prop :=
  pool.memory.invoked.count state = 1 ∧ Completed pool.memory.states state

/-- The continuation of the state was not run, and the state has no result. -/
def Dropped (pool : Pool Fn Value Error) (state : ℕ) : Prop :=
  pool.memory.invoked.count state = 0 ∧ ¬Completed pool.memory.states state

/-- The state is completed, all calls that attached to it have returned, and no
task for their continuations is queued or running. -/
structure AttachSettled (pool : Pool Fn Value Error) (upstream : ℕ) : Prop where
  completed : Completed pool.memory.states upstream
  returned : ∀ state ∈ continuations pool.memory.states upstream,
    Returned pool.memory.states state
  idle : ∀ state ∈ continuations pool.memory.states upstream, ¬pool.Busy state

namespace Lawful

variable {pool : Pool Fn Value Error} {upstream state : ℕ}

/-- A continuation was run and completed its state, or was ignored. -/
theorem ran_or_ignored (hlawful : pool.Lawful) (hlost : pool.memory.lost = [])
    (hsettled : pool.AttachSettled upstream)
    (hstate : state ∈ continuations pool.memory.states upstream) :
    completed pool.memory.states state +
        pool.memory.ignored.countP (fun cont => cont.next = state) = 1 ∧
      pool.memory.invoked.count state +
        pool.memory.ignored.countP (fun cont => cont.next = state) = 1 := by
  obtain ⟨stage, fn, hstage, horigin⟩ := mem_continuations.mp hstate
  obtain ⟨own, hown, hreturned⟩ := hsettled.returned state hstate
  obtain rfl := Option.some.inj (hstage.symm.trans hown)
  have hdrives : weight (Item.drives state) pool.config.bag = 0 := by
    apply hlawful.drives_eq_zero hstage hreturned (hsettled.idle state hstate)
    intro other fn' hattached
    obtain ⟨rfl, _⟩ := Origin.attached.inj (horigin.symm.trans hattached)
    exact hsettled.completed
  exact ⟨hlawful.completed_add_ignored hlost hstage hdrives,
    hlawful.invoked_add_ignored hlost hstage hdrives horigin⟩

/-- No attaching call is on its way when all have returned. -/
theorem attaching_eq_zero (hlawful : pool.Lawful) (hsettled : pool.AttachSettled upstream) :
    weight (Item.attaching upstream) pool.config.bag = 0 := by
  by_contra hne
  obtain ⟨item, hitem, hattaching⟩ := weight_pos_iff.mp (Nat.pos_of_ne_zero hne)
  obtain ⟨cont, inlineExec, point, rfl, rfl⟩ : ∃ cont inlineExec point,
      item = .active (.thenImpl cont inlineExec point) ∧ cont.upstream = upstream := by
    cases item with
    | active active =>
        cases active with
        | thenImpl cont inlineExec point =>
            refine ⟨cont, inlineExec, point, rfl, ?_⟩
            by_contra hne
            simp [Item.attaching, hne] at hattaching
        | _ => simp [Item.attaching] at hattaching
    | _ => simp [Item.attaching] at hattaching
  obtain ⟨⟨stage, hstage, horigin⟩, _⟩ := hlawful.coherent.sound.items _ hitem
  have hnext := mem_continuations.mpr ⟨stage, cont.func, hstage, horigin⟩
  obtain ⟨own, hown, hreturned⟩ := hsettled.returned cont.next hnext
  have hle : Item.returns cont.next (.active (.thenImpl cont inlineExec point)) ≤
      weight (Item.returns cont.next) pool.config.bag := le_weight hitem
  have hhanded := hlawful.coherent.handedOut cont.next
  have hmade := made_le_one pool.memory.states cont.next
  rw [config_memory, returned_of_get hown, hreturned] at hhanded
  simp only [Item.returns, if_true, Bool.toNat_true] at hle hhanded
  omega

/-- The ignored continuations of a state, counted by the states they were to
complete. -/
theorem total_ignored (hlawful : pool.Lawful) (upstream : ℕ) :
    total (fun state => pool.memory.ignored.countP fun cont => cont.next = state)
        (continuations pool.memory.states upstream) =
      pool.memory.ignored.countP fun cont => cont.upstream = upstream := by
  rw [total_countP_eq Continuation.next, ← total_countP]
  refine total_congr fun cont hignored => ?_
  obtain ⟨stage, hstage, horigin⟩ := hlawful.coherent.sound.memory.ignored cont hignored
  by_cases heq : cont.upstream = upstream
  · have hmem : cont.next ∈ continuations pool.memory.states upstream :=
      mem_continuations.mpr ⟨stage, cont.func, hstage, heq ▸ horigin⟩
    simp [heq, List.count_eq_one_of_mem (continuations_nodup _ _) hmem]
  · have hmem : cont.next ∉ continuations pool.memory.states upstream := by
      intro hmem
      obtain ⟨own, fn, hown, hattached⟩ := mem_continuations.mp hmem
      obtain rfl := Option.some.inj (hstage.symm.trans hown)
      exact heq (Origin.attached.inj (horigin.symm.trans hattached)).1
    simp [heq, List.count_eq_zero_of_not_mem hmem]

/-- A stored continuation is not ignored any more. -/
theorem accepted_of_stores (hlawful : pool.Lawful) {next : ℕ}
    (hstores : Stores pool.memory.states upstream next) :
    ∃ cont : Continuation Fn, cont.upstream = upstream ∧ cont.next = next ∧
      pool.config.Accepted cont := by
  obtain ⟨stage, stored, storedInline, hstage, hslot, rfl⟩ := hstores
  obtain ⟨-, cont, inlineExec, hcallable, rfl, hlinked⟩ :=
    hlawful.coherent.sound.memory.slots upstream stage hstage _ hslot
  have hnext : cont.next = stored.next := by
    cases storedInline <;> cases inlineExec <;> simp_all [Code.attachment]
  have hslots := Memory.drives_of_slot hstage hslot hnext.symm
  have hthreads : weight (Item.undecided cont.next) (total Thread.bag pool.threads) ≤
      weight (Item.drives cont.next) (total Thread.bag pool.threads) :=
    weight_le_weight (Item.undecided_le_drives cont.next) _
  have hdriven := hlawful.coherent.driven.driven cont.next
  have hmade := made_le_one pool.config.memory.states cont.next
  rw [show pool.config.bag = total Thread.bag pool.threads + pool.memory.bag from rfl,
    weight_add] at hdriven
  refine ⟨cont, rfl, hnext, hlinked, ?_, fun other hother hsame => ?_⟩
  · rw [show pool.config.bag = total Thread.bag pool.threads + pool.memory.bag from rfl,
      weight_add, pool.memory.undecided_eq_zero]
    omega
  · have hpos : 0 < pool.config.memory.ignored.countP fun other => other.next = cont.next :=
      List.countP_pos_iff.mpr ⟨other, hother, by simpa using hsame⟩
    omega

end Lawful

/-- At some moment of the run the slot of `upstream` held the continuation for the state
`next`. -/
def StoredDuring (begun : Pool Fn Value Error) (events : List (Event Fn Value Error))
    (upstream next : ℕ) : Prop :=
  ∃ earlier later middle, events = earlier ++ later ∧ run step begun earlier = some middle ∧
    Stores middle.memory.states upstream next

/-- A slot that was filled in the course of a run held a continuation then. -/
theorem exists_storedDuring {begun pool : Pool Fn Value Error}
    {events : List (Event Fn Value Error)} {upstream : ℕ}
    (hbegun : occupied begun.memory.states upstream ≠ 1)
    (htaken : occupied pool.memory.states upstream = 1)
    (hrun : run step begun events = some pool) :
    ∃ next, StoredDuring begun events upstream next := by
  obtain ⟨earlier, event, later, before, after, rfl, hbefore, hfree, hstep, hfilled, -⟩ :=
    exists_step_of_run (fun pool => occupied pool.memory.states upstream = 1) hbegun htaken hrun
  obtain ⟨thread, progress, hstepped⟩ := stepped_of_step hstep
  rw [hstepped.memory] at hfilled
  obtain ⟨next, hstores⟩ := Thread.stores_acted hstepped.acted hfree hfilled
  have hafter : run step begun (earlier ++ [event]) = some after :=
    run_append.mpr ⟨before, hbefore, run_cons.mpr ⟨after, hstep, rfl⟩⟩
  refine ⟨next, earlier ++ [event], later, after, by simp, hafter, ?_⟩
  rwa [hstepped.memory]

/-- A continuation that was stored is run when all is settled. -/
theorem ran_of_storedDuring {workers callers : ℕ} {events : List (Event Fn Value Error)}
    {pool : Pool Fn Value Error} {upstream next : ℕ}
    (hrun : run step (start workers callers) events = some pool) (hlost : pool.memory.lost = [])
    (hsettled : pool.AttachSettled upstream)
    (hstored : StoredDuring (start workers callers) events upstream next) :
    next ∈ continuations pool.memory.states upstream ∧ pool.Ran next := by
  obtain ⟨earlier, later, middle, rfl, hearlier, hstores⟩ := hstored
  obtain ⟨same, hsame, hlater⟩ := run_append.mp hrun
  obtain rfl := Option.some.inj (hearlier.symm.trans hsame)
  obtain ⟨cont, rfl, rfl, haccepted⟩ := (lawful_of_run hearlier).accepted_of_stores hstores
  have hfinal : pool.config.Accepted cont :=
    changes_invariant (fun _ => True) (fun config => config.Accepted cont)
      (fun _ hchange hbefore => hbefore.change hchange) haccepted (fun _ _ => trivial) hlater
  obtain ⟨stage, hstage, horigin⟩ := hfinal.linked
  have hmem : cont.next ∈ continuations pool.memory.states cont.upstream :=
    mem_continuations.mpr ⟨stage, cont.func, hstage, horigin⟩
  have hignored : pool.memory.ignored.countP (fun other => other.next = cont.next) = 0 :=
    List.countP_eq_zero.mpr fun other hother => by simpa using hfinal.kept other hother
  obtain ⟨hcompleted, hinvoked⟩ := (lawful_of_run hrun).ran_or_ignored hlost hsettled hmem
  rw [hignored, add_zero] at hcompleted hinvoked
  exact ⟨hmem, hinvoked, completed_eq_one_iff.mp hcompleted⟩

theorem start_occupied (workers callers upstream : ℕ) :
    occupied (start workers callers : Pool Fn Value Error).memory.states upstream ≠ 1 := by
  simp [start, occupied, flag]

/-- Which continuations of a state run: all, when none was stored before the completion,
and else the one that was stored and no other. -/
structure SlotRuns (begun : Pool Fn Value Error) (events : List (Event Fn Value Error))
    (pool : Pool Fn Value Error) (upstream : ℕ) : Prop where
  free : occupied pool.memory.states upstream = 0 →
    ∀ state ∈ continuations pool.memory.states upstream, pool.Ran state
  taken : occupied pool.memory.states upstream = 1 →
    ∃ kept ∈ continuations pool.memory.states upstream,
      (∀ next, StoredDuring begun events upstream next ↔ next = kept) ∧ pool.Ran kept ∧
        ∀ state ∈ continuations pool.memory.states upstream, state ≠ kept → pool.Dropped state

theorem slotRuns_of_run {workers callers : ℕ} {events : List (Event Fn Value Error)}
    {pool : Pool Fn Value Error} {upstream : ℕ}
    (hrun : run step (start workers callers) events = some pool) (hlost : pool.memory.lost = [])
    (hsettled : pool.AttachSettled upstream) :
    SlotRuns (start workers callers) events pool upstream := by
  have hlawful := lawful_of_run hrun
  have hran : ∀ state ∈ continuations pool.memory.states upstream,
      completed pool.memory.states state +
        pool.memory.ignored.countP (fun cont => cont.next = state) = 1 ∧
      pool.memory.invoked.count state +
        pool.memory.ignored.countP (fun cont => cont.next = state) = 1 :=
    fun state hstate => hlawful.ran_or_ignored hlost hsettled hstate
  obtain ⟨_, hbalanced, hfree⟩ := hlawful.coherent.attachedTo upstream
  have hdone := completed_eq_one_iff.mpr hsettled.completed
  have hignored := hlawful.total_ignored upstream
  rw [config_memory] at hbalanced hfree
  constructor
  · intro hnone state hstate
    rw [hfree hnone, total_eq_zero_iff] at hignored
    obtain ⟨hcompleted, hinvoked⟩ := hran state hstate
    rw [hignored state hstate] at hcompleted hinvoked
    exact ⟨hinvoked, completed_eq_one_iff.mp hcompleted⟩
  · intro htaken
    have hlength := length_continuations pool.memory.states upstream
    rw [hbalanced (.inr htaken), hlawful.attaching_eq_zero hsettled, htaken, ← hignored] at hlength
    have hone : total (completed pool.memory.states)
        (continuations pool.memory.states upstream) = 1 := by
      have hsum : total (fun state => completed pool.memory.states state +
            pool.memory.ignored.countP fun cont => cont.next = state)
          (continuations pool.memory.states upstream) =
            (continuations pool.memory.states upstream).length := by
        rw [total_congr fun state hstate => (hran state hstate).1, total_one]
      rw [total_add] at hsum
      omega
    obtain ⟨kept, hkept, hcompleted, hothers⟩ := exists_of_total_eq_one hone
    have hdropped : ∀ state ∈ continuations pool.memory.states upstream, state ≠ kept →
        pool.Dropped state := by
      intro state hstate hne
      have hzero := hothers state hstate hne
      have hone := hran state hstate
      refine ⟨by omega, fun hdone => ?_⟩
      rw [completed_eq_one_iff.mpr hdone] at hzero
      omega
    have hstored : ∀ next, StoredDuring (start workers callers) events upstream next →
        next = kept := by
      intro next hnext
      obtain ⟨hmem, hinvoked, -⟩ := ran_of_storedDuring hrun hlost hsettled hnext
      by_contra hne
      rw [(hdropped next hmem hne).1] at hinvoked
      simp at hinvoked
    obtain ⟨next, hnext⟩ :=
      exists_storedDuring (start_occupied workers callers upstream) htaken hrun
    obtain rfl := hstored next hnext
    refine ⟨next, hkept, fun other => ⟨hstored other, fun heq => heq ▸ hnext⟩, ?_, hdropped⟩
    exact (ran_of_storedDuring hrun hlost hsettled hnext).2

/-- Two continuations are attached before the worker runs the task: the second is
ignored. -/
def secondAttachEvents : List (Event ℕ ℕ ℕ) :=
  [⟨1, .call (.post 7)⟩] ++ turns 1 3 ++ [⟨1, .notifyOne 0⟩] ++
    [⟨1, .call (.attach 0 8 true)⟩] ++ turns 1 3 ++ [⟨1, .call (.attach 0 9 true)⟩] ++ turns 1 3 ++
    turns 0 2 ++ [⟨0, .finish (.ok (some 5))⟩] ++ turns 0 2 ++ [⟨0, .finish (.ok (some 6))⟩] ++
    turns 0 5

def secondAttachPool : Pool ℕ ℕ ℕ where
  memory :=
    { (start 1 1 : Pool ℕ ℕ ℕ).memory with
      roundIndex := 1
      states := [⟨⟨some (.ok (some 5)), true, none, true, true⟩, .posted 7, true⟩,
        ⟨⟨some (.ok (some 6)), false, none, true, false⟩, .attached 0 8, true⟩,
        ⟨.fresh, .attached 0 9, true⟩]
      issued := 1
      pushed := [0]
      started := [0]
      finished := [0]
      ran := [⟨0, 7, none⟩, ⟨1, 8, some 5⟩]
      results := [(⟨0, 7, none⟩, .ok (some 5)), (⟨1, 8, some 5⟩, .ok (some 6))]
      invoked := [1]
      ignored := [⟨0, 2, 9⟩] }
  threads := [.worker 0 .loop, .caller .idle]

theorem attachSettled_secondAttachPool : secondAttachPool.AttachSettled 0 := by
  have hstates : continuations secondAttachPool.memory.states 0 = [1, 2] := by decide
  constructor
  · exact ⟨_, rfl, rfl⟩
  · rw [hstates]
    rintro state (_ | ⟨_, _ | ⟨_, ⟨⟩⟩⟩)
    · exact ⟨_, rfl, rfl⟩
    · exact ⟨_, rfl, rfl⟩
  · rintro state _ (⟨package, hpackage, _⟩ | ⟨thread, hthread, htask, _⟩)
    · simp [secondAttachPool, start] at hpackage
    · simp only [secondAttachPool, List.mem_cons, List.not_mem_nil, or_false] at hthread
      obtain rfl | rfl := hthread <;> exact htask rfl

theorem slotRuns_secondAttachPool : SlotRuns (start 1 1) secondAttachEvents secondAttachPool 0 := by
  have hrun : run step (start 1 1) secondAttachEvents = some secondAttachPool := by decide
  exact slotRuns_of_run hrun rfl attachSettled_secondAttachPool

theorem not_ran_secondAttachPool :
    run step (start 1 1) secondAttachEvents = some secondAttachPool ∧
      secondAttachPool.memory.lost = [] ∧ secondAttachPool.AttachSettled 0 ∧
      2 ∈ continuations secondAttachPool.memory.states 0 ∧ ¬secondAttachPool.Ran 2 := by
  refine ⟨by decide, rfl, attachSettled_secondAttachPool, by decide, fun hran => ?_⟩
  exact absurd hran.1 (by decide)

end Pool

end RpcDemo.Threadpool
