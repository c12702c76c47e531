import RpcDemo.Threadpool.CallableSteps

/-!
# Programs over wrapped callables

What a program means is a table from variables to the callables in them: a
construction puts a callable in, a move takes it from one variable to another,
an invocation runs the one that is there.  The code keeps to this meaning on
every memory that satisfies the invariant, and keeps the invariant, whichever
allocations, constructors and moves throw.
-/

namespace RpcDemo.MFunction

open RpcDemo.Action Memory

/-- The variables in scope with the callables in them. -/
abbrev Contents (Var : Type*) := Var → Option (Option Callable)

/-- The exception of a construction, if one of its operations throws. -/
def constructionFault (callable : Callable) (faults : Faults) : Option Exn :=
  if requireOnHeap callable.type = true ∧ faults.allocation = true then some badAlloc
  else faults.constructor

/-- The exception of a move: only the move constructor of an inline callable
can throw. -/
def moveFault (held : Option Callable) (fault : Option Exn) : Option Exn :=
  held.bind fun callable => if requireOnHeap callable.type then none else fault

section Meaning

variable {Var : Type*} [DecidableEq Var]

/-- What an operation of a program is to do; `none` for a variable declared
twice or used out of scope. -/
def expected (contents : Contents Var) :
    Op Var → Option (Except Exn (Option Callable) × Contents Var)
  | .constructFrom var callable faults =>
      match contents var with
      | some _ => none
      | none =>
          match constructionFault callable faults with
          | some exn => some (.error exn, contents)
          | none => some (.ok none, Function.update contents var (some (some callable)))
  | .construct var =>
      match contents var with
      | some _ => none
      | none => some (.ok none, Function.update contents var (some none))
  | .moveConstruct var other fault =>
      match contents var, contents other with
      | none, some held =>
          match moveFault held fault with
          | some exn => some (.error exn, contents)
          | none => some (.ok none,
              Function.update (Function.update contents var (some held)) other (some none))
      | _, _ => none
  | .moveAssign var other fault =>
      match contents var, contents other with
      | some _, some held =>
          if var = other then some (.ok none, contents)
          else
            match moveFault held fault with
            | some exn => some (.error exn, Function.update contents var (some none))
            | none => some (.ok none,
                Function.update (Function.update contents var (some held)) other (some none))
      | _, _ => none
  | .assignNull var =>
      match contents var with
      | some _ => some (.ok none, Function.update contents var (some none))
      | none => none
  | .invoke var =>
      match contents var with
      | some (some callable) => some (.ok (some callable), contents)
      | some none => some (.error (.stdException "Invaild function."), contents)
      | none => none
  | .destruct var =>
      match contents var with
      | some _ => some (.ok none, Function.update contents var none)
      | none => none

/-- What a program is expected to leave in its variables. -/
def expectedAll : List (Op Var) → Contents Var →
    Option (List (Except Exn (Option Callable)) × Contents Var)
  | [], contents => some ([], contents)
  | op :: ops, contents =>
      (expected contents op).bind fun (result, next) =>
        (expectedAll ops next).map fun (results, final) => (result :: results, final)

end Meaning

/-! ## The callables in a memory -/

variable {Var : Type*} {memory middle after : Memory Var} {var other : Var}
  {callable : Callable} {held : Option Callable} {table : Contents Var} {touched : Var → Prop}

namespace Memory

/-- The callable that each variable in scope holds. -/
def contents (memory : Memory Var) : Contents Var := fun var =>
  (memory.packs var).map fun _ => (memory.owned var).map Object.callable

theorem contents_eq_none_iff : memory.contents var = none ↔ memory.packs var = none := by
  simp [contents]

theorem Sound.exists_empty (hsound : memory.Sound) (hvar : memory.contents var = some none) :
    ∃ storage, memory.packs var = some ⟨storage, none⟩ := by
  obtain ⟨⟨storage, vtab⟩, hpack, howned⟩ := Option.map_eq_some_iff.mp hvar
  cases vtab with
  | none => exact ⟨storage, hpack⟩
  | some vtab =>
      obtain ⟨object, hholds⟩ := hsound.typed hpack rfl
      simp [hholds.owned] at howned

theorem Sound.exists_holds (hsound : memory.Sound)
    (hvar : memory.contents var = some (some callable)) :
    ∃ object, memory.Holds var object ∧ object.callable = callable := by
  obtain ⟨⟨storage, vtab⟩, hpack, howned⟩ := Option.map_eq_some_iff.mp hvar
  cases vtab with
  | none => simp [owned, hpack] at howned
  | some vtab =>
      obtain ⟨object, hholds⟩ := hsound.typed hpack rfl
      rw [hholds.owned, Option.map_some, Option.some.injEq] at howned
      exact ⟨object, hholds, howned⟩

theorem contents_eq_update [DecidableEq Var] {pack : Option Pack} {object : Option Object}
    (hpacks : after.packs = Function.update memory.packs var pack)
    (howned : after.owned = Function.update memory.owned var object) :
    after.contents =
      Function.update memory.contents var (pack.map fun _ => object.map Object.callable) := by
  funext other
  by_cases hother : other = var
  · subst hother
    simp [contents, hpacks, howned]
  · simp [contents, hpacks, howned, hother]

/-- A sound memory with the given callables, in which the variables that are
not touched own the objects they owned. -/
structure Becomes (memory after : Memory Var) (touched : Var → Prop)
    (table : Contents Var) : Prop where
  sound : after.Sound
  contents : after.contents = table
  owned : ∀ var, ¬ touched var → after.owned var = memory.owned var

theorem Sound.becomes (hsound : memory.Sound) (touched : Var → Prop) :
    memory.Becomes memory touched memory.contents :=
  ⟨hsound, rfl, fun _ _ => rfl⟩

theorem Becomes.trans {table' : Contents Var} (hfirst : memory.Becomes middle touched table)
    (hsecond : middle.Becomes after touched table') : memory.Becomes after touched table' :=
  ⟨hsecond.sound, hsecond.contents,
    fun var hvar => (hsecond.owned var hvar).trans (hfirst.owned var hvar)⟩

theorem Becomes.mono {touched' : Var → Prop} (hbecomes : memory.Becomes after touched table)
    (hsub : ∀ var, touched var → touched' var) : memory.Becomes after touched' table :=
  ⟨hbecomes.sound, hbecomes.contents,
    fun var hvar => hbecomes.owned var fun htouched => hvar (hsub var htouched)⟩

end Memory

variable [DecidableEq Var]

theorem becomes_setPack (hsound : memory.Sound) {pack : Option Pack}
    (hbefore : Vacant (memory.packs var)) (hpack : Vacant pack) :
    memory.Becomes (memory.setPack var pack) (· = var)
      (Function.update memory.contents var (pack.map fun _ => none)) where
  sound := hsound.setPack hbefore hpack
  contents := by
    have howned : (memory.setPack var pack).owned = Function.update memory.owned var none := by
      rw [owned_setPack hbefore hpack, ← owned_of_vacant hbefore, Function.update_eq_self]
    exact contents_eq_update rfl howned
  owned := fun _ _ => by rw [owned_setPack hbefore hpack]

theorem becomes_update {pack : Pack} {object : Option Object} (hsound : after.Sound)
    (hpacks : after.packs = Function.update memory.packs var (some pack))
    (howned : after.owned = Function.update memory.owned var object) :
    memory.Becomes after (· = var)
      (Function.update memory.contents var (some (object.map Object.callable))) :=
  ⟨hsound, contents_eq_update hpacks howned,
    fun other hother => by rw [howned, Function.update_of_ne hother]⟩

/-! ## The functions of the wrapper -/

/-- `destory_` empties the variable. -/
theorem destory_becomes (hsound : memory.Sound) (hvar : memory.contents var = some held) :
    ∃ after, (destory var).run memory = some (.ok (), after) ∧
      memory.Becomes after (· = var) (Function.update memory.contents var (some none)) := by
  cases held with
  | none =>
      obtain ⟨storage, hpack⟩ := hsound.exists_empty hvar
      refine ⟨memory, destory_of_empty hpack, ?_⟩
      rw [← hvar, Function.update_eq_self]
      exact hsound.becomes _
  | some callable =>
      obtain ⟨object, hholds, rfl⟩ := hsound.exists_holds hvar
      cases hholds with
      | stack htype hpack =>
          have hsound' := hsound.endStack (owned_of_stack htype hpack)
            (ownedBlock_of_stack htype hpack)
          exact ⟨_, destory_of_stack htype hpack, becomes_update hsound' rfl owned_endStack⟩
      | heap block htype hpack hblock =>
          have hown := ownedBlock_of_heap htype hpack
          have hsound' := hsound.endHeap (owned_of_heap htype hpack hblock) hown
          exact ⟨_, destory_of_heap htype hpack hblock,
            becomes_update hsound' rfl (owned_endHeap hsound hown)⟩

/-- A construction that does not throw leaves its callable in the variable. -/
theorem construct_becomes {faults : Faults} (hsound : memory.Sound)
    (hvar : memory.contents var = some none) (hfault : constructionFault callable faults = none) :
    ∃ after, (construct var callable faults).run memory = some (.ok (), after) ∧
      memory.Becomes after (· = var)
        (Function.update memory.contents var (some (some callable))) := by
  obtain ⟨storage, hpack⟩ := hsound.exists_empty hvar
  have hvacant : Vacant (memory.packs var) := by simp [hpack]
  cases htype : requireOnHeap callable.type with
  | false =>
      have hconstructor : faults.constructor = none := by
        simpa [constructionFault, htype] using hfault
      exact ⟨_, construct_of_stack hpack htype hconstructor,
        becomes_update (hsound.createStack hvacant htype) rfl (owned_createStack htype)⟩
  | true =>
      obtain ⟨hallocation, hconstructor⟩ :
          faults.allocation = false ∧ faults.constructor = none := by
        cases hallocation : faults.allocation <;>
          simp_all [constructionFault]
      exact ⟨_, construct_of_heap hpack htype hallocation hconstructor,
        becomes_update (hsound.createHeap hvacant htype) rfl (owned_createHeap hsound htype)⟩

theorem construct_throws {faults : Faults} {exn : Exn} (hsound : memory.Sound)
    (hvar : memory.contents var = some none)
    (hfault : constructionFault callable faults = some exn) :
    ∃ after, (construct var callable faults).run memory = some (.error exn, after) ∧
      memory.Becomes after (· = var) memory.contents := by
  obtain ⟨storage, hpack⟩ := hsound.exists_empty hvar
  cases htype : requireOnHeap callable.type with
  | false =>
      have hconstructor : faults.constructor = some exn := by
        simpa [constructionFault, htype] using hfault
      exact ⟨_, construct_of_stack_throws htype hconstructor, hsound.becomes _⟩
  | true =>
      cases hallocation : faults.allocation with
      | true =>
          obtain rfl : badAlloc = exn := by
            simpa [constructionFault, htype, hallocation] using hfault
          exact ⟨_, construct_of_heap_badAlloc htype hallocation, hsound.becomes _⟩
      | false =>
          have hconstructor : faults.constructor = some exn := by
            simpa [constructionFault, htype, hallocation] using hfault
          have howned := owned_wasteBlock hsound
          refine ⟨_, construct_of_heap_throws htype hallocation hconstructor,
            hsound.wasteBlock (by simp [hpack] : Vacant (memory.packs var)), ?_, ?_⟩
          · funext other
            rw [contents, howned]
            rfl
          · exact fun other _ => by rw [howned]

/-- A move leaves the callable in its target and nothing in its source. -/
theorem moveFrom_becomes {fault : Option Exn} (hsound : memory.Sound) (hne : var ≠ other)
    (hvar : memory.contents var = some none) (hother : memory.contents other = some held)
    (hfault : moveFault held fault = none) :
    ∃ after, (moveFrom var other fault).run memory = some (.ok (), after) ∧
      memory.Becomes after (fun owner => owner = var ∨ owner = other)
        (Function.update (Function.update memory.contents var (some held)) other (some none)) := by
  obtain ⟨storage, hempty⟩ := hsound.exists_empty hvar
  have hvacant : Vacant (memory.packs var) := by simp [hempty]
  cases held with
  | none =>
      obtain ⟨left, hpack⟩ := hsound.exists_empty hother
      refine ⟨memory, moveFrom_of_empty fault hpack, ?_⟩
      rw [← hvar, Function.update_eq_self, hvar, ← hother, Function.update_eq_self]
      exact hsound.becomes _
  | some callable =>
      obtain ⟨object, hholds, rfl⟩ := hsound.exists_holds hother
      cases hholds with
      | stack htype hpack =>
          obtain rfl : fault = none := by simpa [moveFault, htype] using hfault
          have hcreated := hsound.createStack hvacant htype
          have hpack' : (memory.createStack var object.callable).packs other =
              some ⟨.data object, some (createVtable object.callable.type)⟩ :=
            (Function.update_of_ne hne.symm _ _).trans hpack
          have hbecomes : memory.Becomes (memory.createStack var object.callable) (· = var) _ :=
            becomes_update hcreated rfl (owned_createStack htype)
          have hended := hcreated.endStack (owned_of_stack htype hpack')
            (ownedBlock_of_stack htype hpack')
          have hbecomes' := becomes_update hended rfl owned_endStack
          rw [hbecomes.contents] at hbecomes'
          exact ⟨_, moveFrom_of_stack hne hempty htype hpack,
            (hbecomes.mono fun _ => .inl).trans (hbecomes'.mono fun _ => .inr)⟩
      | heap block htype hpack hblock =>
          have howned := owned_passHeap hne htype hpack hblock
          refine ⟨_, moveFrom_of_heap hne hempty htype hpack fault,
            hsound.passHeap hne htype hpack hblock hvacant, ?_, ?_⟩
          · have hpassed : memory.owned other = some object := owned_of_heap htype hpack hblock
            funext owner
            rw [contents, howned]
            by_cases hsource : owner = other
            · subst hsource
              simp [passHeap]
            by_cases htarget : owner = var
            · subst htarget
              simp [passHeap, hsource, hpassed]
            · simp [passHeap, hsource, htarget, contents]
          · intro owner howner
            obtain ⟨htarget, hsource⟩ := not_or.mp howner
            rw [howned, Function.update_of_ne hsource, Function.update_of_ne htarget]

/-- A throwing move leaves the memory as it was. -/
theorem moveFrom_throws {fault : Option Exn} {exn : Exn} (hsound : memory.Sound)
    (hother : memory.contents other = some held) (hfault : moveFault held fault = some exn) :
    (moveFrom var other fault).run memory = some (.error exn, memory) := by
  cases held with
  | none => simp [moveFault] at hfault
  | some callable =>
      obtain ⟨object, hholds, rfl⟩ := hsound.exists_holds hother
      cases hholds with
      | stack htype hpack =>
          obtain rfl : fault = some exn := by simpa [moveFault, htype] using hfault
          exact moveFrom_of_stack_throws htype hpack exn
      | heap block htype hpack hblock => simp [moveFault, htype] at hfault

/-! ## The operations of a program -/

theorem declare_becomes (hsound : memory.Sound) (hvar : memory.contents var = none) :
    ∃ after, (declare var).run memory = some (.ok (), after) ∧
      memory.Becomes after (· = var) (Function.update memory.contents var (some none)) := by
  have hpack := contents_eq_none_iff.mp hvar
  have hfree : (Action.read fun memory : Memory Var =>
      if (memory.packs var).isNone then some () else none).run memory =
        some (.ok (), memory) := run_read (by simp [hpack])
  refine ⟨memory.setPack var (some ⟨.indeterminate, none⟩), ?_, ?_⟩
  · rw [declare, run_bind hfree]
    rfl
  · exact becomes_setPack hsound (by simp [hpack]) (vacant_empty _)

theorem undeclare_becomes (hsound : memory.Sound) (hvar : memory.contents var = some none) :
    ∃ after, (undeclare var).run memory = some (.ok (), after) ∧
      memory.Becomes after (· = var) (Function.update memory.contents var none) := by
  obtain ⟨storage, hpack⟩ := hsound.exists_empty hvar
  exact ⟨_, rfl, becomes_setPack hsound (by simp [hpack]) vacant_none⟩

/-- A constructor that throws leaves no variable behind. -/
theorem guarded_undeclare_becomes {action : Action (Memory Var) Unit} {exn : Exn}
    (hvar : memory.contents var = none)
    (hdeclared : memory.Becomes middle (· = var)
      (Function.update memory.contents var (some none)))
    (haction : action.run middle = some (.error exn, after))
    (hbecomes : middle.Becomes after (· = var) middle.contents) :
    ∃ final, (guarded action (undeclare var)).run middle = some (.error exn, final) ∧
      memory.Becomes final (· = var) memory.contents := by
  have hempty : after.contents var = some none := by
    rw [hbecomes.contents, hdeclared.contents, Function.update_self]
  obtain ⟨final, hrun, hfinal⟩ := undeclare_becomes hbecomes.sound hempty
  refine ⟨final, run_guarded_of_throws haction hrun, ?_⟩
  have hcontents : Function.update after.contents var none = memory.contents := by
    rw [hbecomes.contents, hdeclared.contents, Function.update_idem, ← hvar,
      Function.update_eq_self]
  rw [hcontents] at hfinal
  exact (hdeclared.trans hbecomes).trans hfinal

theorem constructFrom_becomes {faults : Faults} (hsound : memory.Sound)
    (hvar : memory.contents var = none) (hfault : constructionFault callable faults = none) :
    ∃ after, (constructFrom var callable faults).run memory = some (.ok (), after) ∧
      memory.Becomes after (· = var)
        (Function.update memory.contents var (some (some callable))) := by
  obtain ⟨declared, hdeclare, hdeclared⟩ := declare_becomes hsound hvar
  have hempty : declared.contents var = some none := by
    rw [hdeclared.contents, Function.update_self]
  obtain ⟨after, hconstruct, hafter⟩ := construct_becomes hdeclared.sound hempty hfault
  rw [hdeclared.contents, Function.update_idem] at hafter
  refine ⟨after, ?_, hdeclared.trans hafter⟩
  rw [constructFrom, run_bind hdeclare, run_guarded hconstruct]

theorem constructFrom_throws {faults : Faults} {exn : Exn} (hsound : memory.Sound)
    (hvar : memory.contents var = none) (hfault : constructionFault callable faults = some exn) :
    ∃ after, (constructFrom var callable faults).run memory = some (.error exn, after) ∧
      memory.Becomes after (· = var) memory.contents := by
  obtain ⟨declared, hdeclare, hdeclared⟩ := declare_becomes hsound hvar
  have hempty : declared.contents var = some none := by
    rw [hdeclared.contents, Function.update_self]
  obtain ⟨after, hconstruct, hafter⟩ := construct_throws hdeclared.sound hempty hfault
  obtain ⟨final, hrun, hfinal⟩ := guarded_undeclare_becomes hvar hdeclared hconstruct hafter
  exact ⟨final, by rw [constructFrom, run_bind hdeclare, hrun], hfinal⟩

theorem moveConstruct_becomes {fault : Option Exn} (hsound : memory.Sound)
    (hvar : memory.contents var = none) (hother : memory.contents other = some held)
    (hfault : moveFault held fault = none) :
    ∃ after, (moveConstruct var other fault).run memory = some (.ok (), after) ∧
      memory.Becomes after (fun owner => owner = var ∨ owner = other)
        (Function.update (Function.update memory.contents var (some held)) other
          (some none)) := by
  have hne : var ≠ other := by
    rintro rfl
    simp [hvar] at hother
  obtain ⟨declared, hdeclare, hdeclared⟩ := declare_becomes hsound hvar
  have hempty : declared.contents var = some none := by
    rw [hdeclared.contents, Function.update_self]
  have hkept : declared.contents other = some held := by
    rw [hdeclared.contents, Function.update_of_ne hne.symm, hother]
  obtain ⟨after, hmove, hafter⟩ := moveFrom_becomes hdeclared.sound hne hempty hkept hfault
  rw [hdeclared.contents, Function.update_idem] at hafter
  refine ⟨after, ?_, (hdeclared.mono fun _ => .inl).trans hafter⟩
  rw [moveConstruct, run_bind hdeclare, run_guarded hmove]

theorem moveConstruct_throws {fault : Option Exn} {exn : Exn} (hsound : memory.Sound)
    (hvar : memory.contents var = none) (hother : memory.contents other = some held)
    (hfault : moveFault held fault = some exn) :
    ∃ after, (moveConstruct var other fault).run memory = some (.error exn, after) ∧
      memory.Becomes after (· = var) memory.contents := by
  have hne : other ≠ var := by
    rintro rfl
    simp [hvar] at hother
  obtain ⟨declared, hdeclare, hdeclared⟩ := declare_becomes hsound hvar
  have hkept : declared.contents other = some held := by
    rw [hdeclared.contents, Function.update_of_ne hne, hother]
  obtain ⟨final, hrun, hfinal⟩ := guarded_undeclare_becomes hvar hdeclared
    (moveFrom_throws hdeclared.sound hkept hfault) (hdeclared.sound.becomes _)
  exact ⟨final, by rw [moveConstruct, run_bind hdeclare, hrun], hfinal⟩

theorem destruct_becomes (hsound : memory.Sound) (hvar : memory.contents var = some held) :
    ∃ after, (destruct var).run memory = some (.ok (), after) ∧
      memory.Becomes after (· = var) (Function.update memory.contents var none) := by
  obtain ⟨middle, hdestory, hmiddle⟩ := destory_becomes hsound hvar
  have hempty : middle.contents var = some none := by
    rw [hmiddle.contents, Function.update_self]
  obtain ⟨after, hrun, hafter⟩ := undeclare_becomes hmiddle.sound hempty
  rw [hmiddle.contents, Function.update_idem] at hafter
  exact ⟨after, by rw [destruct, run_bind hdestory, hrun], hmiddle.trans hafter⟩

section Assign

variable {current : Option Callable} (hsound : memory.Sound)
  (hne : var ≠ other) (hvar : memory.contents var = some current)
  (hother : memory.contents other = some held)

include hsound hne hvar hother

/-- An assignment moves into a variable that has been emptied. -/
theorem exists_run_assign (fault : Option Exn) : ∃ middle,
    memory.Becomes middle (· = var) (Function.update memory.contents var (some none)) ∧
      middle.contents var = some none ∧ middle.contents other = some held ∧
      (assign var other fault).run memory = (moveFrom var other fault).run middle := by
  obtain ⟨middle, hdestory, hmiddle⟩ := destory_becomes hsound hvar
  obtain ⟨pack, hpack, -⟩ := Option.map_eq_some_iff.mp hvar
  refine ⟨middle, hmiddle, ?_, ?_, ?_⟩
  · rw [hmiddle.contents, Function.update_self]
  · rw [hmiddle.contents, Function.update_of_ne hne.symm, hother]
  · rw [run_assign hpack, run_bind hdestory]

theorem assign_becomes {fault : Option Exn} (hfault : moveFault held fault = none) :
    ∃ after, (assign var other fault).run memory = some (.ok (), after) ∧
      memory.Becomes after (fun owner => owner = var ∨ owner = other)
        (Function.update (Function.update memory.contents var (some held)) other
          (some none)) := by
  obtain ⟨middle, hmiddle, hempty, hkept, hrun⟩ :=
    exists_run_assign hsound hne hvar hother fault
  obtain ⟨after, hmove, hafter⟩ := moveFrom_becomes hmiddle.sound hne hempty hkept hfault
  rw [hmiddle.contents, Function.update_idem] at hafter
  exact ⟨after, hrun.trans hmove, (hmiddle.mono fun _ => .inl).trans hafter⟩

theorem assign_throws {fault : Option Exn} {exn : Exn} (hfault : moveFault held fault = some exn) :
    ∃ after, (assign var other fault).run memory = some (.error exn, after) ∧
      memory.Becomes after (· = var) (Function.update memory.contents var (some none)) := by
  obtain ⟨middle, hmiddle, hempty, hkept, hrun⟩ :=
    exists_run_assign hsound hne hvar hother fault
  exact ⟨middle, hrun.trans (moveFrom_throws hmiddle.sound hkept hfault), hmiddle⟩

end Assign

omit [DecidableEq Var] in
/-- The callable that runs is the one the variable holds. -/
theorem run_call (hsound : memory.Sound) (hvar : memory.contents var = some (some callable)) :
    (call var).run memory = some (.ok callable, memory) := by
  obtain ⟨object, hholds, rfl⟩ := hsound.exists_holds hvar
  cases hholds with
  | stack htype hpack =>
      have hinvoke : (getInvoke var).run memory =
          some (.ok (some (.invokeStack object.callable.type)), memory) := by
        rw [getInvoke, run_bind (run_readPack hpack), run_pure, createVtable_of_stack htype]
        rfl
      rw [call, run_bind hinvoke]
      simp only [InvokeFunction.run]
      rw [run_bind (run_stackObject hpack), run_pure]
  | heap block htype hpack hblock =>
      have hinvoke : (getInvoke var).run memory =
          some (.ok (some (.invokeHeap object.callable.type)), memory) := by
        rw [getInvoke, run_bind (run_readPack hpack), run_pure, createVtable_of_heap htype]
        rfl
      rw [call, run_bind hinvoke]
      simp only [InvokeFunction.run]
      rw [run_bind (run_heapPtr hpack), run_bind (run_heapObject hblock), run_pure]

omit [DecidableEq Var] in
theorem run_call_of_empty (hsound : memory.Sound) (hvar : memory.contents var = some none) :
    (call var).run memory = some (.error (.stdException "Invaild function."), memory) := by
  obtain ⟨storage, hpack⟩ := hsound.exists_empty hvar
  have hinvoke : (getInvoke var).run memory = some (.ok none, memory) := by
    rw [getInvoke, run_bind (run_readPack hpack), run_pure]
    rfl
  rw [call, run_bind hinvoke, run_throw]

end RpcDemo.MFunction
