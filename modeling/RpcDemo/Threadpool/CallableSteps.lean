import RpcDemo.Threadpool.Callables

/-!
# What the functions of the wrapper do to a memory

Every function is described once, on the memories its callers reach: which of
the changes it makes when it returns, and what it leaves when it throws.
-/

namespace RpcDemo.MFunction

open RpcDemo.Action Memory

/-- The table of a callable kept in the storage itself. -/
theorem createVtable_of_stack {type : CallableType} (htype : requireOnHeap type = false) :
    createVtable type = ⟨.invokeStack type, .moveStack type, .destoryStack type⟩ := by
  simp [createVtable, htype]

/-- The table of a callable kept in a block. -/
theorem createVtable_of_heap {type : CallableType} (htype : requireOnHeap type = true) :
    createVtable type = ⟨.invokeHeap type, .moveHeap, .destoryHeap type⟩ := by
  simp [createVtable, htype]

variable {Var : Type*} {memory : Memory Var} {var other : Var} {pack : Pack}
  {vtab : Option VirtualTable} {object : Object} {callable : Callable} {block : ℕ}

theorem run_readPack (hpack : memory.packs var = some pack) :
    (readPack var).run memory = some (.ok pack, memory) :=
  run_read hpack

theorem run_readBlock {content : Block} (hblock : memory.heap block = some content) :
    (readBlock block).run memory = some (.ok content, memory) := by
  simp [readBlock, Action.read, hblock]

/-- The object in the storage of a variable. -/
theorem run_stackObject (hpack : memory.packs var = some ⟨.data object, vtab⟩) :
    (stackObject object.callable.type var).run memory = some (.ok object, memory) := by
  rw [stackObject, run_bind (run_readPack hpack)]
  simp

theorem run_heapPtr (hpack : memory.packs var = some ⟨.ptr block, vtab⟩) :
    (heapPtr var).run memory = some (.ok block, memory) := by
  rw [heapPtr, run_bind (run_readPack hpack)]
  simp

/-- The object in a block. -/
theorem run_heapObject {overAligned : Bool}
    (hblock : memory.heap block = some ⟨overAligned, some object⟩) :
    (heapObject object.callable.type block).run memory = some (.ok object, memory) := by
  rw [heapObject, run_bind (run_readBlock hblock)]
  simp

/-- A block that is there is freed. -/
theorem run_operatorDelete {overAligned : Bool} {content : Option Object}
    (hblock : memory.heap block = some ⟨overAligned, content⟩) :
    (operatorDelete overAligned block).run memory =
      some (.ok (), { memory.setBlock block none with freed := memory.freed ++ [block] }) := by
  rw [operatorDelete, run_bind (run_readBlock hblock), if_pos rfl, run_modify]

/-- A constructor that does not throw makes the next object. -/
theorem run_newObject (memory : Memory Var) (callable : Callable) :
    (newObject callable none).run memory =
      some (.ok ⟨memory.nextObject, callable⟩,
        { memory with nextObject := memory.nextObject + 1 }) := rfl

/-- A constructor that throws leaves no object. -/
theorem newObject_throws (memory : Memory Var) (callable : Callable) (exn : Exn) :
    (newObject callable (some exn)).run memory = some (.error exn, memory) := rfl

/-- An allocation takes the next block. -/
theorem run_operatorNew (memory : Memory Var) (overAligned : Bool) :
    (operatorNew overAligned false).run memory =
      some (.ok memory.nextBlock, memory.allocate overAligned) := rfl

theorem operatorNew_throws (memory : Memory Var) (overAligned : Bool) :
    (operatorNew overAligned true).run memory = some (.error badAlloc, memory) := rfl

variable [DecidableEq Var]

@[simp]
theorem setPack_packs_self (pack : Option Pack) : (memory.setPack var pack).packs var = pack :=
  Function.update_self _ _ _

theorem setPack_packs_of_ne (hne : other ≠ var) (pack : Option Pack) :
    (memory.setPack var pack).packs other = memory.packs other :=
  Function.update_of_ne hne _ _

theorem run_setStorage (hpack : memory.packs var = some pack) (storage : Storage) :
    (setStorage var storage).run memory =
      some (.ok (), memory.setPack var (some { pack with storage := storage })) := by
  rw [setStorage, run_bind (run_readPack hpack), run_modify]

theorem run_setVtab (hpack : memory.packs var = some pack) (vtab : Option VirtualTable) :
    (setVtab var vtab).run memory =
      some (.ok (), memory.setPack var (some { pack with vtab := vtab })) := by
  rw [setVtab, run_bind (run_readPack hpack), run_modify]

/-! ## `destory` -/

/-- An empty variable has nothing to destroy. -/
theorem destory_of_empty {storage : Storage} (hpack : memory.packs var = some ⟨storage, none⟩) :
    (destory var).run memory = some (.ok (), memory) := by
  rw [destory, run_bind (run_readPack hpack), run_pure]

/-- The object in the storage ends, and the variable is empty. -/
theorem destory_of_stack (htype : requireOnHeap object.callable.type = false)
    (hpack : memory.packs var =
      some ⟨.data object, some (createVtable object.callable.type)⟩) :
    (destory var).run memory = some (.ok (), memory.endStack var object) := by
  have hend : ((createVtable object.callable.type).destory.run var).run memory =
      some (.ok (), { memory.setPack var
          (some ⟨.indeterminate, some (createVtable object.callable.type)⟩) with
        destroyed := memory.destroyed ++ [object.id] }) := by
    rw [createVtable_of_stack htype, DestoryFunction.run, run_bind (run_stackObject hpack),
      endObject, run_bind (run_modify _ _)]
    rw [createVtable_of_stack htype] at hpack
    exact (run_setStorage (by exact hpack) .indeterminate).trans rfl
  rw [destory, run_bind (run_readPack hpack), run_bind hend]
  refine (run_setVtab (Function.update_self _ _ _) none).trans ?_
  simp [setPack, endStack]

/-- The object in the block ends, the block is freed, and the variable is empty. -/
theorem destory_of_heap (htype : requireOnHeap object.callable.type = true)
    (hpack : memory.packs var =
      some ⟨.ptr block, some (createVtable object.callable.type)⟩)
    (hblock : memory.heap block =
      some ⟨isOverAligned object.callable.type, some object⟩) :
    (destory var).run memory = some (.ok (), memory.endHeap var block object) := by
  have hend : ((createVtable object.callable.type).destory.run var).run memory =
      some (.ok (), { memory.setBlock block none with
        destroyed := memory.destroyed ++ [object.id]
        freed := memory.freed ++ [block] }) := by
    rw [createVtable_of_heap htype, DestoryFunction.run, run_bind (run_heapPtr hpack),
      run_bind (run_heapObject hblock), endObject, run_bind (run_modify _ _)]
    exact (run_operatorDelete (by exact hblock)).trans rfl
  rw [destory, run_bind (run_readPack hpack), run_bind hend]
  exact (run_setVtab (by exact hpack) none).trans rfl

/-! ## `move_from` -/

/-- There is nothing to move out of an empty variable. -/
theorem moveFrom_of_empty {storage : Storage} (fault : Option Exn)
    (hpack : memory.packs other = some ⟨storage, none⟩) :
    (moveFrom var other fault).run memory = some (.ok (), memory) := by
  rw [moveFrom, run_bind (run_readPack hpack), run_pure]

section Move

variable {storage : Storage} (hne : var ≠ other)
  (hvar : memory.packs var = some ⟨storage, none⟩)

include hne

/-- The end of `move_from`: the table changes hands. -/
theorem run_passVtab {source : Pack} (hvar : memory.packs var = some pack)
    (hother : memory.packs other = some source) (vtab : Option VirtualTable) :
    (do setVtab var vtab; setVtab other none : Action (Memory Var) Unit).run memory =
      some (.ok (), (memory.setPack var (some { pack with vtab := vtab })).setPack other
        (some { source with vtab := none })) := by
  rw [run_bind (run_setVtab hvar vtab)]
  exact run_setVtab ((setPack_packs_of_ne hne.symm _).trans hother) none

include hvar

/-- The callable is moved into a new object, and the old one ends. -/
theorem moveFrom_of_stack (htype : requireOnHeap object.callable.type = false)
    (hpack : memory.packs other =
      some ⟨.data object, some (createVtable object.callable.type)⟩) :
    (moveFrom var other none).run memory =
      some (.ok (), (memory.createStack var object.callable).endStack other object) := by
  let created : Memory Var :=
    { memory.setPack var (some ⟨.data ⟨memory.nextObject, object.callable⟩, none⟩) with
      nextObject := memory.nextObject + 1 }
  have hconstruct : (constructInStorage var object.callable none).run memory =
      some (.ok (), created) := by
    rw [constructInStorage, run_bind (run_newObject memory object.callable)]
    exact (run_setStorage (by exact hvar) _).trans rfl
  have hcreated : created.packs var = some ⟨.data ⟨memory.nextObject, object.callable⟩, none⟩ :=
    setPack_packs_self _
  have hsource : created.packs other =
      some ⟨.data object, some (createVtable object.callable.type)⟩ :=
    (setPack_packs_of_ne hne.symm _).trans hpack
  let moved : Memory Var :=
    { created.setPack other
        (some ⟨.indeterminate, some (createVtable object.callable.type)⟩) with
      destroyed := memory.destroyed ++ [object.id] }
  have hmove : ((createVtable object.callable.type).move.run var other none).run memory =
      some (.ok (), moved) := by
    rw [createVtable_of_stack htype, MoveFunction.run, run_bind (run_stackObject hpack),
      run_bind hconstruct, endObject, run_bind (run_modify _ _)]
    exact (run_setStorage (by exact hsource) .indeterminate).trans rfl
  have hmoved : moved.packs var = some ⟨.data ⟨memory.nextObject, object.callable⟩, none⟩ :=
    (setPack_packs_of_ne hne _).trans (setPack_packs_self _)
  have hleft : moved.packs other =
      some ⟨.indeterminate, some (createVtable object.callable.type)⟩ := setPack_packs_self _
  rw [moveFrom, run_bind (run_readPack hpack), run_bind hmove]
  refine (run_passVtab hne hmoved hleft _).trans ?_
  simp [moved, created, setPack, createStack, endStack, Function.update_comm hne]

omit hne hvar in
/-- A throwing move constructor leaves both variables as they were. -/
theorem moveFrom_of_stack_throws (htype : requireOnHeap object.callable.type = false)
    (hpack : memory.packs other =
      some ⟨.data object, some (createVtable object.callable.type)⟩) (exn : Exn) :
    (moveFrom var other (some exn)).run memory = some (.error exn, memory) := by
  have hconstruct : (constructInStorage var object.callable (some exn)).run memory =
      some (.error exn, memory) :=
    run_bind_of_throws (newObject_throws memory object.callable exn) _
  have hmove : ((createVtable object.callable.type).move.run var other (some exn)).run memory =
      some (.error exn, memory) := by
    rw [createVtable_of_stack htype, MoveFunction.run, run_bind (run_stackObject hpack),
      run_bind_of_throws hconstruct]
  rw [moveFrom, run_bind (run_readPack hpack), run_bind_of_throws hmove]

/-- The block changes hands; no object is moved. -/
theorem moveFrom_of_heap (htype : requireOnHeap object.callable.type = true)
    (hpack : memory.packs other =
      some ⟨.ptr block, some (createVtable object.callable.type)⟩) (fault : Option Exn) :
    (moveFrom var other fault).run memory =
      some (.ok (), memory.passHeap other var block object) := by
  have hmove : ((createVtable object.callable.type).move.run var other fault).run memory =
      some (.ok (), memory.setPack var (some ⟨.ptr block, none⟩)) := by
    rw [createVtable_of_heap htype, MoveFunction.run, run_bind (run_readPack hpack)]
    exact run_setStorage hvar (.ptr block)
  rw [moveFrom, run_bind (run_readPack hpack), run_bind hmove]
  refine (run_passVtab hne (setPack_packs_self _)
    ((setPack_packs_of_ne hne.symm _).trans hpack) _).trans ?_
  simp [setPack, passHeap]

end Move

/-- `assign` destroys what there is, which is nothing in an empty variable. -/
theorem run_assign {pack : Pack} (hpack : memory.packs var = some pack) (fault : Option Exn) :
    (assign var other fault).run memory =
      (destory var >>= fun _ => moveFrom var other fault).run memory := by
  have hempty : (empty var).run memory = some (.ok pack.vtab.isNone, memory) := by
    rw [empty, run_bind (run_readPack hpack), run_pure]
  rw [assign, run_bind hempty]
  obtain ⟨storage, vtab⟩ := pack
  cases vtab with
  | none =>
      rw [run_bind (destory_of_empty hpack)]
      rfl
  | some vtab => rfl

/-! ## `construct` -/

section Construct

variable {storage : Storage} (hvar : memory.packs var = some ⟨storage, none⟩)

include hvar

/-- A small callable becomes an object in the storage. -/
theorem construct_of_stack {faults : Faults} (htype : requireOnHeap callable.type = false)
    (hfault : faults.constructor = none) :
    (construct var callable faults).run memory =
      some (.ok (), memory.createStack var callable) := by
  have hconstruct : (constructInStorage var callable none).run memory =
      some (.ok (), { memory.setPack var (some ⟨.data ⟨memory.nextObject, callable⟩, none⟩) with
        nextObject := memory.nextObject + 1 }) := by
    rw [constructInStorage, run_bind (run_newObject memory callable)]
    exact (run_setStorage (by exact hvar) _).trans rfl
  simp only [construct, htype, hfault, Bool.false_eq_true, if_false]
  rw [run_bind hconstruct]
  refine (run_setVtab (Function.update_self _ _ _) _).trans ?_
  simp [setPack, createStack]

omit hvar in
/-- A throwing constructor leaves the variable empty. -/
theorem construct_of_stack_throws {faults : Faults} {exn : Exn}
    (htype : requireOnHeap callable.type = false) (hfault : faults.constructor = some exn) :
    (construct var callable faults).run memory = some (.error exn, memory) := by
  have hconstruct : (constructInStorage var callable (some exn)).run memory =
      some (.error exn, memory) :=
    run_bind_of_throws (newObject_throws memory callable exn) _
  simp only [construct, htype, hfault, Bool.false_eq_true, if_false]
  rw [run_bind_of_throws hconstruct]

/-- A callable that does not go into the storage becomes an object in a new block. -/
theorem construct_of_heap {faults : Faults} (htype : requireOnHeap callable.type = true)
    (hallocation : faults.allocation = false) (hfault : faults.constructor = none) :
    (construct var callable faults).run memory =
      some (.ok (), memory.createHeap var callable) := by
  let allocated := memory.allocate (isOverAligned callable.type)
  let created : Memory Var :=
    { allocated.setBlock memory.nextBlock
        (some ⟨isOverAligned callable.type, some ⟨memory.nextObject, callable⟩⟩) with
      nextObject := memory.nextObject + 1 }
  have hblock : allocated.heap memory.nextBlock = some ⟨isOverAligned callable.type, none⟩ :=
    Function.update_self _ _ _
  have hconstruct : (constructInBlock memory.nextBlock callable none).run allocated =
      some (.ok (), created) := by
    rw [constructInBlock, run_bind (run_readBlock hblock),
      run_bind (run_newObject allocated callable)]
    rfl
  have halloca : (allocaHeap callable faults).run memory =
      some (.ok memory.nextBlock, created) := by
    rw [allocaHeap, hallocation, hfault, run_bind (run_operatorNew memory _),
      run_bind (run_guarded hconstruct _), run_pure]
  have hstorage : (setStorage var (.ptr memory.nextBlock)).run created =
      some (.ok (), created.setPack var (some ⟨.ptr memory.nextBlock, none⟩)) :=
    (run_setStorage (by exact hvar) _).trans rfl
  simp only [construct, htype, if_true]
  rw [run_bind halloca, run_bind hstorage]
  refine (run_setVtab (setPack_packs_self _) _).trans ?_
  simp [created, allocated, allocate, setPack, setBlock, createHeap]

omit hvar in
/-- A failed allocation leaves the variable empty. -/
theorem construct_of_heap_badAlloc {faults : Faults}
    (htype : requireOnHeap callable.type = true) (hallocation : faults.allocation = true) :
    (construct var callable faults).run memory = some (.error badAlloc, memory) := by
  have halloca : (allocaHeap callable faults).run memory = some (.error badAlloc, memory) := by
    rw [allocaHeap, hallocation, run_bind_of_throws (operatorNew_throws memory _)]
  simp only [construct, htype, if_true]
  rw [run_bind_of_throws halloca]

omit hvar in
/-- The guard frees the block of an object that was not constructed. -/
theorem construct_of_heap_throws {faults : Faults} {exn : Exn}
    (htype : requireOnHeap callable.type = true) (hallocation : faults.allocation = false)
    (hfault : faults.constructor = some exn) :
    (construct var callable faults).run memory = some (.error exn, memory.wasteBlock) := by
  let allocated := memory.allocate (isOverAligned callable.type)
  have hblock : allocated.heap memory.nextBlock = some ⟨isOverAligned callable.type, none⟩ :=
    Function.update_self _ _ _
  have hconstruct : (constructInBlock memory.nextBlock callable (some exn)).run allocated =
      some (.error exn, allocated) := by
    rw [constructInBlock, run_bind (run_readBlock hblock),
      run_bind_of_throws (newObject_throws allocated callable exn)]
  have halloca : (allocaHeap callable faults).run memory =
      some (.error exn, memory.wasteBlock) := by
    rw [allocaHeap, hallocation, hfault, run_bind (run_operatorNew memory _)]
    refine run_bind_of_throws ((run_guarded_of_throws hconstruct
      (run_operatorDelete hblock)).trans ?_) _
    simp [allocated, allocate, setBlock, wasteBlock]
  simp only [construct, htype, if_true]
  rw [run_bind_of_throws halloca]

end Construct

end RpcDemo.MFunction
