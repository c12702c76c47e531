import RpcDemo.Threadpool.MFunction

/-!
# Who owns a callable

A variable owns the object its virtual table would destroy, and with it the heap
block that table would free.  Objects and blocks are each in the custody of the
variables.  The invariant says that both custodies are sound, that a virtual
table is the one for the object behind it, and that every allocated block is
some variable's.  What the functions of the wrapper do to a memory is made of
six changes, and each of them acts on the two custodies.
-/

namespace RpcDemo.MFunction

variable {Var : Type*}

namespace Memory

/-- The object that `vtab` destroys in `storage`. -/
def objectIn (memory : Memory Var) (storage : Storage) (vtab : VirtualTable) : Option Object :=
  match vtab.destory, storage with
  | .destoryStack _, .data object => some object
  | .destoryHeap _, .ptr block => (memory.heap block).bind Block.object
  | _, _ => none

/-- The block that `vtab` frees with it. -/
def blockIn (storage : Storage) (vtab : VirtualTable) : Option ℕ :=
  match vtab.destory, storage with
  | .destoryHeap _, .ptr block => some block
  | _, _ => none

def owned (memory : Memory Var) (var : Var) : Option Object :=
  (memory.packs var).bind fun pack => pack.vtab.bind (memory.objectIn pack.storage)

def ownedBlock (memory : Memory Var) (var : Var) : Option ℕ :=
  (memory.packs var).bind fun pack => pack.vtab.bind (blockIn pack.storage)

def objects (memory : Memory Var) : Custody Var where
  held := Option.map Object.id ∘ memory.owned
  next := memory.nextObject
  ended := memory.destroyed

def blocks (memory : Memory Var) : Custody Var where
  held := memory.ownedBlock
  next := memory.nextBlock
  ended := memory.freed

/-- The variable owns the object in the storage its type calls for, behind the
virtual table of its type. -/
inductive Holds (memory : Memory Var) (var : Var) (object : Object) : Prop
  | stack (htype : requireOnHeap object.callable.type = false)
      (hpack : memory.packs var =
        some ⟨.data object, some (createVtable object.callable.type)⟩)
  | heap (block : ℕ) (htype : requireOnHeap object.callable.type = true)
      (hpack : memory.packs var =
        some ⟨.ptr block, some (createVtable object.callable.type)⟩)
      (hblock : memory.heap block =
        some ⟨isOverAligned object.callable.type, some object⟩)

structure Sound (memory : Memory Var) : Prop where
  objects : memory.objects.Sound
  blocks : memory.blocks.Sound
  typed : ∀ {var pack}, memory.packs var = some pack → pack.vtab.isSome = true →
    ∃ object, memory.Holds var object
  allocated : ∀ {block}, (memory.heap block).isSome = true →
    ∃ var, memory.ownedBlock var = some block

/-! ## What a variable owns -/

variable {memory after : Memory Var} {var : Var} {object : Object}

/-- No variable, or an empty one. -/
def Vacant (pack : Option Pack) : Prop :=
  ∀ content ∈ pack, content.vtab = none

@[simp]
theorem vacant_none : Vacant none := by
  simp [Vacant]

@[simp]
theorem vacant_empty (storage : Storage) : Vacant (some ⟨storage, none⟩) := by
  simp [Vacant]

theorem owned_of_vacant (hpack : Vacant (memory.packs var)) : memory.owned var = none := by
  cases hvar : memory.packs var with
  | none => simp [owned, hvar]
  | some pack => simp [owned, hvar, hpack pack hvar]

theorem ownedBlock_of_vacant (hpack : Vacant (memory.packs var)) :
    memory.ownedBlock var = none := by
  cases hvar : memory.packs var with
  | none => simp [ownedBlock, hvar]
  | some pack => simp [ownedBlock, hvar, hpack pack hvar]

theorem owned_of_stack (htype : requireOnHeap object.callable.type = false)
    (hpack : memory.packs var =
      some ⟨.data object, some (createVtable object.callable.type)⟩) :
    memory.owned var = some object := by
  simp [owned, hpack, objectIn, createVtable, htype]

theorem ownedBlock_of_stack (htype : requireOnHeap object.callable.type = false)
    (hpack : memory.packs var =
      some ⟨.data object, some (createVtable object.callable.type)⟩) :
    memory.ownedBlock var = none := by
  simp [ownedBlock, hpack, blockIn, createVtable, htype]

theorem owned_of_heap {block : ℕ} {overAligned : Bool}
    (htype : requireOnHeap object.callable.type = true)
    (hpack : memory.packs var =
      some ⟨.ptr block, some (createVtable object.callable.type)⟩)
    (hblock : memory.heap block = some ⟨overAligned, some object⟩) :
    memory.owned var = some object := by
  simp [owned, hpack, objectIn, createVtable, htype, hblock]

theorem ownedBlock_of_heap {block : ℕ}
    (htype : requireOnHeap object.callable.type = true)
    (hpack : memory.packs var =
      some ⟨.ptr block, some (createVtable object.callable.type)⟩) :
    memory.ownedBlock var = some block := by
  simp [ownedBlock, hpack, blockIn, createVtable, htype]

theorem Holds.owned (hholds : memory.Holds var object) : memory.owned var = some object := by
  cases hholds with
  | stack htype hpack => exact owned_of_stack htype hpack
  | heap block htype hpack hblock => exact owned_of_heap htype hpack hblock

/-- What a variable owns depends on its pack and on its block. -/
theorem owned_congr (hpack : after.packs var = memory.packs var)
    (hheap : ∀ block, memory.ownedBlock var = some block →
      after.heap block = memory.heap block) : after.owned var = memory.owned var := by
  unfold owned
  rw [hpack]
  cases hvar : memory.packs var with
  | none => rfl
  | some pack =>
      obtain ⟨storage, vtab⟩ := pack
      cases vtab with
      | none => rfl
      | some vtab =>
          simp only [Option.bind_some, objectIn]
          split
          case h_1 => rfl
          case h_2 htable =>
            rw [hheap _ (by simp [ownedBlock, hvar, blockIn, htable])]
          case h_3 => rfl

theorem ownedBlock_congr (hpack : after.packs var = memory.packs var) :
    after.ownedBlock var = memory.ownedBlock var := by
  simp [ownedBlock, hpack]

theorem Holds.congr (hholds : memory.Holds var object)
    (hpack : after.packs var = memory.packs var)
    (hheap : ∀ block, memory.ownedBlock var = some block →
      after.heap block = memory.heap block) : after.Holds var object := by
  cases hholds with
  | stack htype hvar => exact .stack htype (hpack.trans hvar)
  | heap block htype hvar hblock =>
      exact .heap block htype (hpack.trans hvar)
        ((hheap block (ownedBlock_of_heap htype hvar)).trans hblock)

theorem Sound.ownedBlock_lt (hsound : memory.Sound) {block : ℕ}
    (hblock : memory.ownedBlock var = some block) : block < memory.nextBlock :=
  hsound.blocks.held_lt hblock

/-- No block with the next number is allocated. -/
theorem Sound.heap_next (hsound : memory.Sound) : memory.heap memory.nextBlock = none := by
  cases hheap : memory.heap memory.nextBlock with
  | none => rfl
  | some content =>
      obtain ⟨owner, howner⟩ := hsound.allocated (by rw [hheap]; rfl)
      exact absurd (hsound.ownedBlock_lt howner) (Nat.lt_irrefl _)

theorem start_sound [DecidableEq Var] : (start : Memory Var).Sound where
  objects := Custody.empty_sound
  blocks := Custody.empty_sound
  typed := by simp [start]
  allocated := by simp [start]

/-- The invariant after a change of some variables. -/
theorem Sound.change (hsound : memory.Sound) (changed : Var → Prop)
    (hobjects : after.objects.Sound) (hblocks : after.blocks.Sound)
    (hpacks : ∀ other, ¬ changed other → after.packs other = memory.packs other)
    (hheap : ∀ other block, ¬ changed other → memory.ownedBlock other = some block →
      after.heap block = memory.heap block)
    (htyped : ∀ other, changed other → Vacant (after.packs other) ∨
      ∃ object, after.Holds other object)
    (hallocated : ∀ block, (after.heap block).isSome = true →
      ∃ owner, after.ownedBlock owner = some block) : after.Sound where
  objects := hobjects
  blocks := hblocks
  allocated := hallocated _
  typed := by
    intro other pack hpack hvtab
    by_cases hchanged : changed other
    · rcases htyped other hchanged with hvacant | hholds
      · simp [hvacant pack hpack] at hvtab
      · exact hholds
    · have hkept := hpacks other hchanged
      obtain ⟨object, hholds⟩ := hsound.typed (hkept.symm.trans hpack) hvtab
      exact ⟨object, hholds.congr hkept fun block => hheap other block hchanged⟩

/-! ## Changes -/

section Changes

variable [DecidableEq Var] {callable : Callable} {block : ℕ}

/-- A new object in the storage of a variable. -/
def createStack (memory : Memory Var) (var : Var) (callable : Callable) : Memory Var :=
  { memory with
    packs := Function.update memory.packs var
      (some ⟨.data ⟨memory.nextObject, callable⟩, some (createVtable callable.type)⟩)
    nextObject := memory.nextObject + 1 }

/-- A new object in a new block. -/
def createHeap (memory : Memory Var) (var : Var) (callable : Callable) : Memory Var :=
  { memory with
    packs := Function.update memory.packs var
      (some ⟨.ptr memory.nextBlock, some (createVtable callable.type)⟩)
    heap := Function.update memory.heap memory.nextBlock
      (some ⟨isOverAligned callable.type, some ⟨memory.nextObject, callable⟩⟩)
    nextObject := memory.nextObject + 1
    nextBlock := memory.nextBlock + 1 }

/-- A block that is allocated and freed again. -/
def wasteBlock (memory : Memory Var) : Memory Var :=
  { memory with
    heap := Function.update memory.heap memory.nextBlock none
    nextBlock := memory.nextBlock + 1
    freed := memory.freed ++ [memory.nextBlock] }

def endStack (memory : Memory Var) (var : Var) (object : Object) : Memory Var :=
  { memory with
    packs := Function.update memory.packs var (some ⟨.indeterminate, none⟩)
    destroyed := memory.destroyed ++ [object.id] }

/-- The storage keeps the pointer to the freed block. -/
def endHeap (memory : Memory Var) (var : Var) (block : ℕ) (object : Object) : Memory Var :=
  { memory with
    packs := Function.update memory.packs var (some ⟨.ptr block, none⟩)
    heap := Function.update memory.heap block none
    destroyed := memory.destroyed ++ [object.id]
    freed := memory.freed ++ [block] }

/-- A block changes hands; both storages keep the pointer. -/
def passHeap (memory : Memory Var) (source target : Var) (block : ℕ) (object : Object) :
    Memory Var :=
  { memory with
    packs := Function.update
      (Function.update memory.packs target
        (some ⟨.ptr block, some (createVtable object.callable.type)⟩))
      source (some ⟨.ptr block, none⟩) }

theorem owned_setPack {pack : Option Pack} (hbefore : Vacant (memory.packs var))
    (hpack : Vacant pack) : (memory.setPack var pack).owned = memory.owned := by
  funext other
  by_cases hother : other = var
  · subst hother
    rw [owned_of_vacant hbefore, owned_of_vacant (by simpa [setPack] using hpack)]
  · exact owned_congr (by simp [setPack, hother]) fun _ _ => rfl

theorem ownedBlock_setPack {pack : Option Pack} (hbefore : Vacant (memory.packs var))
    (hpack : Vacant pack) : (memory.setPack var pack).ownedBlock = memory.ownedBlock := by
  funext other
  by_cases hother : other = var
  · subst hother
    rw [ownedBlock_of_vacant hbefore, ownedBlock_of_vacant (by simpa [setPack] using hpack)]
  · exact ownedBlock_congr (by simp [setPack, hother])

/-- Variables may come and go while they are empty. -/
theorem Sound.setPack (hsound : memory.Sound) {pack : Option Pack}
    (hbefore : Vacant (memory.packs var)) (hpack : Vacant pack) :
    (memory.setPack var pack).Sound := by
  have hblock := ownedBlock_setPack hbefore hpack
  refine hsound.change (· = var) ?_ ?_ ?_ (fun _ _ _ _ => rfl) ?_ ?_
  · simp only [Memory.objects, owned_setPack hbefore hpack]
    exact hsound.objects
  · simp only [Memory.blocks, hblock]
    exact hsound.blocks
  · exact fun other hother => Function.update_of_ne hother _ _
  · rintro other rfl
    exact .inl (by simpa [Memory.setPack] using hpack)
  · rw [hblock]
    exact fun block => hsound.allocated

/-! ### Creation -/

theorem owned_createStack (htype : requireOnHeap callable.type = false) :
    (memory.createStack var callable).owned =
      Function.update memory.owned var (some ⟨memory.nextObject, callable⟩) := by
  funext other
  by_cases hother : other = var
  · subst hother
    rw [Function.update_self]
    exact owned_of_stack htype (by simp [createStack])
  · rw [Function.update_of_ne hother]
    exact owned_congr (by simp [createStack, hother]) fun _ _ => rfl

theorem ownedBlock_createStack (hvacant : Vacant (memory.packs var))
    (htype : requireOnHeap callable.type = false) :
    (memory.createStack var callable).ownedBlock = memory.ownedBlock := by
  funext other
  by_cases hother : other = var
  · subst hother
    have hpack : (memory.createStack other callable).packs other =
        some ⟨.data ⟨memory.nextObject, callable⟩, some (createVtable callable.type)⟩ :=
      Function.update_self _ _ _
    rw [ownedBlock_of_vacant hvacant, ownedBlock_of_stack htype hpack]
  · exact ownedBlock_congr (by simp [createStack, hother])

theorem Sound.createStack (hsound : memory.Sound) (hvacant : Vacant (memory.packs var))
    (htype : requireOnHeap callable.type = false) : (memory.createStack var callable).Sound := by
  have hblock := ownedBlock_createStack hvacant htype
  have hobjects : (memory.createStack var callable).objects = memory.objects.acquire var := by
    simp only [Memory.objects, owned_createStack htype, Function.comp_update, Custody.acquire]
    rfl
  refine hsound.change (· = var) ?_ ?_ ?_ (fun _ _ _ _ => rfl) ?_ ?_
  · rw [hobjects]
    exact hsound.objects.acquire (by simp [Memory.objects, owned_of_vacant hvacant])
  · simp only [Memory.blocks, hblock]
    exact hsound.blocks
  · exact fun other hother => Function.update_of_ne hother _ _
  · rintro other rfl
    exact .inr ⟨⟨memory.nextObject, callable⟩, .stack htype (by simp [Memory.createStack])⟩
  · rw [hblock]
    exact fun block => hsound.allocated

theorem owned_createHeap (hsound : memory.Sound) (htype : requireOnHeap callable.type = true) :
    (memory.createHeap var callable).owned =
      Function.update memory.owned var (some ⟨memory.nextObject, callable⟩) := by
  funext other
  by_cases hother : other = var
  · subst hother
    rw [Function.update_self]
    exact owned_of_heap htype (by simp [createHeap]) (Function.update_self _ _ _)
  · rw [Function.update_of_ne hother]
    refine owned_congr (Function.update_of_ne hother _ _) fun block hblock => ?_
    exact Function.update_of_ne (Nat.ne_of_lt (hsound.ownedBlock_lt hblock)) _ _

theorem ownedBlock_createHeap (htype : requireOnHeap callable.type = true) :
    (memory.createHeap var callable).ownedBlock =
      Function.update memory.ownedBlock var (some memory.nextBlock) := by
  funext other
  by_cases hother : other = var
  · subst hother
    have hpack : (memory.createHeap other callable).packs other =
        some ⟨.ptr memory.nextBlock, some (createVtable callable.type)⟩ :=
      Function.update_self _ _ _
    simp [ownedBlock, hpack, blockIn, createVtable, htype]
  · rw [Function.update_of_ne hother]
    exact ownedBlock_congr (Function.update_of_ne hother _ _)

theorem Sound.createHeap (hsound : memory.Sound) (hvacant : Vacant (memory.packs var))
    (htype : requireOnHeap callable.type = true) : (memory.createHeap var callable).Sound := by
  have hblock : (memory.createHeap var callable).ownedBlock =
      Function.update memory.ownedBlock var (some memory.nextBlock) :=
    ownedBlock_createHeap htype
  have hobjects : (memory.createHeap var callable).objects = memory.objects.acquire var := by
    simp only [Memory.objects, owned_createHeap hsound htype, Function.comp_update,
      Custody.acquire]
    rfl
  have hblocks : (memory.createHeap var callable).blocks = memory.blocks.acquire var := by
    simp only [Memory.blocks, hblock, Custody.acquire]
    rfl
  refine hsound.change (· = var) ?_ ?_ ?_ ?_ ?_ ?_
  · rw [hobjects]
    exact hsound.objects.acquire (by simp [Memory.objects, owned_of_vacant hvacant])
  · rw [hblocks]
    exact hsound.blocks.acquire (ownedBlock_of_vacant hvacant)
  · exact fun other hother => Function.update_of_ne hother _ _
  · intro other block _ hother
    exact Function.update_of_ne (Nat.ne_of_lt (hsound.ownedBlock_lt hother)) _ _
  · rintro other rfl
    exact .inr ⟨⟨memory.nextObject, callable⟩, .heap memory.nextBlock htype
      (by simp [Memory.createHeap]) (Function.update_self _ _ _)⟩
  · intro block hheap
    rw [hblock]
    by_cases hnext : block = memory.nextBlock
    · exact ⟨var, by simp [hnext]⟩
    · have hbefore : (memory.heap block).isSome = true := by
        simpa [Memory.createHeap, hnext] using hheap
      obtain ⟨owner, howner⟩ := hsound.allocated hbefore
      have hne : owner ≠ var := by
        rintro rfl
        simp [ownedBlock_of_vacant hvacant] at howner
      exact ⟨owner, by rw [Function.update_of_ne hne, howner]⟩

omit [DecidableEq Var] in
theorem owned_wasteBlock (hsound : memory.Sound) : memory.wasteBlock.owned = memory.owned := by
  funext other
  refine owned_congr rfl fun block hblock => ?_
  exact Function.update_of_ne (Nat.ne_of_lt (hsound.ownedBlock_lt hblock)) _ _

/-- The guard's block is acquired and finished on behalf of the variable whose
construction fails. -/
theorem Sound.wasteBlock (hsound : memory.Sound) (hvacant : Vacant (memory.packs var)) :
    memory.wasteBlock.Sound := by
  have hheap : memory.wasteBlock.heap = memory.heap :=
    Function.update_eq_self_iff.mpr hsound.heap_next.symm
  have hnone := ownedBlock_of_vacant hvacant
  have hblocks : memory.wasteBlock.blocks =
      (memory.blocks.acquire var).finish var memory.nextBlock := by
    simp only [Custody.finish, Custody.acquire, Function.update_idem]
    rw [show memory.blocks.held = memory.ownedBlock from rfl,
      Function.update_eq_self_iff.mpr hnone.symm]
    rfl
  refine hsound.change (fun _ => False) ?_ ?_ (fun _ _ => rfl) ?_ ?_ ?_
  · simp only [Memory.objects, owned_wasteBlock hsound]
    exact hsound.objects
  · rw [hblocks]
    exact (hsound.blocks.acquire hnone).finish (Function.update_self _ _ _)
  · exact fun other block _ _ => by rw [hheap]
  · exact fun other hfalse => hfalse.elim
  · rw [hheap]
    exact fun block => hsound.allocated

/-! ### Destruction -/

theorem owned_endStack :
    (memory.endStack var object).owned = Function.update memory.owned var none := by
  funext other
  by_cases hother : other = var
  · subst hother
    rw [Function.update_self]
    exact owned_of_vacant (by simp [endStack])
  · rw [Function.update_of_ne hother]
    exact owned_congr (Function.update_of_ne hother _ _) fun _ _ => rfl

theorem ownedBlock_endStack (hblock : memory.ownedBlock var = none) :
    (memory.endStack var object).ownedBlock = memory.ownedBlock := by
  funext other
  by_cases hother : other = var
  · subst hother
    rw [hblock]
    exact ownedBlock_of_vacant (by simp [endStack])
  · exact ownedBlock_congr (Function.update_of_ne hother _ _)

theorem Sound.endStack (hsound : memory.Sound) (howned : memory.owned var = some object)
    (hblock : memory.ownedBlock var = none) : (memory.endStack var object).Sound := by
  have hsame : (memory.endStack var object).ownedBlock = memory.ownedBlock :=
    ownedBlock_endStack hblock
  have hobjects : (memory.endStack var object).objects =
      memory.objects.finish var object.id := by
    simp only [Memory.objects, owned_endStack, Function.comp_update, Custody.finish]
    rfl
  refine hsound.change (· = var) ?_ ?_ ?_ (fun _ _ _ _ => rfl) ?_ ?_
  · rw [hobjects]
    exact hsound.objects.finish (by simp [Memory.objects, howned])
  · simp only [Memory.blocks, hsame]
    exact hsound.blocks
  · exact fun other hother => Function.update_of_ne hother _ _
  · rintro other rfl
    exact .inl (by simp [Memory.endStack])
  · rw [hsame]
    exact fun block => hsound.allocated

theorem owned_endHeap (hsound : memory.Sound) (hblock : memory.ownedBlock var = some block) :
    (memory.endHeap var block object).owned = Function.update memory.owned var none := by
  funext other
  by_cases hother : other = var
  · subst hother
    rw [Function.update_self]
    exact owned_of_vacant (by simp [endHeap])
  · rw [Function.update_of_ne hother]
    refine owned_congr (Function.update_of_ne hother _ _) fun kept hkept => ?_
    refine Function.update_of_ne ?_ _ _
    rintro rfl
    exact hother (hsound.blocks.exclusive hkept hblock)

theorem ownedBlock_endHeap :
    (memory.endHeap var block object).ownedBlock =
      Function.update memory.ownedBlock var none := by
  funext other
  by_cases hother : other = var
  · subst hother
    rw [Function.update_self]
    exact ownedBlock_of_vacant (by simp [endHeap])
  · rw [Function.update_of_ne hother]
    exact ownedBlock_congr (Function.update_of_ne hother _ _)

theorem Sound.endHeap (hsound : memory.Sound) (howned : memory.owned var = some object)
    (hblock : memory.ownedBlock var = some block) :
    (memory.endHeap var block object).Sound := by
  have hobjects : (memory.endHeap var block object).objects =
      memory.objects.finish var object.id := by
    simp only [Memory.objects, owned_endHeap hsound hblock, Function.comp_update,
      Custody.finish]
    rfl
  have hblocks : (memory.endHeap var block object).blocks = memory.blocks.finish var block := by
    simp only [Memory.blocks, ownedBlock_endHeap, Custody.finish]
    rfl
  refine hsound.change (· = var) ?_ ?_ ?_ ?_ ?_ ?_
  · rw [hobjects]
    exact hsound.objects.finish (by simp [Memory.objects, howned])
  · rw [hblocks]
    exact hsound.blocks.finish hblock
  · exact fun other hother => Function.update_of_ne hother _ _
  · intro other kept hother hkept
    refine Function.update_of_ne ?_ _ _
    rintro rfl
    exact hother (hsound.blocks.exclusive hkept hblock)
  · rintro other rfl
    exact .inl (by simp [Memory.endHeap])
  · intro kept hheap
    have hne : kept ≠ block := by
      rintro rfl
      simp [Memory.endHeap] at hheap
    have hbefore : (memory.heap kept).isSome = true := by
      simpa [Memory.endHeap, hne] using hheap
    obtain ⟨owner, howner⟩ := hsound.allocated hbefore
    have hother : owner ≠ var := by
      rintro rfl
      exact hne (Option.some.inj (howner.symm.trans hblock))
    exact ⟨owner, by rw [ownedBlock_endHeap, Function.update_of_ne hother, howner]⟩

/-! ### Transfer -/

section Transfer

variable {source target : Var} (hne : target ≠ source)
  (htype : requireOnHeap object.callable.type = true)
  (hpack : memory.packs source =
    some ⟨.ptr block, some (createVtable object.callable.type)⟩)

include hne htype hpack

theorem ownedBlock_passHeap :
    (memory.passHeap source target block object).ownedBlock =
      Function.update (Function.update memory.ownedBlock target (memory.ownedBlock source))
        source none := by
  funext other
  by_cases hsource : other = source
  · subst hsource
    rw [Function.update_self]
    exact ownedBlock_of_vacant (by simp [passHeap])
  rw [Function.update_of_ne hsource]
  by_cases htarget : other = target
  · subst htarget
    rw [Function.update_self, ownedBlock_of_heap htype hpack]
    exact ownedBlock_of_heap htype (by simp [passHeap, hne])
  · rw [Function.update_of_ne htarget]
    exact ownedBlock_congr (by simp [passHeap, hsource, htarget])

variable (hheap : memory.heap block =
  some ⟨isOverAligned object.callable.type, some object⟩)

include hheap

theorem owned_passHeap :
    (memory.passHeap source target block object).owned =
      Function.update (Function.update memory.owned target (memory.owned source)) source none := by
  funext other
  by_cases hsource : other = source
  · subst hsource
    rw [Function.update_self]
    exact owned_of_vacant (by simp [passHeap])
  rw [Function.update_of_ne hsource]
  by_cases htarget : other = target
  · subst htarget
    rw [Function.update_self, owned_of_heap htype hpack hheap]
    exact owned_of_heap htype (by simp [passHeap, hne]) hheap
  · rw [Function.update_of_ne htarget]
    exact owned_congr (by simp [passHeap, hsource, htarget]) fun _ _ => rfl

theorem Sound.passHeap (hsound : memory.Sound) (hvacant : Vacant (memory.packs target)) :
    (memory.passHeap source target block object).Sound := by
  have hblock := ownedBlock_passHeap hne htype hpack
  have hobjects : (memory.passHeap source target block object).objects =
      memory.objects.transfer source target := by
    simp only [Memory.objects, owned_passHeap hne htype hpack hheap, Function.comp_update,
      Custody.transfer]
    rfl
  have hblocks : (memory.passHeap source target block object).blocks =
      memory.blocks.transfer source target := by
    simp only [Memory.blocks, hblock, Custody.transfer]
    rfl
  refine hsound.change (fun other => other = source ∨ other = target) ?_ ?_ ?_
    (fun _ _ _ _ => rfl) ?_ ?_
  · rw [hobjects]
    exact hsound.objects.transfer (by simp [Memory.objects, owned_of_vacant hvacant])
  · rw [hblocks]
    exact hsound.blocks.transfer (ownedBlock_of_vacant hvacant)
  · intro other hother
    obtain ⟨hsource, htarget⟩ := not_or.mp hother
    simp [Memory.passHeap, hsource, htarget]
  · rintro other (rfl | rfl)
    · exact .inl (by simp [Memory.passHeap])
    · exact .inr ⟨object, .heap block htype (by simp [Memory.passHeap, hne]) hheap⟩
  · intro kept hkept
    rw [hblock]
    obtain ⟨owner, howner⟩ := hsound.allocated hkept
    by_cases hsource : owner = source
    · subst hsource
      exact ⟨target, by simp [hne, howner]⟩
    · have htarget : owner ≠ target := by
        rintro rfl
        simp [ownedBlock_of_vacant hvacant] at howner
      exact ⟨owner, by simp [hsource, htarget, howner]⟩

end Transfer

end Changes

end Memory

end RpcDemo.MFunction
