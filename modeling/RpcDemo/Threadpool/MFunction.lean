import RpcDemo.Core.Action
import RpcDemo.Core.Custody

/-!
# The move-only function wrapper

`mfunction` keeps a callable in its own 56 bytes or in a heap block, and reaches
it through three functions of a virtual table.  The templates choose the three
functions from the callable's type; nothing else tells the two kinds of storage
apart, and the storage of an empty wrapper is meaningless.

The memory records which objects have been destroyed and which blocks have been
freed.  Using storage that does not hold what a function expects, calling a
destructor of another type, and releasing a block that is not allocated or was
allocated with the other alignment, are undefined.
-/

namespace RpcDemo.MFunction

/-- What the templates ask about the type of a callable. -/
structure CallableType where
  name : ℕ
  sizeOf : ℕ
  alignOf : ℕ
  deriving DecidableEq

structure Callable where
  type : CallableType
  value : ℕ
  deriving DecidableEq

def storageSize : ℕ := 7

def sizeOfPointer : ℕ := 8

/-- `alignof(std::max_align_t)`. -/
def maxAlign : ℕ := 8

def isOverAligned (type : CallableType) : Bool :=
  decide (maxAlign < type.alignOf)

def requireOnHeap (type : CallableType) : Bool :=
  isOverAligned type || decide (sizeOfPointer * storageSize < type.sizeOf)

structure Object where
  id : ℕ
  callable : Callable
  deriving DecidableEq

/-- The union `_sbo_storage`, by the member that was written last. -/
inductive Storage
  | indeterminate
  | ptr (block : ℕ)
  | data (object : Object)
  deriving DecidableEq

/-- The instances of `_Invoke_Stack` and `_Invoke_Heap`. -/
inductive InvokeFunction
  | invokeStack (type : CallableType)
  | invokeHeap (type : CallableType)
  deriving DecidableEq

/-- `_Move_heap`, which is one function for all types, and the instances of
`_Move_stack`. -/
inductive MoveFunction
  | moveHeap
  | moveStack (type : CallableType)
  deriving DecidableEq

/-- The instances of `_Destory_heap` and `_Destory_stack`. -/
inductive DestoryFunction
  | destoryHeap (type : CallableType)
  | destoryStack (type : CallableType)
  deriving DecidableEq

structure VirtualTable where
  invoke : InvokeFunction
  move : MoveFunction
  destory : DestoryFunction
  deriving DecidableEq

def createVtable (type : CallableType) : VirtualTable :=
  if requireOnHeap type then
    { invoke := .invokeHeap type, move := .moveHeap, destory := .destoryHeap type }
  else
    { invoke := .invokeStack type, move := .moveStack type, destory := .destoryStack type }

structure Pack where
  storage : Storage
  vtab : Option VirtualTable
  deriving DecidableEq

structure Block where
  overAligned : Bool
  object : Option Object
  deriving DecidableEq

/-- The variables in scope, the allocated blocks, and what has ended. -/
structure Memory (Var : Type*) where
  packs : Var → Option Pack
  heap : ℕ → Option Block
  nextObject : ℕ
  nextBlock : ℕ
  destroyed : List ℕ
  freed : List ℕ

/-- The operations of a construction that can throw. -/
structure Faults where
  allocation : Bool
  constructor : Option Exn
  deriving DecidableEq

def badAlloc : Exn := .stdException "bad allocation"

section Code

variable {Var : Type*} [DecidableEq Var]

def Memory.start : Memory Var where
  packs _ := none
  heap _ := none
  nextObject := 0
  nextBlock := 0
  destroyed := []
  freed := []

def Memory.setPack (memory : Memory Var) (var : Var) (pack : Option Pack) : Memory Var :=
  { memory with packs := Function.update memory.packs var pack }

def Memory.setBlock (memory : Memory Var) (block : ℕ) (content : Option Block) : Memory Var :=
  { memory with heap := Function.update memory.heap block content }

def Memory.allocate (memory : Memory Var) (overAligned : Bool) : Memory Var :=
  { memory with
    heap := Function.update memory.heap memory.nextBlock (some ⟨overAligned, none⟩)
    nextBlock := memory.nextBlock + 1 }

def readPack (var : Var) : Action (Memory Var) Pack :=
  .read fun memory => memory.packs var

def readBlock (block : ℕ) : Action (Memory Var) Block :=
  .read fun memory => memory.heap block

def setStorage (var : Var) (storage : Storage) : Action (Memory Var) Unit := do
  let pack ← readPack var
  .modify fun memory => memory.setPack var (some { pack with storage := storage })

def setVtab (var : Var) (vtab : Option VirtualTable) : Action (Memory Var) Unit := do
  let pack ← readPack var
  .modify fun memory => memory.setPack var (some { pack with vtab := vtab })

/-- The object at `stack_ptr<_Dx>()`. -/
def stackObject (type : CallableType) (var : Var) : Action (Memory Var) Object := do
  let pack ← readPack var
  match pack.storage with
  | .data object => if object.callable.type = type then pure object else .undefined
  | _ => .undefined

/-- The pointer read by `heap_ptr<_Dx>()`. -/
def heapPtr (var : Var) : Action (Memory Var) ℕ := do
  let pack ← readPack var
  match pack.storage with
  | .ptr block => pure block
  | _ => .undefined

/-- The object of type `_Dx` in a block. -/
def heapObject (type : CallableType) (block : ℕ) : Action (Memory Var) Object := do
  let content ← readBlock block
  match content.object with
  | some object => if object.callable.type = type then pure object else .undefined
  | none => .undefined

/-- A new object of the callable's type, whose constructor may throw. -/
def newObject (callable : Callable) (fault : Option Exn) : Action (Memory Var) Object :=
  .throwing fault do
    let id ← Action.read fun memory => some memory.nextObject
    .modify fun memory => { memory with nextObject := memory.nextObject + 1 }
    pure ⟨id, callable⟩

/-- The destructor call on an object. -/
def endObject (object : Object) : Action (Memory Var) Unit :=
  .modify fun memory => { memory with destroyed := memory.destroyed ++ [object.id] }

/-- `::operator new`, in its plain and its aligned form. -/
def operatorNew (overAligned : Bool) (fails : Bool) : Action (Memory Var) ℕ :=
  if fails then .throw badAlloc else do
    let block ← Action.read fun memory => some memory.nextBlock
    .modify fun memory => memory.allocate overAligned
    pure block

/-- `::operator delete`, which has to match the form of `operator new`. -/
def operatorDelete (overAligned : Bool) (block : ℕ) : Action (Memory Var) Unit := do
  let content ← readBlock block
  if content.overAligned = overAligned then
    .modify fun memory => { memory.setBlock block none with freed := memory.freed ++ [block] }
  else .undefined

/-- Placement of a new object in a block. -/
def constructInBlock (block : ℕ) (callable : Callable) (fault : Option Exn) :
    Action (Memory Var) Unit := do
  let content ← readBlock block
  let object ← newObject callable fault
  .modify fun memory => memory.setBlock block (some { content with object := some object })

/-- Placement of a new object in the storage of a variable. -/
def constructInStorage (var : Var) (callable : Callable) (fault : Option Exn) :
    Action (Memory Var) Unit := do
  let object ← newObject callable fault
  setStorage var (.data object)

/-- `_Alloca_Heap`. -/
def allocaHeap (callable : Callable) (faults : Faults) : Action (Memory Var) ℕ := do
  let palloc ← operatorNew (isOverAligned callable.type) faults.allocation
  .guarded (constructInBlock palloc callable faults.constructor)
    (operatorDelete (isOverAligned callable.type) palloc)
  pure palloc

/-- `_Invoke_Stack` and `_Invoke_Heap` hand control to the callable they find. -/
def InvokeFunction.run (invoke : InvokeFunction) (var : Var) : Action (Memory Var) Callable :=
  match invoke with
  | .invokeStack type => do
      let object ← stackObject type var
      pure object.callable
  | .invokeHeap type => do
      let block ← heapPtr var
      let object ← heapObject type block
      pure object.callable

/-- `_Move_heap` copies the storage; `_Move_stack` moves the object and
destroys the one it moved from. -/
def MoveFunction.run (move : MoveFunction) (dest src : Var) (fault : Option Exn) :
    Action (Memory Var) Unit :=
  match move with
  | .moveHeap => do
      let pack ← readPack src
      setStorage dest pack.storage
  | .moveStack type => do
      let object ← stackObject type src
      constructInStorage dest object.callable fault
      endObject object
      setStorage src .indeterminate

def DestoryFunction.run (destory : DestoryFunction) (dest : Var) : Action (Memory Var) Unit :=
  match destory with
  | .destoryHeap type => do
      let block ← heapPtr dest
      let object ← heapObject type block
      endObject object
      operatorDelete (isOverAligned type) block
  | .destoryStack type => do
      let object ← stackObject type dest
      endObject object
      setStorage dest .indeterminate

/-! ## `_MFBase` -/

def empty (var : Var) : Action (Memory Var) Bool := do
  let pack ← readPack var
  pure pack.vtab.isNone

def destory (var : Var) : Action (Memory Var) Unit := do
  let pack ← readPack var
  match pack.vtab with
  | none => pure ()
  | some vtab => do
      vtab.destory.run var
      setVtab var none

def moveFrom (var other : Var) (fault : Option Exn) : Action (Memory Var) Unit := do
  let pack ← readPack other
  match pack.vtab with
  | none => pure ()
  | some vtab => do
      vtab.move.run var other fault
      setVtab var (some vtab)
      setVtab other none

def assign (var other : Var) (fault : Option Exn) : Action (Memory Var) Unit := do
  if ← empty var then pure () else destory var
  moveFrom var other fault

def construct (var : Var) (callable : Callable) (faults : Faults) :
    Action (Memory Var) Unit := do
  if requireOnHeap callable.type then do
    let palloc ← allocaHeap callable faults
    setStorage var (.ptr palloc)
  else constructInStorage var callable faults.constructor
  setVtab var (some (createVtable callable.type))

/-- `none` is `_Invalid_Function`. -/
def getInvoke (var : Var) : Action (Memory Var) (Option InvokeFunction) := do
  let pack ← readPack var
  pure (pack.vtab.map VirtualTable.invoke)

/-- `operator()`. -/
def call (var : Var) : Action (Memory Var) Callable := do
  match ← getInvoke var with
  | some invoke => invoke.run var
  | none => .throw (.stdException "Invaild function.")

/-! ## `mfunction` -/

/-- The storage of a new variable; `vtab` is initialised to null. -/
def declare (var : Var) : Action (Memory Var) Unit := do
  let () ← Action.read fun memory => if (memory.packs var).isNone then some () else none
  .modify fun memory => memory.setPack var (some ⟨.indeterminate, none⟩)

def undeclare (var : Var) : Action (Memory Var) Unit :=
  .modify fun memory => memory.setPack var none

/-- `mfunction(_Fx&& _Fn)`: no destructor runs for a variable whose constructor
throws. -/
def constructFrom (var : Var) (callable : Callable) (faults : Faults) :
    Action (Memory Var) Unit := do
  declare var
  .guarded (construct var callable faults) (undeclare var)

/-- `mfunction(mfunction&& _Other)`. -/
def moveConstruct (var other : Var) (fault : Option Exn) : Action (Memory Var) Unit := do
  declare var
  .guarded (moveFrom var other fault) (undeclare var)

/-- `operator=(mfunction&& _Other)`. -/
def moveAssign (var other : Var) (fault : Option Exn) : Action (Memory Var) Unit :=
  if var ≠ other then assign var other fault else pure ()

/-- `~mfunction()`. -/
def destruct (var : Var) : Action (Memory Var) Unit := do
  destory var
  undeclare var

end Code

/-! ## Programs -/

/-- An operation of a program on its variables, with what throws in it. -/
inductive Op (Var : Type*)
  | constructFrom (var : Var) (callable : Callable) (faults : Faults)
  | construct (var : Var)
  | moveConstruct (var other : Var) (fault : Option Exn)
  | moveAssign (var other : Var) (fault : Option Exn)
  | assignNull (var : Var)
  | invoke (var : Var)
  | destruct (var : Var)
  deriving DecidableEq

variable {Var : Type*} [DecidableEq Var]

/-- The callable that ran, for an invocation. -/
def perform (op : Op Var) : Action (Memory Var) (Option Callable) :=
  match op with
  | .constructFrom var callable faults => do
      constructFrom var callable faults
      pure none
  | .construct var => do
      declare var
      pure none
  | .moveConstruct var other fault => do
      moveConstruct var other fault
      pure none
  | .moveAssign var other fault => do
      moveAssign var other fault
      pure none
  | .assignNull var => do
      destory var
      pure none
  | .invoke var => do
      let callable ← call var
      pure (some callable)
  | .destruct var => do
      destruct var
      pure none

/-- A program goes on after an exception, whatever it does about it. -/
def performAll : List (Op Var) → Memory Var →
    Option (List (Except Exn (Option Callable)) × Memory Var)
  | [], memory => some ([], memory)
  | op :: ops, memory =>
      ((perform op).run memory).bind fun (result, next) =>
        (performAll ops next).map fun (results, final) => (result :: results, final)

end RpcDemo.MFunction
