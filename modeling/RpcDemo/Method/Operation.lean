import RpcDemo.Core.Outcome
import RpcDemo.Proto.Messages

/-!
# The remote functions and their traits

The functions of `operation.cpp`, and for each method tag the traits that turn
arguments into a request message, run the function on a received one and carry
the result back.  The three traits share one shape, so the stubs are written
once over it.
-/

namespace RpcDemo.Operation

open RpcDemo.Proto
open RpcDemo.Outcome (forRange index addInt mulInt divInt)

/-- `std::vector<std::vector<int>>`. -/
abbrev Rows := List (List Int32)

/-- `fill_proto_matrix`: one message for each row, behind the rows already there. -/
def fillProtoMatrix (matrix : Rows) (rows : List IntList) : List IntList :=
  matrix.foldl
    (fun rows row => rows ++ [⟨row.foldl (fun edge value => edge ++ [value]) []⟩]) rows

def readProtoMatrix (rows : List IntList) : Rows :=
  rows.foldl
    (fun matrix protoRow =>
      matrix ++ [protoRow.edge.foldl (fun row value => row ++ [value]) []]) []

/-! ## `operation::impl` -/

namespace Impl

def div (left right : Int32) : Outcome Int32 :=
  divInt left right

def add (left right : Int32) : Outcome Int32 :=
  addInt left right

/-- `C[i][j] += A[i][k] * B[k][j]`. -/
def accumulate (A B : Rows) (i k : ℕ) (C : Rows) (j : ℕ) : Outcome Rows := do
  let a ← index (← index A i) k
  let b ← index (← index B k) j
  let row ← index C i
  let product ← mulInt a b
  let sum ← addInt (← index row j) product
  pure (C.set i (row.set j sum))

def multiply (A B : Rows) : Outcome Rows :=
  let n := A.length
  forRange (fun C i => forRange (fun C k => forRange (accumulate A B i k) n C) n C) n
    (List.replicate n (List.replicate n 0))

def calcMatrix (left right : Rows) (times : Int32) : Outcome Rows :=
  if times ≤ 0 then
    .returns left
  else
    forRange (fun result _ => multiply result right) times.toInt.toNat left

end Impl

/-! ## `rpc_method_traits` -/

/-- What a specialisation of `rpc_method_traits` supplies. -/
structure RpcMethodTraits (Args Message ResultMessage Value : Type) where
  id : MethodType
  request : Codec Message
  response : Codec ResultMessage
  makeRequest : Args → Message
  makeResponse : Value → ResultMessage
  readResponse : ResultMessage → Value
  parseFailure : String
  invoke : Message → Outcome Value

namespace RpcMethodTraits

variable {Args Message ResultMessage Value : Type}

def serializeResult (traits : RpcMethodTraits Args Message ResultMessage Value)
    (value : Value) : List UInt8 :=
  traits.response.serialize (traits.makeResponse value)

def parseResult (traits : RpcMethodTraits Args Message ResultMessage Value)
    (body : List UInt8) : Outcome Value :=
  match traits.response.parse body with
  | none => .throws (.stdException traits.parseFailure)
  | some response => .returns (traits.readResponse response)

def parseResponse (traits : RpcMethodTraits Args Message ResultMessage Value)
    (response : Response) : Outcome Value :=
  traits.parseResult response.body

end RpcMethodTraits

def addTraits (proto : Protobuf) :
    RpcMethodTraits (Int32 × Int32) Operands IntResult Int32 where
  id := metAdd
  request := proto.add
  response := proto.addResult
  makeRequest args := ⟨args.1, args.2⟩
  makeResponse value := ⟨value⟩
  readResponse response := response.ret
  parseFailure := "failed to parse add result"
  invoke req := Impl.add req.left req.right

def divTraits (proto : Protobuf) :
    RpcMethodTraits (Int32 × Int32) Operands IntResult Int32 where
  id := metDiv
  request := proto.div
  response := proto.divResult
  makeRequest args := ⟨args.1, args.2⟩
  makeResponse value := ⟨value⟩
  readResponse response := response.ret
  parseFailure := "failed to parse div result"
  invoke req := Impl.div req.left req.right

def calcMatrixTraits (proto : Protobuf) :
    RpcMethodTraits (Rows × Rows × Int32) CalcMatrix MatrixResult Rows where
  id := metCalcMatrix
  request := proto.calcMatrix
  response := proto.calcMatrixResult
  makeRequest args :=
    ⟨fillProtoMatrix args.1 [], fillProtoMatrix args.2.1 [], args.2.2.toUInt32⟩
  makeResponse value := ⟨fillProtoMatrix value []⟩
  readResponse response := readProtoMatrix response.ret
  parseFailure := "failed to parse calc_matrix result"
  invoke req :=
    Impl.calcMatrix (readProtoMatrix req.left) (readProtoMatrix req.right)
      req.times.toInt32

/-! ## The method tags -/

/-- The tags that `rpc_method_traits` is specialised for. -/
inductive Method
  | add
  | div
  | calcMatrix
  deriving DecidableEq

namespace Method

/-- The parameters of `make_request`. -/
def Args : Method → Type
  | add => Int32 × Int32
  | div => Int32 × Int32
  | calcMatrix => Rows × Rows × Int32

instance : (method : Method) → DecidableEq method.Args
  | add | div => inferInstanceAs (DecidableEq (Int32 × Int32))
  | calcMatrix => inferInstanceAs (DecidableEq (Rows × Rows × Int32))

def Message : Method → Type
  | add => Operands
  | div => Operands
  | calcMatrix => CalcMatrix

def ResultMessage : Method → Type
  | add => IntResult
  | div => IntResult
  | calcMatrix => MatrixResult

/-- `result_type`. -/
def Value : Method → Type
  | add => Int32
  | div => Int32
  | calcMatrix => Rows

def traits (proto : Protobuf) :
    (method : Method) →
      RpcMethodTraits method.Args method.Message method.ResultMessage method.Value
  | add => addTraits proto
  | div => divTraits proto
  | calcMatrix => calcMatrixTraits proto

/-- The local function behind a tag. -/
def impl : (method : Method) → method.Args → Outcome method.Value
  | add, args => Impl.add args.1 args.2
  | div, args => Impl.div args.1 args.2
  | calcMatrix, args => Impl.calcMatrix args.1 args.2.1 args.2.2

/-- Whether invoking the method allocates, and so may end in an exception of the
allocator.  `add` and `div` do arithmetic only. -/
def allocates : Method → Bool
  | add => false
  | div => false
  | calcMatrix => true

end Method

/-! ## The conversions are inverse to each other -/

theorem foldl_append_singleton {α β : Type} (f : α → β) (xs : List α) (ys : List β) :
    xs.foldl (fun built x => built ++ [f x]) ys = ys ++ xs.map f := by
  induction xs generalizing ys with
  | nil => simp
  | cons x xs ih => simp [ih]

theorem fillProtoMatrix_eq (matrix : Rows) (rows : List IntList) :
    fillProtoMatrix matrix rows = rows ++ matrix.map IntList.mk := by
  have hrow : ∀ row : List Int32, row.foldl (fun edge value => edge ++ [value]) [] = row :=
    fun row => by simpa using foldl_append_singleton id row []
  simp only [fillProtoMatrix, hrow]
  exact foldl_append_singleton IntList.mk matrix rows

theorem readProtoMatrix_eq (rows : List IntList) :
    readProtoMatrix rows = rows.map IntList.edge := by
  have hrow : ∀ row : List Int32, row.foldl (fun edge value => edge ++ [value]) [] = row :=
    fun row => by simpa using foldl_append_singleton id row []
  simp only [readProtoMatrix, hrow]
  simpa using foldl_append_singleton IntList.edge rows []

@[simp]
theorem readProtoMatrix_fillProtoMatrix (matrix : Rows) :
    readProtoMatrix (fillProtoMatrix matrix []) = matrix := by
  simp [readProtoMatrix_eq, fillProtoMatrix_eq, Function.comp_def]

@[simp]
theorem Method.readResponse_makeResponse (proto : Protobuf) (method : Method)
    (value : method.Value) :
    (method.traits proto).readResponse ((method.traits proto).makeResponse value) = value := by
  cases method with
  | add => rfl
  | div => rfl
  | calcMatrix => exact readProtoMatrix_fillProtoMatrix value

/-- Invoking a method on the message made from its arguments is calling its
function on them. -/
theorem Method.invoke_makeRequest (proto : Protobuf) (method : Method)
    (args : method.Args) :
    (method.traits proto).invoke ((method.traits proto).makeRequest args) =
      method.impl args := by
  cases method with
  | add => rfl
  | div => rfl
  | calcMatrix =>
      obtain ⟨left, right, times⟩ := args
      have hleft := readProtoMatrix_fillProtoMatrix left
      have hright := readProtoMatrix_fillProtoMatrix right
      simp only [Method.traits, calcMatrixTraits, Method.impl, hleft, hright]
      rfl

section Lawful

variable {proto : Protobuf} (hlawful : proto.Lawful) (method : Method)

include hlawful

theorem Method.lawful_request : (method.traits proto).request.Lawful := by
  cases method with
  | add => exact hlawful.add
  | div => exact hlawful.div
  | calcMatrix => exact hlawful.calcMatrix

theorem Method.lawful_response : (method.traits proto).response.Lawful := by
  cases method with
  | add => exact hlawful.addResult
  | div => exact hlawful.divResult
  | calcMatrix => exact hlawful.calcMatrixResult

/-- A result survives its serialization. -/
theorem Method.parseResult_serializeResult (value : method.Value) :
    (method.traits proto).parseResult ((method.traits proto).serializeResult value) =
      .returns value := by
  have hparse := Method.lawful_response hlawful method
    ((method.traits proto).makeResponse value)
  simp only [RpcMethodTraits.parseResult, RpcMethodTraits.serializeResult, hparse,
    Method.readResponse_makeResponse]

end Lawful

end RpcDemo.Operation
