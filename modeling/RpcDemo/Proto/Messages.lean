/-!
# The messages of the protocol

The messages of `base.proto` and `method.proto`, and the generated code as the
program uses it: a serializer and a parser for each message.  Enumerations of
proto3 are open, so a received one can hold any number.
-/

namespace RpcDemo.Proto

/-- An enumeration of proto3 is open: any 32-bit number may arrive. -/
structure MethodType where
  number : Int32
  deriving DecidableEq

def metUnknow : MethodType := ⟨0⟩
def metAdd : MethodType := ⟨1⟩
def metDiv : MethodType := ⟨2⟩
def metCalcMatrix : MethodType := ⟨3⟩

structure StatusCode where
  number : Int32
  deriving DecidableEq

def statusOk : StatusCode := ⟨1⟩
def statusMethodNotFound : StatusCode := ⟨3⟩
def statusParseError : StatusCode := ⟨4⟩
def statusInvokeError : StatusCode := ⟨5⟩
def statusInternalError : StatusCode := ⟨6⟩

structure Request where
  id : UInt64
  type : MethodType
  body : List UInt8
  deriving DecidableEq

structure Response where
  id : UInt64
  status : StatusCode
  type : MethodType
  body : List UInt8
  errorMessage : String
  deriving DecidableEq

/-- The fields of `method.add` and of `method.div`. -/
structure Operands where
  left : Int32
  right : Int32
  deriving DecidableEq

/-- The field of `method.add.result_type` and of `method.div.result_type`. -/
structure IntResult where
  ret : Int32
  deriving DecidableEq

structure IntList where
  edge : List Int32
  deriving DecidableEq

structure CalcMatrix where
  left : List IntList
  right : List IntList
  times : UInt32
  deriving DecidableEq

structure MatrixResult where
  ret : List IntList
  deriving DecidableEq

/-- `SerializeAsString` and `ParseFromString` of one message. -/
structure Codec (Message : Type) where
  serialize : Message → List UInt8
  parse : List UInt8 → Option Message

/-- A message that was serialized parses back to itself. -/
def Codec.Lawful {Message : Type} (codec : Codec Message) : Prop :=
  ∀ message, codec.parse (codec.serialize message) = some message

/-- The generated code for the two files. -/
structure Protobuf where
  request : Codec Request
  response : Codec Response
  add : Codec Operands
  addResult : Codec IntResult
  div : Codec Operands
  divResult : Codec IntResult
  calcMatrix : Codec CalcMatrix
  calcMatrixResult : Codec MatrixResult

/-- Every message parses back from its own serialization. -/
structure Protobuf.Lawful (proto : Protobuf) : Prop where
  request : proto.request.Lawful
  response : proto.response.Lawful
  add : proto.add.Lawful
  addResult : proto.addResult.Lawful
  div : proto.div.Lawful
  divResult : proto.divResult.Lawful
  calcMatrix : proto.calcMatrix.Lawful
  calcMatrixResult : proto.calcMatrixResult.Lawful

end RpcDemo.Proto
