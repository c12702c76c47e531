import RpcDemo.Detail.Frame
import RpcDemo.Method.CalcMatrix

/-!
# The server stub

`handle_request` parses a request, dispatches it on its method and serializes
the response.  An allocation that fails raises an exception, in a method that
allocates or when its result is serialized; such a fault is a parameter of the
run.  Besides the reply a run records which methods it invoked.
-/

namespace RpcDemo.ServerStub

open RpcDemo.Frame
open RpcDemo.Proto
open RpcDemo.Operation

def makeErrorResponse (id : UInt64) (type : MethodType) (status : StatusCode)
    (message : String) : Response where
  id := id
  status := status
  type := type
  body := []
  errorMessage := message

/-- A response and the methods that were invoked for it. -/
structure Answer (Reply : Type) where
  reply : Reply
  invoked : List Method
  deriving DecidableEq

/-- An answer of the server, and what the environment raised meanwhile. -/
structure Service where
  fault : Option Exn
  answer : Answer Payload
  deriving DecidableEq

/-- The `try` block.  An exception of the environment ends it, but one that is raised
while the result is serialized comes after the invocation. -/
def attempt (method : Method) (fault : Option Exn) (outcome : Outcome method.Value) :
    Outcome method.Value :=
  match fault with
  | none => outcome
  | some exn => if method.allocates then .throws exn else outcome.bind fun _ => .throws exn

section Dispatch

variable (proto : Protobuf)

def dispatchOne (method : Method) (fault : Option Exn) (request : Request) :
    Outcome (Answer Response) :=
  let traits := method.traits proto
  match traits.request.parse request.body with
  | none =>
      .returns ⟨makeErrorResponse request.id request.type statusParseError
        "failed to parse rpc request body", []⟩
  | some args =>
      match attempt method fault (traits.invoke args) with
      | .returns result =>
          .returns ⟨{
            id := request.id
            status := statusOk
            type := traits.id
            body := traits.serializeResult result
            errorMessage := "" }, [method]⟩
      | .throws (.stdException what) =>
          .returns ⟨makeErrorResponse request.id request.type statusInvokeError what, [method]⟩
      | .throws .other =>
          .returns ⟨makeErrorResponse request.id request.type statusInternalError
            "unknown rpc invoke error", [method]⟩
      | .undefined => .undefined

def dispatch (fault : Option Exn) (request : Request) : Outcome (Answer Response) :=
  if request.type = metAdd then
    dispatchOne proto .add fault request
  else if request.type = metDiv then
    dispatchOne proto .div fault request
  else if request.type = metCalcMatrix then
    dispatchOne proto .calcMatrix fault request
  else
    .returns ⟨makeErrorResponse request.id request.type statusMethodNotFound
      "rpc method not found", []⟩

def serializeResponse (response : Response) : Payload :=
  proto.response.serialize response

def handleRequest (fault : Option Exn) (data : Payload) : Outcome (Answer Payload) :=
  match proto.request.parse data with
  | none =>
      .returns ⟨serializeResponse proto (makeErrorResponse 0 metUnknow statusParseError
        "failed to parse rpc request"), []⟩
  | some request =>
      (dispatch proto fault request).bind fun answer =>
        .returns ⟨serializeResponse proto answer.reply, answer.invoked⟩

end Dispatch

/-! ## Dispatch by method -/

theorem dispatch_of_type (proto : Protobuf) (fault : Option Exn) {request : Request}
    {method : Method} (htype : request.type = (method.traits proto).id) :
    dispatch proto fault request = dispatchOne proto method fault request := by
  cases method with
  | add =>
      have hadd : request.type = metAdd := htype
      simp [dispatch, hadd]
  | div =>
      have hdiv : request.type = metDiv := htype
      have hne : metDiv ≠ metAdd := by decide
      simp [dispatch, hdiv, hne]
  | calcMatrix =>
      have hcalc : request.type = metCalcMatrix := htype
      have hadd : metCalcMatrix ≠ metAdd := by decide
      have hdiv : metCalcMatrix ≠ metDiv := by decide
      simp [dispatch, hcalc, hadd, hdiv]

theorem dispatch_of_unlisted (proto : Protobuf) (fault : Option Exn) {request : Request}
    (hunlisted : ∀ method : Method, request.type ≠ (method.traits proto).id) :
    dispatch proto fault request =
      .returns ⟨makeErrorResponse request.id request.type statusMethodNotFound
        "rpc method not found", []⟩ := by
  have hadd : request.type ≠ metAdd := hunlisted .add
  have hdiv : request.type ≠ metDiv := hunlisted .div
  have hcalc : request.type ≠ metCalcMatrix := hunlisted .calcMatrix
  simp [dispatch, hadd, hdiv, hcalc]

end RpcDemo.ServerStub
