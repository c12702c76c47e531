import RpcDemo.Detail.ServerStub
import RpcDemo.Proto.Encoding

/-!
# Which requests the server can execute

The arguments of a request come unchecked from the network.  Dispatching it is
free of undefined behaviour exactly when they are admissible for its method,
and nothing else stops inadmissible ones: they are never answered with an error
status.
-/

namespace RpcDemo.ServerStub

open RpcDemo.Frame
open RpcDemo.Proto
open RpcDemo.Operation
open RpcDemo.Outcome (FitsInt SafeIff)

/-- The sum fits `int`; the quotient exists and fits; every product and partial
sum of `left * right ^ times` fits and every access is inside its vector. -/
def Admissible : (method : Method) → method.Message → Prop
  | .add, (args : Operands) => FitsInt (args.left.toInt + args.right.toInt)
  | .div, (args : Operands) =>
      args.right ≠ 0 ∧ ¬ (args.left = Int32.minValue ∧ args.right = -1)
  | .calcMatrix, (args : CalcMatrix) =>
      CalcSafe (readProtoMatrix args.left) (readProtoMatrix args.right)
        args.times.toInt32.toInt.toNat

/-- What the method returns on admissible arguments, over the integers. -/
def exactResult : (method : Method) → method.Message → method.Value
  | .add, (args : Operands) => Int32.ofInt (args.left.toInt + args.right.toInt)
  | .div, (args : Operands) => Int32.ofInt (args.left.toInt.tdiv args.right.toInt)
  | .calcMatrix, (args : CalcMatrix) =>
      resultAt (readProtoMatrix args.left) (readProtoMatrix args.right)
        args.times.toInt32.toInt.toNat

/-- Invoking a method is safe exactly on admissible arguments. -/
theorem safeIff_invoke (proto : Protobuf) (method : Method) (args : method.Message) :
    ((method.traits proto).invoke args).SafeIff (Admissible method args)
      (exactResult method args) := by
  cases method with
  | add => exact Outcome.safeIff_ofExact _
  | div => exact Outcome.safeIff_divInt _ _
  | calcMatrix => exact safeIff_calcMatrix _ _ _

section Dispatch

variable {proto : Protobuf} {method : Method} {request : Request} {args : method.Message}

theorem dispatchOne_of_admissible
    (hparse : (method.traits proto).request.parse request.body = some args)
    (hadmissible : Admissible method args) :
    dispatchOne proto method none request =
      .returns ⟨{
        id := request.id
        status := statusOk
        type := (method.traits proto).id
        body := (method.traits proto).serializeResult (exactResult method args)
        errorMessage := "" }, [method]⟩ := by
  have hinvoke := (safeIff_invoke proto method args).returns_of hadmissible
  simp only [dispatchOne, hparse, attempt, hinvoke]

/-- The environment can end the `try` block with an exception: before the method comes
to anything undefined, or because it does not. -/
def Interruptible (method : Method) (args : method.Message) : Prop :=
  method.allocates = true ∨ Admissible method args

theorem attempt_of_interruptible (exn : Exn) (hinterruptible : Interruptible method args) :
    attempt method (some exn) ((method.traits proto).invoke args) = .throws exn := by
  unfold attempt
  rcases hinterruptible with hallocates | hadmissible
  · simp only [hallocates, if_true]
  · rw [(safeIff_invoke proto method args).returns_of hadmissible]
    simp

theorem dispatchOne_of_not_admissible {fault : Option Exn}
    (hparse : (method.traits proto).request.parse request.body = some args)
    (hfault : fault = none ∨ method.allocates = false)
    (hinadmissible : ¬ Admissible method args) :
    dispatchOne proto method fault request = .undefined := by
  have hinvoke := (safeIff_invoke proto method args).undefined_of hinadmissible
  have hattempt : attempt method fault ((method.traits proto).invoke args) = .undefined := by
    rw [hinvoke]
    cases fault with
    | none => rfl
    | some exn =>
        have hallocates : method.allocates = false := hfault.resolve_left (by simp)
        simp [attempt, hallocates]
  simp only [dispatchOne, hparse, hattempt]

theorem dispatchOne_of_unreadable (fault : Option Exn)
    (hparse : (method.traits proto).request.parse request.body = none) :
    dispatchOne proto method fault request =
      .returns ⟨makeErrorResponse request.id request.type statusParseError
        "failed to parse rpc request body", []⟩ := by
  simp only [dispatchOne, hparse]

theorem dispatchOne_of_stdException (what : String)
    (hparse : (method.traits proto).request.parse request.body = some args)
    (hinterruptible : Interruptible method args) :
    dispatchOne proto method (some (.stdException what)) request =
      .returns ⟨makeErrorResponse request.id request.type statusInvokeError what,
        [method]⟩ := by
  simp only [dispatchOne, hparse, attempt_of_interruptible _ hinterruptible]

theorem dispatchOne_of_other
    (hparse : (method.traits proto).request.parse request.body = some args)
    (hinterruptible : Interruptible method args) :
    dispatchOne proto method (some .other) request =
      .returns ⟨makeErrorResponse request.id request.type statusInternalError
        "unknown rpc invoke error", [method]⟩ := by
  simp only [dispatchOne, hparse, attempt_of_interruptible _ hinterruptible]

theorem exists_answer_of_admissible
    (hparse : (method.traits proto).request.parse request.body = some args)
    (hadmissible : Admissible method args) (fault : Option Exn) :
    ∃ answer, dispatchOne proto method fault request = .returns answer := by
  cases fault with
  | none => exact ⟨_, dispatchOne_of_admissible hparse hadmissible⟩
  | some exn =>
      cases exn with
      | stdException what =>
          exact ⟨_, dispatchOne_of_stdException what hparse (.inr hadmissible)⟩
      | other => exact ⟨_, dispatchOne_of_other hparse (.inr hadmissible)⟩

end Dispatch

/-- Dispatching a request runs into no undefined behaviour but is answered, with
an error status if its arguments are not admissible. -/
def DispatchedSafely (proto : Protobuf) (method : Method) (args : method.Message)
    (request : Request) : Prop :=
  ∀ fault, ∃ answer, dispatch proto fault request = .returns answer ∧
    (¬ Admissible method args → answer.reply.status ≠ statusOk)

/-- A request for a listed method whose body parses is dispatched safely exactly
when its arguments are admissible. -/
theorem dispatchedSafely_iff_admissible (proto : Protobuf) (method : Method)
    (request : Request) (args : method.Message)
    (htype : request.type = (method.traits proto).id)
    (hparse : (method.traits proto).request.parse request.body = some args) :
    DispatchedSafely proto method args request ↔ Admissible method args := by
  constructor
  · intro hsafe
    by_contra hinadmissible
    obtain ⟨answer, hanswer, _⟩ := hsafe none
    rw [dispatch_of_type proto none htype,
      dispatchOne_of_not_admissible hparse (.inl rfl) hinadmissible] at hanswer
    exact absurd hanswer (by simp)
  · intro hadmissible fault
    obtain ⟨answer, hanswer⟩ := exists_answer_of_admissible hparse hadmissible fault
    rw [← dispatch_of_type proto fault htype] at hanswer
    exact ⟨answer, hanswer, fun hinadmissible => absurd hadmissible hinadmissible⟩

/-! ## What a request is answered with -/

/-- The response to a payload.  It echoes id and method of the request; a fault
raised while the method runs replaces its result. -/
inductive Answers (proto : Protobuf) (fault : Option Exn) (data : Payload) : Response → Prop
  | unparsed (hdata : proto.request.parse data = none) :
      Answers proto fault data
        ⟨0, statusParseError, metUnknow, [], "failed to parse rpc request"⟩
  | unlisted (request : Request) (hdata : proto.request.parse data = some request)
      (hunlisted : ∀ method : Method, request.type ≠ (method.traits proto).id) :
      Answers proto fault data
        ⟨request.id, statusMethodNotFound, request.type, [], "rpc method not found"⟩
  | unreadable (request : Request) (method : Method)
      (hdata : proto.request.parse data = some request)
      (htype : request.type = (method.traits proto).id)
      (hbody : (method.traits proto).request.parse request.body = none) :
      Answers proto fault data
        ⟨request.id, statusParseError, request.type, [], "failed to parse rpc request body"⟩
  | result (request : Request) (method : Method) (args : method.Message)
      (hdata : proto.request.parse data = some request)
      (htype : request.type = (method.traits proto).id)
      (hbody : (method.traits proto).request.parse request.body = some args)
      (hfault : fault = none) (hadmissible : Admissible method args) :
      Answers proto fault data
        ⟨request.id, statusOk, request.type,
          (method.traits proto).serializeResult (exactResult method args), ""⟩
  | raised (request : Request) (method : Method) (args : method.Message) (what : String)
      (hdata : proto.request.parse data = some request)
      (htype : request.type = (method.traits proto).id)
      (hbody : (method.traits proto).request.parse request.body = some args)
      (hfault : fault = some (.stdException what)) (hinterruptible : Interruptible method args) :
      Answers proto fault data ⟨request.id, statusInvokeError, request.type, [], what⟩
  | unknown (request : Request) (method : Method) (args : method.Message)
      (hdata : proto.request.parse data = some request)
      (htype : request.type = (method.traits proto).id)
      (hbody : (method.traits proto).request.parse request.body = some args)
      (hfault : fault = some .other) (hinterruptible : Interruptible method args) :
      Answers proto fault data
        ⟨request.id, statusInternalError, request.type, [], "unknown rpc invoke error"⟩

/-- The payload is a request that calls the method with the arguments. -/
def Calls (proto : Protobuf) (data : Payload) (method : Method) (args : method.Message) : Prop :=
  ∃ request, proto.request.parse data = some request ∧
    request.type = (method.traits proto).id ∧
      (method.traits proto).request.parse request.body = some args

/-- The request can be executed: its arguments are admissible, unless a fault
keeps the method from coming to them. -/
def Executable (proto : Protobuf) (fault : Option Exn) (data : Payload) : Prop :=
  ∀ (method : Method) (args : method.Message), Calls proto data method args →
    fault = none ∨ method.allocates = false → Admissible method args

/-- The service is the specified answer to the payload under the fault that was
raised, and invoked the method that the payload calls, once, and no other. -/
structure Fulfils (proto : Protobuf) (data : Payload) (service : Service) : Prop where
  reply : ∃ response, Answers proto service.fault data response ∧
    service.answer.reply = serializeResponse proto response
  called : ∀ (method : Method) (args : method.Message), Calls proto data method args →
    service.answer.invoked = [method]
  uncalled : (∀ (method : Method) (args : method.Message), ¬ Calls proto data method args) →
    service.answer.invoked = []

section Fulfil

variable {proto : Protobuf} {fault : Option Exn} {data : Payload} {request : Request}
  {method : Method} {args : method.Message} {response : Response}

theorem id_inj {other : Method}
    (hid : (method.traits proto).id = (other.traits proto).id) : method = other := by
  have hdistinct : metAdd ≠ metDiv ∧ metAdd ≠ metCalcMatrix ∧ metDiv ≠ metCalcMatrix := by
    decide
  cases method <;> cases other <;>
    first | rfl | exact absurd hid (by simp [Method.traits, addTraits, divTraits,
      calcMatrixTraits, hdistinct, hdistinct.1.symm, hdistinct.2.1.symm, hdistinct.2.2.symm])

theorem method_of_calls {other : Method} {otherArgs : other.Message}
    (hdata : proto.request.parse data = some request)
    (htype : request.type = (method.traits proto).id)
    (hcalls : Calls proto data other otherArgs) : other = method := by
  obtain ⟨same, hsame, hother, -⟩ := hcalls
  obtain rfl := Option.some.inj (hdata.symm.trans hsame)
  exact id_inj (hother.symm.trans htype)

theorem fulfils_of_called (hcalls : Calls proto data method args)
    (hresponse : Answers proto fault data response) :
    Fulfils proto data ⟨fault, serializeResponse proto response, [method]⟩ where
  reply := ⟨response, hresponse, rfl⟩
  called := by
    obtain ⟨request, hdata, htype, -⟩ := hcalls
    intro other otherArgs hother
    rw [method_of_calls hdata htype hother]
  uncalled hnone := absurd hcalls (hnone method args)

theorem fulfils_of_uncalled
    (hnone : ∀ (method : Method) (args : method.Message), ¬ Calls proto data method args)
    (hresponse : Answers proto fault data response) :
    Fulfils proto data ⟨fault, serializeResponse proto response, []⟩ where
  reply := ⟨response, hresponse, rfl⟩
  called method args hcalls := absurd hcalls (hnone method args)
  uncalled _ := rfl

/-- A request that calls a method is answered with its result, or with the exception
that ended it. -/
theorem exists_dispatchOne (hcalls : Calls proto data method args)
    (hdata : proto.request.parse data = some request)
    (htype : request.type = (method.traits proto).id)
    (hbody : (method.traits proto).request.parse request.body = some args)
    (hexecutable : Executable proto fault data) :
    ∃ response, Answers proto fault data response ∧
      dispatchOne proto method fault request = .returns ⟨response, [method]⟩ := by
  have hadmissible := hexecutable method args hcalls
  cases fault with
  | none =>
      refine ⟨_, .result request method args hdata htype hbody rfl (hadmissible (.inl rfl)), ?_⟩
      rw [htype]
      exact dispatchOne_of_admissible hbody (hadmissible (.inl rfl))
  | some exn =>
      have hinterruptible : Interruptible method args := by
        cases hallocates : method.allocates with
        | true => exact .inl hallocates
        | false => exact .inr (hadmissible (.inr hallocates))
      cases exn with
      | stdException what =>
          exact ⟨_, .raised request method args what hdata htype hbody rfl hinterruptible,
            dispatchOne_of_stdException what hbody hinterruptible⟩
      | other =>
          exact ⟨_, .unknown request method args hdata htype hbody rfl hinterruptible,
            dispatchOne_of_other hbody hinterruptible⟩

/-- An executable request is answered as specified. -/
theorem exists_fulfils (hexecutable : Executable proto fault data) :
    ∃ answer, handleRequest proto fault data = .returns answer ∧
      Fulfils proto data ⟨fault, answer⟩ := by
  cases hdata : proto.request.parse data with
  | none =>
      have hnone : ∀ (method : Method) (args : method.Message),
          ¬ Calls proto data method args := by
        rintro method args ⟨request, hrequest, -⟩
        exact absurd (hdata.symm.trans hrequest) (by simp)
      refine ⟨_, ?_, fulfils_of_uncalled hnone (.unparsed hdata)⟩
      simp only [handleRequest, hdata, makeErrorResponse]
  | some request =>
      have hhandle : ∀ response invoked,
          dispatch proto fault request = .returns ⟨response, invoked⟩ →
            handleRequest proto fault data =
              .returns ⟨serializeResponse proto response, invoked⟩ := by
        intro response invoked hanswer
        simp only [handleRequest, hdata, hanswer, Outcome.returns_bind]
      by_cases hlisted : ∃ method : Method, request.type = (method.traits proto).id
      · obtain ⟨method, htype⟩ := hlisted
        rw [dispatch_of_type proto fault htype] at hhandle
        cases hbody : (method.traits proto).request.parse request.body with
        | none =>
            have hnone : ∀ (other : Method) (args : other.Message),
                ¬ Calls proto data other args := by
              intro other args hcalls
              obtain rfl := method_of_calls hdata htype hcalls
              obtain ⟨same, hsame, -, hargs⟩ := hcalls
              obtain rfl := Option.some.inj (hdata.symm.trans hsame)
              exact absurd (hbody.symm.trans hargs) (by simp)
            exact ⟨_, hhandle _ _ (dispatchOne_of_unreadable fault hbody),
              fulfils_of_uncalled hnone (.unreadable request method hdata htype hbody)⟩
        | some args =>
            have hcalls : Calls proto data method args := ⟨request, hdata, htype, hbody⟩
            obtain ⟨response, hresponse, hanswer⟩ :=
              exists_dispatchOne hcalls hdata htype hbody hexecutable
            exact ⟨_, hhandle _ _ hanswer, fulfils_of_called hcalls hresponse⟩
      · have hunlisted : ∀ method : Method, request.type ≠ (method.traits proto).id :=
          fun method htype => hlisted ⟨method, htype⟩
        have hnone : ∀ (method : Method) (args : method.Message),
            ¬ Calls proto data method args := by
          rintro method args ⟨same, hsame, htype, -⟩
          obtain rfl := Option.some.inj (hdata.symm.trans hsame)
          exact hunlisted method htype
        exact ⟨_, hhandle _ _ (dispatch_of_unlisted proto fault hunlisted),
          fulfils_of_uncalled hnone (.unlisted request hdata hunlisted)⟩

/-- What can be executed is what does not trap the server. -/
theorem executable_iff :
    Executable proto fault data ↔ ∃ answer, handleRequest proto fault data = .returns answer := by
  constructor
  · intro hexecutable
    obtain ⟨answer, hanswer, -⟩ := exists_fulfils hexecutable
    exact ⟨answer, hanswer⟩
  · rintro ⟨answer, hanswer⟩ method args ⟨request, hdata, htype, hbody⟩ hfault
    by_contra hinadmissible
    simp only [handleRequest, hdata, dispatch_of_type proto fault htype,
      dispatchOne_of_not_admissible hbody hfault hinadmissible] at hanswer
    exact absurd hanswer (by simp)

end Fulfil

/-- `1 / 0`. -/
def divByZero : Request :=
  ⟨1, metDiv, operandsLayout.serialize ⟨1, 0⟩⟩

theorem parse_divByZero :
    (Method.div.traits standard).request.parse divByZero.body = some (⟨1, 0⟩ : Operands) :=
  operandsLayout.lawful_codec ⟨1, 0⟩

theorem dispatchedSafely_iff_admissible_divByZero :
    DispatchedSafely standard .div (⟨1, 0⟩ : Operands) divByZero ↔
      Admissible .div (⟨1, 0⟩ : Operands) :=
  dispatchedSafely_iff_admissible standard .div divByZero _ rfl parse_divByZero

/-- The server divides by the zero it received. -/
theorem dispatch_divByZero_undefined :
    dispatch standard none divByZero = .undefined ∧
      ¬ DispatchedSafely standard .div (⟨1, 0⟩ : Operands) divByZero := by
  have htype : divByZero.type = (Method.div.traits standard).id := rfl
  have hundefined : dispatch standard none divByZero = .undefined := by
    rw [dispatch_of_type standard none htype]
    apply dispatchOne_of_not_admissible parse_divByZero (.inl rfl)
    exact fun hadmissible => hadmissible.1 rfl
  refine ⟨hundefined, fun hsafe => ?_⟩
  obtain ⟨answer, hanswer, _⟩ := hsafe none
  exact absurd (hundefined.symm.trans hanswer) (by simp)

end RpcDemo.ServerStub
