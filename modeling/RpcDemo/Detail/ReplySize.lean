import RpcDemo.Detail.Admissible
import RpcDemo.Proto.Size

/-!
# The size of a reply

The length limit is enforced only where frames are read.  Every reply is long
enough for it, since every response has a status that is written; the only
replies that can be too long are those that carry a matrix or the text of an
exception.
-/

namespace RpcDemo.ServerStub

open RpcDemo.Frame
open RpcDemo.Proto
open RpcDemo.Operation

/-- The id of a response, and a status and a method of one byte each. -/
def envelopeSize (id : UInt64) : ℕ :=
  scalarSize id.toNat + 4

/-- The size of a serialized result. -/
def valueSize : (method : Method) → method.Value → ℕ
  | .add, (value : Int32) => scalarSize (ofInt32 value)
  | .div, (value : Int32) => scalarSize (ofInt32 value)
  | .calcMatrix, (value : Rows) => rowsSize (value.map IntList.mk)

/-- The size of what an invocation puts into the response: the exact result, or
the text of the error. -/
def contentSize (method : Method) (args : method.Message) : Option Exn → ℕ
  | none => valueSize method (exactResult method args)
  | some (.stdException what) => (ofText what).length
  | some .other => (ofText "unknown rpc invoke error").length

/-- If the request is invoked, its envelope and its content stay below the
limit. -/
def ReplyFits (proto : Protobuf) (fault : Option Exn) (data : Payload) : Prop :=
  ∀ request, proto.request.parse data = some request →
    ∀ (method : Method) (args : method.Message), request.type = (method.traits proto).id →
      (method.traits proto).request.parse request.body = some args →
        envelopeSize request.id + bytesSize (contentSize method args fault) ≤ maxBodyLength

section Size

variable {proto : Protobuf}

theorem length_serializeMatrix (hstandard : proto.WritesStandard) (value : Rows) :
    ((calcMatrixTraits proto).serializeResult value).length =
      rowsSize (value.map IntList.mk) := by
  have hmake : (calcMatrixTraits proto).makeResponse value = ⟨value.map IntList.mk⟩ :=
    congrArg MatrixResult.mk (fillProtoMatrix_eq value [])
  rw [RpcMethodTraits.serializeResult, hmake, calcMatrixTraits, hstandard.calcMatrixResult,
    length_serialize_matrixResult]

theorem length_serializeResult (hstandard : proto.WritesStandard) (method : Method)
    (value : method.Value) :
    ((method.traits proto).serializeResult value).length = valueSize method value := by
  cases method with
  | add =>
      have hlength := length_serialize_intResult ⟨value⟩
      rw [← hstandard.addResult] at hlength
      exact hlength
  | div =>
      have hlength := length_serialize_intResult ⟨value⟩
      rw [← hstandard.divResult] at hlength
      exact hlength
  | calcMatrix => exact length_serializeMatrix hstandard value

theorem scalarSize_id (method : Method) :
    scalarSize (ofInt32 (method.traits proto).id.number) = 2 := by
  cases method with
  | add => exact (by decide : scalarSize (ofInt32 metAdd.number) = 2)
  | div => exact (by decide : scalarSize (ofInt32 metDiv.number) = 2)
  | calcMatrix => exact (by decide : scalarSize (ofInt32 metCalcMatrix.number) = 2)

theorem length_serializeResponse (hstandard : proto.WritesStandard) (response : Response) :
    (serializeResponse proto response).length =
      scalarSize response.id.toNat + scalarSize (ofInt32 response.status.number) +
        scalarSize (ofInt32 response.type.number) + bytesSize response.body.length +
          bytesSize (ofText response.errorMessage).length := by
  rw [serializeResponse, hstandard.response, length_serialize_response]

theorem length_errorResponse (hstandard : proto.WritesStandard) (id : UInt64)
    (type : MethodType) (status : StatusCode) (message : String) :
    (serializeResponse proto (makeErrorResponse id type status message)).length =
      scalarSize id.toNat + scalarSize (ofInt32 status.number) +
        scalarSize (ofInt32 type.number) + bytesSize (ofText message).length := by
  rw [length_serializeResponse hstandard]
  simp [makeErrorResponse, bytesSize]

/-- An invoked request is answered with exactly its envelope and its content. -/
theorem length_invoked (hstandard : proto.WritesStandard) {method : Method}
    {args : method.Message} {request : Request} {fault : Option Exn}
    {answer : Answer Response} (htype : request.type = (method.traits proto).id)
    (hparse : (method.traits proto).request.parse request.body = some args)
    (hanswer : dispatchOne proto method fault request = .returns answer) :
    (serializeResponse proto answer.reply).length =
      envelopeSize request.id + bytesSize (contentSize method args fault) := by
  have hid : scalarSize (ofInt32 (method.traits proto).id.number) = 2 := scalarSize_id method
  cases fault with
  | none =>
      by_cases hadmissible : Admissible method args
      · rw [dispatchOne_of_admissible hparse hadmissible] at hanswer
        obtain rfl := Outcome.returns.inj hanswer
        have hstatus : scalarSize (ofInt32 statusOk.number) = 2 := by decide
        have htext : bytesSize (ofText "").length = 0 := by decide
        rw [length_serializeResponse hstandard, length_serializeResult hstandard, hid,
          hstatus, htext]
        rfl
      · rw [dispatchOne_of_not_admissible hparse (.inl rfl) hadmissible] at hanswer
        exact absurd hanswer (by simp)
  | some exn =>
      by_cases hinterruptible : Interruptible method args
      · cases exn with
        | stdException what =>
            rw [dispatchOne_of_stdException what hparse hinterruptible] at hanswer
            obtain rfl := Outcome.returns.inj hanswer
            have hstatus : scalarSize (ofInt32 statusInvokeError.number) = 2 := by decide
            rw [length_errorResponse hstandard, htype, hid, hstatus]
            rfl
        | other =>
            rw [dispatchOne_of_other hparse hinterruptible] at hanswer
            obtain rfl := Outcome.returns.inj hanswer
            have hstatus : scalarSize (ofInt32 statusInternalError.number) = 2 := by decide
            rw [length_errorResponse hstandard, htype, hid, hstatus]
            rfl
      · obtain ⟨hallocates, hinadmissible⟩ := not_or.mp hinterruptible
        rw [dispatchOne_of_not_admissible hparse (.inr (Bool.not_eq_true _ ▸ hallocates))
          hinadmissible] at hanswer
        exact absurd hanswer (by simp)

/-- An error response with one of the stub's own texts is short. -/
theorem reasonableLength_errorResponse (hstandard : proto.WritesStandard) (id : UInt64)
    (type : MethodType) (status : StatusCode) (message : String)
    (hstatus : scalarSize (ofInt32 status.number) = 2)
    (hmessage : bytesSize (ofText message).length ≤ 50) :
    reasonableLength
      (serializeResponse proto (makeErrorResponse id type status message)).length := by
  have hid : scalarSize id.toNat ≤ 11 := scalarSize_le id.toNat_lt
  have htype : scalarSize (ofInt32 type.number) ≤ 11 := scalarSize_le (ofInt32_lt type.number)
  rw [length_errorResponse hstandard, hstatus]
  simp only [reasonableLength, maxBodyLength]
  omega

/-- What a response that is not invoked looks like. -/
theorem dispatch_not_invoked {request : Request} {fault : Option Exn}
    {answer : Answer Response} (hanswer : dispatch proto fault request = .returns answer)
    (hnot : ∀ (method : Method) (args : method.Message),
      request.type = (method.traits proto).id →
        (method.traits proto).request.parse request.body ≠ some args) :
    answer.reply = makeErrorResponse request.id request.type statusMethodNotFound
        "rpc method not found" ∨
      answer.reply = makeErrorResponse request.id request.type statusParseError
        "failed to parse rpc request body" := by
  by_cases hlisted : ∃ method : Method, request.type = (method.traits proto).id
  · obtain ⟨method, htype⟩ := hlisted
    have hparse : (method.traits proto).request.parse request.body = none := by
      cases hresult : (method.traits proto).request.parse request.body with
      | none => rfl
      | some args => exact absurd hresult (hnot method args htype)
    rw [dispatch_of_type proto fault htype] at hanswer
    rw [dispatchOne_of_unreadable fault hparse] at hanswer
    exact Or.inr (Outcome.returns.inj hanswer ▸ rfl)
  · rw [dispatch_of_unlisted proto fault fun method htype => hlisted ⟨method, htype⟩] at hanswer
    exact Or.inl (Outcome.returns.inj hanswer ▸ rfl)

theorem reasonableLength_not_invoked (hstandard : proto.WritesStandard) {request : Request}
    {fault : Option Exn} {answer : Answer Response}
    (hanswer : dispatch proto fault request = .returns answer)
    (hnot : ∀ (method : Method) (args : method.Message),
      request.type = (method.traits proto).id →
        (method.traits proto).request.parse request.body ≠ some args) :
    reasonableLength (serializeResponse proto answer.reply).length := by
  rcases dispatch_not_invoked hanswer hnot with hreply | hreply
  · rw [hreply]
    exact reasonableLength_errorResponse hstandard _ _ _ _ (by decide) (by decide)
  · rw [hreply]
    exact reasonableLength_errorResponse hstandard _ _ _ _ (by decide) (by decide)

/-- Whatever the request and its outcome, a reply has an admissible length
exactly when the request fits. -/
theorem reasonableLength_reply_iff (hstandard : proto.WritesStandard) (fault : Option Exn)
    (data : Payload) (answer : Answer Payload)
    (hanswer : handleRequest proto fault data = .returns answer) :
    reasonableLength answer.reply.length ↔ ReplyFits proto fault data := by
  unfold handleRequest at hanswer
  split at hanswer
  case h_1 hnone =>
    obtain rfl := Outcome.returns.inj hanswer
    constructor
    · intro _ request hrequest
      exact absurd (hnone.symm.trans hrequest) (by simp)
    · intro _
      exact reasonableLength_errorResponse hstandard _ _ _ _ (by decide) (by decide)
  case h_2 request hrequest =>
    cases hdispatch : dispatch proto fault request with
    | throws exn => exact absurd (hdispatch ▸ hanswer) (by simp [Outcome.bind])
    | undefined => exact absurd (hdispatch ▸ hanswer) (by simp)
    | returns response =>
        rw [hdispatch] at hanswer
        obtain rfl := Outcome.returns.inj hanswer
        constructor
        · intro hreasonable other hother method args htype hparse
          obtain rfl := Option.some.inj (hrequest.symm.trans hother)
          rw [dispatch_of_type proto fault htype] at hdispatch
          rw [← length_invoked hstandard htype hparse hdispatch]
          exact hreasonable.2
        · intro hfits
          by_cases hinvoked : ∃ (method : Method) (args : method.Message),
              request.type = (method.traits proto).id ∧
                (method.traits proto).request.parse request.body = some args
          · obtain ⟨method, args, htype, hparse⟩ := hinvoked
            have hbound := hfits request hrequest method args htype hparse
            rw [dispatch_of_type proto fault htype] at hdispatch
            rw [← length_invoked hstandard htype hparse hdispatch] at hbound
            refine ⟨?_, hbound⟩
            simp only [length_invoked hstandard htype hparse hdispatch, envelopeSize]
            omega
          · apply reasonableLength_not_invoked hstandard hdispatch
            intro method args htype hparse
            exact hinvoked ⟨method, args, htype, hparse⟩

theorem bytesSize_le_of_le {length bound : ℕ} (hlength : length ≤ bound) (hbound : bound < 128) :
    bytesSize length ≤ 2 + bound := by
  have hsize : Wire.varintSize length ≤ 1 := varintSize_le (by norm_num) (by omega)
  unfold bytesSize
  split <;> omega

/-- Without an exception only the matrix of a `calc_matrix` reply can be too
large. -/
theorem replyFits_none_iff (data : Payload) :
    ReplyFits proto none data ↔
      ∀ request, proto.request.parse data = some request → request.type = metCalcMatrix →
        ∀ args, proto.calcMatrix.parse request.body = some args →
          envelopeSize request.id + bytesSize (rowsSize
            ((resultAt (readProtoMatrix args.left) (readProtoMatrix args.right)
              args.times.toInt32.toInt.toNat).map IntList.mk)) ≤ maxBodyLength := by
  constructor
  · intro hfits request hrequest htype args hparse
    exact hfits request hrequest .calcMatrix args htype hparse
  · intro hmatrix request hrequest method args htype hparse
    have henvelope : envelopeSize request.id ≤ 15 := by
      have hid : scalarSize request.id.toNat ≤ 11 := scalarSize_le request.id.toNat_lt
      rw [envelopeSize]
      omega
    have hint : ∀ value : Int32, bytesSize (scalarSize (ofInt32 value)) ≤ 13 := fun value =>
      bytesSize_le_of_le (scalarSize_le (ofInt32_lt value)) (by norm_num)
    cases method with
    | calcMatrix => exact hmatrix request hrequest htype args hparse
    | add =>
        have hcontent : bytesSize (contentSize .add args none) ≤ 13 := hint _
        simp only [maxBodyLength]
        omega
    | div =>
        have hcontent : bytesSize (contentSize .div args none) ≤ 13 := hint _
        simp only [maxBodyLength]
        omega

end Size

/-! ## A request that fits and a reply that does not -/

/-- A matrix of `count` empty rows, to be returned as it is. -/
def emptyRows (count : ℕ) : CalcMatrix :=
  ⟨List.replicate count ⟨[]⟩, [], 0⟩

def emptyRowsRequest (count : ℕ) : Request :=
  ⟨0, metCalcMatrix, calcMatrixLayout.serialize (emptyRows count)⟩

def emptyRowsPayload (count : ℕ) : Payload :=
  requestLayout.serialize (emptyRowsRequest count)

theorem rowsSize_replicate_empty (count : ℕ) :
    rowsSize (List.replicate count ⟨[]⟩) = 2 * count := by
  have hrow : 1 + Wire.varintSize (rowSize ⟨[]⟩) + rowSize ⟨[]⟩ = 2 := by decide
  calc
    rowsSize (List.replicate count ⟨[]⟩) =
        count * (1 + Wire.varintSize (rowSize ⟨[]⟩) + rowSize ⟨[]⟩) := by
      rw [rowsSize, List.map_replicate, List.sum_replicate, smul_eq_mul]
    _ = 2 * count := by rw [hrow, Nat.mul_comm]

theorem length_emptyRowsPayload (count : ℕ) :
    (emptyRowsPayload count).length = 2 + bytesSize (2 * count) := by
  have hbody : (calcMatrixLayout.serialize (emptyRows count)).length = 2 * count := by
    rw [length_serialize_calcMatrix, emptyRows, rowsSize_replicate_empty]
    simp [rowsSize, scalarSize]
  have htype : scalarSize (ofInt32 metCalcMatrix.number) = 2 := by decide
  rw [emptyRowsPayload, length_serialize_request, emptyRowsRequest, hbody, htype]
  simp [scalarSize]

/-- The request is answered with the matrix it brought, in a larger envelope. -/
theorem exists_answer_emptyRows (count : ℕ) :
    ∃ answer, handleRequest standard none (emptyRowsPayload count) = .returns answer ∧
      answer.reply.length = 4 + bytesSize (2 * count) := by
  have hrequest : standard.request.parse (emptyRowsPayload count) =
      some (emptyRowsRequest count) :=
    requestLayout.lawful_codec (emptyRowsRequest count)
  have htype : (emptyRowsRequest count).type = (Method.calcMatrix.traits standard).id := rfl
  have hparse : (Method.calcMatrix.traits standard).request.parse
      (emptyRowsRequest count).body = some (emptyRows count) :=
    calcMatrixLayout.lawful_codec (emptyRows count)
  have hadmissible : Admissible .calcMatrix (emptyRows count) :=
    fun hpositive => absurd hpositive (show ¬ 0 < (0 : UInt32).toInt32.toInt.toNat by decide)
  have hanswer := dispatchOne_of_admissible hparse hadmissible
  have hlength := length_invoked writesStandard_standard htype hparse hanswer
  have hcontent : contentSize .calcMatrix (emptyRows count) none = 2 * count := by
    rw [← rowsSize_replicate_empty count]
    change rowsSize ((readProtoMatrix (List.replicate count ⟨[]⟩)).map IntList.mk) = _
    rw [readProtoMatrix_eq, List.map_map]
    simp [Function.comp_def]
  have henvelope : envelopeSize (emptyRowsRequest count).id = 4 := rfl
  rw [hcontent, henvelope] at hlength
  rw [handleRequest, hrequest]
  simp only [dispatch_of_type standard none htype, hanswer, Outcome.returns_bind]
  exact ⟨_, rfl, hlength⟩

/-- `[[1, 2], [3, 4]] * [[1, 1], [1, 0]] ^ 3`. -/
def cubeArgs : CalcMatrix :=
  ⟨[⟨[1, 2]⟩, ⟨[3, 4]⟩], [⟨[1, 1]⟩, ⟨[1, 0]⟩], 3⟩

def cubeRequest : Request :=
  ⟨1, metCalcMatrix, calcMatrixLayout.serialize cubeArgs⟩

theorem admissible_cubeArgs : Admissible .calcMatrix cubeArgs := by
  intro _
  refine ⟨?_, ?_, ?_⟩
  · unfold CoversSquare
    decide
  · unfold CoversSquare
    decide
  · unfold ProductFits
    decide

theorem parse_cubeRequest :
    standard.request.parse (requestLayout.serialize cubeRequest) = some cubeRequest :=
  requestLayout.lawful_codec cubeRequest

theorem parse_cubeArgs : standard.calcMatrix.parse cubeRequest.body = some cubeArgs :=
  calcMatrixLayout.lawful_codec cubeArgs

/-- The two by two result has a reply of admissible length. -/
theorem reasonableLength_reply_iff_cube :
    ∃ answer, handleRequest standard none (requestLayout.serialize cubeRequest) =
        .returns answer ∧
      reasonableLength answer.reply.length := by
  have hexecutable : Executable standard none (requestLayout.serialize cubeRequest) := by
    rintro method args ⟨request, hrequest, htype, hbody⟩ -
    obtain rfl := Option.some.inj (parse_cubeRequest.symm.trans hrequest)
    obtain rfl : Method.calcMatrix = method := id_inj htype
    obtain rfl := Option.some.inj (parse_cubeArgs.symm.trans hbody)
    exact admissible_cubeArgs
  obtain ⟨answer, hanswer⟩ := executable_iff.mp hexecutable
  refine ⟨answer, hanswer, ?_⟩
  apply (reasonableLength_reply_iff writesStandard_standard none _ answer hanswer).mpr
  rw [replyFits_none_iff]
  intro request hrequest _ args hparse
  obtain rfl := Option.some.inj (parse_cubeRequest.symm.trans hrequest)
  obtain rfl := Option.some.inj (parse_cubeArgs.symm.trans hparse)
  decide

/-- A request of 10485759 bytes is admissible, and its reply is not. -/
theorem reply_too_long :
    reasonableLength (emptyRowsPayload 5242876).length ∧
      ∃ answer, handleRequest standard none (emptyRowsPayload 5242876) = .returns answer ∧
        ¬ reasonableLength answer.reply.length := by
  have hsize : bytesSize (2 * 5242876) = 10485757 := by decide
  obtain ⟨answer, hanswer, hlength⟩ := exists_answer_emptyRows 5242876
  rw [hsize] at hlength
  refine ⟨?_, answer, hanswer, ?_⟩
  · rw [length_emptyRowsPayload, hsize]
    decide
  · rw [hlength]
    decide

end RpcDemo.ServerStub
