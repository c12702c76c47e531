import RpcDemo.Detail.ClientStub
import RpcDemo.Detail.ServerStub
import RpcDemo.Proto.Encoding

/-!
# A call never returns another call's answer

The slot of a client can be overwritten and cleared by anyone at any time.
What a call copies from it is still some delivered message, and the checks of
the call accept that message only as a response to its own request, since no
other request has its id.
-/

namespace RpcDemo

open RpcDemo.Frame
open RpcDemo.Proto
open RpcDemo.Operation

/-! ## The answer to one's own request -/

namespace ClientStub

open RpcDemo.ServerStub

/-- What a caller sees of the outcome of its method on the server. -/
def seenByCaller {Value : Type} : Outcome Value → Outcome Value
  | .returns value => .returns value
  | .throws (.stdException what) =>
      .throws (.stdException (if what = "" then "rpc request failed" else what))
  | .throws .other => .throws (.stdException "unknown rpc invoke error")
  | .undefined => .undefined

variable {proto : Protobuf} {call : CallState} {fault : Option Exn}
  {answer : Answer Response}

/-- The server invokes the method of a request once, on the arguments of the
call. -/
theorem dispatch_request (hlawful : proto.Lawful) :
    dispatch proto fault (call.request proto) =
      match attempt call.method fault (call.method.impl call.args) with
      | .returns result =>
          .returns ⟨{
            id := call.id
            status := statusOk
            type := (call.method.traits proto).id
            body := (call.method.traits proto).serializeResult result
            errorMessage := "" }, [call.method]⟩
      | .throws (.stdException what) =>
          .returns ⟨makeErrorResponse call.id (call.method.traits proto).id
            statusInvokeError what, [call.method]⟩
      | .throws .other =>
          .returns ⟨makeErrorResponse call.id (call.method.traits proto).id
            statusInternalError "unknown rpc invoke error", [call.method]⟩
      | .undefined => .undefined := by
  have htype : (call.request proto).type = (call.method.traits proto).id := rfl
  have hparse : (call.method.traits proto).request.parse (call.request proto).body =
      some ((call.method.traits proto).makeRequest call.args) :=
    Method.lawful_request hlawful call.method _
  rw [dispatch_of_type proto fault htype]
  simp only [dispatchOne, hparse, Method.invoke_makeRequest]
  cases attempt call.method fault (call.method.impl call.args) with
  | returns result => rfl
  | throws exn => cases exn <;> rfl
  | undefined => rfl

theorem invoked_of_dispatch (hlawful : proto.Lawful)
    (hanswer : dispatch proto fault (call.request proto) = .returns answer) :
    answer.invoked = [call.method] := by
  rw [dispatch_request hlawful] at hanswer
  split at hanswer
  case h_1 => exact Outcome.returns.inj hanswer ▸ rfl
  case h_2 => exact Outcome.returns.inj hanswer ▸ rfl
  case h_3 => exact Outcome.returns.inj hanswer ▸ rfl
  case h_4 => exact absurd hanswer (by simp)

/-- The checks of a call accept the answer to its own request. -/
theorem checkResponse_of_dispatch (hlawful : proto.Lawful) {data : Payload}
    (hanswer : dispatch proto fault (call.request proto) = .returns answer)
    (hdata : proto.response.parse data = some answer.reply) :
    checkResponse proto call.method call.id data =
      seenByCaller (attempt call.method fault (call.method.impl call.args)) := by
  rw [dispatch_request hlawful] at hanswer
  have hinvoke : statusInvokeError ≠ statusOk := by decide
  have hinternal : statusInternalError ≠ statusOk := by decide
  split at hanswer
  case h_1 result hresult =>
    obtain rfl := Outcome.returns.inj hanswer
    have hparse := Method.parseResult_serializeResult hlawful call.method result
    simp [checkResponse, hdata, hresult, seenByCaller, RpcMethodTraits.parseResponse, hparse]
  case h_2 what hresult =>
    obtain rfl := Outcome.returns.inj hanswer
    simp [checkResponse, hdata, hresult, seenByCaller, makeErrorResponse, hinvoke]
  case h_3 hresult =>
    obtain rfl := Outcome.returns.inj hanswer
    simp [checkResponse, hdata, hresult, seenByCaller, makeErrorResponse, hinternal]
  case h_4 => exact absurd hanswer (by simp)

/-- The reply to a call whose method returned. -/
def okPayload (proto : Protobuf) (method : Method) (requestId : UInt64)
    (value : method.Value) : Payload :=
  proto.response.serialize ⟨requestId, statusOk, (method.traits proto).id,
    (method.traits proto).serializeResult value, ""⟩

theorem okReply_okPayload (hlawful : proto.Lawful) (method : Method) (requestId : UInt64)
    (value : method.Value) :
    OkReply proto method requestId (okPayload proto method requestId value) value :=
  ⟨_, hlawful.response _, rfl, rfl, rfl, Method.parseResult_serializeResult hlawful method value⟩

theorem checkResponse_okPayload_of_ne (hlawful : proto.Lawful) (method other : Method)
    {requestId otherId : UInt64} (hid : otherId ≠ requestId) (value : other.Value) :
    checkResponse proto method requestId (okPayload proto other otherId value) =
      .throws (.stdException "rpc response id does not match request id") := by
  have hparse := hlawful.response ⟨otherId, statusOk, (other.traits proto).id,
    (other.traits proto).serializeResult value, ""⟩
  simp only [checkResponse, okPayload, hparse]
  rw [if_pos hid]

theorem impl_of_seenByCaller {method : Method} {args : method.Args} {value : method.Value}
    (hseen : seenByCaller (attempt method fault (method.impl args)) = .returns value) :
    method.impl args = .returns value := by
  have hthrown : ∀ exn, seenByCaller (.throws exn : Outcome method.Value) ≠ .returns value := by
    intro exn
    cases exn <;> simp [seenByCaller]
  cases fault with
  | some exn =>
      simp only [attempt] at hseen
      split at hseen
      · exact absurd hseen (hthrown exn)
      · cases himpl : method.impl args with
        | returns result =>
            rw [himpl] at hseen
            exact absurd hseen (hthrown exn)
        | throws raised =>
            rw [himpl] at hseen
            exact absurd hseen (hthrown raised)
        | undefined =>
            rw [himpl] at hseen
            exact absurd hseen (by simp [seenByCaller])
  | none =>
      simp only [attempt] at hseen
      cases himpl : method.impl args with
      | returns result => simpa [himpl, seenByCaller] using hseen
      | throws exn => exact absurd (himpl ▸ hseen) (hthrown exn)
      | undefined => exact absurd hseen (by simp [himpl, seenByCaller])

end ClientStub

/-! ## What every run keeps -/

namespace CallState

/-- Nothing is timely before the write, and what is timely to a call that has
not copied a response was heard by it. -/
def WellTimed (call : CallState) : Prop :=
  match call.phase with
  | .numbered => call.timer = .off ∧ call.heard = [] ∧ call.timely = []
  | .checked => call.timer = .off ∧ call.heard = [] ∧ call.timely = []
  | .cleared => call.timer = .off ∧ call.timely = []
  | .waiting => call.timer ≠ .off ∧ call.timely ⊆ call.heard
  | .returned none => call.timer ≠ .running ∧ call.timely ⊆ call.heard
  | .returned (some _) => True

theorem wellTimed_begin (id : UInt64) (method : Method) (args : method.Args) :
    (begin id method args).WellTimed :=
  ⟨rfl, rfl, rfl⟩

theorem wellTimed_turned {slot : Slot} {delivered : ℕ} {call moved : CallState}
    {turn : Turn} (hcall : call.WellTimed) (hturned : call.Turned slot delivered turn moved) :
    moved.WellTimed := by
  cases hturned with
  | pass hphase => simpa [WellTimed, hphase] using hcall
  | refuse hphase =>
      simp only [WellTimed, hphase] at hcall
      simp [WellTimed, hcall.1, hcall.2.2]
  | clear hphase =>
      simp only [WellTimed, hphase] at hcall
      exact ⟨hcall.1, hcall.2.2⟩
  | write hphase =>
      simp only [WellTimed, hphase] at hcall
      simp [WellTimed, hcall.2]
  | wake hphase hreceived => trivial
  | expire htimer =>
      unfold WellTimed at hcall ⊢
      split at hcall <;> simp_all
  | giveUp hphase htimer hreceived =>
      simp only [WellTimed, hphase] at hcall
      simp [WellTimed, htimer, hcall.2]

theorem wellTimed_hear {call : CallState} (hcall : call.WellTimed) (data : Payload) :
    (call.hear data).WellTimed := by
  unfold WellTimed at hcall ⊢
  simp only [hear]
  split at hcall
  case h_1 hphase => simp_all [InSlot]
  case h_2 hphase => simp_all [InSlot]
  case h_3 hphase => simp_all
  case h_4 hphase =>
    have hin : call.InSlot := .inr hphase
    simp only [hin, if_true]
    refine ⟨hcall.1, ?_⟩
    split
    · exact List.append_subset.mpr
        ⟨fun _ hmem => List.mem_append_left _ (hcall.2 hmem), List.subset_append_right _ _⟩
    · exact fun _ hmem => List.mem_append_left _ (hcall.2 hmem)
  case h_5 hphase => simp_all [InSlot]
  case h_6 => simp

/-- The messages a call has kept were delivered to the client. -/
structure Recorded (delivered : List Payload) (call : CallState) : Prop where
  copied : ∀ data, call.phase = .returned (some data) → data ∈ delivered
  timely : call.timely ⊆ delivered

theorem recorded_turned {slot : Slot} {delivered : List Payload} {call moved : CallState}
    {turn : Turn} (hcall : call.Recorded delivered)
    (hslot : slot.responseReceived = true → slot.responseBuffer ∈ delivered)
    (hturned : call.Turned slot delivered.length turn moved) : moved.Recorded delivered := by
  cases hturned with
  | pass hphase => exact ⟨by simp, hcall.timely⟩
  | refuse hphase => exact ⟨by simp, hcall.timely⟩
  | clear hphase => exact ⟨by simp, hcall.timely⟩
  | write hphase => exact ⟨by simp, hcall.timely⟩
  | wake hphase hreceived =>
      refine ⟨?_, hcall.timely⟩
      intro data hdata
      obtain rfl : slot.responseBuffer = data := by simpa using hdata
      exact hslot hreceived
  | expire htimer => exact ⟨hcall.copied, hcall.timely⟩
  | giveUp hphase htimer hreceived => exact ⟨by simp, hcall.timely⟩

theorem recorded_hear {delivered : List Payload} {call : CallState}
    (hcall : call.Recorded delivered) (data : Payload) :
    (call.hear data).Recorded (delivered ++ [data]) where
  copied other hother := List.mem_append_left _ (hcall.copied other hother)
  timely := by
    intro other hmem
    simp only [hear] at hmem
    split at hmem
    · rcases List.mem_append.mp hmem with hmem | hmem
      · exact List.mem_append_left _ (hcall.timely hmem)
      · exact List.mem_append_right _ hmem
    · exact List.mem_append_left _ (hcall.timely hmem)

end CallState

namespace Client

/-- The ids are handed out in order, and the slot and the calls hold delivered
messages only. -/
structure Inv (client : Client) : Prop where
  next : client.nextRequestId = UInt64.ofNat (client.calls.length + 1)
  slot : client.slot.responseReceived = true →
    client.slot.responseBuffer ∈ client.delivered
  ids : ∀ (index : ℕ) (call : CallState), client.calls[index]? = some call →
    call.id = UInt64.ofNat (index + 1)
  timed : ∀ (index : ℕ) (call : CallState), client.calls[index]? = some call →
    call.WellTimed
  recorded : ∀ (index : ℕ) (call : CallState), client.calls[index]? = some call →
    call.Recorded client.delivered

theorem inv_start : Inv start where
  next := rfl
  slot hreceived := absurd hreceived (by simp [start])
  ids := by simp [start]
  timed := by simp [start]
  recorded := by simp [start]

theorem ids_step {client next : Client} {event : Event} (hinv : client.Inv)
    (hstep : client.step event = some next) {index : ℕ} {moved : CallState}
    (hmoved : next.calls[index]? = some moved) : moved.id = UInt64.ofNat (index + 1) := by
  cases became_of_step hstep hmoved with
  | begun method args hindex => rw [hindex]; exact hinv.next
  | heard data call hcall => exact hinv.ids index call hcall
  | turned turn call moved hcall hturned =>
      rw [hturned.id_eq]
      exact hinv.ids index call hcall
  | kept _ _ hcall => exact hinv.ids index _ hcall

theorem timed_step {client next : Client} {event : Event} (hinv : client.Inv)
    (hstep : client.step event = some next) {index : ℕ} {moved : CallState}
    (hmoved : next.calls[index]? = some moved) : moved.WellTimed := by
  cases became_of_step hstep hmoved with
  | begun method args hindex => exact CallState.wellTimed_begin _ method args
  | heard data call hcall => exact CallState.wellTimed_hear (hinv.timed index call hcall) data
  | turned turn call moved hcall hturned =>
      exact CallState.wellTimed_turned (hinv.timed index call hcall) hturned
  | kept _ _ hcall => exact hinv.timed index _ hcall

theorem delivered_step {client next : Client} {event : Event}
    (hstep : client.step event = some next) :
    next.delivered = client.delivered ++
      (match event with
        | .deliver data => [data]
        | _ => []) := by
  cases stepped_of_step hstep with
  | call method args => exact (List.append_nil _).symm
  | turn index turn call moved hcall hturned => exact (List.append_nil _).symm
  | deliver data => rfl

theorem recorded_step {client next : Client} {event : Event} (hinv : client.Inv)
    (hstep : client.step event = some next) {index : ℕ} {moved : CallState}
    (hmoved : next.calls[index]? = some moved) : moved.Recorded next.delivered := by
  have hgrown := delivered_step hstep
  cases became_of_step hstep hmoved with
  | begun method args hindex =>
      exact ⟨by simp [CallState.begin], by simp [CallState.begin]⟩
  | heard data call hcall =>
      rw [hgrown]
      exact CallState.recorded_hear (hinv.recorded index call hcall) data
  | turned turn call moved hcall hturned =>
      rw [hgrown, List.append_nil]
      exact CallState.recorded_turned (hinv.recorded index call hcall) hinv.slot hturned
  | kept _ _ hcall _ hdeliver =>
      have hsame : next.delivered = client.delivered := by
        cases event with
        | deliver data => exact absurd rfl (hdeliver data)
        | _ => simpa using hgrown
      rw [hsame]
      exact hinv.recorded index _ hcall

theorem inv_step {client next : Client} {event : Event} (hinv : client.Inv)
    (hstep : client.step event = some next) : next.Inv where
  next := by
    cases stepped_of_step hstep with
    | call method args =>
        simp only [Client.call, hinv.next, List.length_append, List.length_singleton]
        exact (UInt64.ofNat_add _ 1).symm
    | turn index turn call moved hcall hturned =>
        simpa [advance] using hinv.next
    | deliver data => simpa [onMessage] using hinv.next
  slot := by
    cases stepped_of_step hstep with
    | call method args => exact hinv.slot
    | turn index turn call moved hcall hturned =>
        simp only [advance]
        split
        · simp
        · exact hinv.slot
    | deliver data => simp [onMessage]
  ids _ _ hcall := ids_step hinv hstep hcall
  timed _ _ hcall := timed_step hinv hstep hcall
  recorded _ _ hcall := recorded_step hinv hstep hcall

theorem inv_run {client : Client} {events : List Event}
    (hrun : Transition.run step start events = some client) : client.Inv :=
  Transition.run_invariant (fun _ _ _ hinv hstep => inv_step hinv hstep) inv_start hrun

/-- Below `2 ^ 64` calls the ids are distinct. -/
theorem Inv.index_of_id {client : Client} (hinv : client.Inv)
    (hcalls : client.calls.length < 2 ^ 64) {index other : ℕ} {call otherCall : CallState}
    (hcall : client.calls[index]? = some call)
    (hother : client.calls[other]? = some otherCall) (hid : otherCall.id = call.id) :
    other = index := by
  have hlt := (List.getElem?_eq_some_iff.mp hcall).1
  have hotherLt := (List.getElem?_eq_some_iff.mp hother).1
  rw [hinv.ids index call hcall, hinv.ids other otherCall hother] at hid
  have hnat := congrArg UInt64.toNat hid
  rw [UInt64.toNat_ofNat', UInt64.toNat_ofNat', Nat.mod_eq_of_lt (by omega),
    Nat.mod_eq_of_lt (by omega)] at hnat
  omega

/-- A call returns only what it copied from the slot. -/
theorem Inv.okReply_of_result {client : Client} {proto : Protobuf} (hinv : client.Inv)
    {index : ℕ} {call : CallState} (hcall : client.calls[index]? = some call)
    {value : call.method.Value} (hresult : call.result proto = some (.returns value)) :
    ∃ data ∈ client.delivered,
      ClientStub.OkReply proto call.method call.id data value := by
  unfold CallState.result at hresult
  split at hresult
  case h_1 response hphase =>
    obtain ⟨data, rfl, hreply⟩ :=
      ClientStub.finish_eq_returns.mp (Option.some.inj hresult)
    exact ⟨data, (hinv.recorded index call hcall).copied data hphase, hreply⟩
  case h_2 => exact absurd hresult (by simp)

/-- Whoever sends the messages answers a request with nothing but its dispatch. -/
def AnsweredByDispatch (proto : Protobuf) (client : Client) : Prop :=
  ∀ data ∈ client.delivered, ∀ response, proto.response.parse data = some response →
    ∀ call ∈ client.calls, response.id = call.id →
      ∃ fault answer, ServerStub.dispatch proto fault (call.request proto) =
        .returns answer ∧ answer.reply = response

/-- In every run, a call that returns a value has it from a delivered response
to its own request; if requests are answered by dispatching them, the value is
that of its own method on its own arguments. -/
theorem returns_own_answer (proto : Protobuf) {client : Client} {events : List Event}
    (hrun : Transition.run step start events = some client)
    (hcalls : client.calls.length < 2 ^ 64) {index : ℕ} {call : CallState}
    (hcall : client.calls[index]? = some call) {value : call.method.Value}
    (hresult : call.result proto = some (.returns value)) :
    (∀ other otherCall, client.calls[other]? = some otherCall →
      otherCall.id = call.id → other = index) ∧
    (∃ data ∈ client.delivered,
      ClientStub.OkReply proto call.method call.id data value) ∧
    (proto.Lawful → client.AnsweredByDispatch proto →
      call.method.impl call.args = .returns value) := by
  have hinv := inv_run hrun
  obtain ⟨data, hdata, hreply⟩ := hinv.okReply_of_result hcall hresult
  refine ⟨?_, ⟨data, hdata, hreply⟩, ?_⟩
  · intro other otherCall hother hid
    exact hinv.index_of_id hcalls hcall hother hid
  · intro hlawful hanswered
    have hcheck := ClientStub.checkResponse_eq_returns.mpr hreply
    obtain ⟨response, hparse, hid, _⟩ := hreply
    obtain ⟨fault, answer, hanswer, rfl⟩ :=
      hanswered data hdata response hparse call (List.mem_of_getElem? hcall) hid
    rw [ClientStub.checkResponse_of_dispatch hlawful hanswer hparse] at hcheck
    exact ClientStub.impl_of_seenByCaller hcheck

/-- `add(1, 1)` is answered after it has given up; `add(2, 3)` is waiting then, and its
own reply comes before it wakes. -/
def overtakenEvents : List Event :=
  [.call .add ((1, 1) : Int32 × Int32), .turn 0 (.check true), .turn 0 .clear, .turn 0 .write,
    .turn 0 .expire, .turn 0 .giveUp, .call .add ((2, 3) : Int32 × Int32),
    .turn 1 (.check true), .turn 1 .clear, .turn 1 .write,
    .deliver (ClientStub.okPayload standard .add 1 (2 : Int32)),
    .deliver (ClientStub.okPayload standard .add 2 (5 : Int32)), .turn 1 .wake]

def abandonedCall : CallState :=
  { CallState.begin 1 .add ((1, 1) : Int32 × Int32) with
    phase := .returned none
    timer := .expired }

def overtakenCall : CallState :=
  { CallState.begin 2 .add ((2, 3) : Int32 × Int32) with
    phase := .returned (some (ClientStub.okPayload standard .add 2 (5 : Int32)))
    timer := .running
    heard := [ClientStub.okPayload standard .add 1 (2 : Int32),
      ClientStub.okPayload standard .add 2 (5 : Int32)]
    timely := [ClientStub.okPayload standard .add 1 (2 : Int32),
      ClientStub.okPayload standard .add 2 (5 : Int32)] }

def overtakenClient : Client where
  nextRequestId := 3
  slot := ⟨ClientStub.okPayload standard .add 2 (5 : Int32), true⟩
  calls := [abandonedCall, overtakenCall]
  written := [0, 1]
  delivered := [ClientStub.okPayload standard .add 1 (2 : Int32),
    ClientStub.okPayload standard .add 2 (5 : Int32)]

theorem run_overtakenEvents :
    Transition.run step start overtakenEvents = some overtakenClient := by
  decide

theorem result_overtakenCall :
    overtakenCall.result standard = some (.returns (5 : Int32)) := by
  have hreply := ClientStub.okReply_okPayload lawful_standard .add 2 (5 : Int32)
  exact congrArg some (ClientStub.finish_eq_returns.mpr ⟨_, rfl, hreply⟩)

theorem answered_overtakenClient : overtakenClient.AnsweredByDispatch standard := by
  have hdispatched : ∀ {method : Method} {id : UInt64} {value : method.Value} {response : Response},
      standard.response.parse (ClientStub.okPayload standard method id value) = some response →
        response = ⟨id, statusOk, (method.traits standard).id,
          (method.traits standard).serializeResult value, ""⟩ :=
    fun hparse => Option.some.inj (hparse.symm.trans (lawful_standard.response _))
  intro data hdata response hparse call hcall hid
  rcases List.mem_pair.mp hdata with rfl | rfl
  · obtain rfl := hdispatched hparse
    rcases List.mem_pair.mp hcall with rfl | rfl
    · exact ⟨none, _, ClientStub.dispatch_request lawful_standard, rfl⟩
    · exact absurd hid (by decide)
  · obtain rfl := hdispatched hparse
    rcases List.mem_pair.mp hcall with rfl | rfl
    · exact absurd hid (by decide)
    · exact ⟨none, _, ClientStub.dispatch_request lawful_standard, rfl⟩

theorem returns_own_answer_overtaken :
    (∃ data ∈ overtakenClient.delivered,
      ClientStub.OkReply standard .add 2 data (5 : Int32)) ∧
    Method.add.impl ((2, 3) : Int32 × Int32) = .returns (5 : Int32) := by
  have hcall : overtakenClient.calls[1]? = some overtakenCall := rfl
  have hown := returns_own_answer standard run_overtakenEvents (by decide) hcall
    result_overtakenCall
  exact ⟨hown.2.1, hown.2.2 lawful_standard answered_overtakenClient⟩

end Client

end RpcDemo
