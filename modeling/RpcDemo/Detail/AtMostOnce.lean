import RpcDemo.Detail.SerialCalls

/-!
# A request is executed at most once

Calls may overlap, give up and lose their replies to each other, and the
connection may fail or be closed at any time.  Still the server executes no
request twice and no other request than those written, and a call that returns a
value had its method executed, once, on its own arguments.
-/

namespace RpcDemo

open RpcDemo.Frame
open RpcDemo.Proto
open RpcDemo.ServerStub
open Transition

namespace Remote

variable {proto : Protobuf} {remote : Remote} {index : ℕ}

theorem length_calls_step {next : Remote} {event : Event}
    (hstep : step proto remote event = some next) :
    remote.client.calls.length ≤ next.client.calls.length := by
  rcases client_step hstep with ⟨clientEvent, -, hmoved⟩ | ⟨-, hsame⟩
  · exact Client.length_calls_step hmoved
  · rw [hsame]

theorem length_calls_run {final : Remote} {events : List Event}
    (hrun : run (step proto) remote events = some final) :
    remote.client.calls.length ≤ final.client.calls.length := by
  induction events generalizing remote with
  | nil =>
      obtain rfl := Option.some.inj hrun
      exact le_rfl
  | cons event events ih =>
      obtain ⟨next, hnext, hrest⟩ := run_cons.mp hrun
      exact (length_calls_step hnext).trans (ih hrest)

/-- No call disturbs one that is never made. -/
theorem alone_of_absent {final : Remote} {events : List Event}
    (hrun : run (step proto) remote events = some final)
    (habsent : final.client.calls.length ≤ index) :
    Guarded (step proto) (Alone index) remote events := by
  induction events generalizing remote with
  | nil => trivial
  | cons event events ih =>
      have hnone : remote.client.calls[index]? = none :=
        List.getElem?_eq_none ((length_calls_run hrun).trans habsent)
      obtain ⟨next, hnext, hrest⟩ := run_cons.mp hrun
      refine ⟨?_, fun other hother => ?_⟩
      · cases event with
        | turn taken turn =>
            cases turn with
            | clear | write => exact fun _ call hcall => absurd hcall (by simp [hnone])
            | check | wake | expire | giveUp => trivial
        | call | network | clientTurn | serverTurn => trivial
      · obtain rfl := Option.some.inj (hnext.symm.trans hother)
        exact ih hrest

/-- What the invariant says of the connection holds of every run. -/
theorem inv_of_fits {events : List Event}
    (hrun : run (step proto) start events = some remote)
    (hfits : Guarded (step proto) (FitsHeader proto) start events) :
    Inv proto remote.client.calls.length remote :=
  inv_run (alone_of_absent hrun le_rfl) hfits hrun

/-- Service number `position` answers request number `position`. -/
theorem Inv.serves_of_served (hinv : Inv proto index remote) {position asker : ℕ}
    {service : Service} (hservice : remote.served[position]? = some service)
    (hasker : remote.client.written[position]? = some asker) :
    Serves proto (remote.client.requestAt proto asker) service := by
  obtain ⟨hlt, hget⟩ := List.getElem?_eq_some_iff.mp hservice
  have hlt' : position < (remote.link.session .right).messages.length :=
    hinv.served.length_eq ▸ hlt
  have hserves := hinv.served.get hlt' hlt
  have hmessages : (remote.link.session .right).messages <+:
      (remote.link.session .left).posted :=
    hinv.link.messages_isPrefix .left (hinv.fits .left)
  have hrequest := getElem?_of_isPrefix hmessages (List.getElem?_eq_getElem hlt')
  rw [hinv.requests, List.getElem?_map, hasker, Option.map_some, Option.some.injEq] at hrequest
  rwa [List.get_eq_getElem, List.get_eq_getElem, hget, ← hrequest] at hserves

/-- The server has served a prefix of the requests written. -/
theorem Inv.length_served_le (hinv : Inv proto index remote) :
    remote.served.length ≤ remote.client.written.length := by
  have hle := (hinv.link.messages_isPrefix .left (hinv.fits .left)).length_le
  have hmessages : (remote.link.session Side.left.peer).messages.length = remote.served.length :=
    hinv.served.length_eq
  rwa [hmessages, hinv.requests, List.length_map] at hle

theorem invocations_eq_nil
    (hnone : ∀ (position : ℕ) (service : Service), remote.client.written[position]? = some index →
      remote.served[position]? ≠ some service) : remote.invocations index = [] := by
  have hfilter : ((remote.client.written.zip remote.served).filter
      fun served => served.1 = index) = [] := by
    apply List.filter_eq_nil_iff.mpr
    intro pair hmem heq
    obtain ⟨position, hposition⟩ := List.mem_iff_getElem?.mp hmem
    obtain ⟨hasker, hservice⟩ := List.getElem?_zip_eq_some.mp hposition
    rw [of_decide_eq_true heq] at hasker
    exact hnone position pair.2 hasker hservice
  rw [invocations, hfilter]
  rfl

theorem id_of_dispatch (hlawful : proto.Lawful) {call : CallState} {fault : Option Exn}
    {answer : Answer Response}
    (hanswer : dispatch proto fault (call.request proto) = .returns answer) :
    answer.reply.id = call.id := by
  rw [ClientStub.dispatch_request hlawful] at hanswer
  split at hanswer
  case h_1 => exact Outcome.returns.inj hanswer ▸ rfl
  case h_2 => exact Outcome.returns.inj hanswer ▸ rfl
  case h_3 => exact Outcome.returns.inj hanswer ▸ rfl
  case h_4 => exact absurd hanswer (by simp)

/-- The reply of the server carries the id of the request. -/
theorem replyId_of_serves (hlawful : proto.Lawful) {call : CallState} {service : Service}
    (hserves : Serves proto (call.requestBytes proto) service) :
    ClientStub.replyId proto service.answer.reply = some call.id := by
  have hparse : proto.request.parse (call.requestBytes proto) = some (call.request proto) :=
    hlawful.request _
  simp only [Serves, handleRequest, hparse] at hserves
  cases hdispatch : dispatch proto service.fault (call.request proto) with
  | throws exn => exact absurd (hdispatch ▸ hserves) (by simp [Outcome.bind])
  | undefined => exact absurd (hdispatch ▸ hserves) (by simp [Outcome.bind])
  | returns answer =>
      rw [hdispatch, Outcome.returns_bind, Outcome.returns.injEq] at hserves
      have hresponse : proto.response.parse (serializeResponse proto answer.reply) =
          some answer.reply := hlawful.response _
      rw [← hserves, ClientStub.replyId, hresponse, Option.map_some,
        id_of_dispatch hlawful hdispatch]

theorem requestAt_of_call {client : Client} {call : CallState}
    (hcall : client.calls[index]? = some call) :
    client.requestAt proto index = call.requestBytes proto := by
  simp only [Client.requestAt, hcall]

/-- The server has executed the call once, or not at all. -/
theorem Inv.invocations_cases (hinv : Inv proto index remote) (hlawful : proto.Lawful)
    {position : ℕ} {call : CallState} (hcall : remote.client.calls[position]? = some call) :
    remote.invocations position = [] ∨ remote.invocations position = [call.method] := by
  by_cases hserved : ∃ (place : ℕ) (service : Service),
      remote.client.written[place]? = some position ∧ remote.served[place]? = some service
  · obtain ⟨place, service, hasker, hservice⟩ := hserved
    have hserves := hinv.serves_of_served hservice hasker
    rw [requestAt_of_call hcall] at hserves
    right
    rw [invocations, filter_zip_of_nodup hinv.window.nodup hasker hservice]
    simpa using (checkResponse_of_serves hlawful hserves).1
  · left
    apply invocations_eq_nil
    intro place service hasker hservice
    exact hserved ⟨place, service, hasker, hservice⟩

/-- A message that a call accepts is the server's reply to its own request. -/
theorem Inv.service_of_okReply (hinv : Inv proto index remote) (hlawful : proto.Lawful)
    (hcalls : remote.client.calls.length < 2 ^ 64) {position : ℕ} {call : CallState}
    (hcall : remote.client.calls[position]? = some call) {data : Payload}
    (hdata : data ∈ remote.client.delivered)
    (hid : ClientStub.replyId proto data = some call.id) :
    ∃ (place : ℕ) (service : Service), remote.client.written[place]? = some position ∧
      remote.served[place]? = some service ∧ service.answer.reply = data ∧
        Serves proto (call.requestBytes proto) service := by
  obtain ⟨place, hplace⟩ := List.mem_iff_getElem?.mp hdata
  have hlt : place < remote.client.written.length :=
    Nat.lt_of_lt_of_le (List.getElem?_eq_some_iff.mp hplace).1 hinv.window.counted
  have hasker := List.getElem?_eq_getElem hlt
  obtain ⟨service, hservice, rfl, hserves⟩ := hinv.service_of_delivered hplace hasker
  obtain ⟨asker, hother, -⟩ := hinv.window.written _ (List.getElem_mem hlt)
  rw [requestAt_of_call hother] at hserves
  have hsame : asker.id = call.id := by
    rw [replyId_of_serves hlawful hserves] at hid
    exact Option.some.inj hid
  have hposition := hinv.window.slot.inv.index_of_id hcalls hcall hother hsame
  rw [hposition] at hasker hother
  obtain rfl := Option.some.inj (hcall.symm.trans hother)
  exact ⟨place, service, hasker, hservice, rfl, hserves⟩

/-- Each call is executed once at most, and once if it returned a value, which is then
that of its own method on its own arguments. -/
def ExecutesAtMostOnce (proto : Protobuf) (remote : Remote) : Prop :=
  ∀ index call, remote.client.calls[index]? = some call →
    (remote.invocations index = [] ∨ remote.invocations index = [call.method]) ∧
    (remote.client.calls.length < 2 ^ 64 →
      ∀ value, call.result proto = some (.returns value) →
        remote.invocations index = [call.method] ∧
          call.method.impl call.args = .returns value)

theorem Inv.executesAtMostOnce (hinv : Inv proto index remote) (hlawful : proto.Lawful) :
    remote.ExecutesAtMostOnce proto := by
  intro position call hcall
  refine ⟨hinv.invocations_cases hlawful hcall, fun hcalls value hresult => ?_⟩
  obtain ⟨data, hdata, hreply⟩ := hinv.window.slot.inv.okReply_of_result hcall hresult
  obtain ⟨place, service, hasker, hservice, rfl, hserves⟩ :=
    hinv.service_of_okReply hlawful hcalls hcall hdata hreply.replyId
  obtain ⟨hinvoked, hcheck⟩ := checkResponse_of_serves hlawful hserves
  constructor
  · rw [invocations, filter_zip_of_nodup hinv.window.nodup hasker hservice]
    simpa using hinvoked
  · rw [ClientStub.checkResponse_eq_returns.mpr hreply] at hcheck
    exact ClientStub.impl_of_seenByCaller hcheck.symm

/-- In every run of client, server and network whose sizes fit the header, with
calls that overlap, give up, or are cut off as they may: the server has executed a
prefix of the requests written, each at most once; and below `2 ^ 64` calls, a
call that returned a value was executed exactly once, and the value is that of its
own method on its own arguments. -/
theorem executes_at_most_once (proto : Protobuf) (hlawful : proto.Lawful) {remote : Remote}
    {events : List Event} (hrun : run (step proto) start events = some remote)
    (hfits : Guarded (step proto) (FitsHeader proto) start events) :
    remote.served.length ≤ remote.client.written.length ∧ remote.client.written.Nodup ∧
    ∀ index call, remote.client.calls[index]? = some call →
      (remote.invocations index = [] ∨ remote.invocations index = [call.method]) ∧
      (remote.client.calls.length < 2 ^ 64 →
        ∀ value, call.result proto = some (.returns value) →
          remote.invocations index = [call.method] ∧
            call.method.impl call.args = .returns value) := by
  have hinv := inv_of_fits hrun hfits
  exact ⟨hinv.length_served_le, hinv.window.nodup, hinv.executesAtMostOnce hlawful⟩

/-- Two calls overlap, and the first one fails; both were executed once. -/
theorem executes_at_most_once_overlap :
    overlapRemote.served.length ≤ 2 ∧
      (overlapRemote.invocations 0 = [] ∨ overlapRemote.invocations 0 = [.add]) := by
  have hrun : run (step standard) start overlapEvents = some overlapRemote := by decide
  have hfits : Guarded (step standard) (FitsHeader standard) start overlapEvents := by decide
  obtain ⟨hserved, -, hcalls⟩ := executes_at_most_once standard lawful_standard hrun hfits
  exact ⟨hserved, (hcalls 0 firstFailed rfl).1⟩

end Remote

end RpcDemo
