import RpcDemo.Detail.LateReplies

/-!
# Calls of several threads at once

Threads that share a client share its slot.  A reply is lost to its call when
another call clears the slot, or another reply overwrites it, before the call
has copied it; and a call that wakes on another call's reply fails.  Nothing
else comes between a call and its reply.
-/

namespace RpcDemo

open RpcDemo.Frame
open RpcDemo.Proto
open RpcDemo.Operation

namespace CallState

/-- The payload is a `STATUS_OK` reply to the call. -/
def Accepts (proto : Protobuf) (call : CallState) (data : Payload) : Prop :=
  ∃ value, ClientStub.OkReply proto call.method call.id data value

instance (proto : Protobuf) (call : CallState) (data : Payload) :
    Decidable (call.Accepts proto data) :=
  match hcheck : ClientStub.checkResponse proto call.method call.id data with
  | .returns value => isTrue ⟨value, ClientStub.checkResponse_eq_returns.mp hcheck⟩
  | .throws _ => isFalse fun ⟨_, hreply⟩ => by
      simp [ClientStub.checkResponse_eq_returns.mpr hreply] at hcheck
  | .undefined => isFalse fun ⟨_, hreply⟩ => by
      simp [ClientStub.checkResponse_eq_returns.mpr hreply] at hcheck

/-- A reply to the call has been delivered in time. -/
def Answered (proto : Protobuf) (call : CallState) : Prop :=
  ∃ data ∈ call.timely, call.Accepts proto data

instance (proto : Protobuf) (call : CallState) : Decidable (call.Answered proto) :=
  inferInstanceAs (Decidable (∃ data ∈ call.timely, call.Accepts proto data))

/-- The slot holds a reply to the call. -/
def Served (proto : Protobuf) (slot : Slot) (call : CallState) : Prop :=
  slot.responseReceived = true ∧ call.Accepts proto slot.responseBuffer

instance (proto : Protobuf) (slot : Slot) (call : CallState) :
    Decidable (call.Served proto slot) :=
  inferInstanceAs (Decidable (_ ∧ _))

end CallState

namespace Client

section Guards

variable (proto : Protobuf) (client : Client)

/-- The session is open whenever a call asks. -/
def Connected : Event → Prop
  | .turn _ (.check isOpen) => isOpen = true
  | _ => True

/-- Every message delivered is a `STATUS_OK` reply to a request written before,
and the first one to it. -/
def AnswersOnce : Event → Prop
  | .deliver data =>
      (∃ index ∈ client.written, ∃ call ∈ client.calls[index]?, call.Accepts proto data) ∧
      ∀ earlier ∈ client.delivered,
        ClientStub.replyId proto earlier ≠ ClientStub.replyId proto data
  | _ => True

/-- A time limit expires only after the reply was delivered. -/
def AnswersInTime : Event → Prop
  | .turn index .expire => ∀ call ∈ client.calls[index]?, call.Answered proto
  | _ => True

/-- The slot holds a reply that its call has not yet copied. -/
def Unread : Prop :=
  ∃ call ∈ client.calls, call.phase = .waiting ∧ call.Served proto client.slot

/-- No call clears the slot, and no message overwrites it, while it holds an
unread reply. -/
def KeepsUnread : Event → Prop
  | .turn _ .clear => ¬ client.Unread proto
  | .deliver _ => ¬ client.Unread proto
  | _ => True

/-- A call wakes only while the slot holds a reply to it. -/
def WakesServed : Event → Prop
  | .turn index .wake => ∀ call ∈ client.calls[index]?, call.Served proto client.slot
  | _ => True

/-- Each request of a connected client is answered once, in time. -/
structure Answers (event : Event) : Prop where
  connected : Connected event
  once : client.AnswersOnce proto event
  inTime : client.AnswersInTime proto event

/-- The calls leave each other's replies alone. -/
structure SharesSlot (event : Event) : Prop where
  keeps : client.KeepsUnread proto event
  wakes : client.WakesServed proto event

/-- Every call that is over has returned the value of its reply, the only one
there was; every other one whose reply was delivered finds it in the slot. -/
def ReturnsOwnReplies : Prop :=
  (∀ call ∈ client.calls, call.Finished →
    ∃ data ∈ client.delivered, ∃ value,
      ClientStub.OkReply proto call.method call.id data value ∧
      call.result proto = some (.returns value) ∧
      ∀ other ∈ client.delivered, call.Accepts proto other → other = data) ∧
  ∀ call ∈ client.calls, call.phase = .waiting → call.Answered proto →
    call.Served proto client.slot

instance : Decidable (client.Unread proto) :=
  inferInstanceAs (Decidable (∃ call ∈ client.calls, _ ∧ _))

instance : (event : Event) → Decidable (Connected event)
  | .turn _ (.check _) => inferInstanceAs (Decidable (_ = true))
  | .turn _ .clear | .turn _ .write | .turn _ .wake | .turn _ .expire | .turn _ .giveUp =>
      isTrue trivial
  | .call _ _ | .deliver _ => isTrue trivial

instance : (event : Event) → Decidable (client.AnswersOnce proto event)
  | .deliver _ => inferInstanceAs (Decidable (_ ∧ _))
  | .call _ _ | .turn _ _ => isTrue trivial

instance : (event : Event) → Decidable (client.AnswersInTime proto event)
  | .turn index .expire =>
      inferInstanceAs (Decidable (∀ call ∈ client.calls[index]?, call.Answered proto))
  | .turn _ (.check _) | .turn _ .clear | .turn _ .write | .turn _ .wake | .turn _ .giveUp =>
      isTrue trivial
  | .call _ _ | .deliver _ => isTrue trivial

instance : (event : Event) → Decidable (client.KeepsUnread proto event)
  | .turn _ .clear | .deliver _ => inferInstanceAs (Decidable (¬ _))
  | .turn _ (.check _) | .turn _ .write | .turn _ .wake | .turn _ .expire | .turn _ .giveUp =>
      isTrue trivial
  | .call _ _ => isTrue trivial

instance : (event : Event) → Decidable (client.WakesServed proto event)
  | .turn index .wake =>
      inferInstanceAs (Decidable (∀ call ∈ client.calls[index]?, call.Served proto client.slot))
  | .turn _ (.check _) | .turn _ .clear | .turn _ .write | .turn _ .expire | .turn _ .giveUp =>
      isTrue trivial
  | .call _ _ | .deliver _ => isTrue trivial

instance (event : Event) : Decidable (client.Answers proto event) :=
  decidable_of_iff
    (Connected event ∧ client.AnswersOnce proto event ∧ client.AnswersInTime proto event)
    ⟨fun h => ⟨h.1, h.2.1, h.2.2⟩, fun h => ⟨h.1, h.2, h.3⟩⟩

instance (event : Event) : Decidable (client.SharesSlot proto event) :=
  decidable_of_iff (client.KeepsUnread proto event ∧ client.WakesServed proto event)
    ⟨fun h => ⟨h.1, h.2⟩, fun h => ⟨h.1, h.2⟩⟩

end Guards

variable {proto : Protobuf}

/-- A waiting call whose reply came in time is served, and time runs out for no
other; so every call comes back with the reply it accepts. -/
structure ServedInv (proto : Protobuf) (client : Client) : Prop where
  inv : client.Inv
  distinct : DistinctReplies proto client.delivered
  expired : ∀ (index : ℕ) (call : CallState), client.calls[index]? = some call →
    call.timer = .expired → call.Answered proto
  served : ∀ (index : ℕ) (call : CallState), client.calls[index]? = some call →
    call.phase = .waiting → call.Answered proto → call.Served proto client.slot
  accepted : ∀ (index : ℕ) (call : CallState) (response : Option Payload),
    client.calls[index]? = some call → call.phase = .returned response →
      ∃ data, response = some data ∧ call.Accepts proto data

theorem servedInv_start : ServedInv proto start where
  inv := inv_start
  distinct := by simp [DistinctReplies, start]
  expired := by simp [start]
  served := by simp [start]
  accepted := by simp [start]

theorem answered_hear {call : CallState} {data : Payload}
    (hanswered : (call.hear data).Answered proto) :
    call.Answered proto ∨ call.Accepts proto data := by
  obtain ⟨reply, hmem, haccepts⟩ := hanswered
  have haccepts' : call.Accepts proto reply := haccepts
  simp only [CallState.hear] at hmem
  split at hmem
  · rcases List.mem_append.mp hmem with hmem | hmem
    · exact .inl ⟨reply, hmem, haccepts'⟩
    · exact .inr (List.mem_singleton.mp hmem ▸ haccepts')
  · exact .inl ⟨reply, hmem, haccepts'⟩

theorem CallState.Answered.hear {call : CallState} (hanswered : call.Answered proto)
    (data : Payload) : (call.hear data).Answered proto := by
  obtain ⟨reply, hmem, haccepts⟩ := hanswered
  refine ⟨reply, ?_, haccepts⟩
  simp only [CallState.hear]
  split
  · exact List.mem_append_left _ hmem
  · exact hmem

section Steps

variable {client next : Client} {event : Event}

theorem expired_step (hinv : ServedInv proto client)
    (htime : client.AnswersInTime proto event) (hstep : client.step event = some next)
    {index : ℕ} {moved : CallState} (hmoved : next.calls[index]? = some moved)
    (htimer : moved.timer = .expired) : moved.Answered proto := by
  cases became_of_step hstep hmoved with
  | begun method args hindex => simp [CallState.begin] at htimer
  | heard data call hcall =>
      exact CallState.Answered.hear (hinv.expired index call hcall htimer) data
  | kept _ _ hcall hturn hdeliver => exact hinv.expired index moved hcall htimer
  | turned turn call moved hcall hturned =>
      cases hturned with
      | expire hrunning => exact htime call hcall
      | write hphase => simp at htimer
      | _ => exact hinv.expired index call hcall htimer

theorem served_step (hinv : ServedInv proto client)
    (hkeeps : client.KeepsUnread proto event) (hstep : client.step event = some next)
    {index : ℕ} {moved : CallState} (hmoved : next.calls[index]? = some moved)
    (hphase : moved.phase = .waiting) (hanswered : moved.Answered proto) :
    moved.Served proto next.slot := by
  have hunread : ∀ {call : CallState}, client.calls[index]? = some call →
      call.phase = .waiting → call.Answered proto → client.Unread proto :=
    fun {call} hcall hwaiting hreply => ⟨call, List.mem_of_getElem? hcall, hwaiting,
      hinv.served index call hcall hwaiting hreply⟩
  cases stepped_of_step hstep with
  | call method args =>
      cases became_of_step hstep hmoved with
      | begun method args hindex => simp [CallState.begin] at hphase
      | kept _ _ hcall hturn hdeliver => exact hinv.served index moved hcall hphase hanswered
  | deliver data =>
      cases became_of_step hstep hmoved with
      | heard data call hcall =>
          rcases answered_hear hanswered with hbefore | haccepts
          · exact absurd (hunread hcall hphase hbefore) hkeeps
          · exact ⟨rfl, haccepts⟩
      | kept _ _ hcall hturn hdeliver => exact absurd rfl (hdeliver data)
  | turn taken turn other after hother hmove =>
      cases became_of_step hstep hmoved with
      | kept _ _ hcall hturn hdeliver =>
          have hclear : turn ≠ .clear := by
            rintro rfl
            exact hkeeps (hunread hcall hphase hanswered)
          simpa [advance, hclear] using hinv.served index moved hcall hphase hanswered
      | turned turn call moved hcall hturned =>
          cases hturned with
          | write hcleared =>
              have htimed := hinv.inv.timed index call hcall
              simp only [CallState.WellTimed, hcleared] at htimed
              obtain ⟨reply, hmem, _⟩ := hanswered
              simp [htimed.2] at hmem
          | expire htimer =>
              exact hinv.served index call hcall hphase hanswered
          | pass => simp at hphase
          | refuse => simp at hphase
          | clear => simp at hphase
          | wake => simp at hphase
          | giveUp => simp at hphase

theorem accepted_step (hinv : ServedInv proto client) (hconnected : Connected event)
    (hwakes : client.WakesServed proto event) (hstep : client.step event = some next)
    {index : ℕ} {moved : CallState} {response : Option Payload}
    (hmoved : next.calls[index]? = some moved) (hphase : moved.phase = .returned response) :
    ∃ data, response = some data ∧ moved.Accepts proto data := by
  cases became_of_step hstep hmoved with
  | begun method args hindex => simp [CallState.begin] at hphase
  | heard data call hcall => exact hinv.accepted index call response hcall hphase
  | kept _ _ hcall hturn hdeliver => exact hinv.accepted index moved response hcall hphase
  | turned turn call moved hcall hturned =>
      cases hturned with
      | expire htimer => exact hinv.accepted index call response hcall hphase
      | refuse hnumbered => exact absurd hconnected (by simp [Connected])
      | wake hwaiting hreceived =>
          obtain rfl : some client.slot.responseBuffer = response := by simpa using hphase
          exact ⟨_, rfl, (hwakes call hcall).2⟩
      | giveUp hwaiting htimer hreceived =>
          have hserved := hinv.served index call hcall hwaiting
            (hinv.expired index call hcall htimer)
          exact absurd hserved.1 (by simp [hreceived])
      | pass => simp at hphase
      | clear => simp at hphase
      | write => simp at hphase

theorem servedInv_step (hinv : ServedInv proto client) (hanswers : Answers proto client event)
    (hshares : SharesSlot proto client event) (hstep : client.step event = some next) :
    ServedInv proto next where
  inv := inv_step hinv.inv hstep
  distinct := by
    cases stepped_of_step hstep with
    | call method args => exact hinv.distinct
    | turn index turn call moved hcall hturned => exact hinv.distinct
    | deliver data => exact hinv.distinct.concat hanswers.once.2
  expired _ _ hmoved htimer := expired_step hinv hanswers.inTime hstep hmoved htimer
  served _ _ hmoved hphase hanswered :=
    served_step hinv hshares.keeps hstep hmoved hphase hanswered
  accepted _ _ _ hmoved hphase :=
    accepted_step hinv hanswers.connected hshares.wakes hstep hmoved hphase

end Steps

theorem ServedInv.returnsOwnReplies {client : Client} (hinv : ServedInv proto client) :
    client.ReturnsOwnReplies proto := by
  refine ⟨?_, ?_⟩
  · rintro call hmem ⟨response, hphase⟩
    obtain ⟨index, hcall⟩ := List.mem_iff_getElem?.mp hmem
    obtain ⟨data, rfl, value, hreply⟩ := hinv.accepted index call response hcall hphase
    have hdata := (hinv.inv.recorded index call hcall).copied data hphase
    refine ⟨data, hdata, value, hreply, ?_, ?_⟩
    · rw [CallState.result, hphase]
      exact congrArg some (ClientStub.finish_eq_returns.mpr ⟨data, rfl, hreply⟩)
    · rintro other hother ⟨_, hotherReply⟩
      exact hinv.distinct other hother data hdata
        (hotherReply.replyId.trans hreply.replyId.symm)
  · intro call hmem hphase hanswered
    obtain ⟨index, hcall⟩ := List.mem_iff_getElem?.mp hmem
    exact hinv.served index call hcall hphase hanswered

/-- In every run of any number of overlapping calls whose requests are answered
once and in time, and which leave each other's replies alone, every call returns
the value of its own reply. -/
theorem concurrent_calls_return (proto : Protobuf) {client : Client} {events : List Event}
    (hrun : Transition.run step start events = some client)
    (hanswers : Transition.Guarded step (Answers proto) start events)
    (hshares : Transition.Guarded step (SharesSlot proto) start events) :
    client.ReturnsOwnReplies proto := by
  have hinv : ServedInv proto client :=
    Transition.run_invariant_of_guarded
      (fun _ _ _ hinv hguard hstep => servedInv_step hinv hguard.1 hguard.2 hstep)
      servedInv_start (hanswers.and hshares) hrun
  exact hinv.returnsOwnReplies

/-- Two calls wait at the same time. -/
def overlappingEvents : List Event :=
  [.call .add ((1, 1) : Int32 × Int32), .call .add ((2, 3) : Int32 × Int32),
    .turn 0 (.check true), .turn 1 (.check true), .turn 0 .clear, .turn 1 .clear,
    .turn 1 .write, .turn 0 .write]

/-- Each reply is copied before the next one comes. -/
def copiedEvents : List Event :=
  overlappingEvents ++ [.deliver secondReply, .turn 1 .wake, .deliver firstReply,
    .turn 0 .wake]

def copiedClient : Client where
  nextRequestId := 3
  slot := ⟨firstReply, true⟩
  calls := [
    { CallState.begin 1 .add ((1, 1) : Int32 × Int32) with
      phase := .returned (some firstReply)
      timer := .running
      heard := [secondReply, firstReply]
      timely := [secondReply, firstReply] },
    { CallState.begin 2 .add ((2, 3) : Int32 × Int32) with
      phase := .returned (some secondReply)
      timer := .running
      heard := [secondReply]
      timely := [secondReply, firstReply] }]
  written := [1, 0]
  delivered := [secondReply, firstReply]

theorem concurrent_calls_return_copied : copiedClient.ReturnsOwnReplies standard :=
  concurrent_calls_return standard
    (show Transition.run step start copiedEvents = some copiedClient by decide)
    (by decide) (by decide)

/-- The second reply comes before the first one was copied. -/
def overwrittenEvents : List Event :=
  overlappingEvents ++ [.deliver firstReply, .deliver secondReply, .turn 0 .wake,
    .turn 1 .wake]

def failedCall : CallState :=
  { CallState.begin 1 .add ((1, 1) : Int32 × Int32) with
    phase := .returned (some secondReply)
    timer := .running
    heard := [firstReply, secondReply]
    timely := [firstReply, secondReply] }

def overwrittenClient : Client where
  nextRequestId := 3
  slot := ⟨secondReply, true⟩
  calls := [failedCall,
    { CallState.begin 2 .add ((2, 3) : Int32 × Int32) with
      phase := .returned (some secondReply)
      timer := .running
      heard := [firstReply, secondReply]
      timely := [firstReply, secondReply] }]
  written := [1, 0]
  delivered := [firstReply, secondReply]

/-- The first call copies the reply to the second one, and fails. -/
theorem overwrittenEvents_lose_reply :
    Transition.run step start overwrittenEvents = some overwrittenClient ∧
      Transition.Guarded step (Answers standard) start overwrittenEvents ∧
      failedCall ∈ overwrittenClient.calls ∧
      failedCall.result standard =
        some (.throws (.stdException "rpc response id does not match request id")) ∧
      ¬ overwrittenClient.ReturnsOwnReplies standard := by
  have hmem : failedCall ∈ overwrittenClient.calls := by simp [overwrittenClient]
  have hresult : failedCall.result standard =
      some (.throws (.stdException "rpc response id does not match request id")) :=
    congrArg some (ClientStub.checkResponse_okPayload_of_ne lawful_standard .add .add
      (show (2 : UInt64) ≠ 1 by decide) (5 : Int32))
  refine ⟨by decide, by decide, hmem, hresult, ?_⟩
  intro hreturns
  obtain ⟨data, _, value, _, hvalue, _⟩ := hreturns.1 failedCall hmem ⟨_, rfl⟩
  rw [hresult] at hvalue
  exact absurd (Option.some.inj hvalue) (by simp)

end Client

end RpcDemo
