import RpcDemo.Detail.ClientRuns

/-!
# Calls made one after another, and replies that come late

While a call has the slot to itself, the slot holds the last message delivered
since the call cleared it.  Clearing discards the late replies to earlier calls
that have come by then; one that comes afterwards is taken for the reply to the
current call, which then fails although its own reply arrives in time.
-/

namespace RpcDemo

open RpcDemo.Frame
open RpcDemo.Proto
open RpcDemo.Operation

/-! ## A slot used by one call at a time -/

/-- The slot after the last message delivered since it was cleared. -/
def Slot.holding : Option Payload → Slot
  | none => ⟨[], false⟩
  | some data => ⟨data, true⟩

def CallState.Finished (call : CallState) : Prop :=
  ∃ response, call.phase = .returned response

instance (call : CallState) : Decidable call.Finished :=
  match hphase : call.phase with
  | .returned response => isTrue ⟨response, hphase⟩
  | .numbered | .checked | .cleared | .waiting =>
      isFalse fun ⟨_, hother⟩ => by simp [hphase] at hother

theorem CallState.InSlot.not_finished {call : CallState} (hin : call.InSlot) :
    ¬ call.Finished := by
  rintro ⟨response, hphase⟩
  rcases hin with hin | hin <;> simp [hphase] at hin

namespace Client

/-- While the call at `index` uses the slot, no other call clears it or writes a
request. -/
def Alone (index : ℕ) (client : Client) : Event → Prop
  | .turn other .clear | .turn other .write =>
      other ≠ index → ∀ call ∈ client.calls[index]?, ¬ call.InSlot
  | _ => True

instance (index : ℕ) (client : Client) :
    (event : Event) → Decidable (client.Alone index event)
  | .turn other .clear | .turn other .write => inferInstanceAs
      (Decidable (other ≠ index → ∀ call ∈ client.calls[index]?, ¬ call.InSlot))
  | .turn _ (.check _) | .turn _ .wake | .turn _ .expire | .turn _ .giveUp => isTrue trivial
  | .call _ _ | .deliver _ => isTrue trivial

/-- What the slot holds while the call at `index` uses it, and what this call has
copied, is the last message it heard. -/
structure SlotInv (index : ℕ) (client : Client) : Prop where
  inv : client.Inv
  slot : ∀ call : CallState, client.calls[index]? = some call →
    call.InSlot → client.slot = Slot.holding call.heard.getLast?
  copied : ∀ (call : CallState) (response : Option Payload),
    client.calls[index]? = some call → call.phase = .returned response →
      call.heard.getLast? = response

theorem slotInv_start (index : ℕ) : SlotInv index start where
  inv := inv_start
  slot := by simp [start]
  copied := by simp [start]

section SlotSteps

variable {index : ℕ} {client next : Client} {event : Event}

theorem slot_step (hinv : SlotInv index client) (halone : client.Alone index event)
    (hstep : client.step event = some next) {moved : CallState}
    (hmoved : next.calls[index]? = some moved)
    (hin : moved.InSlot) : next.slot = Slot.holding moved.heard.getLast? := by
  cases stepped_of_step hstep with
  | call method args =>
      cases became_of_step hstep hmoved with
      | begun method args hindex => exact absurd hin (by simp [CallState.InSlot, CallState.begin])
      | kept _ _ hcall hturn hdeliver => exact hinv.slot moved hcall hin
  | deliver data =>
      cases became_of_step hstep hmoved with
      | heard data call hcall =>
          have hin' : call.InSlot := hin
          simp [CallState.hear, hin', onMessage, Slot.holding]
      | kept _ _ hcall hturn hdeliver => exact absurd rfl (hdeliver data)
  | turn taken turn call after hcall hturned =>
      cases became_of_step hstep hmoved with
      | kept _ _ hkept hturn hdeliver =>
          have hclear : turn ≠ .clear := by
            rintro rfl
            have hother : taken ≠ index := by
              rintro rfl
              exact hturn .clear rfl
            exact halone hother moved hkept hin
          simpa [advance, hclear] using hinv.slot moved hkept hin
      | turned turn before moved hbefore hmove =>
          have hheard := (hinv.inv.timed index before hbefore)
          cases hmove with
          | clear hphase =>
              simp only [CallState.WellTimed, hphase] at hheard
              simp [advance, hheard.2.1, Slot.holding]
          | write hphase => simpa [advance] using hinv.slot before hbefore (.inl hphase)
          | expire htimer => simpa [advance] using hinv.slot before hbefore hin
          | pass hphase => exact absurd hin (by simp [CallState.InSlot])
          | refuse hphase => exact absurd hin (by simp [CallState.InSlot])
          | wake hphase hreceived => exact absurd hin (by simp [CallState.InSlot])
          | giveUp hphase htimer hreceived => exact absurd hin (by simp [CallState.InSlot])

theorem copied_step (hinv : SlotInv index client)
    (hstep : client.step event = some next) {moved : CallState}
    {response : Option Payload} (hmoved : next.calls[index]? = some moved)
    (hphase : moved.phase = .returned response) : moved.heard.getLast? = response := by
  cases became_of_step hstep hmoved with
  | begun method args hindex => simp [CallState.begin] at hphase
  | kept _ _ hcall hturn hdeliver => exact hinv.copied moved response hcall hphase
  | heard data call hcall =>
      have hout : ¬ call.InSlot := fun hin => hin.not_finished ⟨response, hphase⟩
      simpa [CallState.hear, hout] using hinv.copied call response hcall hphase
  | turned turn call moved hcall hturned =>
      cases hturned with
      | pass => simp at hphase
      | clear => simp at hphase
      | write => simp at hphase
      | expire htimer => exact hinv.copied call response hcall hphase
      | refuse hnumbered =>
          have htimed := hinv.inv.timed index call hcall
          simp only [CallState.WellTimed, hnumbered] at htimed
          obtain rfl : none = response := by simpa using hphase
          simp [htimed.2.1]
      | wake hwaiting hreceived =>
          have hslot := hinv.slot call hcall (.inr hwaiting)
          obtain rfl : some client.slot.responseBuffer = response := by simpa using hphase
          cases hlast : call.heard.getLast? with
          | none => simp [hslot, hlast, Slot.holding] at hreceived
          | some data => simp [hslot, hlast, Slot.holding]
      | giveUp hwaiting htimer hreceived =>
          have hslot := hinv.slot call hcall (.inr hwaiting)
          obtain rfl : none = response := by simpa using hphase
          cases hlast : call.heard.getLast? with
          | none => rfl
          | some data => simp [hslot, hlast, Slot.holding] at hreceived

theorem slotInv_step (hinv : SlotInv index client) (halone : client.Alone index event)
    (hstep : client.step event = some next) : SlotInv index next where
  inv := inv_step hinv.inv hstep
  slot _ hmoved hin := slot_step hinv halone hstep hmoved hin
  copied _ _ hmoved hphase := copied_step hinv hstep hmoved hphase

end SlotSteps

/-! ## Calls made one after another -/

def OneAtATime (client : Client) : Event → Prop
  | .call _ _ => ∀ call ∈ client.calls, call.Finished
  | _ => True

instance (client : Client) : (event : Event) → Decidable (client.OneAtATime event)
  | .call _ _ => inferInstanceAs (Decidable (∀ call ∈ client.calls, call.Finished))
  | .turn _ _ | .deliver _ => isTrue trivial

/-- A call that is under way after a step was so before, or has just begun. -/
theorem unfinished_before {client next : Client} {event : Event}
    (hstep : client.step event = some next) {index : ℕ} {moved : CallState}
    (hmoved : next.calls[index]? = some moved) (hunfinished : ¬ moved.Finished) :
    (∃ call, client.calls[index]? = some call ∧ ¬ call.Finished) ∨
      index = client.calls.length ∧ ∃ method args, event = .call method args := by
  cases became_of_step hstep hmoved with
  | begun method args hindex => exact .inr ⟨hindex, method, args, rfl⟩
  | heard data call hcall => exact .inl ⟨call, hcall, hunfinished⟩
  | kept _ _ hcall hturn hdeliver => exact .inl ⟨moved, hcall, hunfinished⟩
  | turned turn call moved hcall hturned =>
      refine .inl ⟨call, hcall, ?_⟩
      rintro ⟨response, hphase⟩
      cases hturned with
      | expire htimer => exact hunfinished ⟨response, hphase⟩
      | pass hnumbered => simp [hnumbered] at hphase
      | refuse hnumbered => simp [hnumbered] at hphase
      | clear hchecked => simp [hchecked] at hphase
      | write hcleared => simp [hcleared] at hphase
      | wake hwaiting hreceived => simp [hwaiting] at hphase
      | giveUp hwaiting htimer hreceived => simp [hwaiting] at hphase

/-- At most one call is under way. -/
def Sequential (client : Client) : Prop :=
  ∀ (index other : ℕ) (call otherCall : CallState),
    client.calls[index]? = some call → client.calls[other]? = some otherCall →
      ¬ call.Finished → ¬ otherCall.Finished → index = other

theorem sequential_step {client next : Client} {event : Event} (hseq : client.Sequential)
    (hguard : client.OneAtATime event) (hstep : client.step event = some next) :
    next.Sequential := by
  intro index other call otherCall hcall hother hunfinished hotherUnfinished
  have hfinished : ∀ {position : ℕ} {before : CallState},
      (∃ method args, event = .call method args) →
        client.calls[position]? = some before → before.Finished := by
    rintro position before ⟨method, args, rfl⟩ hbefore
    exact hguard before (List.mem_of_getElem? hbefore)
  rcases unfinished_before hstep hcall hunfinished with ⟨before, hbefore, hopen⟩ | ⟨hindex, hcalled⟩
  · rcases unfinished_before hstep hother hotherUnfinished with
      ⟨before', hbefore', hopen'⟩ | ⟨_, hcalled⟩
    · exact hseq _ _ _ _ hbefore hbefore' hopen hopen'
    · exact absurd (hfinished hcalled hbefore) hopen
  · rcases unfinished_before hstep hother hotherUnfinished with
      ⟨before', hbefore', hopen'⟩ | ⟨hindex', _⟩
    · exact absurd (hfinished hcalled hbefore') hopen'
    · exact hindex.trans hindex'.symm

theorem alone_of_sequential (index : ℕ) {client next : Client} {event : Event}
    (hseq : client.Sequential) (hstep : client.step event = some next) :
    client.Alone index event := by
  cases stepped_of_step hstep with
  | call method args => trivial
  | deliver data => trivial
  | turn taken turn call moved hcall hturned =>
      have hother : ¬ call.Finished → taken ≠ index →
          ∀ user ∈ client.calls[index]?, ¬ user.InSlot :=
        fun hunfinished hne user huser hin =>
          hne (hseq _ _ _ _ hcall huser hunfinished hin.not_finished)
      cases hturned with
      | clear hphase => exact hother (by simp [CallState.Finished, hphase])
      | write hphase => exact hother (by simp [CallState.Finished, hphase])
      | _ => trivial

theorem alone_of_oneAtATime (index : ℕ) {client : Client} {events : List Event}
    (hguarded : Transition.Guarded step OneAtATime start events)
    (hrun : Transition.run step start events = some client) :
    Transition.Guarded step (Alone index) start events := by
  have hstart : start.Sequential := by simp [Sequential, start]
  exact hguarded.strengthen
    (fun _ _ _ hseq hguard hstep =>
      ⟨sequential_step hseq hguard hstep, alone_of_sequential index hseq hstep⟩)
    hstart hrun

/-! ## Late replies -/

/-- The one message replies to an earlier request than the other. -/
def RepliesBefore (proto : Protobuf) (data later : Payload) : Prop :=
  match ClientStub.replyId proto data, ClientStub.replyId proto later with
  | some id, some laterId => id < laterId
  | _, _ => True

instance (proto : Protobuf) (data later : Payload) :
    Decidable (RepliesBefore proto data later) :=
  match hdata : ClientStub.replyId proto data, hlater : ClientStub.replyId proto later with
  | some id, some laterId =>
      decidable_of_iff (id < laterId) (by rw [RepliesBefore, hdata, hlater])
  | none, _ => isTrue (by simp [RepliesBefore, hdata])
  | some _, none => isTrue (by simp [RepliesBefore, hdata, hlater])

/-- Every message delivered is the reply to a request written before, and the
replies come in the order of their requests. -/
def RepliesInOrder (proto : Protobuf) (client : Client) : Event → Prop
  | .deliver data =>
      (∃ index ∈ client.written, ∃ call ∈ client.calls[index]?,
        ClientStub.replyId proto data = some call.id) ∧
      ∀ earlier ∈ client.delivered, RepliesBefore proto earlier data
  | _ => True

/-- A call wakes only while the slot holds the reply to its own request. -/
def WakesOnOwnReply (proto : Protobuf) (client : Client) : Event → Prop
  | .turn index .wake => ∀ call ∈ client.calls[index]?,
      ClientStub.replyId proto client.slot.responseBuffer = some call.id
  | _ => True

instance (proto : Protobuf) (client : Client) :
    (event : Event) → Decidable (client.RepliesInOrder proto event)
  | .deliver _ => inferInstanceAs (Decidable (_ ∧ _))
  | .call _ _ | .turn _ _ => isTrue trivial

instance (proto : Protobuf) (client : Client) :
    (event : Event) → Decidable (client.WakesOnOwnReply proto event)
  | .turn index .wake => inferInstanceAs (Decidable (∀ call ∈ client.calls[index]?,
      ClientStub.replyId proto client.slot.responseBuffer = some call.id))
  | .turn _ (.check _) | .turn _ .clear | .turn _ .write | .turn _ .expire | .turn _ .giveUp =>
      isTrue trivial
  | .call _ _ | .deliver _ => isTrue trivial

/-- Every call whose own reply was delivered in time, after its request was
written and before its time limit, has returned the value of that reply, or is
about to wake. -/
def ReturnsTimelyReplies (proto : Protobuf) (client : Client) : Prop :=
  ∀ call ∈ client.calls, ∀ data ∈ call.timely, ∀ value,
    ClientStub.OkReply proto call.method call.id data value →
      call.result proto = some (.returns value) ∨
        (call.phase = .waiting ∧ client.slot.responseReceived = true)

/-- No two messages reply to the same request. -/
def DistinctReplies (proto : Protobuf) (delivered : List Payload) : Prop :=
  ∀ data ∈ delivered, ∀ other ∈ delivered,
    ClientStub.replyId proto data = ClientStub.replyId proto other → data = other

theorem DistinctReplies.concat {proto : Protobuf} {delivered : List Payload} {data : Payload}
    (hdistinct : DistinctReplies proto delivered)
    (hnew : ∀ earlier ∈ delivered,
      ClientStub.replyId proto earlier ≠ ClientStub.replyId proto data) :
    DistinctReplies proto (delivered ++ [data]) := by
  intro one hone other hother heq
  simp only [List.mem_append, List.mem_singleton] at hone hother
  rcases hone with hone | rfl
  · rcases hother with hother | rfl
    · exact hdistinct one hone other hother heq
    · exact absurd heq (hnew one hone)
  · rcases hother with hother | rfl
    · exact absurd heq.symm (hnew other hother)
    · rfl

/-- If the call at `index` has copied a message, it is the reply to its request. -/
structure OwnInv (proto : Protobuf) (index : ℕ) (client : Client) : Prop where
  slot : SlotInv index client
  distinct : DistinctReplies proto client.delivered
  own : ∀ (call : CallState) (data : Payload),
    client.calls[index]? = some call → call.phase = .returned (some data) →
      ClientStub.replyId proto data = some call.id

section OwnReplies

variable {proto : Protobuf} {index : ℕ} {client next : Client} {event : Event}

theorem ownInv_start : OwnInv proto index start where
  slot := slotInv_start index
  distinct := by simp [DistinctReplies, start]
  own := by simp [start]

theorem distinct_step (hinv : OwnInv proto index client)
    (horder : client.RepliesInOrder proto event) (hstep : client.step event = some next) :
    DistinctReplies proto next.delivered := by
  cases stepped_of_step hstep with
  | call method args => exact hinv.distinct
  | turn index turn call moved hcall hturned => exact hinv.distinct
  | deliver data =>
      obtain ⟨⟨_, _, call, _, hid⟩, hlater⟩ := horder
      apply hinv.distinct.concat
      intro earlier hmem heq
      have hlt := hlater earlier hmem
      rw [RepliesBefore, heq, hid] at hlt
      exact absurd hlt (by simp)

theorem own_step (hinv : OwnInv proto index client)
    (hwakes : client.WakesOnOwnReply proto event) (hstep : client.step event = some next)
    {moved : CallState} {data : Payload}
    (hmoved : next.calls[index]? = some moved) (hphase : moved.phase = .returned (some data)) :
    ClientStub.replyId proto data = some moved.id := by
  cases became_of_step hstep hmoved with
  | begun method args hindex => simp [CallState.begin] at hphase
  | heard heard call hcall => exact hinv.own call data hcall hphase
  | kept _ _ hcall hturn hdeliver => exact hinv.own moved data hcall hphase
  | turned turn call moved hcall hturned =>
      cases hturned with
      | expire htimer => exact hinv.own call data hcall hphase
      | wake hwaiting hreceived =>
          obtain rfl : client.slot.responseBuffer = data := by simpa using hphase
          exact hwakes call hcall
      | pass => simp at hphase
      | refuse => simp at hphase
      | clear => simp at hphase
      | write => simp at hphase
      | giveUp => simp at hphase

theorem ownInv_step (hinv : OwnInv proto index client)
    (halone : client.Alone index event) (horder : client.RepliesInOrder proto event)
    (hwakes : client.WakesOnOwnReply proto event) (hstep : client.step event = some next) :
    OwnInv proto index next where
  slot := slotInv_step hinv.slot halone hstep
  distinct := distinct_step hinv horder hstep
  own _ _ hmoved hphase := own_step hinv hwakes hstep hmoved hphase

/-- A timely reply to the call at `index` is the one it returns. -/
theorem OwnInv.returns_timely (hinv : OwnInv proto index client) {call : CallState}
    (hcall : client.calls[index]? = some call) {data : Payload} (hdata : data ∈ call.timely)
    {value : call.method.Value}
    (hreply : ClientStub.OkReply proto call.method call.id data value) :
    call.result proto = some (.returns value) ∨
      (call.phase = .waiting ∧ client.slot.responseReceived = true) := by
  have htimed := hinv.slot.inv.timed index call hcall
  have hrecorded := hinv.slot.inv.recorded index call hcall
  unfold CallState.WellTimed at htimed
  split at htimed
  case h_1 => simp [htimed.2.2] at hdata
  case h_2 => simp [htimed.2.2] at hdata
  case h_3 => simp [htimed.2] at hdata
  case h_4 hphase =>
    have hslot := hinv.slot.slot call hcall (.inr hphase)
    have hheard := List.ne_nil_of_mem (htimed.2 hdata)
    rw [List.getLast?_eq_some_getLast hheard] at hslot
    exact .inr ⟨hphase, by rw [hslot]; rfl⟩
  case h_5 hphase =>
    have hheard := hinv.slot.copied call none hcall hphase
    rw [List.getLast?_eq_none_iff] at hheard
    exact absurd (htimed.2 hdata) (by simp [hheard])
  case h_6 copied hphase =>
    have hcopied := hinv.own call copied hcall hphase
    have hid := hreply.replyId
    obtain rfl := hinv.distinct data (hrecorded.timely hdata) copied
      (hrecorded.copied copied hphase) (hid.trans hcopied.symm)
    left
    rw [CallState.result, hphase]
    exact congrArg some (ClientStub.finish_eq_returns.mpr ⟨data, rfl, hreply⟩)

end OwnReplies

/-- In every run of calls made one after another, with replies in the order of
their requests and as late as may be, in which calls wake only on their own
replies: a call whose reply comes in time returns its value. -/
theorem returns_timely_replies (proto : Protobuf) {client : Client} {events : List Event}
    (hrun : Transition.run step start events = some client)
    (hcalls : Transition.Guarded step OneAtATime start events)
    (horder : Transition.Guarded step (RepliesInOrder proto) start events)
    (hwakes : Transition.Guarded step (WakesOnOwnReply proto) start events) :
    client.ReturnsTimelyReplies proto := by
  intro call hmem data hdata value hreply
  obtain ⟨index, hcall⟩ := List.mem_iff_getElem?.mp hmem
  have halone := alone_of_oneAtATime index hcalls hrun
  have hinv : OwnInv proto index client :=
    Transition.run_invariant_of_guarded
      (fun _ _ _ hinv hguard hstep => ownInv_step hinv hguard.1 hguard.2.1 hguard.2.2 hstep)
      ownInv_start (halone.and (horder.and hwakes)) hrun
  exact hinv.returns_timely hcall hdata hreply

/-- The replies to `add(1, 1)` with id 1 and to `add(2, 3)` with id 2. -/
def firstReply : Payload :=
  ClientStub.okPayload standard .add 1 (2 : Int32)

def secondReply : Payload :=
  ClientStub.okPayload standard .add 2 (5 : Int32)

/-- The first call gives up, and the second one begins. -/
def givenUpEvents : List Event :=
  [.call .add ((1, 1) : Int32 × Int32), .turn 0 (.check true), .turn 0 .clear,
    .turn 0 .write, .turn 0 .expire, .turn 0 .giveUp,
    .call .add ((2, 3) : Int32 × Int32), .turn 1 (.check true)]

def givenUpCall : CallState :=
  { CallState.begin 1 .add ((1, 1) : Int32 × Int32) with
    phase := .returned none
    timer := .expired }

/-- The late reply comes before the second call clears the slot. -/
def discardedEvents : List Event :=
  givenUpEvents ++ [.deliver firstReply, .turn 1 .clear, .turn 1 .write,
    .deliver secondReply, .turn 1 .wake]

def discardedClient : Client where
  nextRequestId := 3
  slot := ⟨secondReply, true⟩
  calls := [givenUpCall,
    { CallState.begin 2 .add ((2, 3) : Int32 × Int32) with
      phase := .returned (some secondReply)
      timer := .running
      clearedAt := 1
      heard := [secondReply]
      timely := [secondReply] }]
  written := [0, 1]
  delivered := [firstReply, secondReply]

theorem returns_timely_replies_discarded :
    discardedClient.ReturnsTimelyReplies standard :=
  returns_timely_replies standard
    (show Transition.run step start discardedEvents = some discardedClient by decide)
    (by decide) (by decide) (by decide)

/-- The late reply comes after the second call has cleared the slot. -/
def spoiledEvents : List Event :=
  givenUpEvents ++ [.turn 1 .clear, .turn 1 .write, .deliver firstReply, .turn 1 .wake,
    .deliver secondReply]

def spoiledCall : CallState :=
  { CallState.begin 2 .add ((2, 3) : Int32 × Int32) with
    phase := .returned (some firstReply)
    timer := .running
    heard := [firstReply]
    timely := [firstReply, secondReply] }

def spoiledClient : Client where
  nextRequestId := 3
  slot := ⟨secondReply, true⟩
  calls := [givenUpCall, spoiledCall]
  written := [0, 1]
  delivered := [firstReply, secondReply]

theorem result_spoiledCall :
    spoiledCall.result standard =
      some (.throws (.stdException "rpc response id does not match request id")) :=
  congrArg some (ClientStub.checkResponse_okPayload_of_ne lawful_standard .add .add
    (show (1 : UInt64) ≠ 2 by decide) (2 : Int32))

/-- The second call consumes the late reply, and throws although its own reply is
in time. -/
theorem spoiledEvents_lose_reply :
    Transition.run step start spoiledEvents = some spoiledClient ∧
      Transition.Guarded step OneAtATime start spoiledEvents ∧
      Transition.Guarded step (RepliesInOrder standard) start spoiledEvents ∧
        ¬ spoiledClient.ReturnsTimelyReplies standard := by
  refine ⟨by decide, by decide, by decide, ?_⟩
  intro hreturns
  have hmem : spoiledCall ∈ spoiledClient.calls := by simp [spoiledClient]
  have htimely : secondReply ∈ spoiledCall.timely := by simp [spoiledCall]
  have hreply := ClientStub.okReply_okPayload lawful_standard .add 2 (5 : Int32)
  rcases hreturns spoiledCall hmem secondReply htimely (5 : Int32) hreply with
    hresult | ⟨hphase, _⟩
  · rw [result_spoiledCall] at hresult
    exact absurd (Option.some.inj hresult) (by simp)
  · simp [spoiledCall] at hphase

end Client

end RpcDemo
