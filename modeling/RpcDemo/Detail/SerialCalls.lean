import RpcDemo.Detail.Quiescence
import RpcDemo.Detail.RemoteCall

/-!
# Calls that take turns

When the calls of a client use the slot one after another and none gives up,
every request but the last is answered before the next one is written.  Then the
first message after a call has cleared the slot is its own reply, whatever the
network does; nobody has to promise it.
-/

namespace RpcDemo

open RpcDemo.Frame
open RpcDemo.Proto
open RpcDemo.ServerStub

/-! ## The slot -/

namespace Client

/-- Every request has been answered, but for that of the call in the slot. -/
structure SerialInv (client : Client) : Prop where
  window : ∀ index, WindowInv index client
  one : ∀ (left right : ℕ) (call other : CallState), client.calls[left]? = some call →
    client.calls[right]? = some other → call.InSlot → other.InSlot → left = right
  free : (∀ call ∈ client.calls, ¬ call.InSlot) →
    client.delivered.length = client.written.length
  cleared : ∀ (index : ℕ) (call : CallState), client.calls[index]? = some call →
    call.phase = .cleared → call.clearedAt = client.written.length
  own : ∀ (index : ℕ) (call : CallState), client.calls[index]? = some call →
    call.phase = .waiting ∨ call.Finished → client.written[call.clearedAt]? = some index
  answered : ∀ (index : ℕ) (call : CallState), client.calls[index]? = some call →
    call.Finished → call.heard ≠ []

theorem serialInv_start : SerialInv start where
  window index := windowInv_start index
  one := by simp [start]
  free _ := rfl
  cleared := by simp [start]
  own := by simp [start]
  answered := by simp [start]

/-- The calls use the slot one after another, on an open session, and wait for
their replies. -/
structure TakesTurns (client : Client) (event : Event) : Prop where
  alone : ∀ index, client.Alone index event
  connected : ∀ index, event ≠ .turn index (.check false)
  patient : ∀ index, event ≠ .turn index .giveUp

section Steps

variable {client next : Client} {event : Event}

theorem inSlot_before (hstep : client.step event = some next) {index : ℕ} {moved : CallState}
    (hmoved : next.calls[index]? = some moved) (hin : moved.InSlot) :
    (∃ call : CallState, client.calls[index]? = some call ∧ call.InSlot) ∨
      event = .turn index .clear := by
  cases became_of_step hstep hmoved with
  | begun method args hindex => simp [CallState.InSlot, CallState.begin] at hin
  | heard data call hcall => exact .inl ⟨call, hcall, hin⟩
  | kept _ _ hcall => exact .inl ⟨moved, hcall, hin⟩
  | turned turn call moved hcall hturned =>
      cases hturned with
      | clear hphase => exact .inr rfl
      | write hphase => exact .inl ⟨call, hcall, .inl hphase⟩
      | expire htimer => exact .inl ⟨call, hcall, hin⟩
      | pass | refuse | wake | giveUp => simp [CallState.InSlot] at hin

theorem one_step (hinv : client.SerialInv) (hturns : client.TakesTurns event)
    (hstep : client.step event = some next) {left right : ℕ} {call other : CallState}
    (hcall : next.calls[left]? = some call) (hother : next.calls[right]? = some other)
    (hin : call.InSlot) (hotherIn : other.InSlot) : left = right := by
  by_contra hne
  rcases inSlot_before hstep hcall hin with ⟨before, hbefore, hwas⟩ | rfl
  · rcases inSlot_before hstep hother hotherIn with ⟨earlier, hearlier, hearlierIn⟩ | rfl
    · exact hne (hinv.one left right before earlier hbefore hearlier hwas hearlierIn)
    · exact hturns.alone left (fun heq => hne heq.symm) before hbefore hwas
  · rcases inSlot_before hstep hother hotherIn with ⟨earlier, hearlier, hearlierIn⟩ | hclear
    · exact hturns.alone right hne earlier hearlier hearlierIn
    · simp only [Event.turn.injEq, and_true] at hclear
      exact hne hclear

/-- A call that finds the slot filled has heard its reply, and it was the last
one due. -/
theorem SerialInv.heard_of_received (hinv : client.SerialInv) {index : ℕ} {call : CallState}
    (hcall : client.calls[index]? = some call) (hphase : call.phase = .waiting)
    (hreceived : client.slot.responseReceived = true) :
    call.heard ≠ [] ∧ client.delivered.length = client.written.length := by
  have hwindow := hinv.window index
  have hheard : call.heard ≠ [] := by
    intro hnil
    rw [hwindow.slot.slot call hcall (.inr hphase), hnil] at hreceived
    exact absurd hreceived (by simp [Slot.holding])
  refine ⟨hheard, ?_⟩
  have hposition := position_of_last hwindow.nodup (hwindow.last call hcall hphase)
    (hinv.own index call hcall (.inl hphase))
  have hcounted := hwindow.counted
  obtain ⟨hle, hdrop⟩ := hwindow.within call hcall (.inr hphase)
  have hlength := List.length_pos_iff.mpr (hdrop ▸ hheard)
  rw [List.length_drop] at hlength
  omega

theorem free_of_clear (hinv : client.SerialInv) {index : ℕ} {call : CallState}
    (halone : ∀ other, client.Alone other (.turn index .clear))
    (hcall : client.calls[index]? = some call) (hphase : call.phase = .checked) :
    client.delivered.length = client.written.length := by
  apply hinv.free
  intro other hmem hin
  obtain ⟨position, hposition⟩ := List.mem_iff_getElem?.mp hmem
  by_cases hindex : index = position
  · subst hindex
    obtain rfl := Option.some.inj (hcall.symm.trans hposition)
    simp [CallState.InSlot, hphase] at hin
  · exact halone position hindex other hposition hin

theorem free_step (hinv : client.SerialInv) (hturns : client.TakesTurns event)
    (hsolicited : client.Solicited event) (hstep : client.step event = some next)
    (hfree : ∀ call ∈ next.calls, ¬ call.InSlot) :
    next.delivered.length = next.written.length := by
  cases stepped_of_step hstep with
  | call method args =>
      apply hinv.free
      intro call hmem
      exact hfree call (List.mem_append_left _ hmem)
  | deliver data =>
      have hnone : ∀ call ∈ client.calls, ¬ call.InSlot := by
        intro call hmem
        exact hfree (call.hear data) (List.mem_map_of_mem hmem)
      exact absurd (hinv.free hnone) (Nat.ne_of_lt hsolicited)
  | turn index turn call moved hcall hturned =>
      have hlt := (List.getElem?_eq_some_iff.mp hcall).1
      have hmoved : ¬ moved.InSlot := hfree moved (List.mem_set hlt moved)
      have hbefore : ¬ call.InSlot → client.delivered.length = client.written.length := by
        intro hout
        apply hinv.free
        intro other hmem
        obtain ⟨position, hposition⟩ := List.mem_iff_getElem?.mp hmem
        by_cases hindex : index = position
        · subst hindex
          obtain rfl := Option.some.inj (hcall.symm.trans hposition)
          exact hout
        · apply hfree other
          apply List.mem_of_getElem?
          rw [advance, List.getElem?_set_ne hindex]
          exact hposition
      cases hturned with
      | pass hphase | refuse hphase =>
          exact hbefore (by simp [CallState.InSlot, hphase])
      | clear hphase => exact absurd (.inl rfl) hmoved
      | write hphase => exact absurd (.inr rfl) hmoved
      | wake hphase hreceived => exact (hinv.heard_of_received hcall hphase hreceived).2
      | expire htimer => exact hbefore hmoved
      | giveUp => exact absurd rfl (hturns.patient index)

theorem cleared_step (hinv : client.SerialInv) (hturns : client.TakesTurns event)
    (hstep : client.step event = some next) {index : ℕ} {moved : CallState}
    (hmoved : next.calls[index]? = some moved) (hphase : moved.phase = .cleared) :
    moved.clearedAt = next.written.length := by
  have hgrown := written_of_step hstep
  cases became_of_step hstep hmoved with
  | begun method args hindex => simp [CallState.begin] at hphase
  | heard data call hcall =>
      rw [hgrown]
      exact hinv.cleared index call hcall hphase
  | kept _ _ hcall hturn =>
      rw [written_of_alone (hturns.alone index) hstep hcall (.inl hphase) hturn]
      exact hinv.cleared index moved hcall hphase
  | turned turn call moved hcall hturned =>
      cases hturned with
      | clear hchecked =>
          rw [hgrown]
          exact free_of_clear hinv hturns.alone hcall hchecked
      | expire htimer =>
          rw [hgrown]
          exact hinv.cleared index call hcall hphase
      | pass | refuse | write | wake | giveUp => simp at hphase

theorem position_step (hinv : client.SerialInv) (hturns : client.TakesTurns event)
    (hstep : client.step event = some next) {index : ℕ} {moved : CallState}
    (hmoved : next.calls[index]? = some moved)
    (hphase : moved.phase = .waiting ∨ moved.Finished) :
    next.written[moved.clearedAt]? = some index := by
  have hgrown := written_of_step hstep
  have hkept : client.written[moved.clearedAt]? = some index →
      next.written[moved.clearedAt]? = some index := by
    intro hposition
    rw [hgrown]
    split
    · exact List.getElem?_append_left (List.getElem?_eq_some_iff.mp hposition).1 ▸ hposition
    · exact hposition
  cases became_of_step hstep hmoved with
  | begun method args hindex => simp [CallState.begin, CallState.Finished] at hphase
  | heard data call hcall => exact hkept (hinv.own index call hcall hphase)
  | kept _ _ hcall => exact hkept (hinv.own index moved hcall hphase)
  | turned turn call moved hcall hturned =>
      cases hturned with
      | write hcleared =>
          rw [hgrown, hinv.cleared index call hcall hcleared]
          exact List.getElem?_concat_length
      | wake hwaiting hreceived => exact hkept (hinv.own index call hcall (.inl hwaiting))
      | expire htimer => exact hkept (hinv.own index call hcall hphase)
      | refuse => exact absurd rfl (hturns.connected index)
      | giveUp => exact absurd rfl (hturns.patient index)
      | pass | clear => simp [CallState.Finished] at hphase

theorem answered_step (hinv : client.SerialInv) (hturns : client.TakesTurns event)
    (hstep : client.step event = some next) {index : ℕ} {moved : CallState}
    (hmoved : next.calls[index]? = some moved) (hfinished : moved.Finished) :
    moved.heard ≠ [] := by
  cases became_of_step hstep hmoved with
  | begun method args hindex => simp [CallState.begin, CallState.Finished] at hfinished
  | heard data call hcall =>
      have hout : ¬ call.InSlot := fun hin => hin.not_finished hfinished
      simpa [CallState.hear, hout] using hinv.answered index call hcall hfinished
  | kept _ _ hcall => exact hinv.answered index moved hcall hfinished
  | turned turn call moved hcall hturned =>
      cases hturned with
      | wake hwaiting hreceived => exact (hinv.heard_of_received hcall hwaiting hreceived).1
      | expire htimer => exact hinv.answered index call hcall hfinished
      | refuse => exact absurd rfl (hturns.connected index)
      | giveUp => exact absurd rfl (hturns.patient index)
      | pass | clear | write => simp [CallState.Finished] at hfinished

theorem serialInv_step (hinv : client.SerialInv) (hturns : client.TakesTurns event)
    (hsolicited : client.Solicited event) (hstep : client.step event = some next) :
    next.SerialInv where
  window index := windowInv_step (hinv.window index) (hturns.alone index) hsolicited hstep
  one _ _ _ _ := one_step hinv hturns hstep
  free := free_step hinv hturns hsolicited hstep
  cleared _ _ := cleared_step hinv hturns hstep
  own _ _ := position_step hinv hturns hstep
  answered _ _ := answered_step hinv hturns hstep

end Steps

end Client

/-! ## Client and server -/

/-- The server answers the payload, with a reply that the read loop of the client
accepts. -/
def RepliesTo (proto : Protobuf) (fault : Option Exn) (data : Payload) : Prop :=
  ∃ answer, handleRequest proto fault data = .returns answer ∧
    reasonableLength answer.reply.length

/-- The transport carries the request of the call, and the server can execute
it. -/
structure CallState.Answerable (proto : Protobuf) (call : CallState) : Prop where
  request : reasonableLength (call.requestBytes proto).length
  reply : RepliesTo proto none (call.requestBytes proto)

namespace Remote

variable {proto : Protobuf} {remote next : Remote} {event : Event}

/-- The calls take turns and wait for their replies, the network does not fail,
nobody closes the session, and the server is asked nothing it cannot answer. -/
def Serial (proto : Protobuf) (remote : Remote) : Event → Prop
  | .call method args =>
      (CallState.begin remote.client.nextRequestId method args).Answerable proto
  | .turn index turn =>
      turn ≠ .giveUp ∧ ∀ other, remote.client.Alone other (.turn index turn)
  | .network event => event.Benign
  | .clientTurn => True
  | .serverTurn fault => ∀ data ∈ (remote.link.session .right).pendingMessage,
      RepliesTo proto fault data

structure SerialInv (proto : Protobuf) (remote : Remote) : Prop where
  inv : ∀ index, Inv proto index remote
  client : remote.client.SerialInv
  link : remote.link.BenignInv
  running : remote.trapped = false
  answerable : ∀ call ∈ remote.client.calls, call.Answerable proto
  reasonable : ∀ side, ∀ data ∈ (remote.link.session side).posted, reasonableLength data.length

theorem serialInv_start : SerialInv proto start where
  inv index := inv_start index
  client := Client.serialInv_start
  link := Link.benignInv_start
  running := rfl
  answerable := by simp [start, Client.start]
  reasonable side := by cases side <;> simp [start, Link.start, Link.session, Session.start,
    Session.doReadHeader, Session.resizeBuffer, Session.fresh]

theorem fits_of_reasonable {length : ℕ} (hreasonable : reasonableLength length) :
    length < 2 ^ 32 :=
  Nat.lt_of_le_of_lt hreasonable.2 (by decide)

theorem SerialInv.reasonable_requestAt (hinv : SerialInv proto remote) {index : ℕ}
    {call : CallState} (hcall : remote.client.calls[index]? = some call) :
    reasonableLength (remote.client.requestAt proto index).length := by
  simp only [Client.requestAt, hcall]
  exact (hinv.answerable call (List.mem_of_getElem? hcall)).request

theorem alone_of_serial (hserial : remote.Serial proto event) (index : ℕ) :
    remote.Alone index event := by
  cases event with
  | turn taken turn => exact hserial.2 index
  | call | network | clientTurn | serverTurn => trivial

theorem SerialInv.fitsHeader (hinv : SerialInv proto remote)
    (hserial : remote.Serial proto event) : remote.FitsHeader proto event := by
  cases event with
  | turn index turn =>
      cases turn with
      | write =>
          show (remote.client.requestAt proto index).length < 2 ^ 32
          cases hcall : remote.client.calls[index]? with
          | none => simp [Client.requestAt, hcall]
          | some call => exact fits_of_reasonable (hinv.reasonable_requestAt hcall)
      | check | clear | wake | expire | giveUp => trivial
  | serverTurn fault =>
      intro data hpending
      obtain ⟨answer, hanswer, hreasonable⟩ := hserial data hpending
      rw [hanswer]
      exact fits_of_reasonable hreasonable
  | call | network | clientTurn => trivial

/-- The client's session is open as long as the server's replies are
reasonable. -/
theorem SerialInv.isOpen (hinv : SerialInv proto remote) (side : Side) :
    (remote.link.session side).isOpen = true := by
  have hrunning := hinv.link.running (hinv.reasonable side.peer)
  rw [Side.peer_peer] at hrunning
  exact hrunning.1

theorem isOpen_of_check {index : ℕ} {isOpen : Bool}
    (hstep : step proto remote (.turn index (.check isOpen)) = some next) :
    isOpen = (remote.link.session .left).isOpen := by
  obtain ⟨client, -, hchecked⟩ := Option.bind_eq_some_iff.mp hstep
  rw [Option.ite_none_right_eq_some] at hchecked
  exact hchecked.1

theorem SerialInv.takesTurns (hinv : SerialInv proto remote) {index : ℕ} {turn : Turn}
    (hserial : remote.Serial proto (.turn index turn))
    (hstep : step proto remote (.turn index turn) = some next) :
    remote.client.TakesTurns (.turn index turn) where
  alone := hserial.2
  connected := by
    rintro other heq
    obtain ⟨rfl, rfl⟩ := Client.Event.turn.inj heq
    have hopen := isOpen_of_check hstep
    rw [hinv.isOpen .left] at hopen
    exact Bool.false_ne_true hopen
  patient := by
    rintro other heq
    exact hserial.1 (Client.Event.turn.inj heq).2

/-- What a step is to the client. -/
def clientEvent? (remote : Remote) : Event → Option Client.Event
  | .call method args => some (.call method args)
  | .turn index turn => some (.turn index turn)
  | .clientTurn => (remote.link.session .left).pendingMessage.map .deliver
  | .network _ | .serverTurn _ => none

theorem client_step (hstep : step proto remote event = some next) :
    (∃ clientEvent, remote.clientEvent? event = some clientEvent ∧
      remote.client.step clientEvent = some next.client) ∨
    remote.clientEvent? event = none ∧ next.client = remote.client := by
  cases stepped_of_step hstep with
  | call method args => exact .inl ⟨_, rfl, rfl⟩
  | turn index turn client hwrite hclient => exact .inl ⟨_, rfl, hclient⟩
  | write index client link hclient hlink => exact .inl ⟨_, rfl, hclient⟩
  | hear data link hpending => exact .inl ⟨.deliver data, by simp [clientEvent?, hpending], rfl⟩
  | clientTurn link hpending => exact .inr ⟨by simp [clientEvent?, hpending], rfl⟩
  | network | serve | trap | serverTurn => exact .inr ⟨rfl, rfl⟩

/-- A message delivered to the client answers a request that was not yet
answered. -/
theorem solicited_of_inv (hinvNext : Inv proto 0 next) {clientEvent : Client.Event}
    (hmoved : remote.client.step clientEvent = some next.client) :
    remote.client.Solicited clientEvent := by
  cases clientEvent with
  | call | turn => trivial
  | deliver data =>
      have hcounted := hinvNext.window.counted
      rw [Client.delivered_step hmoved, Client.written_of_step hmoved,
        List.length_append] at hcounted
      exact hcounted

theorem SerialInv.client_step (hinv : SerialInv proto remote)
    (hserial : remote.Serial proto event) (hinvNext : Inv proto 0 next)
    (hstep : step proto remote event = some next) : next.client.SerialInv := by
  rcases Remote.client_step hstep with ⟨clientEvent, hclient, hmoved⟩ | ⟨-, hsame⟩
  · apply Client.serialInv_step hinv.client _ (solicited_of_inv hinvNext hmoved) hmoved
    cases event with
    | turn index turn =>
        obtain rfl := Option.some.inj hclient
        exact hinv.takesTurns hserial hstep
    | call method args =>
        obtain rfl := Option.some.inj hclient
        exact ⟨fun _ => trivial, by simp, by simp⟩
    | clientTurn =>
        obtain ⟨data, -, rfl⟩ := Option.map_eq_some_iff.mp hclient
        exact ⟨fun _ => trivial, by simp, by simp⟩
    | network | serverTurn => exact absurd hclient (by simp [clientEvent?])
  · rw [hsame]
    exact hinv.client

theorem SerialInv.link_step (hinv : SerialInv proto remote)
    (hserial : remote.Serial proto event) (hstep : step proto remote event = some next) :
    next.link.BenignInv := by
  cases stepped_of_step hstep with
  | call | turn | trap => exact hinv.link
  | write index client link hclient hlink =>
      exact Link.benignInv_step hinv.link (by simp [Link.Event.Benign]) hlink
  | network event link hallows hlink => exact Link.benignInv_step hinv.link hserial hlink
  | hear data link hpending hlink =>
      exact Link.benignInv_step hinv.link (by simp [Link.Event.Benign]) hlink
  | clientTurn link hpending hlink =>
      exact Link.benignInv_step hinv.link (by simp [Link.Event.Benign, Session.silent]) hlink
  | serve fault data answer link hpending hanswer hlink =>
      exact Link.benignInv_step hinv.link (by simp [Link.Event.Benign]) hlink
  | serverTurn fault link hpending hlink =>
      exact Link.benignInv_step hinv.link (by simp [Link.Event.Benign, Session.silent]) hlink

theorem running_step (hinv : SerialInv proto remote) (hserial : remote.Serial proto event)
    (hstep : step proto remote event = some next) : next.trapped = false := by
  cases stepped_of_step hstep with
  | trap fault data hpending hanswer =>
      obtain ⟨answer, hreturns, -⟩ := hserial data hpending
      exact absurd hreturns (hanswer answer)
  | _ => exact hinv.running

theorem answerable_step (hinv : SerialInv proto remote) (hserial : remote.Serial proto event)
    (hstep : step proto remote event = some next) :
    ∀ call ∈ next.client.calls, call.Answerable proto := by
  intro moved hmem
  rcases client_step hstep with ⟨clientEvent, hclient, hmoved⟩ | ⟨-, hsame⟩
  · obtain ⟨index, hindex⟩ := List.mem_iff_getElem?.mp hmem
    have hkept : ∀ call : CallState, remote.client.calls[index]? = some call →
        moved.requestBytes proto = call.requestBytes proto → moved.Answerable proto := by
      intro call hcall hsame
      obtain ⟨hrequest, hreply⟩ := hinv.answerable call (List.mem_of_getElem? hcall)
      exact ⟨hsame ▸ hrequest, hsame ▸ hreply⟩
    cases Client.became_of_step hmoved hindex with
    | begun method args hbegun =>
        cases event with
        | call other otherArgs =>
            obtain ⟨rfl, hargs⟩ := Client.Event.call.inj (Option.some.inj hclient)
            exact eq_of_heq hargs ▸ hserial
        | turn | clientTurn | network | serverTurn => simp [clientEvent?] at hclient
    | heard data call hcall => exact hkept call hcall rfl
    | kept _ _ hcall => exact hkept moved hcall rfl
    | turned turn call moved hcall hturned =>
        exact hkept call hcall (hturned.requestBytes_eq proto)
  · exact hinv.answerable moved (hsame ▸ hmem)

/-- What a step posts is the request of a call or a reply of the server. -/
theorem reasonable_step (hinv : SerialInv proto remote) (hserial : remote.Serial proto event)
    (hstep : step proto remote event = some next) (side : Side) :
    ∀ data ∈ (next.link.session side).posted, reasonableLength data.length := by
  have hkept : ∀ link : Link,
      (link.session side).posted = (remote.link.session side).posted →
        ∀ data ∈ (link.session side).posted, reasonableLength data.length := by
    intro link hsame
    rw [hsame]
    exact hinv.reasonable side
  have hposts : ∀ {owner : Side} {localEvent : Session.Event} {link : Link} {more : List Payload},
      remote.link.step (.on owner localEvent) = some link →
      (link.session owner).posted = (remote.link.session owner).posted ++ more →
      (∀ data ∈ more, reasonableLength data.length) →
        ∀ data ∈ (link.session side).posted, reasonableLength data.length := by
    intro owner localEvent link more hlink hposted hmore data hmem
    rcases Link.side_cases owner side with rfl | rfl
    · rw [hposted, List.mem_append] at hmem
      exact hmem.elim (hinv.reasonable side data) (hmore data)
    · rw [(Link.session_step_on hlink).2] at hmem
      exact hinv.reasonable owner.peer data hmem
  cases stepped_of_step hstep with
  | call | turn | trap => exact hinv.reasonable side
  | network event link hallows hlink =>
      exact hkept link (messages_of_allowed hallows hlink side).2
  | write index client link hclient hlink =>
      obtain ⟨call, hcall, -⟩ := Option.bind_eq_some_iff.mp hclient
      have hposted := (Session.messages_of_asyncWrite (Link.session_step_on hlink).1).2
      apply hposts hlink hposted
      intro data hmem
      rw [List.mem_singleton.mp hmem,
        requestAt_step hclient (List.getElem?_eq_some_iff.mp hcall).1]
      exact hinv.reasonable_requestAt hcall
  | hear data link hpending hlink =>
      have hposted := (Session.messages_of_pending hpending (Link.session_step_on hlink).1).2
      exact hposts hlink hposted (by simp [Session.replies])
  | serve fault data answer link hpending hanswer hlink =>
      have hposted := (Session.messages_of_pending hpending (Link.session_step_on hlink).1).2
      apply hposts hlink hposted
      intro reply hmem
      obtain ⟨other, hother, hreasonable⟩ := hserial data hpending
      obtain rfl := Outcome.returns.inj (hanswer.symm.trans hother)
      simp only [Session.replies, List.filterMap_cons, Call.payload, List.filterMap_nil,
        List.mem_singleton] at hmem
      exact hmem ▸ hreasonable
  | clientTurn link hpending hlink =>
      have hposted := (Session.messages_of_turn hpending (Link.session_step_on hlink).1).2
      exact hposts hlink (hposted.trans (List.append_nil _).symm) (by simp)
  | serverTurn fault link hpending hlink =>
      have hposted := (Session.messages_of_turn hpending (Link.session_step_on hlink).1).2
      exact hposts hlink (hposted.trans (List.append_nil _).symm) (by simp)

theorem serialInv_step (hinv : SerialInv proto remote) (hserial : remote.Serial proto event)
    (hstep : step proto remote event = some next) : SerialInv proto next := by
  have hnext : ∀ index, Inv proto index next := fun index =>
    inv_step (hinv.inv index) (alone_of_serial hserial index) (hinv.fitsHeader hserial) hstep
  exact {
    inv := hnext
    client := hinv.client_step hserial (hnext 0) hstep
    link := hinv.link_step hserial hstep
    running := running_step hinv hserial hstep
    answerable := answerable_step hinv hserial hstep
    reasonable := reasonable_step hinv hserial hstep }

theorem serialInv_run {events : List Event}
    (hserial : Transition.Guarded (step proto) (Serial proto) start events)
    (hrun : Transition.run (step proto) start events = some remote) : SerialInv proto remote :=
  Transition.run_invariant_of_guarded
    (fun _ _ _ hinv hguard hstep => serialInv_step hinv hguard hstep)
    serialInv_start hserial hrun

end Remote

end RpcDemo
