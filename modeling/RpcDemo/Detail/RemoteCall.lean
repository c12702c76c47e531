import RpcDemo.Detail.Remote

/-!
# A remote call equals a local call

Messages number `k` of the two sessions are request and reply of each other.  So
a call that is answered first returns what the server's invocation of its
method yields: the value its own function returns, or the text of the exception.
-/

namespace RpcDemo

open RpcDemo.Frame
open RpcDemo.Proto
open RpcDemo.ServerStub

/-! ## What a step posts and delivers -/

namespace Session

variable {session next : Session}

theorem pendingMessage_eq_some {data : Payload} (hpending : session.pendingMessage = some data) :
    session.readBuffer = data ∧ ∃ strand, session.strand = .read .body none :: strand := by
  unfold pendingMessage at hpending
  split at hpending
  case h_1 strand hstrand => exact ⟨Option.some.inj hpending, strand, hstrand⟩
  case h_2 => exact absurd hpending (by simp)

theorem messages_of_pending {data leftover : Payload} {calls : List Call}
    (hpending : session.pendingMessage = some data)
    (hstep : session.step (.run ⟨calls, leftover⟩) = some next) :
    next.messages = session.messages ++ [data] ∧
      next.posted = session.posted ++ replies calls := by
  obtain ⟨rfl, strand, hstrand⟩ := pendingMessage_eq_some hpending
  simp only [step, runStep, hstrand, Option.some.injEq] at hstep
  subst hstep
  rw [runHandler, onReadBody, onMessage_eq]
  exact ⟨rfl, rfl⟩

theorem messages_of_asyncWrite {data : Payload}
    (hstep : session.step (.asyncWrite data) = some next) :
    next.messages = session.messages ∧ next.posted = session.posted ++ [data] := by
  obtain rfl := Option.some.inj hstep
  exact ⟨rfl, rfl⟩

theorem messages_of_turn (hpending : session.pendingMessage = none)
    (hstep : session.step (.run silent) = some next) :
    next.messages = session.messages ∧ next.posted = session.posted := by
  cases stepped_of_step hstep with
  | run handler strand reaction hstrand =>
      have hbody : handler ≠ .read .body none := by
        rintro rfl
        simp [pendingMessage, hstrand] at hpending
      have hsame := sameHistories_runHandler { session with strand := strand } silent hbody
      exact ⟨hsame.messages, hsame.posted⟩

theorem messages_of_network {event : Event} (hnetwork : event.OfSocket ∨ event = .close)
    (hstep : session.step event = some next) :
    next.messages = session.messages ∧ next.posted = session.posted := by
  rcases hnetwork with hsocket | rfl
  · have hframe := socketFrame_of_step hsocket hstep
    exact ⟨hframe.messages, hframe.posted⟩
  · obtain rfl := Option.some.inj hstep
    exact ⟨rfl, rfl⟩

end Session

namespace Link

variable {link next : Link}

theorem session_step_on {side : Side} {event : Session.Event}
    (hstep : link.step (.on side event) = some next) :
    (link.session side).step event = some (next.session side) ∧
      next.session side.peer = link.session side.peer := by
  have hside := session_step side hstep
  have hpeer := session_step side.peer hstep
  have hne : side ≠ side.peer := fun heq => Side.peer_ne side heq.symm
  simp only [local?, if_true] at hside
  simp only [local?, hne, if_false] at hpeer
  exact ⟨hside, hpeer⟩

theorem session_step_segment {side : Side} {count : ℕ}
    (hstep : link.step (.segment side count) = some next) :
    (link.session side.peer).step (.arrive ((link.flight side).take count)) =
        some (next.session side.peer) ∧
      next.session side = link.session side := by
  have hside := session_step side hstep
  have hpeer := session_step side.peer hstep
  simp only [local?, Side.peer_ne, if_false] at hside
  simp only [local?, if_true] at hpeer
  exact ⟨hpeer, hside⟩

end Link

namespace Remote

variable {proto : Protobuf} {index : ℕ} {remote next : Remote}

theorem messages_of_allowed {event : Link.Event} {link : Link}
    (hallows : remote.Allows event) (hlink : remote.link.step event = some link)
    (side : Side) :
    (link.session side).messages = (remote.link.session side).messages ∧
      (link.session side).posted = (remote.link.session side).posted := by
  cases event with
  | segment sender count =>
      obtain ⟨hpeer, hsame⟩ := Link.session_step_segment hlink
      rcases Link.side_cases sender side with rfl | rfl
      · rw [hsame]
        exact ⟨rfl, rfl⟩
      · have harrive : Session.Event.OfSocket
            (.arrive ((remote.link.flight sender).take count)) := trivial
        exact Session.messages_of_network (.inl harrive) hpeer
  | on owner event =>
      obtain ⟨howner, hsame⟩ := Link.session_step_on hlink
      have hnetwork : event.OfSocket ∨ event = .close := by
        cases owner with
        | left => exact hallows
        | right => exact hallows.2
      rcases Link.side_cases owner side with rfl | rfl
      · exact Session.messages_of_network hnetwork howner
      · rw [hsame]
        exact ⟨rfl, rfl⟩

/-! ## The invariant of the connection -/

/-- While the call at `index` uses the slot, no other call clears it or writes a
request. -/
def Alone (index : ℕ) (remote : Remote) : Event → Prop
  | .turn other turn => remote.client.Alone index (.turn other turn)
  | _ => True

instance (index : ℕ) (remote : Remote) : (event : Event) → Decidable (remote.Alone index event)
  | .turn other turn => inferInstanceAs (Decidable (remote.client.Alone index (.turn other turn)))
  | .call _ _ | .network _ | .clientTurn | .serverTurn _ => isTrue trivial

def ReplyFits : Outcome (Answer Payload) → Prop
  | .returns answer => answer.reply.length < 2 ^ 32
  | _ => True

instance : (outcome : Outcome (Answer Payload)) → Decidable (ReplyFits outcome)
  | .returns _ => inferInstanceAs (Decidable (_ < _))
  | .throws _ | .undefined => isTrue trivial

/-- The sizes of requests and replies fit the header of a frame. -/
def FitsHeader (proto : Protobuf) (remote : Remote) : Event → Prop
  | .turn index .write => (remote.client.requestAt proto index).length < 2 ^ 32
  | .serverTurn fault => ∀ data ∈ (remote.link.session .right).pendingMessage,
      ReplyFits (handleRequest proto fault data)
  | _ => True

instance (proto : Protobuf) (remote : Remote) :
    (event : Event) → Decidable (remote.FitsHeader proto event)
  | .turn _ .write => inferInstanceAs (Decidable (_ < _))
  | .serverTurn fault => inferInstanceAs
      (Decidable (∀ data ∈ (remote.link.session .right).pendingMessage,
        ReplyFits (handleRequest proto fault data)))
  | .turn _ (.check _) | .turn _ .clear | .turn _ .wake | .turn _ .expire | .turn _ .giveUp =>
      isTrue trivial
  | .call _ _ | .network _ | .clientTurn => isTrue trivial

/-- The server has answered the payload so. -/
def Serves (proto : Protobuf) (data : Payload) (service : Service) : Prop :=
  handleRequest proto service.fault data = .returns service.answer

/-- The sessions carry the requests written and the replies served, and what the
client got is what its session delivered. -/
structure Inv (proto : Protobuf) (index : ℕ) (remote : Remote) : Prop where
  window : Client.WindowInv index remote.client
  link : remote.link.LinkInv
  delivered : (remote.link.session .left).messages = remote.client.delivered
  requests : (remote.link.session .left).posted =
    remote.client.written.map (remote.client.requestAt proto)
  served : List.Forall₂ (Serves proto) (remote.link.session .right).messages remote.served
  replies : (remote.link.session .right).posted =
    remote.served.map fun service => service.answer.reply
  fits : ∀ side, ∀ data ∈ (remote.link.session side).posted, data.length < 2 ^ 32

theorem inv_start (index : ℕ) : Inv proto index start where
  window := Client.windowInv_start index
  link := Link.linkInv_start
  delivered := rfl
  requests := rfl
  served := .nil
  replies := rfl
  fits side := by cases side <;> simp [start, Link.start, Link.session, Session.start,
    Session.doReadHeader, Session.resizeBuffer, Session.fresh]

/-- A step does not change the request of a call. -/
theorem requestAt_step {client moved : Client} {event : Client.Event}
    (hstep : client.step event = some moved) {position : ℕ}
    (hindex : position < client.calls.length) :
    moved.requestAt proto position = client.requestAt proto position := by
  have hlt : position < moved.calls.length :=
    Nat.lt_of_lt_of_le hindex (Client.length_calls_step hstep)
  have hmoved := List.getElem?_eq_getElem hlt
  have hwas : ∀ call : CallState, client.calls[position]? = some call →
      (moved.calls[position]).requestBytes proto = call.requestBytes proto →
        moved.requestAt proto position = client.requestAt proto position := by
    intro call hcall hsame
    simp only [Client.requestAt, hmoved, hcall, hsame]
  generalize moved.calls[position] = after at hmoved hwas
  cases Client.became_of_step hstep hmoved with
  | begun method args hbegun => omega
  | heard data call hcall => exact hwas call hcall rfl
  | kept _ _ hcall hturn hdeliver => exact hwas after hcall rfl
  | turned turn call after hcall hturned =>
      exact hwas call hcall (hturned.requestBytes_eq proto)

theorem requests_step {client moved : Client} {event : Client.Event}
    (hinv : Client.WindowInv index client) (hstep : client.step event = some moved) :
    client.written.map (moved.requestAt proto) =
      client.written.map (client.requestAt proto) := by
  apply List.map_congr_left
  intro position hmem
  obtain ⟨call, hcall, _⟩ := hinv.written position hmem
  exact requestAt_step hstep (List.getElem?_eq_some_iff.mp hcall).1

/-- The client gets no more messages than it has posted requests. -/
theorem length_messages_le {link : Link} (hlink : link.LinkInv)
    (hfits : ∀ side, ∀ data ∈ (link.session side).posted, data.length < 2 ^ 32)
    (hserved : (link.session .right).posted.length = (link.session .right).messages.length) :
    (link.session .left).messages.length ≤ (link.session .left).posted.length :=
  calc (link.session .left).messages.length
      ≤ (link.session .right).posted.length :=
        (hlink.messages_isPrefix .right (hfits .right)).length_le
    _ = (link.session .right).messages.length := hserved
    _ ≤ (link.session .left).posted.length :=
        (hlink.messages_isPrefix .left (hfits .left)).length_le

theorem Inv.length_posted_right (hinv : Inv proto index remote) :
    (remote.link.session .right).posted.length =
      (remote.link.session .right).messages.length := by
  rw [hinv.replies, List.length_map, hinv.served.length_eq]

/-- The invariant only looks at what the two sessions have posted and delivered. -/
theorem Inv.congr_link (hinv : Inv proto index remote) {link : Link} (hlink : link.LinkInv)
    (hsame : ∀ side, (link.session side).messages = (remote.link.session side).messages ∧
      (link.session side).posted = (remote.link.session side).posted) :
    Inv proto index { remote with link := link } where
  window := hinv.window
  link := hlink
  delivered := (hsame .left).1.trans hinv.delivered
  requests := (hsame .left).2.trans hinv.requests
  served := (hsame .right).1.symm ▸ hinv.served
  replies := (hsame .right).2.trans hinv.replies
  fits side data hmem := hinv.fits side data ((hsame side).2 ▸ hmem)

/-- An event of the client that neither writes a request nor delivers a message. -/
theorem inv_client (hinv : Inv proto index remote) {event : Client.Event} {client : Client}
    (halone : remote.client.Alone index event) (hsolicited : remote.client.Solicited event)
    (hclient : remote.client.step event = some client)
    (hwritten : client.written = remote.client.written)
    (hdelivered : client.delivered = remote.client.delivered) :
    Inv proto index { remote with client := client } where
  window := Client.windowInv_step hinv.window halone hsolicited hclient
  link := hinv.link
  delivered := hinv.delivered.trans hdelivered.symm
  requests := by
    rw [hwritten, requests_step hinv.window hclient]
    exact hinv.requests
  served := hinv.served
  replies := hinv.replies
  fits := hinv.fits

theorem inv_turn (hinv : Inv proto index remote) {taken : ℕ} {turn : Turn} {client : Client}
    (halone : remote.client.Alone index (.turn taken turn)) (hwrite : turn ≠ .write)
    (hclient : remote.client.step (.turn taken turn) = some client) :
    Inv proto index { remote with client := client } := by
  have hwritten : client.written = remote.client.written := by
    rw [Client.written_of_step hclient]
    cases turn with
    | write => exact absurd rfl hwrite
    | _ => rfl
  have hdelivered : client.delivered = remote.client.delivered := by
    rw [Client.delivered_step hclient, List.append_nil]
  exact inv_client hinv halone trivial hclient hwritten hdelivered

theorem inv_write (hinv : Inv proto index remote) {writer : ℕ} {client : Client} {link : Link}
    (halone : remote.client.Alone index (.turn writer .write))
    (hclient : remote.client.step (.turn writer .write) = some client)
    (hlink : remote.link.step (.on .left (.asyncWrite (client.requestAt proto writer))) =
      some link)
    (hfits : (remote.client.requestAt proto writer).length < 2 ^ 32) :
    Inv proto index { remote with client := client, link := link } := by
  obtain ⟨hleft, hright⟩ := Link.session_step_on hlink
  obtain ⟨hmessages, hposted⟩ := Session.messages_of_asyncWrite hleft
  have hright' : link.session .right = remote.link.session .right := hright
  have hindex : writer < remote.client.calls.length := by
    obtain ⟨call, hcall, _⟩ := Option.bind_eq_some_iff.mp hclient
    exact (List.getElem?_eq_some_iff.mp hcall).1
  refine ⟨Client.windowInv_step hinv.window halone trivial hclient,
    Link.linkInv_step hinv.link hlink, ?_, ?_, ?_, ?_, ?_⟩
  · rw [hmessages, Client.delivered_step hclient, List.append_nil]
    exact hinv.delivered
  · rw [hposted, hinv.requests, Client.written_of_step hclient, List.map_append,
      requests_step hinv.window hclient]
    rfl
  · rw [hright']
    exact hinv.served
  · rw [hright']
    exact hinv.replies
  · intro side data hmem
    cases side with
    | left =>
        rw [hposted, List.mem_append, List.mem_singleton] at hmem
        rcases hmem with hmem | rfl
        · exact hinv.fits .left data hmem
        · rwa [requestAt_step hclient hindex]
    | right => exact hinv.fits .right data (hright' ▸ hmem)

theorem inv_hear (hinv : Inv proto index remote) {data : Payload} {link : Link}
    (hpending : (remote.link.session .left).pendingMessage = some data)
    (hlink : remote.link.step (.on .left (.run ⟨[], data⟩)) = some link) :
    Inv proto index { remote with client := remote.client.onMessage data, link := link } := by
  obtain ⟨hleft, hright⟩ := Link.session_step_on hlink
  obtain ⟨hmessages, hposted⟩ := Session.messages_of_pending hpending hleft
  have hposted' : (link.session .left).posted = (remote.link.session .left).posted := by
    rw [hposted]
    exact List.append_nil _
  have hright' : link.session .right = remote.link.session .right := hright
  have hlinkInv := Link.linkInv_step hinv.link hlink
  have hfits : ∀ side, ∀ payload ∈ (link.session side).posted, payload.length < 2 ^ 32 := by
    intro side payload hmem
    cases side with
    | left => exact hinv.fits .left payload (hposted' ▸ hmem)
    | right => exact hinv.fits .right payload (hright' ▸ hmem)
  have hclient : remote.client.step (.deliver data) = some (remote.client.onMessage data) := rfl
  have hsolicited : remote.client.delivered.length < remote.client.written.length := by
    have hle := length_messages_le hlinkInv hfits (hright' ▸ hinv.length_posted_right)
    rw [hmessages, hposted', hinv.delivered, hinv.requests, List.length_append,
      List.length_map] at hle
    exact hle
  have halone : remote.client.Alone index (.deliver data) := trivial
  refine ⟨Client.windowInv_step hinv.window halone hsolicited hclient, hlinkInv, ?_, ?_,
    ?_, ?_, hfits⟩
  · rw [hmessages, hinv.delivered]
    rfl
  · rw [hposted', hinv.requests]
    exact (requests_step hinv.window hclient).symm
  · rw [hright']
    exact hinv.served
  · rw [hright']
    exact hinv.replies

theorem inv_serve (hinv : Inv proto index remote) {fault : Option Exn} {data : Payload}
    {answer : Answer Payload} {link : Link}
    (hpending : (remote.link.session .right).pendingMessage = some data)
    (hanswer : handleRequest proto fault data = .returns answer)
    (hlink : remote.link.step (.on .right (.run ⟨[.reply answer.reply], data⟩)) = some link)
    (hfits : answer.reply.length < 2 ^ 32) :
    Inv proto index { remote with link := link, served := remote.served ++ [⟨fault, answer⟩] } := by
  obtain ⟨hright, hleft⟩ := Link.session_step_on hlink
  obtain ⟨hmessages, hposted⟩ := Session.messages_of_pending hpending hright
  have hleft' : link.session .left = remote.link.session .left := hleft
  have hposted' : (link.session .right).posted =
      (remote.link.session .right).posted ++ [answer.reply] := hposted
  have hserves : Serves proto data ⟨fault, answer⟩ := hanswer
  refine ⟨hinv.window, Link.linkInv_step hinv.link hlink, ?_, ?_, ?_, ?_, ?_⟩
  · rw [hleft']
    exact hinv.delivered
  · rw [hleft']
    exact hinv.requests
  · rw [hmessages]
    exact List.rel_append hinv.served (.cons hserves .nil)
  · rw [hposted', hinv.replies, List.map_append]
    rfl
  · intro side payload hmem
    cases side with
    | left => exact hinv.fits .left payload (hleft' ▸ hmem)
    | right =>
        rw [hposted', List.mem_append, List.mem_singleton] at hmem
        rcases hmem with hmem | rfl
        · exact hinv.fits .right payload hmem
        · exact hfits

/-- A turn of a strand that delivers nothing. -/
theorem inv_idle (hinv : Inv proto index remote) {side : Side} {link : Link}
    (hpending : (remote.link.session side).pendingMessage = none)
    (hlink : remote.link.step (.on side (.run Session.silent)) = some link) :
    Inv proto index { remote with link := link } := by
  obtain ⟨hside, hpeer⟩ := Link.session_step_on hlink
  apply hinv.congr_link (Link.linkInv_step hinv.link hlink)
  intro other
  rcases Link.side_cases side other with rfl | rfl
  · exact Session.messages_of_turn hpending hside
  · rw [hpeer]
    exact ⟨rfl, rfl⟩

theorem inv_step {event : Event} (hinv : Inv proto index remote)
    (halone : remote.Alone index event)
    (hfits : remote.FitsHeader proto event) (hstep : step proto remote event = some next) :
    Inv proto index next := by
  cases stepped_of_step hstep with
  | call method args =>
      have hclient : remote.client.step (.call method args) =
          some (remote.client.call method args) := rfl
      have hfree : remote.client.Alone index (.call method args) := trivial
      exact inv_client hinv hfree trivial hclient rfl rfl
  | turn taken turn client hwrite hclient => exact inv_turn hinv halone hwrite hclient
  | write writer client link hclient hlink =>
      exact inv_write hinv halone hclient hlink hfits
  | network event link hallows hlink =>
      exact hinv.congr_link (Link.linkInv_step hinv.link hlink)
        (messages_of_allowed hallows hlink)
  | hear data link hpending hlink => exact inv_hear hinv hpending hlink
  | clientTurn link hpending hlink => exact inv_idle hinv hpending hlink
  | serve fault data answer link hpending hanswer hlink =>
      have hreply := hfits data hpending
      rw [hanswer] at hreply
      exact inv_serve hinv hpending hanswer hlink hreply
  | trap fault data hpending hanswer =>
      exact ⟨hinv.window, hinv.link, hinv.delivered, hinv.requests, hinv.served, hinv.replies,
        hinv.fits⟩
  | serverTurn fault link hpending hlink => exact inv_idle hinv hpending hlink

theorem inv_run {events : List Event}
    (halone : Transition.Guarded (step proto) (Alone index) start events)
    (hfits : Transition.Guarded (step proto) (FitsHeader proto) start events)
    (hrun : Transition.run (step proto) start events = some remote) : Inv proto index remote :=
  Transition.run_invariant_of_guarded
    (fun _ _ _ hinv hguard hstep => inv_step hinv hguard.1 hguard.2 hstep)
    (inv_start index) (halone.and hfits) hrun

/-! ## Request and reply -/

theorem getElem?_of_isPrefix {payloads longer : List Payload} {position : ℕ} {data : Payload}
    (hstart : payloads <+: longer) (hdata : payloads[position]? = some data) :
    longer[position]? = some data := by
  obtain ⟨rest, rfl⟩ := hstart
  rwa [List.getElem?_append_left (List.getElem?_eq_some_iff.mp hdata).1]

/-- Message number `position` of the client is the server's reply to request
number `position`. -/
theorem Inv.service_of_delivered (hinv : Inv proto index remote) {position asker : ℕ}
    {data : Payload} (hdata : remote.client.delivered[position]? = some data)
    (hindex : remote.client.written[position]? = some asker) :
    ∃ service, remote.served[position]? = some service ∧ service.answer.reply = data ∧
      Serves proto (remote.client.requestAt proto asker) service := by
  rw [← hinv.delivered] at hdata
  have hreply := getElem?_of_isPrefix (hinv.link.messages_isPrefix .right (hinv.fits .right)) hdata
  rw [hinv.replies, List.getElem?_map, Option.map_eq_some_iff] at hreply
  obtain ⟨service, hservice, hdata⟩ := hreply
  obtain ⟨hlt, hget⟩ := List.getElem?_eq_some_iff.mp hservice
  have hlt' : position < (remote.link.session .right).messages.length :=
    hinv.served.length_eq ▸ hlt
  have hserves := hinv.served.get hlt' hlt
  have hmessages : (remote.link.session .right).messages <+:
      (remote.link.session .left).posted :=
    hinv.link.messages_isPrefix .left (hinv.fits .left)
  have hrequest := getElem?_of_isPrefix hmessages (List.getElem?_eq_getElem hlt')
  rw [hinv.requests, List.getElem?_map, hindex, Option.map_some, Option.some.injEq] at hrequest
  rw [List.get_eq_getElem, List.get_eq_getElem, hget, ← hrequest] at hserves
  exact ⟨service, hservice, hdata, hserves⟩

/-- The methods invoked for the requests of a call. -/
def invocations (remote : Remote) (index : ℕ) : List Operation.Method :=
  ((remote.client.written.zip remote.served).filter fun served => served.1 = index).flatMap
    fun served => served.2.answer.invoked

theorem filter_zip_of_nodup {written : List ℕ} {served : List Service} {position index : ℕ}
    {service : Service} (hnodup : written.Nodup) (hindex : written[position]? = some index)
    (hservice : served[position]? = some service) :
    ((written.zip served).filter fun pair => pair.1 = index) = [(index, service)] := by
  induction written generalizing served position with
  | nil => simp at hindex
  | cons first written ih =>
      obtain ⟨hfirst, hrest⟩ := List.nodup_cons.mp hnodup
      cases served with
      | nil => simp at hservice
      | cons front served =>
          cases position with
          | zero =>
              obtain rfl : first = index := by simpa using hindex
              obtain rfl : front = service := by simpa using hservice
              have hnone : ((written.zip served).filter fun pair => pair.1 = first) = [] := by
                apply List.filter_eq_nil_iff.mpr
                intro pair hmem heq
                have hwritten := (List.of_mem_zip hmem).1
                rw [of_decide_eq_true heq] at hwritten
                exact hfirst hwritten
              simp [hnone]
          | succ position =>
              rw [List.getElem?_cons_succ] at hindex hservice
              have hne : first ≠ index := by
                rintro rfl
                exact hfirst (List.mem_of_getElem? hindex)
              simpa [hne] using ih hrest hindex hservice

/-- The server invokes the method of a call, and its checks accept the reply. -/
theorem checkResponse_of_serves (hlawful : proto.Lawful) {call : CallState}
    {service : Service} (hserves : Serves proto (call.requestBytes proto) service) :
    service.answer.invoked = [call.method] ∧
      ClientStub.checkResponse proto call.method call.id service.answer.reply =
        ClientStub.seenByCaller
          (attempt call.method service.fault (call.method.impl call.args)) := by
  have hparse : proto.request.parse (call.requestBytes proto) = some (call.request proto) :=
    hlawful.request _
  simp only [Serves, handleRequest, hparse] at hserves
  cases hdispatch : dispatch proto service.fault (call.request proto) with
  | throws exn => exact absurd (hdispatch ▸ hserves) (by simp [Outcome.bind])
  | undefined => exact absurd (hdispatch ▸ hserves) (by simp [Outcome.bind])
  | returns answer =>
      rw [hdispatch, Outcome.returns_bind, Outcome.returns.injEq] at hserves
      rw [← hserves]
      exact ⟨ClientStub.invoked_of_dispatch hlawful hdispatch,
        ClientStub.checkResponse_of_dispatch hlawful hdispatch (hlawful.response _)⟩

/-- In every run of the two sides whose sizes fit the header: if the reply to a
call is the first message delivered since the call cleared the slot, and no other
call clears the slot or writes while this one uses it, then the method of the
call is invoked exactly once, and the call returns the value of its own function,
or throws what the invocation threw; or it is about to wake with that reply. -/
theorem remote_call_eq_local_call (proto : Protobuf) (hlawful : proto.Lawful)
    {remote : Remote} {events : List Event}
    (hrun : Transition.run (step proto) start events = some remote)
    (hfits : Transition.Guarded (step proto) (FitsHeader proto) start events)
    {index : ℕ} {call : CallState} (hcall : remote.client.calls[index]? = some call)
    (hfirst : remote.client.AnsweredFirst index call)
    (halone : Transition.Guarded (step proto) (Alone index) start events) :
    ∃ service, remote.served[call.clearedAt]? = some service ∧
      call.heard = [service.answer.reply] ∧
      remote.invocations index = [call.method] ∧
      (call.result proto =
          some (ClientStub.seenByCaller
            (attempt call.method service.fault (call.method.impl call.args))) ∨
        call.phase = .waiting ∧ remote.client.slot = ⟨service.answer.reply, true⟩) := by
  have hinv := inv_run halone hfits hrun
  obtain ⟨data, hheard, hdata⟩ := hinv.window.heard_of_answeredFirst hcall hfirst
  obtain ⟨service, hservice, rfl, hserves⟩ := hinv.service_of_delivered hdata hfirst.own
  have hrequest : remote.client.requestAt proto index = call.requestBytes proto := by
    simp only [Client.requestAt, hcall]
  rw [hrequest] at hserves
  obtain ⟨hinvoked, hcheck⟩ := checkResponse_of_serves hlawful hserves
  refine ⟨service, hservice, hheard, ?_, ?_⟩
  · rw [invocations, filter_zip_of_nodup hinv.window.nodup hfirst.own hservice]
    simpa using hinvoked
  · rw [← hcheck]
    exact hinv.window.result_of_answeredFirst proto hcall hheard hfirst.own

/-- `add(2, 3)`, its request and its reply. -/
def sumCall : CallState :=
  CallState.begin 1 .add ((2, 3) : Int32 × Int32)

def sumRequest : Payload :=
  sumCall.requestBytes standard

def sumReply : Payload :=
  ClientStub.okPayload standard .add 1 (5 : Int32)

def sumEvents : List Event :=
  [.call .add ((2, 3) : Int32 × Int32), .turn 0 (.check true), .turn 0 .clear,
    .turn 0 .write, .clientTurn, .network (.on .left (.writeSome 14)), .clientTurn,
    .network (.segment .left 14), .network (.on .right (.readSome 4)), .serverTurn none,
    .network (.on .right (.readSome 10)), .serverTurn none, .serverTurn none,
    .network (.on .right (.writeSome 14)), .serverTurn none, .network (.segment .right 14),
    .network (.on .left (.readSome 4)), .clientTurn, .network (.on .left (.readSome 10)),
    .clientTurn, .turn 0 .wake]

def sumReturned : CallState :=
  { sumCall with
    phase := .returned (some sumReply)
    timer := .running
    heard := [sumReply]
    timely := [sumReply] }

def sumRemote : Remote where
  client := {
    nextRequestId := 2
    slot := ⟨sumReply, true⟩
    calls := [sumReturned]
    written := [0]
    delivered := [sumReply] }
  link := {
    leftSession := { Session.start with
      readBuffer := [8, 1, 16, 1]
      arrived := wireMessage sumReply
      written := wireMessage sumRequest
      posted := [sumRequest]
      messages := [sumReply] }
    rightSession := { Session.start with
      readBuffer := [8, 1, 16, 1]
      arrived := wireMessage sumRequest
      written := wireMessage sumReply
      posted := [sumReply]
      messages := [sumRequest] }
    leftFlight := []
    rightFlight := [] }
  served := [⟨none, ⟨sumReply, [.add]⟩⟩]
  trapped := false

theorem remote_call_eq_local_call_sum :
    sumRemote.invocations 0 = [.add] ∧
      sumReturned.result standard = some (.returns (5 : Int32)) := by
  have hrun : Transition.run (step standard) start sumEvents = some sumRemote := by decide
  have hfits : Transition.Guarded (step standard) (FitsHeader standard) start sumEvents := by
    decide
  have halone : Transition.Guarded (step standard) (Alone 0) start sumEvents := by decide
  have hcall : sumRemote.client.calls[0]? = some sumReturned := rfl
  have hfirst : sumRemote.client.AnsweredFirst 0 sumReturned :=
    ⟨List.cons_ne_nil _ _, rfl⟩
  obtain ⟨service, hservice, _, hinvoked, hresult⟩ :=
    remote_call_eq_local_call standard lawful_standard hrun hfits hcall hfirst halone
  obtain rfl : (⟨none, ⟨sumReply, [.add]⟩⟩ : Service) = service := Option.some.inj hservice
  refine ⟨hinvoked, ?_⟩
  rcases hresult with hresult | ⟨hphase, _⟩
  · exact hresult
  · exact absurd hphase (by decide)

/-- A second call on the same client overlaps with `add(1, 1)`. -/
def firstCall : CallState :=
  CallState.begin 1 .add ((1, 1) : Int32 × Int32)

def secondCall : CallState :=
  CallState.begin 2 .add ((2, 3) : Int32 × Int32)

def overlapEvents : List Event :=
  [.call .add ((1, 1) : Int32 × Int32), .call .add ((2, 3) : Int32 × Int32),
    .turn 0 (.check true), .turn 1 (.check true), .turn 0 .clear, .turn 1 .clear,
    .turn 0 .write, .turn 1 .write, .clientTurn, .clientTurn,
    .network (.on .left (.writeSome 14)), .clientTurn,
    .network (.on .left (.writeSome 14)), .clientTurn, .network (.segment .left 28),
    .network (.on .right (.readSome 4)), .serverTurn none,
    .network (.on .right (.readSome 10)), .serverTurn none, .serverTurn none,
    .network (.on .right (.readSome 4)), .serverTurn none,
    .network (.on .right (.readSome 10)), .serverTurn none, .serverTurn none,
    .network (.on .right (.writeSome 14)), .serverTurn none,
    .network (.on .right (.writeSome 14)), .serverTurn none, .network (.segment .right 28),
    .network (.on .left (.readSome 4)), .clientTurn,
    .network (.on .left (.readSome 10)), .clientTurn,
    .network (.on .left (.readSome 4)), .clientTurn,
    .network (.on .left (.readSome 10)), .clientTurn, .turn 0 .wake]

def firstReply : Payload :=
  ClientStub.okPayload standard .add 1 (2 : Int32)

def secondReply : Payload :=
  ClientStub.okPayload standard .add 2 (5 : Int32)

/-- The first call has copied the reply to the second. -/
def firstFailed : CallState :=
  { firstCall with
    phase := .returned (some secondReply)
    timer := .running
    heard := [firstReply, secondReply]
    timely := [firstReply, secondReply] }

def overlapRemote : Remote where
  client := {
    nextRequestId := 3
    slot := ⟨secondReply, true⟩
    calls := [firstFailed, { secondCall with
      phase := .waiting
      timer := .running
      heard := [firstReply, secondReply]
      timely := [firstReply, secondReply] }]
    written := [0, 1]
    delivered := [firstReply, secondReply] }
  link := {
    leftSession := { Session.start with
      readBuffer := [8, 2, 16, 1]
      arrived := wireMessage firstReply ++ wireMessage secondReply
      written := wireMessage (firstCall.requestBytes standard) ++
        wireMessage (secondCall.requestBytes standard)
      posted := [firstCall.requestBytes standard, secondCall.requestBytes standard]
      messages := [firstReply, secondReply] }
    rightSession := { Session.start with
      readBuffer := [8, 2, 16, 1]
      arrived := wireMessage (firstCall.requestBytes standard) ++
        wireMessage (secondCall.requestBytes standard)
      written := wireMessage firstReply ++ wireMessage secondReply
      posted := [firstReply, secondReply]
      messages := [firstCall.requestBytes standard, secondCall.requestBytes standard] }
    leftFlight := []
    rightFlight := [] }
  served := [⟨none, ⟨firstReply, [.add]⟩⟩, ⟨none, ⟨secondReply, [.add]⟩⟩]
  trapped := false

/-- The reply to the first call is the first message after it cleared the slot,
and the call fails. -/
theorem overlapEvents_fail_call :
    Transition.run (step standard) start overlapEvents = some overlapRemote ∧
      Transition.Guarded (step standard) (FitsHeader standard) start overlapEvents ∧
      overlapRemote.client.calls[0]? = some firstFailed ∧
      overlapRemote.client.AnsweredFirst 0 firstFailed ∧
      overlapRemote.served[0]? = some ⟨none, ⟨firstReply, [.add]⟩⟩ ∧
      ClientStub.seenByCaller
          (attempt firstFailed.method none (firstFailed.method.impl firstFailed.args)) =
        .returns (2 : Int32) ∧
      firstFailed.result standard =
        some (.throws (.stdException "rpc response id does not match request id")) := by
  refine ⟨by decide, by decide, rfl, ⟨List.cons_ne_nil _ _, rfl⟩, rfl, rfl, ?_⟩
  exact congrArg some (ClientStub.checkResponse_okPayload_of_ne lawful_standard .add .add
    (show (2 : UInt64) ≠ 1 by decide) (5 : Int32))

end Remote

end RpcDemo
