import Mathlib.Data.List.TakeWhile
import RpcDemo.Detail.RemoteCall

/-!
# The echo test

A client that sends a line and waits for the response, over and over, and a server
whose request handler replies with what it got and stops at `exit`.  Nothing ties a
response to its request: the slot of the client takes whatever message comes next, so
that a reply that is late answers a later call.
-/

namespace RpcDemo

open RpcDemo.Frame
open Transition

/-- How far a call of `send_and_wait` has come: past the check of the session, the slot
cleared, the request written. -/
inductive Echo.Phase
  | checked
  | cleared
  | waiting
  deriving DecidableEq

/-- The loop of the client, what its calls have returned, and the connection, of which the
server is the right side; `stopped` when the `io_context` of the server is. -/
structure Echo where
  slot : Slot
  call : Option (Payload × Echo.Phase)
  results : List (Payload × Option Payload)
  link : Link
  stopped : Bool
  deriving DecidableEq

namespace Echo

/-- The four characters of `exit`. -/
def exitMessage : Payload := [101, 120, 105, 116]

def isExit (data : Payload) : Prop :=
  data.take 4 = exitMessage

instance (data : Payload) : Decidable (isExit data) :=
  inferInstanceAs (Decidable (_ = _))

def start : Echo :=
  ⟨⟨[], false⟩, none, [], Link.start, false⟩

/-- A call and its sections, progress of the network, a turn of either strand, and the end
of the server by another connection. -/
inductive Event
  | send (request : Payload)
  | clear
  | write
  | wake
  | giveUp
  | network (event : Link.Event)
  | clientTurn
  | serverTurn
  | stop
  deriving DecidableEq

def Allows (echo : Echo) : Link.Event → Prop
  | .segment _ _ => True
  | .on .left event => event.OfSocket
  | .on .right event => echo.stopped = false ∧ event.OfSocket

instance (echo : Echo) : (event : Link.Event) → Decidable (echo.Allows event)
  | .segment _ _ => isTrue trivial
  | .on .left _ => inferInstanceAs (Decidable (Session.Event.OfSocket _))
  | .on .right _ => inferInstanceAs (Decidable (_ ∧ _))

def returns (echo : Echo) (request : Payload) (response : Option Payload) : Echo :=
  { echo with call := none, results := echo.results ++ [(request, response)] }

/-- The section of `send_and_wait` that a call is about to make. -/
def onCall (echo : Echo) (request : Payload) : Phase → Event → Option Echo
  | .checked, .clear =>
      some { echo with slot := ⟨[], false⟩, call := some (request, .cleared) }
  | .cleared, .write =>
      (echo.link.step (.on .left (.asyncWrite request))).map fun link =>
        { echo with call := some (request, .waiting), link := link }
  | .waiting, .wake =>
      if echo.slot.responseReceived then
        some (echo.returns request (some echo.slot.responseBuffer))
      else none
  | .waiting, .giveUp =>
      if echo.slot.responseReceived then none else some (echo.returns request none)
  | _, _ => none

/-- The message handler that `connect` installs. -/
def onClientTurn (echo : Echo) : Option Echo :=
  match (echo.link.session .left).pendingMessage with
  | some data =>
      (echo.link.step (.on .left (.run ⟨[], data⟩))).map fun link =>
        { echo with slot := ⟨data, true⟩, link := link }
  | none =>
      (echo.link.step (.on .left (.run Session.silent))).map fun link =>
        { echo with link := link }

/-- The request handler of the test. -/
def onServerTurn (echo : Echo) : Option Echo :=
  match (echo.link.session .right).pendingMessage with
  | some data =>
      if isExit data then
        (echo.link.step (.on .right (.run ⟨[.close], data⟩))).map fun link =>
          { echo with link := link, stopped := true }
      else
        (echo.link.step (.on .right (.run ⟨[.reply data], []⟩))).map fun link =>
          { echo with link := link }
  | none =>
      (echo.link.step (.on .right (.run Session.silent))).map fun link =>
        { echo with link := link }

def step (echo : Echo) : Event → Option Echo
  | .send request =>
      if echo.call.isSome then none
      else if (echo.link.session .left).isOpen then
        some { echo with call := some (request, .checked) }
      else some (echo.returns request none)
  | .network event =>
      if echo.Allows event then
        (echo.link.step event).map fun link => { echo with link := link }
      else none
  | .clientTurn => echo.onClientTurn
  | .serverTurn => if echo.stopped then none else echo.onServerTurn
  | .stop => some { echo with stopped := true }
  | event => echo.call.bind fun (request, phase) => echo.onCall request phase event

/-- All a step can do. -/
inductive Stepped (echo : Echo) : Event → Echo → Prop
  | send (request : Payload) (hcall : echo.call = none) :
      Stepped echo (.send request) { echo with call := some (request, .checked) }
  | refuse (request : Payload) (hcall : echo.call = none) :
      Stepped echo (.send request) (echo.returns request none)
  | clear (request : Payload) (hcall : echo.call = some (request, .checked)) :
      Stepped echo .clear
        { echo with slot := ⟨[], false⟩, call := some (request, .cleared) }
  | write (request : Payload) (link : Link) (hcall : echo.call = some (request, .cleared))
      (hlink : echo.link.step (.on .left (.asyncWrite request)) = some link) :
      Stepped echo .write { echo with call := some (request, .waiting), link := link }
  | wake (request : Payload) (hcall : echo.call = some (request, .waiting))
      (hreceived : echo.slot.responseReceived = true) :
      Stepped echo .wake (echo.returns request (some echo.slot.responseBuffer))
  | giveUp (request : Payload) (hcall : echo.call = some (request, .waiting)) :
      Stepped echo .giveUp (echo.returns request none)
  | network (event : Link.Event) (link : Link) (hallows : echo.Allows event)
      (hlink : echo.link.step event = some link) :
      Stepped echo (.network event) { echo with link := link }
  | hear (data : Payload) (link : Link)
      (hpending : (echo.link.session .left).pendingMessage = some data)
      (hlink : echo.link.step (.on .left (.run ⟨[], data⟩)) = some link) :
      Stepped echo .clientTurn { echo with slot := ⟨data, true⟩, link := link }
  | clientTurn (link : Link) (hpending : (echo.link.session .left).pendingMessage = none)
      (hlink : echo.link.step (.on .left (.run Session.silent)) = some link) :
      Stepped echo .clientTurn { echo with link := link }
  | exit (data : Payload) (link : Link)
      (hpending : (echo.link.session .right).pendingMessage = some data)
      (hstopped : echo.stopped = false) (hexit : isExit data)
      (hlink : echo.link.step (.on .right (.run ⟨[.close], data⟩)) = some link) :
      Stepped echo .serverTurn { echo with link := link, stopped := true }
  | reply (data : Payload) (link : Link)
      (hpending : (echo.link.session .right).pendingMessage = some data)
      (hstopped : echo.stopped = false) (hexit : ¬ isExit data)
      (hlink : echo.link.step (.on .right (.run ⟨[.reply data], []⟩)) = some link) :
      Stepped echo .serverTurn { echo with link := link }
  | serverTurn (link : Link) (hpending : (echo.link.session .right).pendingMessage = none)
      (hlink : echo.link.step (.on .right (.run Session.silent)) = some link) :
      Stepped echo .serverTurn { echo with link := link }
  | stop : Stepped echo .stop { echo with stopped := true }

variable {echo next : Echo} {event : Event}

theorem stepped_of_onCall {request : Payload} {phase : Phase}
    (hcall : echo.call = some (request, phase))
    (hstep : echo.onCall request phase event = some next) : echo.Stepped event next := by
  unfold onCall at hstep
  split at hstep
  case h_1 => exact Option.some.inj hstep ▸ .clear request hcall
  case h_2 =>
    obtain ⟨link, hlink, rfl⟩ := Option.map_eq_some_iff.mp hstep
    exact .write request link hcall hlink
  case h_3 =>
    rw [Option.ite_none_right_eq_some, Option.some.injEq] at hstep
    exact hstep.2 ▸ .wake request hcall hstep.1
  case h_4 =>
    rw [Option.ite_none_left_eq_some, Option.some.injEq] at hstep
    exact hstep.2 ▸ .giveUp request hcall
  case h_5 => exact absurd hstep (by simp)

theorem stepped_of_onClientTurn (hstep : echo.onClientTurn = some next) :
    echo.Stepped .clientTurn next := by
  unfold onClientTurn at hstep
  split at hstep
  case h_1 data hpending =>
    obtain ⟨link, hlink, rfl⟩ := Option.map_eq_some_iff.mp hstep
    exact .hear data link hpending hlink
  case h_2 hpending =>
    obtain ⟨link, hlink, rfl⟩ := Option.map_eq_some_iff.mp hstep
    exact .clientTurn link hpending hlink

theorem stepped_of_onServerTurn (hstopped : echo.stopped = false)
    (hstep : echo.onServerTurn = some next) : echo.Stepped .serverTurn next := by
  unfold onServerTurn at hstep
  split at hstep
  case h_1 data hpending =>
    split at hstep
    case isTrue hexit =>
      obtain ⟨link, hlink, rfl⟩ := Option.map_eq_some_iff.mp hstep
      exact .exit data link hpending hstopped hexit hlink
    case isFalse hexit =>
      obtain ⟨link, hlink, rfl⟩ := Option.map_eq_some_iff.mp hstep
      exact .reply data link hpending hstopped hexit hlink
  case h_2 hpending =>
    obtain ⟨link, hlink, rfl⟩ := Option.map_eq_some_iff.mp hstep
    exact .serverTurn link hpending hlink

theorem stepped_of_step (hstep : echo.step event = some next) : echo.Stepped event next := by
  cases event with
  | send request =>
      simp only [step, Option.ite_none_left_eq_some, Option.not_isSome_iff_eq_none] at hstep
      obtain ⟨hcall, hstep⟩ := hstep
      split at hstep
      · exact Option.some.inj hstep ▸ .send request hcall
      · exact Option.some.inj hstep ▸ .refuse request hcall
  | network event =>
      simp only [step, Option.ite_none_right_eq_some, Option.map_eq_some_iff] at hstep
      obtain ⟨hallows, link, hlink, rfl⟩ := hstep
      exact .network event link hallows hlink
  | clientTurn => exact stepped_of_onClientTurn hstep
  | serverTurn =>
      simp only [step, Option.ite_none_left_eq_some, Bool.not_eq_true] at hstep
      exact stepped_of_onServerTurn hstep.1 hstep.2
  | stop => exact Option.some.inj hstep ▸ .stop
  | clear | write | wake | giveUp =>
      obtain ⟨⟨request, phase⟩, hcall, hstep⟩ := Option.bind_eq_some_iff.mp hstep
      exact stepped_of_onCall hcall hstep

/-! ## What travels -/

/-- The requests written, the messages the client got, those the server got, and its
replies. -/
structure Streams where
  sent : List Payload
  heard : List Payload
  served : List Payload
  replied : List Payload

end Echo

namespace Link

open Echo (Streams)

def streams (link : Link) : Streams where
  sent := (link.session .left).posted
  heard := (link.session .left).messages
  served := (link.session .right).messages
  replied := (link.session .right).posted

variable {link next : Link} {event : Session.Event}

theorem streams_left (hstep : link.step (.on .left event) = some next) :
    next.streams = { link.streams with
      sent := (next.session .left).posted
      heard := (next.session .left).messages } := by
  obtain ⟨-, hpeer⟩ := session_step_on hstep
  have hright : next.session .right = link.session .right := hpeer
  simp only [streams, hright]

theorem streams_right (hstep : link.step (.on .right event) = some next) :
    next.streams = { link.streams with
      served := (next.session .right).messages
      replied := (next.session .right).posted } := by
  obtain ⟨-, hpeer⟩ := session_step_on hstep
  have hleft : next.session .left = link.session .left := hpeer
  simp only [streams, hleft]

theorem streams_write {request : Payload}
    (hstep : link.step (.on .left (.asyncWrite request)) = some next) :
    next.streams = { link.streams with sent := link.streams.sent ++ [request] } := by
  obtain ⟨hmessages, hposted⟩ := Session.messages_of_asyncWrite (session_step_on hstep).1
  rw [streams_left hstep, hmessages, hposted]
  rfl

theorem streams_hear {data : Payload} (hpending : (link.session .left).pendingMessage = some data)
    (hstep : link.step (.on .left (.run ⟨[], data⟩)) = some next) :
    next.streams = { link.streams with heard := link.streams.heard ++ [data] } := by
  obtain ⟨hmessages, hposted⟩ := Session.messages_of_pending hpending (session_step_on hstep).1
  rw [streams_left hstep, hmessages, hposted]
  simp [streams, Session.replies]

/-- A message handler of the server, by what it replies. -/
theorem streams_serve {data leftover : Payload} {calls : List Call}
    (hpending : (link.session .right).pendingMessage = some data)
    (hstep : link.step (.on .right (.run ⟨calls, leftover⟩)) = some next) :
    next.streams = { link.streams with
      served := link.streams.served ++ [data]
      replied := link.streams.replied ++ Session.replies calls } := by
  obtain ⟨hmessages, hposted⟩ := Session.messages_of_pending hpending (session_step_on hstep).1
  rw [streams_right hstep, hmessages, hposted]
  rfl

theorem streams_turn {side : Side} (hpending : (link.session side).pendingMessage = none)
    (hstep : link.step (.on side (.run Session.silent)) = some next) :
    next.streams = link.streams := by
  obtain ⟨hmessages, hposted⟩ := Session.messages_of_turn hpending (session_step_on hstep).1
  cases side with
  | left =>
      rw [streams_left hstep, hmessages, hposted]
      rfl
  | right =>
      rw [streams_right hstep, hmessages, hposted]
      rfl

end Link

namespace Echo

variable {echo next : Echo} {event : Event}

theorem streams_network {event : Link.Event} {link : Link} (hallows : echo.Allows event)
    (hlink : echo.link.step event = some link) : link.streams = echo.link.streams := by
  let remote : Remote := ⟨Client.start, echo.link, [], echo.stopped⟩
  have hremote : remote.Allows event := by
    cases event with
    | segment => trivial
    | on side event =>
        cases side with
        | left => exact .inl hallows
        | right => exact ⟨hallows.1, .inl hallows.2⟩
  have hsame := fun side => Remote.messages_of_allowed hremote hlink side
  simp only [Link.streams, hsame]
  rfl

/-- The server replies with what it got, until it stops, and never to `exit`. -/
structure Streams.Copied (streams : Streams) (stopped : Bool) : Prop where
  fits : ∀ request ∈ streams.sent, request.length < 2 ^ 32
  copied : streams.replied <+: streams.served
  tandem : stopped = false → streams.replied = streams.served
  spared : ∀ data ∈ streams.replied, ¬ isExit data

namespace Streams.Copied

variable {streams : Streams} {stopped : Bool} {data : Payload}

theorem write (hcopied : streams.Copied stopped) (hfits : data.length < 2 ^ 32) :
    Copied { streams with sent := streams.sent ++ [data] } stopped where
  fits := by
    intro request hrequest
    rcases List.mem_append.mp hrequest with hold | hnew
    · exact hcopied.fits request hold
    · rwa [List.mem_singleton.mp hnew]
  copied := hcopied.copied
  tandem := hcopied.tandem
  spared := hcopied.spared

theorem hear (hcopied : streams.Copied stopped) :
    Copied { streams with heard := streams.heard ++ [data] } stopped :=
  ⟨hcopied.fits, hcopied.copied, hcopied.tandem, hcopied.spared⟩

theorem exit (hcopied : streams.Copied stopped) :
    Copied { streams with
      served := streams.served ++ [data]
      replied := streams.replied ++ [] } true where
  fits := hcopied.fits
  copied := by
    rw [List.append_nil]
    exact hcopied.copied.trans (List.prefix_append _ _)
  tandem := by simp
  spared := by
    rw [List.append_nil]
    exact hcopied.spared

theorem reply (hcopied : streams.Copied false) (hexit : ¬ isExit data) :
    Copied { streams with
      served := streams.served ++ [data]
      replied := streams.replied ++ [data] } false where
  fits := hcopied.fits
  copied := by rw [hcopied.tandem rfl]
  tandem := fun _ => by rw [hcopied.tandem rfl]
  spared := by
    intro replied hreplied
    rcases List.mem_append.mp hreplied with hold | hnew
    · exact hcopied.spared replied hold
    · rwa [List.mem_singleton.mp hnew]

theorem stop (hcopied : streams.Copied stopped) : streams.Copied true :=
  ⟨hcopied.fits, hcopied.copied, by simp, hcopied.spared⟩

end Streams.Copied

/-- What the sessions carry, and the request they are about to. -/
structure Carried (echo : Echo) : Prop where
  link : echo.link.LinkInv
  copied : echo.link.streams.Copied echo.stopped
  asked : ∀ request phase, echo.call = some (request, phase) → request.length < 2 ^ 32

theorem carried_start : Carried start where
  link := Link.linkInv_start
  copied := ⟨fun _ hmem => absurd hmem List.not_mem_nil, List.prefix_rfl, fun _ => rfl,
    fun _ hmem => absurd hmem List.not_mem_nil⟩
  asked := by simp [start]

theorem Carried.replied_isPrefix (hcarried : echo.Carried) :
    echo.link.streams.replied <+: echo.link.streams.sent :=
  hcarried.copied.copied.trans (hcarried.link.messages_isPrefix .left hcarried.copied.fits)

theorem Carried.heard_isPrefix_replied (hcarried : echo.Carried) :
    echo.link.streams.heard <+: echo.link.streams.replied := by
  apply hcarried.link.messages_isPrefix .right
  exact fun data hdata => hcarried.copied.fits data (hcarried.replied_isPrefix.subset hdata)

/-- The client hears a prefix of what it has sent. -/
theorem Carried.heard_isPrefix (hcarried : echo.Carried) :
    echo.link.streams.heard <+: echo.link.streams.sent :=
  hcarried.heard_isPrefix_replied.trans hcarried.replied_isPrefix

/-- The request of a call that begins fits the header of a frame. -/
def Event.Fits : Event → Prop
  | .send request => request.length < 2 ^ 32
  | _ => True

theorem carried_step (hcarried : echo.Carried) (hfits : event.Fits)
    (hstepped : echo.Stepped event next) : next.Carried := by
  obtain ⟨hinv, hcopied, hasked⟩ := hcarried
  cases hstepped with
  | send request hcall =>
      refine ⟨hinv, hcopied, fun other phase hother => ?_⟩
      obtain ⟨rfl, -⟩ := Prod.mk.inj (Option.some.inj hother)
      exact hfits
  | refuse | giveUp | wake => exact ⟨hinv, hcopied, by simp [returns]⟩
  | clear request hcall =>
      refine ⟨hinv, hcopied, fun other phase hother => ?_⟩
      obtain ⟨rfl, -⟩ := Prod.mk.inj (Option.some.inj hother)
      exact hasked _ _ hcall
  | write request link hcall hlink =>
      have hrequest := hasked _ _ hcall
      refine ⟨Link.linkInv_step hinv hlink, ?_, fun other phase hother => ?_⟩
      · rw [Link.streams_write hlink]
        exact hcopied.write hrequest
      · obtain ⟨rfl, -⟩ := Prod.mk.inj (Option.some.inj hother)
        exact hrequest
  | network event link hallows hlink =>
      exact ⟨Link.linkInv_step hinv hlink, streams_network hallows hlink ▸ hcopied, hasked⟩
  | hear data link hpending hlink =>
      exact ⟨Link.linkInv_step hinv hlink, Link.streams_hear hpending hlink ▸ hcopied.hear,
        hasked⟩
  | clientTurn link hpending hlink | serverTurn link hpending hlink =>
      exact ⟨Link.linkInv_step hinv hlink, Link.streams_turn hpending hlink ▸ hcopied, hasked⟩
  | exit data link hpending hstopped hexit hlink =>
      exact ⟨Link.linkInv_step hinv hlink, Link.streams_serve hpending hlink ▸ hcopied.exit,
        hasked⟩
  | reply data link hpending hstopped hexit hlink =>
      rw [hstopped] at hcopied
      refine ⟨Link.linkInv_step hinv hlink, ?_, hasked⟩
      rw [hstopped, Link.streams_serve hpending hlink]
      exact hcopied.reply hexit
  | stop => exact ⟨hinv, hcopied.stop, hasked⟩

/-! ## What the calls return -/

/-- A call that has cleared the slot finds in it the last message since. -/
def SlotHolds (slot : Slot) (call : Option (Payload × Phase)) (heard : List Payload)
    (taken : ℕ) : Prop :=
  ∀ request phase, call = some (request, phase) → phase ≠ .checked →
    slot.responseReceived = true → taken < heard.length ∧
      heard.getLast? = some slot.responseBuffer

/-- Nothing is on its way but the request of the call that waits. -/
def Steady (slot : Slot) (call : Option (Payload × Phase)) (streams : Streams) : Prop :=
  match call with
  | some (request, .waiting) => ∃ earlier, streams.sent = earlier ++ [request] ∧
      (slot.responseReceived = false ∧ streams.heard = earlier ∨ streams.heard = streams.sent)
  | some (_, .cleared) => slot.responseReceived = false ∧ streams.heard = streams.sent
  | _ => streams.heard = streams.sent

def isAnswered (result : Payload × Option Payload) : Bool :=
  result.2.isSome

/-- The responses returned are some of the messages heard, in order; they are the requests
of their calls as long as no call has returned false. -/
structure Answered (slot : Slot) (call : Option (Payload × Phase))
    (results : List (Payload × Option Payload)) (streams : Streams) : Prop where
  returned : ∃ taken ≤ streams.heard.length,
    (results.filterMap Prod.snd).Sublist (streams.heard.take taken) ∧
      SlotHolds slot call streams.heard taken
  own : ∀ result ∈ results.takeWhile isAnswered, result.2 = some result.1
  steady : (∀ result ∈ results, isAnswered result = true) → Steady slot call streams

namespace Answered

variable {slot : Slot} {call : Option (Payload × Phase)}
variable {results : List (Payload × Option Payload)} {result : Payload × Option Payload}
variable {streams : Streams} {request data : Payload}

theorem own_append (hown : ∀ result ∈ results.takeWhile isAnswered, result.2 = some result.1)
    (hnew : (∀ result ∈ results, isAnswered result = true) → isAnswered result = true →
      result.2 = some result.1) :
    ∀ other ∈ (results ++ [result]).takeWhile isAnswered, other.2 = some other.1 := by
  intro other hother
  by_cases hall : ∀ result ∈ results, isAnswered result = true
  · rw [List.takeWhile_append_of_pos hall] at hother
    rcases List.mem_append.mp hother with hold | hlast
    · apply hown other
      rwa [List.takeWhile_eq_self_iff.mpr hall]
    · have hanswered := List.mem_takeWhile_imp hlast
      obtain rfl := List.mem_singleton.mp ((List.takeWhile_prefix _).subset hlast)
      exact hnew hall hanswered
  · have hshort : (results.takeWhile isAnswered).length ≠ results.length := by
      intro hlength
      have hsame := (List.takeWhile_prefix isAnswered).eq_of_length hlength
      exact hall (List.takeWhile_eq_self_iff.mp hsame)
    rw [List.takeWhile_append, if_neg hshort] at hother
    exact hown other hother

/-- A call that returns false. -/
theorem returns_none (hanswered : Answered slot call results streams) :
    Answered slot none (results ++ [(request, none)]) streams where
  returned := by
    obtain ⟨taken, htaken, hsublist, -⟩ := hanswered.returned
    refine ⟨taken, htaken, ?_, by simp [SlotHolds]⟩
    simpa using hsublist
  own := own_append hanswered.own fun _ hsome => by simp [isAnswered] at hsome
  steady := by
    intro hall
    have hnone := hall (request, none) (by simp)
    simp [isAnswered] at hnone

theorem send (hanswered : Answered slot none results streams) :
    Answered slot (some (request, .checked)) results streams where
  returned := by
    obtain ⟨taken, htaken, hsublist, -⟩ := hanswered.returned
    refine ⟨taken, htaken, hsublist, fun other phase hother hphase => ?_⟩
    obtain ⟨-, rfl⟩ := Prod.mk.inj (Option.some.inj hother)
    exact absurd rfl hphase
  own := hanswered.own
  steady := hanswered.steady

theorem clear (hanswered : Answered slot (some (request, .checked)) results streams) :
    Answered ⟨[], false⟩ (some (request, .cleared)) results streams where
  returned := by
    obtain ⟨taken, htaken, hsublist, -⟩ := hanswered.returned
    exact ⟨taken, htaken, hsublist, by simp [SlotHolds]⟩
  own := hanswered.own
  steady := fun hall => ⟨rfl, hanswered.steady hall⟩

theorem write (hanswered : Answered slot (some (request, .cleared)) results streams) :
    Answered slot (some (request, .waiting)) results
      { streams with sent := streams.sent ++ [request] } where
  returned := by
    obtain ⟨taken, htaken, hsublist, hslot⟩ := hanswered.returned
    refine ⟨taken, htaken, hsublist, fun other phase _ _ => ?_⟩
    exact hslot request .cleared rfl (by decide)
  own := hanswered.own
  steady := by
    intro hall
    obtain ⟨hreceived, hheard⟩ := hanswered.steady hall
    exact ⟨streams.sent, rfl, .inl ⟨hreceived, hheard⟩⟩

/-- The response is the last message, which no call has returned. -/
theorem wake (hanswered : Answered slot (some (request, .waiting)) results streams)
    (hreceived : slot.responseReceived = true) :
    Answered slot none (results ++ [(request, some slot.responseBuffer)]) streams := by
  obtain ⟨taken, htaken, hsublist, hslot⟩ := hanswered.returned
  obtain ⟨hlt, hlast⟩ := hslot request .waiting rfl (by decide) hreceived
  have howns : (∀ result ∈ results, isAnswered result = true) →
      streams.heard = streams.sent ∧ slot.responseBuffer = request := by
    intro hall
    obtain ⟨earlier, hsent, ⟨hnot, -⟩ | hheard⟩ := hanswered.steady hall
    · rw [hreceived] at hnot
      cases hnot
    · rw [hheard, hsent, List.getLast?_concat] at hlast
      exact ⟨hheard, (Option.some.inj hlast).symm⟩
  refine ⟨⟨streams.heard.length, le_rfl, ?_, by simp [SlotHolds]⟩, ?_, ?_⟩
  · have hmem : slot.responseBuffer ∈ streams.heard.drop taken := by
      apply List.mem_of_getLast?
      rw [List.getLast?_drop, if_neg (Nat.not_le.mpr hlt), hlast]
    calc
      (results ++ [(request, some slot.responseBuffer)]).filterMap Prod.snd
      _ = results.filterMap Prod.snd ++ [slot.responseBuffer] := by simp
      List.Sublist _ (streams.heard.take taken ++ streams.heard.drop taken) :=
        hsublist.append (List.singleton_sublist.mpr hmem)
      _ = streams.heard.take streams.heard.length := by
        rw [List.take_append_drop, List.take_length]
  · exact own_append hanswered.own fun hall _ => congrArg some (howns hall).2
  · intro hall
    exact (howns fun result hresult => hall result (List.mem_append_left _ hresult)).1

theorem hear (hanswered : Answered slot call results streams)
    (hnext : streams.heard ++ [data] <+: streams.sent) :
    Answered ⟨data, true⟩ call results { streams with heard := streams.heard ++ [data] } where
  returned := by
    obtain ⟨taken, htaken, hsublist, -⟩ := hanswered.returned
    refine ⟨taken, ?_, ?_, fun request phase _ _ _ => ⟨?_, List.getLast?_concat⟩⟩
    · simp only [List.length_append, List.length_singleton]
      omega
    · rwa [List.take_append_of_le_length htaken]
    · simp only [List.length_append, List.length_singleton]
      omega
  own := hanswered.own
  steady := by
    intro hall
    have hnot : streams.heard ≠ streams.sent := by
      intro hsame
      have hlength := hnext.length_le
      simp [hsame] at hlength
    have hsteady := hanswered.steady hall
    unfold Steady at hsteady ⊢
    split at hsteady
    case h_1 request =>
      obtain ⟨earlier, hsent, ⟨-, rfl⟩ | hheard⟩ := hsteady
      · -- the message is the one request that was on its way
        refine ⟨streams.heard, hsent, .inr ?_⟩
        apply hnext.eq_of_length
        simp [hsent]
      · exact absurd hheard hnot
    case h_2 => exact absurd hsteady.2 hnot
    case h_3 => exact absurd hsteady hnot

end Answered

theorem answered_start : Answered ⟨[], false⟩ none [] Link.start.streams where
  returned := ⟨0, Nat.zero_le _, List.nil_sublist _, by simp [SlotHolds]⟩
  own := by simp
  steady := fun _ => rfl

theorem answered_step (hcarried : next.Carried)
    (hanswered : Answered echo.slot echo.call echo.results echo.link.streams)
    (hstepped : echo.Stepped event next) :
    Answered next.slot next.call next.results next.link.streams := by
  cases hstepped with
  | send request hcall =>
      rw [hcall] at hanswered
      exact hanswered.send
  | refuse | giveUp => exact hanswered.returns_none
  | clear request hcall =>
      rw [hcall] at hanswered
      exact hanswered.clear
  | write request link hcall hlink =>
      rw [hcall] at hanswered
      rw [Link.streams_write hlink]
      exact hanswered.write
  | wake request hcall hreceived =>
      rw [hcall] at hanswered
      exact hanswered.wake hreceived
  | network event link hallows hlink => exact streams_network hallows hlink ▸ hanswered
  | hear data link hpending hlink =>
      have hnext := hcarried.heard_isPrefix
      rw [Link.streams_hear hpending hlink] at hnext ⊢
      exact hanswered.hear hnext
  | clientTurn link hpending hlink | serverTurn link hpending hlink =>
      exact Link.streams_turn hpending hlink ▸ hanswered
  | exit data link hpending hstopped hexit hlink | reply data link hpending hstopped hexit hlink =>
      rw [Link.streams_serve hpending hlink]
      exact ⟨hanswered.returned, hanswered.own, hanswered.steady⟩
  | stop => exact hanswered

/-- In every run of the test whose requests fit the header of a frame: the responses that
calls have returned are, in order, some of the requests sent, so that no echo is returned
twice and none comes from elsewhere; `exit` is never echoed; and as long as no call has
returned false, each has returned its own request. -/
theorem responses_of_run {events : List Event} (hrun : run step start events = some echo)
    (hfits : ∀ event ∈ events, event.Fits) :
    (echo.results.filterMap Prod.snd).Sublist (echo.link.session .left).posted ∧
      (∀ response ∈ echo.results.filterMap Prod.snd, ¬ isExit response) ∧
      ∀ result ∈ echo.results.takeWhile isAnswered, result.2 = some result.1 := by
  have hboth : echo.Carried ∧
      Answered echo.slot echo.call echo.results echo.link.streams := by
    apply run_invariant_of_forall _ ⟨carried_start, answered_start⟩ hfits hrun
    intro echo event next ⟨hcarried, hanswered⟩ hevent hstep
    have hstepped := stepped_of_step hstep
    have hkept := carried_step hcarried hevent hstepped
    exact ⟨hkept, answered_step hkept hanswered hstepped⟩
  obtain ⟨hcarried, ⟨taken, -, hsublist, -⟩, hown, -⟩ := hboth
  have hheard : (echo.results.filterMap Prod.snd).Sublist echo.link.streams.heard :=
    hsublist.trans (List.take_sublist _ _)
  refine ⟨hheard.trans hcarried.heard_isPrefix.sublist, ?_, hown⟩
  intro response hresponse
  apply hcarried.copied.spared
  exact hcarried.heard_isPrefix_replied.subset (hheard.subset hresponse)

/-- The first call gives up; its echo comes after the second has cleared the slot. -/
def shiftedEvents : List Event :=
  [.send [97], .clear, .write, .clientTurn, .network (.on .left (.writeSome 5)),
    .network (.segment .left 5), .network (.on .right (.readSome 4)), .serverTurn,
    .network (.on .right (.readSome 1)), .serverTurn, .serverTurn, .giveUp, .send [98], .clear,
    .network (.on .right (.writeSome 5)), .network (.segment .right 5), .clientTurn,
    .network (.on .left (.readSome 4)), .clientTurn, .network (.on .left (.readSome 1)),
    .clientTurn, .write, .wake]

/-- The second call returns the request of the first. -/
theorem responses_of_run_shifted : ∃ echo, run step start shiftedEvents = some echo ∧
    echo.results = [([97], none), ([98], some [97])] ∧
      List.Sublist [[97]] (echo.link.session .left).posted := by
  have hresults : (run step start shiftedEvents).map results =
      some [([97], none), ([98], some [97])] := by decide
  obtain ⟨echo, hrun, hechoed⟩ := Option.map_eq_some_iff.mp hresults
  have hfits : ∀ event ∈ shiftedEvents, event.Fits := by
    simp [shiftedEvents, Event.Fits]
  have hsublist := (responses_of_run hrun hfits).1
  rw [hechoed] at hsublist
  exact ⟨echo, hrun, hechoed, hsublist⟩

end Echo

end RpcDemo
