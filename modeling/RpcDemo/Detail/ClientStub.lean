import RpcDemo.Core.Transition
import RpcDemo.Detail.Frame
import RpcDemo.Method.Operation

/-!
# The client stub

Any number of threads call through one client.  They share the id counter and
one response slot, which the message handler overwrites with every message.  A
call numbers its request, asks whether the session is open, clears the slot,
writes, waits for the flag of the slot and copies its buffer; every section
under the mutex is one turn.  What was delivered while a call was using the
slot, and while its timer ran, is part of the state.
-/

namespace RpcDemo

open RpcDemo.Frame
open RpcDemo.Proto
open RpcDemo.Operation

/-! ## The checks on a response -/

namespace ClientStub

variable (proto : Protobuf)

/-- What `call` makes of the bytes of a response.  A session delivers no more
than 10 MiB, so their size fits `int`. -/
def checkResponse (method : Method) (requestId : UInt64) (responseBytes : Payload) :
    Outcome method.Value :=
  match proto.response.parse responseBytes with
  | none => .throws (.stdException "failed to parse rpc response")
  | some response =>
      if response.id ≠ requestId then
        .throws (.stdException "rpc response id does not match request id")
      else if response.type ≠ (method.traits proto).id then
        .throws (.stdException "rpc response method type does not match request type")
      else if response.status ≠ statusOk then
        .throws (.stdException
          (if response.errorMessage = "" then "rpc request failed" else response.errorMessage))
      else
        (method.traits proto).parseResponse response

/-- The end of `call`, from what `send_and_wait` returned. -/
def finish (method : Method) (requestId : UInt64) : Option Payload → Outcome method.Value
  | none => .throws (.stdException "rpc request timed out or connection is closed")
  | some responseBytes => checkResponse proto method requestId responseBytes

/-- The payload is a `STATUS_OK` response to the request, and carries `value`. -/
def OkReply (method : Method) (requestId : UInt64) (data : Payload) (value : method.Value) :
    Prop :=
  ∃ response, proto.response.parse data = some response ∧ response.id = requestId ∧
    response.type = (method.traits proto).id ∧ response.status = statusOk ∧
      (method.traits proto).parseResult response.body = .returns value

/-- The id a message carries, if it is a response. -/
def replyId (data : Payload) : Option UInt64 :=
  (proto.response.parse data).map Response.id

variable {proto} {method : Method} {requestId : UInt64}

theorem OkReply.replyId {data : Payload} {value : method.Value}
    (hreply : OkReply proto method requestId data value) :
    replyId proto data = some requestId := by
  obtain ⟨response, hparse, hid, _⟩ := hreply
  simp [ClientStub.replyId, hparse, hid]

theorem checkResponse_eq_returns {data : Payload} {value : method.Value} :
    checkResponse proto method requestId data = .returns value ↔
      OkReply proto method requestId data value := by
  unfold checkResponse OkReply
  cases hparse : proto.response.parse data with
  | none => simp
  | some response =>
      by_cases hid : response.id = requestId
      · by_cases htype : response.type = (method.traits proto).id
        · by_cases hstatus : response.status = statusOk
          · simp [hid, htype, hstatus, RpcMethodTraits.parseResponse]
          · simp [hid, htype, hstatus]
        · simp [hid, htype]
      · simp [hid]

theorem finish_eq_returns {response : Option Payload} {value : method.Value} :
    finish proto method requestId response = .returns value ↔
      ∃ data, response = some data ∧ OkReply proto method requestId data value := by
  cases response with
  | none => simp [finish]
  | some data => simp [finish, checkResponse_eq_returns]

end ClientStub

/-! ## One call -/

/-- `response_buffer_` and `response_received_`. -/
structure Slot where
  responseBuffer : Payload
  responseReceived : Bool
  deriving DecidableEq

/-- How far a call has come: numbered by `fetch_add`, past the check of the
session, the slot cleared, the request written, or back from `send_and_wait`
with a response or without. -/
inductive Phase
  | numbered
  | checked
  | cleared
  | waiting
  | returned (response : Option Payload)
  deriving DecidableEq

/-- The time limit of `wait_for`, from the write on. -/
inductive Timer
  | off
  | running
  | expired
  deriving DecidableEq

/-- A call; `clearedAt` counts the messages delivered before it cleared the
slot, `heard` holds those delivered from then until it returned, and `timely`
those delivered while its timer ran. -/
structure CallState where
  method : Method
  args : method.Args
  id : UInt64
  phase : Phase
  timer : Timer
  clearedAt : ℕ
  heard : List Payload
  timely : List Payload
  deriving DecidableEq

/-- A turn of the thread of a call, or of its timer. -/
inductive Turn
  | check (isOpen : Bool)
  | clear
  | write
  | wake
  | expire
  | giveUp
  deriving DecidableEq

namespace CallState

def begin (id : UInt64) (method : Method) (args : method.Args) : CallState where
  method := method
  args := args
  id := id
  phase := .numbered
  timer := .off
  clearedAt := 0
  heard := []
  timely := []

/-- The request that `call` builds. -/
def request (proto : Protobuf) (call : CallState) : Request where
  id := call.id
  type := (call.method.traits proto).id
  body := (call.method.traits proto).request.serialize
    ((call.method.traits proto).makeRequest call.args)

def requestBytes (proto : Protobuf) (call : CallState) : Payload :=
  proto.request.serialize (call.request proto)

/-- The outcome of a call that has come back from `send_and_wait`. -/
def result (proto : Protobuf) (call : CallState) : Option (Outcome call.method.Value) :=
  match call.phase with
  | .returned response => some (ClientStub.finish proto call.method call.id response)
  | _ => none

/-- The call has cleared the slot and not yet returned. -/
def InSlot (call : CallState) : Prop :=
  call.phase = .cleared ∨ call.phase = .waiting

instance (call : CallState) : Decidable call.InSlot :=
  inferInstanceAs (Decidable (_ ∨ _))

def hear (data : Payload) (call : CallState) : CallState :=
  { call with
    heard := if call.InSlot then call.heard ++ [data] else call.heard
    timely := if call.timer = .running then call.timely ++ [data] else call.timely }

/-- `send_and_wait`, turn by turn.  `wait_for` returns the value of its
predicate, also after the time limit. -/
def turn (slot : Slot) (delivered : ℕ) (call : CallState) : Turn → Option CallState
  | .check isOpen =>
      if call.phase = .numbered then
        some { call with phase := if isOpen then .checked else .returned none }
      else none
  | .clear =>
      if call.phase = .checked then
        some { call with phase := .cleared, clearedAt := delivered }
      else none
  | .write =>
      if call.phase = .cleared then
        some { call with phase := .waiting, timer := .running }
      else none
  | .wake =>
      if call.phase = .waiting ∧ slot.responseReceived = true then
        some { call with phase := .returned (some slot.responseBuffer) }
      else none
  | .expire =>
      if call.timer = .running then some { call with timer := .expired } else none
  | .giveUp =>
      if call.phase = .waiting ∧ call.timer = .expired ∧ slot.responseReceived = false then
        some { call with phase := .returned none }
      else none

/-- All a turn can do. -/
inductive Turned (slot : Slot) (delivered : ℕ) (call : CallState) : Turn → CallState → Prop
  | pass (hphase : call.phase = .numbered) :
      Turned slot delivered call (.check true) { call with phase := .checked }
  | refuse (hphase : call.phase = .numbered) :
      Turned slot delivered call (.check false) { call with phase := .returned none }
  | clear (hphase : call.phase = .checked) :
      Turned slot delivered call .clear
        { call with phase := .cleared, clearedAt := delivered }
  | write (hphase : call.phase = .cleared) :
      Turned slot delivered call .write { call with phase := .waiting, timer := .running }
  | wake (hphase : call.phase = .waiting) (hreceived : slot.responseReceived = true) :
      Turned slot delivered call .wake
        { call with phase := .returned (some slot.responseBuffer) }
  | expire (htimer : call.timer = .running) :
      Turned slot delivered call .expire { call with timer := .expired }
  | giveUp (hphase : call.phase = .waiting) (htimer : call.timer = .expired)
      (hreceived : slot.responseReceived = false) :
      Turned slot delivered call .giveUp { call with phase := .returned none }

theorem turned_of_turn {slot : Slot} {delivered : ℕ} {call moved : CallState} {turn : Turn}
    (hturn : call.turn slot delivered turn = some moved) :
    Turned slot delivered call turn moved := by
  cases turn with
  | check isOpen =>
      simp only [CallState.turn, Option.ite_none_right_eq_some, Option.some.injEq] at hturn
      obtain ⟨hphase, rfl⟩ := hturn
      cases isOpen with
      | true => exact .pass hphase
      | false => exact .refuse hphase
  | clear =>
      simp only [CallState.turn, Option.ite_none_right_eq_some, Option.some.injEq] at hturn
      exact hturn.2 ▸ .clear hturn.1
  | write =>
      simp only [CallState.turn, Option.ite_none_right_eq_some, Option.some.injEq] at hturn
      exact hturn.2 ▸ .write hturn.1
  | wake =>
      simp only [CallState.turn, Option.ite_none_right_eq_some, Option.some.injEq] at hturn
      exact hturn.2 ▸ .wake hturn.1.1 hturn.1.2
  | expire =>
      simp only [CallState.turn, Option.ite_none_right_eq_some, Option.some.injEq] at hturn
      exact hturn.2 ▸ .expire hturn.1
  | giveUp =>
      simp only [CallState.turn, Option.ite_none_right_eq_some, Option.some.injEq] at hturn
      obtain ⟨⟨hphase, htimer, hreceived⟩, rfl⟩ := hturn
      exact .giveUp hphase htimer hreceived

theorem Turned.id_eq {slot : Slot} {delivered : ℕ} {call moved : CallState} {turn : Turn}
    (hturned : call.Turned slot delivered turn moved) : moved.id = call.id := by
  cases hturned <;> rfl

theorem Turned.requestBytes_eq {slot : Slot} {delivered : ℕ} {call moved : CallState}
    {turn : Turn} (hturned : call.Turned slot delivered turn moved) (proto : Protobuf) :
    moved.requestBytes proto = call.requestBytes proto := by
  cases hturned <;> rfl

end CallState

/-! ## The client -/

/-- The calls of a client in the order of their `fetch_add`, the order in which
their requests were written, and the messages delivered. -/
structure Client where
  nextRequestId : UInt64
  slot : Slot
  calls : List CallState
  written : List ℕ
  delivered : List Payload
  deriving DecidableEq

namespace Client

def start : Client :=
  ⟨1, ⟨[], false⟩, [], [], []⟩

inductive Event
  | call (method : Method) (args : method.Args)
  | turn (index : ℕ) (turn : Turn)
  | deliver (data : Payload)
  deriving DecidableEq

/-- `next_request_id_.fetch_add(1)`. -/
def call (client : Client) (method : Method) (args : method.Args) : Client :=
  { client with
    nextRequestId := client.nextRequestId + 1
    calls := client.calls ++ [CallState.begin client.nextRequestId method args] }

/-- The call at `index` has taken a turn. -/
def advance (client : Client) (index : ℕ) (moved : CallState) (turn : Turn) : Client :=
  { client with
    slot := if turn = .clear then ⟨[], false⟩ else client.slot
    calls := client.calls.set index moved
    written := if turn = .write then client.written ++ [index] else client.written }

/-- The message handler that `connect` installs. -/
def onMessage (client : Client) (data : Payload) : Client :=
  { client with
    slot := ⟨data, true⟩
    calls := client.calls.map (CallState.hear data)
    delivered := client.delivered ++ [data] }

def step (client : Client) : Event → Option Client
  | .call method args => some (client.call method args)
  | .turn index turn =>
      (client.calls[index]?).bind fun call =>
        (call.turn client.slot client.delivered.length turn).map fun moved =>
          client.advance index moved turn
  | .deliver data => some (client.onMessage data)

/-- All a step of the client can do. -/
inductive Stepped (client : Client) : Event → Client → Prop
  | call (method : Method) (args : method.Args) :
      Stepped client (.call method args) (client.call method args)
  | turn (index : ℕ) (turn : Turn) (call moved : CallState)
      (hcall : client.calls[index]? = some call)
      (hturned : call.Turned client.slot client.delivered.length turn moved) :
      Stepped client (.turn index turn) (client.advance index moved turn)
  | deliver (data : Payload) :
      Stepped client (.deliver data) (client.onMessage data)

theorem stepped_of_step {client next : Client} {event : Event}
    (hstep : client.step event = some next) : Stepped client event next := by
  cases event with
  | call method args => exact Option.some.inj hstep ▸ .call method args
  | turn index turn =>
      obtain ⟨call, hcall, hmap⟩ := Option.bind_eq_some_iff.mp hstep
      obtain ⟨moved, hturn, rfl⟩ := Option.map_eq_some_iff.mp hmap
      exact .turn index turn call moved hcall (CallState.turned_of_turn hturn)
  | deliver data => exact Option.some.inj hstep ▸ .deliver data

/-- What the call at `index` has become in a step: it has begun, heard a
message, taken a turn, or stayed as it was. -/
inductive Became (client : Client) (index : ℕ) : Event → CallState → Prop
  | begun (method : Method) (args : method.Args) (hindex : index = client.calls.length) :
      Became client index (.call method args)
        (CallState.begin client.nextRequestId method args)
  | heard (data : Payload) (call : CallState) (hcall : client.calls[index]? = some call) :
      Became client index (.deliver data) (call.hear data)
  | turned (turn : Turn) (call moved : CallState)
      (hcall : client.calls[index]? = some call)
      (hturned : call.Turned client.slot client.delivered.length turn moved) :
      Became client index (.turn index turn) moved
  | kept (event : Event) (call : CallState) (hcall : client.calls[index]? = some call)
      (hturn : ∀ turn, event ≠ .turn index turn) (hdeliver : ∀ data, event ≠ .deliver data) :
      Became client index event call

theorem became_of_step {client next : Client} {event : Event} {index : ℕ}
    {moved : CallState} (hstep : client.step event = some next)
    (hmoved : next.calls[index]? = some moved) : Became client index event moved := by
  cases stepped_of_step hstep with
  | call method args =>
      simp only [call] at hmoved
      rcases Nat.lt_or_ge index client.calls.length with hlt | hge
      · rw [List.getElem?_append_left hlt] at hmoved
        exact .kept _ moved hmoved (by simp) (by simp)
      · rw [List.getElem?_append_right hge, List.getElem?_singleton,
          Option.ite_none_right_eq_some, Option.some.injEq] at hmoved
        obtain ⟨hindex, rfl⟩ := hmoved
        exact .begun method args (by omega)
  | turn at' turn call turned hcall hturned =>
      simp only [advance] at hmoved
      by_cases hindex : at' = index
      · subst hindex
        have hlt := (List.getElem?_eq_some_iff.mp hcall).1
        rw [List.getElem?_set_self hlt, Option.some.injEq] at hmoved
        exact hmoved ▸ .turned turn call turned hcall hturned
      · rw [List.getElem?_set_ne hindex] at hmoved
        exact .kept _ moved hmoved (by simp [hindex]) (by simp)
  | deliver data =>
      simp only [onMessage, List.getElem?_map, Option.map_eq_some_iff] at hmoved
      obtain ⟨call, hcall, rfl⟩ := hmoved
      exact .heard data call hcall

end Client

end RpcDemo
