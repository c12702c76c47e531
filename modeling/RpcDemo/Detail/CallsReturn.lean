import Mathlib.Data.Prod.Lex
import RpcDemo.Detail.SerialCalls

/-!
# Every call returns

A call has a few turns to take, each request is served once, and what is then
posted is written, carried and read once.  In this order of importance the three
bound what client, server and network can do by themselves.  When they have come
to rest, no call is left waiting: each has returned what its own method yields on
the server.
-/

namespace RpcDemo

open RpcDemo.Frame
open RpcDemo.Proto
open RpcDemo.ServerStub
open Ledger Transition

/-- The turns that a call has still to take. -/
def Phase.turnsLeft : Phase → ℕ
  | .numbered => 4
  | .checked => 3
  | .cleared => 2
  | .waiting => 1
  | .returned _ => 0

def CallState.turnsLeft (call : CallState) : ℕ :=
  call.phase.turnsLeft

theorem CallState.Turned.turnsLeft_lt {slot : Slot} {delivered : ℕ} {call moved : CallState}
    {turn : Turn} (hturned : call.Turned slot delivered turn moved) (hexpire : turn ≠ .expire) :
    moved.turnsLeft < call.turnsLeft := by
  cases hturned with
  | expire htimer => exact absurd rfl hexpire
  | pass hphase | refuse hphase | clear hphase | write hphase | wake hphase | giveUp hphase =>
      simp [CallState.turnsLeft, Phase.turnsLeft, hphase]

namespace Client

def turnsLeft (client : Client) : ℕ :=
  total CallState.turnsLeft client.calls

theorem turnsLeft_onMessage (client : Client) (data : Payload) :
    (client.onMessage data).turnsLeft = client.turnsLeft :=
  total_comp _ _

theorem turnsLeft_turn {client next : Client} {index : ℕ} {turn : Turn} (hexpire : turn ≠ .expire)
    (hstep : client.step (.turn index turn) = some next) : next.turnsLeft < client.turnsLeft := by
  cases stepped_of_step hstep with
  | turn index turn call moved hcall hturned =>
      have hset : total CallState.turnsLeft (client.calls.set index moved) + call.turnsLeft =
          total CallState.turnsLeft client.calls + moved.turnsLeft := total_set moved hcall
      have hlower := hturned.turnsLeft_lt hexpire
      simp only [turnsLeft, advance]
      omega

theorem length_calls_of_step {client next : Client} {event : Event}
    (hstep : client.step event = some next) (hcall : ∀ method args, event ≠ .call method args) :
    next.calls.length = client.calls.length := by
  cases stepped_of_step hstep with
  | call method args => exact absurd rfl (hcall method args)
  | turn index turn call moved hcall hturned => exact List.length_set
  | deliver data => exact List.length_map _

end Client

namespace Remote

variable {proto : Protobuf} {remote next : Remote} {event : Event}

/-- What client, server and network do by themselves; no timer expires. -/
def Internal (proto : Protobuf) (remote : Remote) : Event → Prop
  | .call _ _ => False
  | .turn index turn => turn ≠ .expire ∧ remote.Serial proto (.turn index turn)
  | .network event => remote.link.Internal event
  | .clientTurn => True
  | .serverTurn fault => remote.Serial proto (.serverTurn fault)

theorem serial_of_internal (hinternal : remote.Internal proto event) :
    remote.Serial proto event := by
  cases event with
  | call => exact absurd hinternal id
  | turn => exact hinternal.2
  | network => exact Link.benign_of_internal hinternal
  | clientTurn => trivial
  | serverTurn => exact hinternal

/-- The requests that the server has still to serve. -/
def unserved (remote : Remote) : ℕ :=
  (remote.link.session .left).posted.length - (remote.link.session .right).messages.length

def rank (remote : Remote) : ℕ ×ₗ ℕ ×ₗ ℕ :=
  toLex (remote.client.turnsLeft, toLex (remote.unserved, remote.link.effort))

theorem rank_lt_of_turns (hturns : next.client.turnsLeft < remote.client.turnsLeft) :
    next.rank < remote.rank :=
  Prod.Lex.toLex_lt_toLex.mpr (.inl hturns)

theorem rank_lt_of_unserved (hturns : next.client.turnsLeft = remote.client.turnsLeft)
    (hunserved : next.unserved < remote.unserved) : next.rank < remote.rank :=
  Prod.Lex.toLex_lt_toLex.mpr (.inr ⟨hturns, Prod.Lex.toLex_lt_toLex.mpr (.inl hunserved)⟩)

theorem rank_lt_of_effort (hturns : next.client.turnsLeft = remote.client.turnsLeft)
    (hposted : (next.link.session .left).posted = (remote.link.session .left).posted)
    (hmessages : (next.link.session .right).messages = (remote.link.session .right).messages)
    (heffort : next.link.effort < remote.link.effort) : next.rank < remote.rank := by
  have hunserved : next.unserved = remote.unserved := by
    rw [unserved, unserved, hposted, hmessages]
  exact Prod.Lex.toLex_lt_toLex.mpr
    (.inr ⟨hturns, Prod.Lex.toLex_lt_toLex.mpr (.inr ⟨hunserved, heffort⟩)⟩)

/-- Each thing that is done by itself lowers the rank. -/
theorem rank_step (hinv : SerialInv proto remote) (hinternal : remote.Internal proto event)
    (hstep : step proto remote event = some next) : next.rank < remote.rank := by
  have hnext := serialInv_step hinv (serial_of_internal hinternal) hstep
  cases stepped_of_step hstep with
  | call => exact absurd hinternal id
  | turn index turn client hwrite hclient =>
      exact rank_lt_of_turns (Client.turnsLeft_turn hinternal.1 hclient)
  | write index client link hclient hlink =>
      exact rank_lt_of_turns (Client.turnsLeft_turn hinternal.1 hclient)
  | network event link hallows hlink =>
      have hsame := messages_of_allowed hallows hlink
      exact rank_lt_of_effort rfl (hsame .left).2 (hsame .right).1
        (Link.effort_step hinternal hlink)
  | hear data link hpending hlink =>
      obtain ⟨hleft, hright⟩ := Link.session_step_on hlink
      have hright' : link.session .right = remote.link.session .right := hright
      apply rank_lt_of_effort (Client.turnsLeft_onMessage _ _)
      · exact (Session.messages_of_pending hpending hleft).2.trans (List.append_nil _)
      · rw [hright']
      · exact Link.effort_on_internal hlink rfl
  | clientTurn link hpending hlink =>
      obtain ⟨hleft, hright⟩ := Link.session_step_on hlink
      have hright' : link.session .right = remote.link.session .right := hright
      apply rank_lt_of_effort
      · rfl
      · exact (Session.messages_of_turn hpending hleft).2
      · rw [hright']
      · exact Link.effort_on_internal hlink rfl
  | serve fault data answer link hpending hanswer hlink =>
      obtain ⟨hright, hleft⟩ := Link.session_step_on hlink
      have hleft' : link.session .left = remote.link.session .left := hleft
      have hserved : (link.session .right).messages.length ≤
          (link.session .left).posted.length :=
        (hnext.link.inv.messages_isPrefix .left ((hnext.inv 0).fits .left)).length_le
      apply rank_lt_of_unserved
      · rfl
      · have hgrown := (Session.messages_of_pending hpending hright).1
        simp only [unserved]
        rw [hleft', hgrown, List.length_append, List.length_singleton] at hserved ⊢
        omega
  | trap fault data hpending hanswer => exact absurd hnext.running (by simp)
  | serverTurn fault link hpending hlink =>
      obtain ⟨hright, hleft⟩ := Link.session_step_on hlink
      have hleft' : link.session .left = remote.link.session .left := hleft
      apply rank_lt_of_effort
      · rfl
      · rw [hleft']
      · exact (Session.messages_of_turn hpending hright).1
      · exact Link.effort_on_internal hlink rfl

/-! ## Client and server at rest -/

/-- A body that the server has read is a request that the client has posted. -/
theorem SerialInv.mem_posted_of_pending (hinv : SerialInv proto remote) {data : Payload}
    (hpending : (remote.link.session .right).pendingMessage = some data) :
    data ∈ (remote.link.session .left).posted := by
  obtain ⟨rfl, strand, hstrand⟩ := Session.pendingMessage_eq_some hpending
  have hread := hinv.link.inv.read .right
  obtain ⟨haccepted, _, part, hsplit, hphase⟩ := hread
  have harrived : (remote.link.session .right).arrived <+:
      sessionFormat.frames (remote.link.session .left).posted :=
    hinv.link.inv.arrived_isPrefix .left
  cases hphase with
  | bodyReady hreading hresults hlength hpart =>
      have hframes : sessionFormat.frames ((remote.link.session .right).messages ++
          [(remote.link.session .right).readBuffer]) <+:
            sessionFormat.frames (remote.link.session .left).posted := by
        rw [hsplit, hpart] at harrived
        refine (List.prefix_append _ (remote.link.session .right).inbox).trans ?_
        simpa using harrived
      have haccepts : ∀ message ∈ (remote.link.session .right).messages ++
          [(remote.link.session .right).readBuffer], reasonableLength message.length := by
        intro message hmem
        rcases List.mem_append.mp hmem with hmem | hmem
        · exact haccepted message hmem
        · rwa [List.mem_singleton.mp hmem]
      have hprefix := sessionFormat.prefix_of_frames_prefix haccepts
        ((hinv.inv 0).fits .left) hframes
      exact hprefix.subset (List.mem_append_right _ List.mem_cons_self)
  | headerReady _ hresults =>
      obtain ⟨hkind, _⟩ := Session.readResults_of_cons hstrand hresults
      exact absurd hkind (by decide)
  | failed _ _ _ hresults =>
      obtain ⟨_, herror, _⟩ := Session.readResults_of_cons hstrand hresults
      exact absurd herror (by simp)
  | header _ _ hresults | body _ _ hresults | stopped _ hresults =>
      exact absurd hresults (Session.readResults_ne_nil_of_cons hstrand)

/-- Every request posted is one the server can answer. -/
theorem SerialInv.repliesTo_of_posted (hinv : SerialInv proto remote) {data : Payload}
    (hdata : data ∈ (remote.link.session .left).posted) : RepliesTo proto none data := by
  rw [(hinv.inv 0).requests] at hdata
  obtain ⟨index, hwritten, rfl⟩ := List.mem_map.mp hdata
  obtain ⟨call, hcall, -⟩ := (hinv.inv 0).window.written index hwritten
  simp only [Client.requestAt, hcall]
  exact (hinv.answerable call (List.mem_of_getElem? hcall)).reply

/-- At rest, no call can take a turn. -/
theorem turn_of_quiet (hquiet : Quiet (step proto) (Internal proto) remote) (index : ℕ)
    (turn : Turn) (hexpire : turn ≠ .expire) (hserial : remote.Serial proto (.turn index turn)) :
    remote.onTurn proto index turn = none :=
  hquiet (.turn index turn) ⟨hexpire, hserial⟩

section Quiet

variable (hinv : SerialInv proto remote)
  (hquiet : Quiet (step proto) (Internal proto) remote)

include hinv hquiet

theorem strand_of_quiet (side : Side) : (remote.link.session side).strand = [] := by
  cases hstrand : (remote.link.session side).strand with
  | nil => rfl
  | cons handler strand =>
      have hrun : ∀ reaction, ∃ link, remote.link.step (.on side (.run reaction)) = some link := by
        intro reaction
        simp [Link.step, Session.step, Session.runStep, hstrand]
      cases side with
      | left =>
          have hturn := hquiet .clientTurn trivial
          simp only [step, onClientTurn] at hturn
          split at hturn
          · rename_i data hpending
            obtain ⟨link, hlink⟩ := hrun ⟨[], data⟩
            simp [hlink] at hturn
          · obtain ⟨link, hlink⟩ := hrun Session.silent
            simp [hlink] at hturn
      | right =>
          have hserial : remote.Internal proto (.serverTurn none) := fun data hpending =>
            hinv.repliesTo_of_posted (hinv.mem_posted_of_pending hpending)
          have hturn := hquiet (.serverTurn none) hserial
          simp only [step, hinv.running, Bool.false_eq_true, if_false, onServerTurn] at hturn
          split at hturn
          · rename_i data hpending
            obtain ⟨answer, hanswer, -⟩ := hserial data hpending
            obtain ⟨link, hlink⟩ := hrun ⟨[.reply answer.reply], data⟩
            simp [hanswer, hlink] at hturn
          · obtain ⟨link, hlink⟩ := hrun Session.silent
            simp [hlink] at hturn

theorem link_quiet : Quiet Link.step Link.Internal remote.link := by
  intro event hinternal
  have hallowed : remote.Allows event → remote.link.step event = none := by
    intro hallows
    have hnetwork := hquiet (.network event) hinternal
    simpa [step, hallows] using hnetwork
  cases event with
  | segment side count => exact hallowed trivial
  | on side event =>
      cases event with
      | run reaction =>
          have hstrand := strand_of_quiet hinv hquiet side
          simp [Link.step, Session.step, Session.runStep, hstrand]
      | readSome count | readFail error | writeSome count =>
          apply hallowed
          cases side with
          | left => exact .inl trivial
          | right => exact ⟨hinv.running, .inl trivial⟩
      | asyncWrite | close | arrive | hangUp | writeFail => exact absurd hinternal id

/-- At rest, every request has been served and its reply delivered. -/
theorem delivered_of_quiet :
    remote.client.delivered.length = remote.client.written.length := by
  have hall := hinv.link.messages_of_quiet hinv.reasonable (link_quiet hinv hquiet)
  have hright : (remote.link.session .right).messages = (remote.link.session .left).posted :=
    hall .left
  have hleft : (remote.link.session .left).messages = (remote.link.session .right).posted :=
    hall .right
  calc remote.client.delivered.length
      = (remote.link.session .right).posted.length := by rw [← (hinv.inv 0).delivered, hleft]
    _ = (remote.link.session .right).messages.length := (hinv.inv 0).length_posted_right
    _ = remote.client.written.length := by
      rw [hright, (hinv.inv 0).requests, List.length_map]

theorem not_waiting_of_quiet {index : ℕ} {call : CallState}
    (hcall : remote.client.calls[index]? = some call) : call.phase ≠ .waiting := by
  intro hphase
  have hwindow := (hinv.inv index).window
  have hposition := Client.position_of_last hwindow.nodup (hwindow.last call hcall hphase)
    (hinv.client.own index call hcall (.inl hphase))
  have hlength := delivered_of_quiet hinv hquiet
  obtain ⟨hle, hdrop⟩ := hwindow.within call hcall (.inr hphase)
  have hheard : call.heard ≠ [] := by
    rw [← hdrop, ← List.length_pos_iff, List.length_drop]
    omega
  have hreceived : remote.client.slot.responseReceived = true := by
    rw [hwindow.slot.slot call hcall (.inr hphase), List.getLast?_eq_some_getLast hheard]
    rfl
  have hwake := turn_of_quiet hquiet index .wake (by simp) ⟨by simp, fun _ => trivial⟩
  simp [onTurn, Client.step, hcall, CallState.turn, hphase, hreceived] at hwake

theorem not_cleared_of_quiet {index : ℕ} {call : CallState}
    (hcall : remote.client.calls[index]? = some call) : call.phase ≠ .cleared := by
  intro hphase
  have halone : ∀ other, remote.client.Alone other (.turn index .write) := by
    intro other hne otherCall hother hin
    exact hne (hinv.client.one index other call otherCall hcall hother (.inl hphase) hin)
  have hwrite := turn_of_quiet hquiet index .write (by simp) ⟨by simp, halone⟩
  simp [onTurn, Client.step, hcall, CallState.turn, hphase, Link.step, Session.step] at hwrite

/-- At rest, every call has returned. -/
theorem finished_of_quiet {index : ℕ} {call : CallState}
    (hcall : remote.client.calls[index]? = some call) : call.Finished := by
  have hout : ∀ (other : ℕ) (otherCall : CallState),
      remote.client.calls[other]? = some otherCall → ¬ otherCall.InSlot := by
    rintro other otherCall hother (hcleared | hwaiting)
    · exact not_cleared_of_quiet hinv hquiet hother hcleared
    · exact not_waiting_of_quiet hinv hquiet hother hwaiting
  cases hphase : call.phase with
  | returned response => exact ⟨response, hphase⟩
  | waiting => exact absurd (.inr hphase) (hout index call hcall)
  | cleared => exact absurd (.inl hphase) (hout index call hcall)
  | checked =>
      have halone : ∀ other, remote.client.Alone other (.turn index .clear) :=
        fun other _ => hout other
      have hclear := turn_of_quiet hquiet index .clear (by simp) ⟨by simp, halone⟩
      simp [onTurn, Client.step, hcall, CallState.turn, hphase] at hclear
  | numbered =>
      have hcheck := turn_of_quiet hquiet index (.check true) (by simp)
        ⟨by simp, fun _ => trivial⟩
      simp [onTurn, Client.step, hcall, CallState.turn, hphase, hinv.isOpen] at hcheck

end Quiet

/-- A call that has returned was answered by its own reply. -/
theorem SerialInv.result_of_finished (hinv : SerialInv proto remote) (hlawful : proto.Lawful)
    {index : ℕ} {call : CallState} (hcall : remote.client.calls[index]? = some call)
    (hfinished : call.Finished) :
    ∃ service, remote.served[call.clearedAt]? = some service ∧
      remote.invocations index = [call.method] ∧
        call.result proto = some (ClientStub.seenByCaller
          (attempt call.method service.fault (call.method.impl call.args))) := by
  have hfirst : remote.client.AnsweredFirst index call :=
    ⟨hinv.client.answered index call hcall hfinished,
      hinv.client.own index call hcall (.inr hfinished)⟩
  have hindex := hinv.inv index
  obtain ⟨data, hheard, hdata⟩ := hindex.window.heard_of_answeredFirst hcall hfirst
  obtain ⟨service, hservice, rfl, hserves⟩ := hindex.service_of_delivered hdata hfirst.own
  have hrequest : remote.client.requestAt proto index = call.requestBytes proto := by
    simp only [Client.requestAt, hcall]
  rw [hrequest] at hserves
  obtain ⟨hinvoked, hcheck⟩ := checkResponse_of_serves hlawful hserves
  refine ⟨service, hservice, ?_, ?_⟩
  · rw [invocations, filter_zip_of_nodup hindex.window.nodup hfirst.own hservice]
    simpa using hinvoked
  · rw [← hcheck]
    rcases hindex.window.result_of_answeredFirst proto hcall hheard hfirst.own with
      hresult | ⟨hwaiting, -⟩
    · exact hresult
    · obtain ⟨response, hreturned⟩ := hfinished
      exact absurd (hwaiting.symm.trans hreturned) (by simp)

theorem length_calls_of_internal (hinternal : remote.Internal proto event)
    (hstep : step proto remote event = some next) :
    next.client.calls.length = remote.client.calls.length := by
  rcases client_step hstep with ⟨clientEvent, hclient, hmoved⟩ | ⟨-, hsame⟩
  · apply Client.length_calls_of_step hmoved
    rintro method args rfl
    cases event with
    | call => exact hinternal
    | turn | clientTurn | network | serverTurn => simp [clientEvent?] at hclient
  · rw [hsame]

theorem ranked (proto : Protobuf) (count : ℕ) :
    Ranked (step proto) (Internal proto)
      (fun remote => SerialInv proto remote ∧ remote.client.calls.length = count) rank where
  kept := fun hinv hinternal hstep =>
    ⟨serialInv_step hinv.1 (serial_of_internal hinternal) hstep,
      (length_calls_of_internal hinternal hstep).trans hinv.2⟩
  lower := fun hinv hinternal hstep => rank_step hinv.1 hinternal hstep

/-- From every state of a connection without network errors and closes, on which
the calls take turns, wait for their replies and ask for what can be executed and
carried: client, server and network cannot go on by themselves for ever, they can
come to rest, and whenever they are at rest each call has returned; its method was
invoked exactly once, and it returned the value of its own function or threw what
that invocation threw, the one at its own position among the served requests. -/
theorem every_call_returns (proto : Protobuf) (hlawful : proto.Lawful) {remote : Remote}
    {earlier : List Event} (hrun : Transition.run (step proto) start earlier = some remote)
    (hserial : Guarded (step proto) (Serial proto) start earlier) :
    (∀ states : ℕ → Remote, states 0 = remote →
      ¬ ∀ n, ∃ event, (states n).Internal proto event ∧
        step proto (states n) event = some (states (n + 1))) ∧
    (∃ later final, Guarded (step proto) (Internal proto) remote later ∧
      Transition.run (step proto) remote later = some final ∧
        Quiet (step proto) (Internal proto) final) ∧
    ∀ later final, Guarded (step proto) (Internal proto) remote later →
      Transition.run (step proto) remote later = some final →
      Quiet (step proto) (Internal proto) final →
        final.client.calls.length = remote.client.calls.length ∧
        ∀ index call, final.client.calls[index]? = some call →
          ∃ service, final.served[call.clearedAt]? = some service ∧
            final.invocations index = [call.method] ∧
              call.result proto = some (ClientStub.seenByCaller
                (attempt call.method service.fault (call.method.impl call.args))) := by
  have hinv := serialInv_run hserial hrun
  have hranked := ranked proto remote.client.calls.length
  refine ⟨?_, hranked.exists_quiet ⟨hinv, rfl⟩, ?_⟩
  · rintro states rfl
    exact hranked.not_infinite ⟨hinv, rfl⟩
  · intro later final hguarded hlater hquiet
    obtain ⟨hfinal, hlength⟩ := hranked.run_kept ⟨hinv, rfl⟩ hguarded hlater
    refine ⟨hlength, fun index call hcall => ?_⟩
    exact hfinal.result_of_finished hlawful hcall (finished_of_quiet hfinal hquiet hcall)

/-- `add(2, 3)` has just been called. -/
def calledRemote : Remote :=
  { start with client := Client.start.call .add ((2, 3) : Int32 × Int32) }

theorem every_call_returns_sum :
    ∃ later final call, Transition.run (step standard) calledRemote later = some final ∧
      Quiet (step standard) (Internal standard) final ∧ final.client.calls = [call] ∧
        final.invocations 0 = [call.method] := by
  have hrun : Transition.run (step standard) start
      [.call .add ((2, 3) : Int32 × Int32)] = some calledRemote := rfl
  have hserial : Guarded (step standard) (Serial standard) start
      [.call .add ((2, 3) : Int32 × Int32)] := by
    refine ⟨⟨by decide, ?_⟩, fun _ _ => trivial⟩
    exact ⟨⟨sumReply, [.add]⟩, by decide, by decide⟩
  obtain ⟨-, ⟨later, final, hguarded, hlater, hquiet⟩, hreturned⟩ :=
    every_call_returns standard lawful_standard hrun hserial
  obtain ⟨hlength, hcalls⟩ := hreturned later final hguarded hlater hquiet
  obtain ⟨call, hcall⟩ := List.length_eq_one_iff.mp hlength
  obtain ⟨service, -, hinvoked, -⟩ := hcalls 0 call (by rw [hcall]; rfl)
  exact ⟨later, final, call, hlater, hquiet, hcall, hinvoked⟩

end Remote

end RpcDemo
