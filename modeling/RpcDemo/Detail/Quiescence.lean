import RpcDemo.Core.Ledger
import RpcDemo.Core.Termination
import RpcDemo.Detail.Delivery

/-!
# A connection comes to rest

What is left to do on a connection is bounded by what has been posted and what
is under way: every byte is written, carried and read once, and every completion
is handled once.  So without further posts the two sessions and the network
between them come to rest, in whatever order they move, and on a connection
that nobody closed everything has then been delivered.
-/

namespace RpcDemo

open RpcDemo.Frame
open RpcDemo.LengthPrefix (Format)
open Ledger Transition

/-- What a handler in the strand still costs: its own turn, and the operations
that it leads to. -/
def Handler.effort : Handler → ℕ
  | .asyncWrite data => 3 + 5 * (wireMessage data).length
  | .close => 1
  | .read _ none => 3
  | .read _ (some _) => 1
  | .write _ => 1

namespace Session

/-- What a queued message costs once it is its turn to be written. -/
def writeEffort (data : Payload) : ℕ :=
  2 + 5 * (wireMessage data).length

/-- A bound on the turns and transfers that are left to a session.  The front of
the queue is the message of the outstanding write. -/
def effort (session : Session) : ℕ :=
  total Handler.effort session.strand + session.reading.elim 0 (fun _ => 2) +
    session.writing.elim 0 (fun op => 2 + 5 * (op.message.length - op.sent)) +
    total writeEffort session.writeQueue.tail + 2 * session.inbox.length

/-- What happens to a session without its callers and its peer; its message
handler makes no calls. -/
def Event.Internal : Event → Prop
  | .readSome _ | .readFail _ | .writeSome _ | .writeFail _ => True
  | .run reaction => reaction.calls = []
  | _ => False

/-- What an event adds to the work of a session, its own step included. -/
def Event.cost : Event → ℕ
  | .asyncWrite data => 1 + Handler.effort (.asyncWrite data)
  | .close => 1 + Handler.effort .close
  | .arrive segment => 1 + 2 * segment.length
  | .hangUp _ => 1
  | .run reaction => total (fun data => Handler.effort (.asyncWrite data)) (replies reaction.calls)
  | .readSome _ | .readFail _ | .writeSome _ | .writeFail _ => 0

theorem Event.cost_of_internal {event : Event} (hinternal : event.Internal) : event.cost = 0 := by
  cases event with
  | run reaction =>
      have hcalls : reaction.calls = [] := hinternal
      simp [Event.cost, hcalls, replies]
  | asyncWrite | close | arrive | hangUp => exact absurd hinternal id
  | readSome | readFail | writeSome | writeFail => rfl

/-- Starting a write costs at most what the message in the queue did. -/
theorem effort_doWrite_le (session : Session) :
    session.doWrite.effort ≤ session.effort + total writeEffort (session.writeQueue.take 1) := by
  unfold doWrite
  split
  case h_1 => exact Nat.le_add_right _ _
  case h_2 data rest hqueue =>
    simp only [effort, hqueue, List.tail_cons, List.take_one, List.head?_cons, Option.toList,
      total_cons, total_nil, writeEffort, Option.elim]
    omega

theorem effort_onAsyncWrite_le (session : Session) (data : Payload) :
    (session.onAsyncWrite data).effort ≤ session.effort + writeEffort data := by
  simp only [onAsyncWrite]
  cases hqueue : session.writeQueue with
  | nil =>
      have hwrite := effort_doWrite_le { session with writeQueue := [data] }
      simp only [List.isEmpty_nil, if_true, List.nil_append]
      simp only [effort, hqueue, List.tail_cons, List.tail_nil, List.take_one, List.head?_cons,
        Option.toList, total_cons, total_nil] at hwrite ⊢
      omega
  | cons front queue =>
      simp only [List.isEmpty_cons, Bool.false_eq_true, if_false]
      simp only [effort, hqueue, List.cons_append, List.tail_cons, total_append, total_cons,
        total_nil]
      omega

theorem effort_onWritten_le (session : Session) : session.onWritten.effort ≤ session.effort := by
  simp only [onWritten]
  cases hqueue : session.writeQueue.tail with
  | nil =>
      simp only [List.isEmpty_nil, if_true]
      simp only [effort, hqueue, List.tail_nil, total_nil]
      omega
  | cons front queue =>
      have hwrite := effort_doWrite_le { session with writeQueue := front :: queue }
      simp only [List.isEmpty_cons, Bool.false_eq_true, if_false]
      simp only [effort, hqueue, List.tail_cons, List.take_one, List.head?_cons, Option.toList,
        total_cons, total_nil] at hwrite ⊢
      omega

theorem effort_doReadHeader_le (session : Session) :
    session.doReadHeader.effort ≤ session.effort + 2 := by
  simp only [effort, doReadHeader, resizeBuffer, Option.elim]
  omega

/-- A turn of the strand pays for what it starts, but for the replies. -/
theorem effort_runHandler_lt (session : Session) (reaction : Reaction) (handler : Handler) :
    (session.runHandler reaction handler).effort <
      session.effort + handler.effort + Event.cost (.run reaction) := by
  cases handler with
  | asyncWrite data =>
      have hle := session.effort_onAsyncWrite_le data
      simp only [runHandler, Handler.effort]
      rw [writeEffort] at hle
      omega
  | close =>
      simp only [runHandler, Handler.effort, doClose, effort]
      omega
  | read kind error =>
      cases error with
      | some error =>
          cases kind <;>
            simp only [runHandler, Handler.effort, onReadFailed, doClose, onError, effort] <;>
            omega
      | none =>
          cases kind with
          | header =>
              simp only [runHandler, Handler.effort, onReadHeader]
              split
              · simp only [doReadBody, resizeBuffer, effort, Option.elim]
                omega
              · simp only [doClose, onError, effort]
                omega
          | body =>
              have hle := effort_doReadHeader_le (session.onMessage reaction)
              simp only [runHandler, Handler.effort, onReadBody]
              simp only [onMessage_eq, effort, Event.cost, total_append, total_comp,
                Handler.effort] at hle ⊢
              omega
  | write error =>
      cases error with
      | some error =>
          simp only [runHandler, Handler.effort, onWriteFailed, doClose, onError, effort]
          omega
      | none =>
          have hle := session.effort_onWritten_le
          simp only [runHandler, Handler.effort]
          omega

/-- A byte that is written still has to be carried to the peer and read there. -/
theorem effort_step {session next : Session} {event : Event}
    (hstep : session.step event = some next) :
    next.effort + 3 * next.written.length <
      session.effort + 3 * session.written.length + event.cost := by
  cases stepped_of_step hstep with
  | asyncWrite data =>
      simp only [asyncWrite, post, effort, Event.cost, total_append, total_cons, total_nil]
      omega
  | close =>
      simp only [close, post, effort, Event.cost, total_append, total_cons, total_nil]
      omega
  | arrive segment hended =>
      simp only [effort, Event.cost, List.length_append]
      omega
  | hangUp error hended =>
      simp only [effort, Event.cost]
      omega
  | readSome op count hop hopen hcount hinbox hroom =>
      simp only [fillBuffer]
      split
      · simp only [completeRead, post, effort, hop, List.length_drop, total_append, total_cons,
          total_nil, Handler.effort, Option.elim, Event.cost]
        omega
      · simp only [effort, hop, List.length_drop, Option.elim, Event.cost]
        omega
  | readFail op error hop =>
      simp only [completeRead, post, effort, hop, total_append, total_cons, total_nil,
        Handler.effort, Option.elim, Event.cost]
      omega
  | writeSome op count hop hopen hcount hroom =>
      have hsent : ((op.message.drop op.sent).take count).length = count := by
        rw [List.length_take, List.length_drop]
        omega
      simp only [sendBytes]
      split
      · simp only [completeWrite, post, effort, hop, List.length_append, hsent, total_append,
          total_cons, total_nil, Handler.effort, Option.elim, Event.cost]
        omega
      · simp only [effort, hop, List.length_append, hsent, Option.elim, Event.cost]
        omega
  | writeFail op error hop =>
      simp only [completeWrite, post, effort, hop, total_append, total_cons, total_nil,
        Handler.effort, Option.elim, Event.cost]
      omega
  | run handler strand reaction hstrand =>
      have hturn := effort_runHandler_lt { session with strand := strand } reaction handler
      obtain ⟨-, hwritten, -⟩ :=
        runHandler_streams { session with strand := strand } reaction handler
      rw [hwritten]
      simp only [effort, hstrand, total_cons] at hturn ⊢
      omega

/-- What it does by itself and what it receives posts nothing. -/
theorem posted_step {session next : Session} {event : Event}
    (hsilent : event.Internal ∨ ∃ segment, event = .arrive segment)
    (hstep : session.step event = some next) : next.posted = session.posted := by
  cases stepped_of_step hstep with
  | asyncWrite | close | hangUp => simp [Event.Internal] at hsilent
  | arrive segment hended => rfl
  | readSome op count =>
      simp only [fillBuffer]
      split <;> rfl
  | readFail op error => rfl
  | writeSome op count =>
      simp only [sendBytes]
      split <;> rfl
  | writeFail op error => rfl
  | run handler strand reaction hstrand =>
      have hcalls : reaction.calls = [] := by simpa [Event.Internal] using hsilent
      by_cases hbody : handler = .read .body none
      · rw [hbody, runHandler, onReadBody, onMessage_eq, hcalls]
        exact List.append_nil _
      · exact (sameHistories_runHandler { session with strand := strand } reaction hbody).posted

/-- A session that can go on neither by itself nor with its socket has written
and handled everything, and read what there is. -/
theorem idle_of_quiet {session : Session} (hopen : session.isOpen = true)
    (hwrite : session.WriteInv) (hread : session.ReadInv)
    (hquiet : ∀ event : Event, event.Internal → (∀ error, event ≠ .writeFail error) →
      session.step event = none) :
    session.strand = [] ∧ session.writing = none ∧
      (session.reading ≠ none → session.inbox = []) := by
  refine ⟨?_, ?_, fun hreading => ?_⟩
  · cases hstrand : session.strand with
    | nil => rfl
    | cons handler strand =>
        have hrun := hquiet (.run silent) rfl (by simp)
        simp [step, runStep, hstrand] at hrun
  · cases hwriting : session.writing with
    | none => rfl
    | some op =>
        have hsome := hquiet (.writeSome 1) trivial (by simp)
        obtain ⟨_, _, hphase⟩ := hwrite
        cases hphase with
        | busy data rest count _ hbusy _ hcount =>
            obtain rfl := Option.some.inj (hwriting.symm.trans hbusy)
            simp only [step, writeStep, hwriting, hopen, true_and] at hsome
            rw [if_pos ⟨Nat.one_pos, hcount⟩] at hsome
            cases hsome
        | idle _ hnone => exact absurd (hwriting.symm.trans hnone) (by simp)
        | succeeded _ _ _ hnone => exact absurd (hwriting.symm.trans hnone) (by simp)
        | failed _ _ _ _ _ hnone => exact absurd (hwriting.symm.trans hnone) (by simp)
        | stopped _ _ _ _ hnone => exact absurd (hwriting.symm.trans hnone) (by simp)
  · obtain ⟨op, hop⟩ := Option.ne_none_iff_exists'.mp hreading
    have hsome := hquiet (.readSome 1) trivial (by simp)
    obtain ⟨_, _, part, _, hphase⟩ := hread
    have hroom : op.filled + 1 ≤ session.readBuffer.length := by
      cases hphase with
      | header filled hheader _ hlength hfilled =>
          obtain rfl := Option.some.inj (hop.symm.trans hheader)
          rw [hlength]
          exact hfilled
      | body filled hbody _ _ hfilled =>
          obtain rfl := Option.some.inj (hop.symm.trans hbody)
          exact hfilled
      | headerReady hnone | bodyReady hnone | failed _ _ hnone | stopped hnone =>
          exact absurd (hop.symm.trans hnone) (by simp)
    by_contra hinbox
    have hcount : 1 ≤ session.inbox.length := List.length_pos_iff.mpr hinbox
    simp only [step, readStep, hop, hopen, true_and] at hsome
    rw [if_pos ⟨Nat.one_pos, hcount, hroom⟩] at hsome
    cases hsome

end Session

namespace Link

/-- What the two sessions and the network do by themselves; a segment carries at
least one byte. -/
def Internal (link : Link) : Event → Prop
  | .on _ (.writeFail _) => False
  | .on _ event => event.Internal
  | .segment side count => 0 < count ∧ link.flight side ≠ []

/-- A bound on what is left to do on the connection. -/
def effort (link : Link) : ℕ :=
  link.leftSession.effort + link.rightSession.effort +
    3 * (link.leftFlight.length + link.rightFlight.length)

theorem benign_of_internal {link : Link} {event : Event} (hinternal : link.Internal event) :
    event.Benign := by
  cases event with
  | segment => trivial
  | on side event =>
      cases event with
      | run reaction =>
          have hcalls : reaction.calls = [] := hinternal
          simp [Event.Benign, hcalls]
      | close | hangUp | writeFail => exact hinternal
      | asyncWrite | arrive | readSome | readFail | writeSome => trivial

theorem effort_on {link next : Link} {side : Side} {event : Session.Event}
    (hstep : link.step (.on side event) = some next) :
    next.effort < link.effort + event.cost := by
  cases stepped_of_step hstep with
  | on side event moved harrive hmoved =>
      have hlower := Session.effort_step hmoved
      have hgrown : (link.session side).written.length ≤ moved.written.length := by
        have hstreams := (Session.streams_of_step hmoved).1
        cases event with
        | arrive segment => exact absurd rfl (harrive segment)
        | _ => exact hstreams.2.length_le
      cases side <;>
        simp only [effort, advance, setSession, setFlight, flight, session, List.length_append,
          List.length_drop] at hlower hgrown ⊢ <;>
        omega

theorem effort_on_internal {link next : Link} {side : Side} {event : Session.Event}
    (hstep : link.step (.on side event) = some next) (hinternal : event.Internal) :
    next.effort < link.effort := by
  have hlower := effort_on hstep
  rwa [Session.Event.cost_of_internal hinternal, Nat.add_zero] at hlower

theorem effort_segment {link next : Link} {side : Side} {count : ℕ} (hcount : 0 < count)
    (hflight : link.flight side ≠ []) (hstep : link.step (.segment side count) = some next) :
    next.effort < link.effort := by
  have hlength := List.length_pos_iff.mpr hflight
  cases stepped_of_step hstep with
  | segment side count moved hmoved =>
      cases Session.stepped_of_step hmoved with
      | arrive segment hended =>
          cases side <;>
            simp only [effort, setSession, setFlight, flight, session, Side.peer,
              Session.effort, List.length_append, List.length_take, List.length_drop]
              at hlength ⊢ <;>
            omega

theorem effort_step {link next : Link} {event : Event} (hinternal : link.Internal event)
    (hstep : link.step event = some next) : next.effort < link.effort := by
  cases event with
  | segment side count => exact effort_segment hinternal.1 hinternal.2 hstep
  | on side event =>
      have hsession : event.Internal := by
        cases event <;> first | exact hinternal | exact absurd hinternal id
      exact effort_on_internal hstep hsession

/-! ## A connection at rest -/

/-- A read loop that is fed with reasonable sizes does not end. -/
theorem BenignInv.running {link : Link} (hinv : link.BenignInv) {side : Side}
    (hreasonable : ∀ data ∈ (link.session side).posted, reasonableLength data.length) :
    (link.session side.peer).isOpen = true ∧ (link.session side.peer).errors = [] := by
  cases (hinv.loop side.peer).phase with
  | running hopen herrors => exact ⟨hopen, herrors⟩
  | ended hreading hresults hclosed part error hsplit hlast hrest herrors =>
      have hrejects := (hrest (hinv.streaming side.peer)).append _ (link.session side.peer).inbox
      have hstart := hinv.inv.arrived_isPrefix side
      rw [hsplit, List.append_assoc] at hstart
      exact absurd hrejects (sessionFormat.not_rejects_of_frames_prefix
        (hinv.inv.read side.peer).accepted hreasonable hstart)

theorem session_quiet {link : Link} (hquiet : Quiet step Internal link)
    (side : Side) {event : Session.Event} (hinternal : event.Internal)
    (hfail : ∀ error, event ≠ .writeFail error) : (link.session side).step event = none := by
  have hallowed : link.Internal (.on side event) := by
    cases event with
    | writeFail error => exact absurd rfl (hfail error)
    | _ => exact hinternal
  have hstep := hquiet (.on side event) hallowed
  cases event with
  | arrive => exact absurd hinternal id
  | _ => exact Option.map_eq_none_iff.mp hstep

/-- At rest, an open connection has carried everything. -/
theorem BenignInv.settled_of_quiet {link : Link} (hinv : link.BenignInv)
    (hopen : ∀ side, (link.session side).isOpen = true)
    (hquiet : Quiet step Internal link) (side : Side) : link.Settled side := by
  have hidle : ∀ side, (link.session side).strand = [] ∧ (link.session side).writing = none ∧
      ((link.session side).reading ≠ none → (link.session side).inbox = []) := fun side =>
    Session.idle_of_quiet (hopen side) (hinv.inv.write side) (hinv.inv.read side)
      fun _ => session_quiet hquiet side
  obtain ⟨hstrand, hwriting, _⟩ := hidle side
  obtain ⟨hpeer, _, hinbox⟩ := hidle side.peer
  refine ⟨?_, ?_, ?_, hinbox⟩
  · rw [Session.writesSettled, hstrand]
    exact ⟨rfl, hwriting, rfl⟩
  · by_contra hflight
    have hcarried := hquiet (.segment side 1) ⟨Nat.one_pos, hflight⟩
    simp [step, Session.step, hinv.streaming side.peer] at hcarried
  · rw [hpeer]
    rfl

theorem posted_of_internal {link next : Link} {event : Event} (hinternal : link.Internal event)
    (hstep : link.step event = some next) (side : Side) :
    (next.session side).posted = (link.session side).posted := by
  have hside := session_step side hstep
  split at hside
  case h_2 => rw [hside]
  case h_1 localEvent hlocal =>
    apply Session.posted_step _ hside
    cases event with
    | segment sender count =>
        simp only [local?, Option.ite_none_right_eq_some, Option.some.injEq] at hlocal
        exact .inr ⟨_, hlocal.2.symm⟩
    | on owner event =>
        simp only [local?, Option.ite_none_right_eq_some, Option.some.injEq] at hlocal
        obtain ⟨-, rfl⟩ := hlocal
        cases event <;> first | exact .inl hinternal | exact absurd hinternal id

/-- The two sessions, with what each has posted. -/
theorem ranked (posted : Side → List Payload) :
    Ranked step Internal
      (fun link => link.BenignInv ∧ ∀ side, (link.session side).posted = posted side) effort where
  kept := fun hinv hinternal hstep =>
    ⟨benignInv_step hinv.1 (benign_of_internal hinternal) hstep,
      fun side => (posted_of_internal hinternal hstep side).trans (hinv.2 side)⟩
  lower := fun _ hinternal hstep => effort_step hinternal hstep

/-- At rest, each side has delivered what the other one posted. -/
theorem BenignInv.messages_of_quiet {link : Link} (hinv : link.BenignInv)
    (hreasonable : ∀ side, ∀ data ∈ (link.session side).posted, reasonableLength data.length)
    (hquiet : Quiet step Internal link) (side : Side) :
    (link.session side.peer).messages = (link.session side).posted := by
  have hrunning : ∀ side, (link.session side).isOpen = true ∧
      (link.session side).errors = [] := by
    intro side
    have hpeer := hinv.running (hreasonable side.peer)
    rwa [Side.peer_peer] at hpeer
  have hsettled := hinv.settled_of_quiet (fun side => (hrunning side).1) hquiet side
  obtain ⟨rest, hread⟩ := hinv.decomposition (hrunning side).2 hsettled
  exact (hread.eq_of_frames (hreasonable side)).1

/-- From every state of a connection that nobody closed and that had no network
error: the sessions and the network do a bounded number of things by themselves,
in whatever order and whatever was posted; they can come to rest; and whenever
they are at rest and all posted sizes are reasonable, each side has delivered
everything that the other one posted. -/
theorem comes_to_rest {link : Link} {earlier : List Event}
    (hrun : Transition.run step start earlier = some link)
    (hbenign : ∀ event ∈ earlier, event.Benign) :
    (∀ later final, Guarded step Internal link later →
      Transition.run step link later = some final → later.length + final.effort ≤ link.effort) ∧
    (∃ later final, Guarded step Internal link later ∧
      Transition.run step link later = some final ∧ Quiet step Internal final) ∧
    ((∀ side, ∀ data ∈ (link.session side).posted, reasonableLength data.length) →
      ∀ later final, Guarded step Internal link later →
        Transition.run step link later = some final → Quiet step Internal final →
          ∀ side, (final.session side.peer).messages = (link.session side).posted) := by
  have hranked := ranked fun side => (link.session side).posted
  have hinv := benignInv_run hbenign hrun
  refine ⟨?_, ?_, ?_⟩
  · intro later final hguarded hlater
    exact hranked.length_add_le ⟨hinv, fun _ => rfl⟩ hguarded hlater
  · exact hranked.exists_quiet ⟨hinv, fun _ => rfl⟩
  · intro hreasonable later final hguarded hlater hquiet side
    obtain ⟨hfinal, hposted⟩ := hranked.run_kept ⟨hinv, fun _ => rfl⟩ hguarded hlater
    rw [hfinal.messages_of_quiet _ hquiet side, hposted side]
    intro side
    rw [hposted side]
    exact hreasonable side

/-- The left side has posted two payloads and the right side one. -/
def postedLink : Link where
  leftSession := (Session.start.asyncWrite [7]).asyncWrite [8, 9]
  rightSession := Session.start.asyncWrite [1]
  leftFlight := []
  rightFlight := []

theorem comes_to_rest_postedLink :
    ∃ later final, Transition.run step postedLink later = some final ∧
      Quiet step Internal final ∧ (final.session .right).messages = [[7], [8, 9]] ∧
        (final.session .left).messages = [[1]] := by
  have hrun : Transition.run step start [.on .left (.asyncWrite [7]),
      .on .right (.asyncWrite [1]), .on .left (.asyncWrite [8, 9])] = some postedLink := rfl
  have hreasonable : ∀ side, ∀ data ∈ (postedLink.session side).posted,
      reasonableLength data.length := by
    intro side
    cases side <;> decide
  obtain ⟨-, ⟨later, final, hguarded, hlater, hquiet⟩, hdelivered⟩ :=
    comes_to_rest hrun (by simp [Event.Benign])
  have hposted := hdelivered hreasonable later final hguarded hlater hquiet
  exact ⟨later, final, hlater, hquiet, hposted .left, hposted .right⟩

end Link

end RpcDemo
