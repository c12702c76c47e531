import RpcDemo.Detail.HostileInput

/-!
# Two sessions joined by a connection

Each side writes into a byte pipe that the peer reads from; TCP cuts the pipe
into segments as it likes.  Every run of the pair is a run of each of its two
sessions, so the queue and read-loop invariants hold on both sides, and the
pipe joins them: what has arrived at one side is a prefix of what the other
side has written.
-/

namespace RpcDemo

open RpcDemo.Frame
open RpcDemo.LengthPrefix (Format)

inductive Side
  | left
  | right
  deriving DecidableEq

def Side.peer : Side → Side
  | .left => .right
  | .right => .left

@[simp]
theorem Side.peer_peer (side : Side) : side.peer.peer = side := by
  cases side <;> rfl

@[simp]
theorem Side.peer_ne (side : Side) : side.peer ≠ side := by
  cases side <;> decide

/-- Two sessions and, for each, the bytes it has written that have not yet
arrived at its peer. -/
structure Link where
  leftSession : Session
  rightSession : Session
  leftFlight : List UInt8
  rightFlight : List UInt8
  deriving DecidableEq

namespace Link

def session (link : Link) : Side → Session
  | .left => link.leftSession
  | .right => link.rightSession

def flight (link : Link) : Side → List UInt8
  | .left => link.leftFlight
  | .right => link.rightFlight

def setSession (link : Link) (side : Side) (next : Session) : Link :=
  match side with
  | .left => { link with leftSession := next }
  | .right => { link with rightSession := next }

def setFlight (link : Link) (side : Side) (bytes : List UInt8) : Link :=
  match side with
  | .left => { link with leftFlight := bytes }
  | .right => { link with rightFlight := bytes }

/-- Both sides connected and started. -/
def start : Link :=
  ⟨Session.start, Session.start, [], []⟩

/-- An event of one session, or the arrival at the peer of the next `count`
bytes that `side` has written. -/
inductive Event
  | on (side : Side) (event : Session.Event)
  | segment (side : Side) (count : ℕ)
  deriving DecidableEq

/-- The session of `side` has moved to `next`; what it wrote is in flight. -/
def advance (link : Link) (side : Side) (next : Session) : Link :=
  (link.setSession side next).setFlight side
    (link.flight side ++ next.written.drop (link.session side).written.length)

def step (link : Link) : Event → Option Link
  | .on _ (.arrive _) => none
  | .on side event => ((link.session side).step event).map (link.advance side)
  | .segment side count =>
      ((link.session side.peer).step (.arrive ((link.flight side).take count))).map
        fun next => (link.setSession side.peer next).setFlight side
          ((link.flight side).drop count)

section Fields

variable (link : Link) (side : Side) (next : Session) (bytes : List UInt8)

@[simp]
theorem session_setSession : (link.setSession side next).session side = next := by
  cases side <;> rfl

@[simp]
theorem session_setSession_peer :
    (link.setSession side next).session side.peer = link.session side.peer := by
  cases side <;> rfl

@[simp]
theorem session_setFlight (other : Side) :
    (link.setFlight side bytes).session other = link.session other := by
  cases side <;> cases other <;> rfl

@[simp]
theorem flight_setSession (other : Side) :
    (link.setSession side next).flight other = link.flight other := by
  cases side <;> cases other <;> rfl

@[simp]
theorem flight_setFlight : (link.setFlight side bytes).flight side = bytes := by
  cases side <;> rfl

@[simp]
theorem flight_setFlight_peer :
    (link.setFlight side bytes).flight side.peer = link.flight side.peer := by
  cases side <;> rfl

end Fields

theorem side_cases (side other : Side) : other = side ∨ other = side.peer := by
  cases side <;> cases other <;> decide

/-- All a step of the pair can do. -/
inductive Stepped (link : Link) : Event → Link → Prop
  | on (side : Side) (event : Session.Event) (next : Session)
      (harrive : ∀ segment, event ≠ .arrive segment)
      (hstep : (link.session side).step event = some next) :
      Stepped link (.on side event) (link.advance side next)
  | segment (side : Side) (count : ℕ) (next : Session)
      (hstep : (link.session side.peer).step (.arrive ((link.flight side).take count)) =
        some next) :
      Stepped link (.segment side count)
        ((link.setSession side.peer next).setFlight side ((link.flight side).drop count))

theorem stepped_of_step {link next : Link} {event : Event}
    (hstep : link.step event = some next) : Stepped link event next := by
  unfold step at hstep
  split at hstep
  case h_1 => exact absurd hstep (by simp)
  case h_2 side event hother =>
    obtain ⟨moved, hmoved, rfl⟩ := Option.map_eq_some_iff.mp hstep
    exact .on side event moved (fun segment heq => hother segment heq) hmoved
  case h_3 side count =>
    obtain ⟨moved, hmoved, rfl⟩ := Option.map_eq_some_iff.mp hstep
    exact .segment side count moved hmoved

/-! ## The sessions of a run -/

/-- What a link event is to the session of `side`. -/
def local? (link : Link) (side : Side) : Event → Option Session.Event
  | .on other event => if other = side then some event else none
  | .segment other count =>
      if other.peer = side then some (.arrive ((link.flight other).take count)) else none

theorem session_step {link next : Link} {event : Event} (side : Side)
    (hstep : link.step event = some next) :
    match link.local? side event with
    | some localEvent => (link.session side).step localEvent = some (next.session side)
    | none => next.session side = link.session side := by
  cases stepped_of_step hstep with
  | on other event moved harrive hmoved =>
      rcases side_cases other side with rfl | rfl
      · simpa [local?, advance] using hmoved
      · have hne : other ≠ other.peer := fun heq => Side.peer_ne other heq.symm
        simp [local?, advance, hne]
  | segment other count moved hmoved =>
      rcases side_cases other side with rfl | rfl
      · simp only [local?, Side.peer_ne, if_false, session_setFlight]
        cases side <;> rfl
      · simpa [local?] using hmoved

/-! ## The pipe between two sessions -/

end Link

namespace Session

theorem runHandler_streams (session : Session) (reaction : Reaction) (handler : Handler) :
    (session.runHandler reaction handler).arrived = session.arrived ∧
      (session.runHandler reaction handler).written = session.written ∧
      (session.runHandler reaction handler).ended = session.ended := by
  by_cases hbody : handler = .read .body none
  · rw [hbody, runHandler, onReadBody, onMessage_eq]
    exact ⟨rfl, rfl, rfl⟩
  · have hsame := sameHistories_runHandler session reaction hbody
    exact ⟨hsame.arrived, hsame.written, hsame.ended⟩

/-- Only an arrival adds to what has arrived, and nothing written is taken
back. -/
theorem streams_of_step {session next : Session} {event : Event}
    (hstep : session.step event = some next) :
    (match event with
      | .arrive segment => next.arrived = session.arrived ++ segment ∧
          next.written = session.written
      | _ => next.arrived = session.arrived ∧ session.written <+: next.written) ∧
      ((∀ error, event ≠ .hangUp error) → next.ended = session.ended) := by
  cases stepped_of_step hstep with
  | asyncWrite data => exact ⟨⟨rfl, List.prefix_rfl⟩, fun _ => rfl⟩
  | close => exact ⟨⟨rfl, List.prefix_rfl⟩, fun _ => rfl⟩
  | arrive segment => exact ⟨⟨rfl, rfl⟩, fun _ => rfl⟩
  | hangUp error => exact ⟨⟨rfl, List.prefix_rfl⟩, fun hnot => absurd rfl (hnot error)⟩
  | readSome op count =>
      simp only [fillBuffer]
      split <;> exact ⟨⟨rfl, List.prefix_rfl⟩, fun _ => rfl⟩
  | readFail op error => exact ⟨⟨rfl, List.prefix_rfl⟩, fun _ => rfl⟩
  | writeSome op count =>
      simp only [sendBytes]
      split <;> exact ⟨⟨rfl, List.prefix_append _ _⟩, fun _ => rfl⟩
  | writeFail op error => exact ⟨⟨rfl, List.prefix_rfl⟩, fun _ => rfl⟩
  | run handler strand reaction hstrand =>
      obtain ⟨harrived, hwritten, hended⟩ :=
        runHandler_streams { session with strand := strand } reaction handler
      exact ⟨⟨harrived, by rw [hwritten]⟩, fun _ => hended⟩

end Session

namespace Link

structure LinkInv (link : Link) : Prop where
  write : ∀ side, (link.session side).WriteInv
  read : ∀ side, (link.session side).ReadInv
  pipe : ∀ side, (link.session side.peer).arrived ++ link.flight side =
    (link.session side).written

theorem linkInv_start : LinkInv start where
  write side := by cases side <;> exact Session.writeInv_start
  read side := by cases side <;> exact Session.readInv_start
  pipe side := by cases side <;> rfl

theorem sessions_step {link next : Link} {event : Event} {invariant : Session → Prop}
    (hsession : ∀ session localEvent moved, invariant session →
      Session.step session localEvent = some moved → invariant moved)
    (hinv : ∀ side, invariant (link.session side))
    (hstep : link.step event = some next) (side : Side) :
    invariant (next.session side) := by
  have hside := session_step side hstep
  split at hside
  case h_1 localEvent _ => exact hsession _ localEvent _ (hinv side) hside
  case h_2 => exact hside ▸ hinv side

theorem pipe_step {link next : Link} {event : Event}
    (hpipe : ∀ side, (link.session side.peer).arrived ++ link.flight side =
      (link.session side).written)
    (hstep : link.step event = some next) (side : Side) :
    (next.session side.peer).arrived ++ next.flight side = (next.session side).written := by
  cases stepped_of_step hstep with
  | on other event moved harrive hmoved =>
      have hstreams := (Session.streams_of_step hmoved).1
      have hlocal : moved.arrived = (link.session other).arrived ∧
          (link.session other).written <+: moved.written := by
        cases event with
        | arrive segment => exact absurd rfl (harrive segment)
        | _ => exact hstreams
      obtain ⟨harrived, more, hmore⟩ := hlocal
      rcases side_cases other side with rfl | rfl
      · simp only [advance, session_setFlight, session_setSession_peer, flight_setFlight,
          session_setSession]
        rw [← List.append_assoc, hpipe, ← hmore, List.drop_left]
      · have hpeer := hpipe other.peer
        cases other <;>
          simpa [advance, setSession, setFlight, session, flight, Side.peer, harrived]
            using hpeer
  | segment other count moved hmoved =>
      obtain ⟨⟨harrived, hwritten⟩, _⟩ := Session.streams_of_step hmoved
      rcases side_cases other side with rfl | rfl
      · have hwas := hpipe side
        rw [← List.take_append_drop count (link.flight side), ← List.append_assoc,
          ← harrived] at hwas
        cases side <;> exact hwas
      · have hpeer := hpipe other.peer
        cases other <;>
          simpa [setSession, setFlight, session, flight, Side.peer, hwritten] using hpeer

theorem linkInv_step {link next : Link} {event : Event} (hinv : link.LinkInv)
    (hstep : link.step event = some next) : next.LinkInv where
  write side := sessions_step (fun _ _ _ h hs => Session.writeInv_step h hs) hinv.write
    hstep side
  read side := sessions_step (fun _ _ _ h hs => Session.readInv_step h hs) hinv.read
    hstep side
  pipe side := pipe_step hinv.pipe hstep side

theorem linkInv_run {link : Link} {events : List Event}
    (hrun : Transition.run step start events = some link) : link.LinkInv :=
  Transition.run_invariant (fun _ _ _ hinv hstep => linkInv_step hinv hstep)
    linkInv_start hrun

/-- What has arrived at a side is a prefix of the frames of what its peer has
posted. -/
theorem LinkInv.arrived_isPrefix {link : Link} (hinv : link.LinkInv) (side : Side) :
    (link.session side.peer).arrived <+:
      sessionFormat.frames (link.session side).posted := by
  have hwritten := (hinv.write side).written_isPrefix
  rw [← hinv.pipe side] at hwritten
  exact (List.prefix_append _ _).trans hwritten

/-- The peer delivers a prefix of what was posted, as long as every posted size
fits the header. -/
theorem LinkInv.messages_isPrefix {link : Link} (hinv : link.LinkInv) (side : Side)
    (hfits : ∀ data ∈ (link.session side).posted, data.length < 2 ^ 32) :
    (link.session side.peer).messages <+: (link.session side).posted := by
  apply sessionFormat.prefix_of_frames_prefix (hinv.read side.peer).accepted hfits
  exact (hinv.read side.peer).frames_isPrefix.trans (hinv.arrived_isPrefix side)

/-! ## Runs without errors and closes -/

/-- No `close`, from outside or by a message handler, and no network error or
end of a stream. -/
def Event.Benign : Event → Prop
  | .on _ .close => False
  | .on _ (.hangUp _) => False
  | .on _ (.writeFail _) => False
  | .on _ (.run reaction) => Call.close ∉ reaction.calls
  | _ => True

theorem local_undisturbed {link : Link} {side : Side} {event : Event}
    {localEvent : Session.Event} (hbenign : event.Benign)
    (hlocal : link.local? side event = some localEvent) :
    localEvent.Undisturbed ∧ ∀ error, localEvent ≠ .hangUp error := by
  cases event with
  | segment other count =>
      simp only [local?] at hlocal
      split at hlocal
      · cases hlocal
        exact ⟨trivial, by simp⟩
      · exact absurd hlocal (by simp)
  | on other event =>
      simp only [local?] at hlocal
      split at hlocal
      · cases hlocal
        cases localEvent with
        | close => exact absurd hbenign id
        | writeFail error => exact absurd hbenign id
        | hangUp error => exact absurd hbenign id
        | run reaction => exact ⟨hbenign, by simp⟩
        | _ => exact ⟨trivial, by simp⟩
      · exact absurd hlocal (by simp)

/-- In a benign run only a read loop can close its socket, at a rejected
header. -/
structure BenignInv (link : Link) : Prop where
  inv : link.LinkInv
  loop : ∀ side, (link.session side).LoopInv
  streaming : ∀ side, (link.session side).ended = none

theorem benignInv_start : BenignInv start where
  inv := linkInv_start
  loop side := by cases side <;> exact Session.loopInv_start
  streaming side := by cases side <;> rfl

theorem benignInv_step {link next : Link} {event : Event} (hinv : link.BenignInv)
    (hbenign : event.Benign) (hstep : link.step event = some next) : next.BenignInv where
  inv := linkInv_step hinv.inv hstep
  loop side := by
    have hside := session_step side hstep
    split at hside
    case h_1 localEvent hlocal =>
      exact Session.loopInv_step (hinv.inv.read side) (hinv.loop side)
        (local_undisturbed hbenign hlocal).1 hside
    case h_2 => exact hside ▸ hinv.loop side
  streaming side := by
    have hside := session_step side hstep
    split at hside
    case h_1 localEvent hlocal =>
      rw [(Session.streams_of_step hside).2 (local_undisturbed hbenign hlocal).2]
      exact hinv.streaming side
    case h_2 => exact hside ▸ hinv.streaming side

theorem benignInv_run {link : Link} {events : List Event}
    (hbenign : ∀ event ∈ events, event.Benign)
    (hrun : Transition.run step start events = some link) : link.BenignInv :=
  Transition.run_invariant_of_forall
    (fun _ _ _ hinv hevent hstep => benignInv_step hinv hevent hstep)
    benignInv_start hbenign hrun

end Link

end RpcDemo
