import RpcDemo.Detail.ReadLoop

/-!
# Messages after the socket was closed

The read lambdas look at their own error code and never at the socket.  A body
that was read to its end before `do_close` may wait in the strand behind it,
and its message is delivered all the same.  It is the only one: every read that
is started on a closed socket fails.
-/

namespace RpcDemo.Session

open RpcDemo.Frame

/-- Bodies read to their end whose lambda has not run. -/
def readyBodies (session : Session) : ℕ :=
  (readResults session.strand).count (.body, none)

theorem ReadInv.readyBodies_le_one {session : Session} (hinv : session.ReadInv) :
    session.readyBodies ≤ 1 := by
  obtain ⟨part, _, hphase⟩ := hinv.phase
  have hle : (readResults session.strand).length ≤ 1 := by
    cases hphase <;> simp [*]
  exact (List.count_le_length).trans hle

/-- A turn delivers at most the body at the front of the strand. -/
theorem messages_runHandler {session : Session} {handler : Handler} {strand : List Handler}
    (reaction : Reaction) (hstrand : session.strand = handler :: strand) :
    ∃ extra, ({ session with strand := strand }.runHandler reaction handler).messages =
        session.messages ++ extra ∧
      extra.length + ({ session with strand := strand }.runHandler reaction handler).readyBodies ≤
        session.readyBodies := by
  by_cases hbody : handler = .read .body none
  · subst hbody
    refine ⟨[session.readBuffer], ?_, ?_⟩
    · rw [runHandler, onReadBody, onMessage_eq]
      rfl
    · rw [runHandler, onReadBody, onMessage_eq]
      simp [readyBodies, doReadHeader, resizeBuffer, hstrand, Handler.readResult, Nat.add_comm]
  · have hsame := sameHistories_runHandler { session with strand := strand } reaction hbody
    refine ⟨[], by rw [hsame.messages, List.append_nil], ?_⟩
    rw [readyBodies, hsame.strand, readyBodies, hstrand, readResults_cons, List.count_append]
    simp

theorem messages_step {session next : Session} {event : Event}
    (hclosed : session.isOpen = false) (hstep : session.step event = some next) :
    ∃ extra, next.messages = session.messages ++ extra ∧
      extra.length + next.readyBodies ≤ session.readyBodies := by
  cases stepped_of_step hstep with
  | asyncWrite data | close =>
      refine ⟨[], (List.append_nil _).symm, le_of_eq ?_⟩
      simp [asyncWrite, close, post, readyBodies, Handler.readResult]
  | arrive segment | hangUp error =>
      exact ⟨[], (List.append_nil _).symm, le_of_eq (Nat.zero_add _)⟩
  | readSome op count _ hopen => exact absurd (hopen.symm.trans hclosed) (by simp)
  | readFail op error =>
      refine ⟨[], (List.append_nil _).symm, le_of_eq ?_⟩
      simp [completeRead, post, readyBodies, Handler.readResult]
  | writeSome op count _ hopen => exact absurd (hopen.symm.trans hclosed) (by simp)
  | writeFail op error =>
      refine ⟨[], (List.append_nil _).symm, le_of_eq ?_⟩
      simp [completeWrite, post, readyBodies, Handler.readResult]
  | run handler strand reaction hstrand => exact messages_runHandler reaction hstrand

theorem messages_run {session final : Session} {events : List Event}
    (hclosed : session.isOpen = false)
    (hrun : Transition.run step session events = some final) :
    ∃ extra, final.messages = session.messages ++ extra ∧
      extra.length + final.readyBodies ≤ session.readyBodies := by
  induction events generalizing session with
  | nil =>
      obtain rfl := Option.some.inj hrun
      exact ⟨[], (List.append_nil _).symm, le_of_eq (Nat.zero_add _)⟩
  | cons event events ih =>
      obtain ⟨next, hstep, hrest⟩ := Transition.run_cons.mp hrun
      obtain ⟨first, hfirst, hcount⟩ := messages_step hclosed hstep
      obtain ⟨rest, hmessages, hle⟩ := ih (closed_step hstep hclosed) hrest
      refine ⟨first ++ rest, ?_, ?_⟩
      · rw [hmessages, hfirst, List.append_assoc]
      · rw [List.length_append]
        omega

/-- Once `do_close` has run, the message handler is called at most once more, and
only for a body whose completion was waiting in the strand by then. -/
theorem messages_after_close {session final : Session} {events later : List Event}
    (hrun : Transition.run step start events = some session)
    (hclosed : session.isOpen = false)
    (hlater : Transition.run step session later = some final) :
    ∃ extra, final.messages = session.messages ++ extra ∧ extra.length ≤ 1 ∧
      ((ReadKind.body, none) ∉ readResults session.strand → extra = []) := by
  obtain ⟨extra, hmessages, hcount⟩ := messages_run hclosed hlater
  have hle := (readInv_run hrun).readyBodies_le_one
  refine ⟨extra, hmessages, by omega, fun hnone => ?_⟩
  have hzero : session.readyBodies = 0 := List.count_eq_zero.mpr hnone
  exact List.eq_nil_of_length_eq_zero (by omega)

/-- A `close()` posted while the body of a message is read. -/
def closeBeforeBody : List Event :=
  [.arrive (wireMessage [7]), .readSome 4, .run silent, .close, .readSome 1, .run silent]

def closedBeforeBody : Session :=
  { fresh with
    isOpen := false
    strand := [.read .body none]
    readBuffer := [7]
    arrived := wireMessage [7] }

theorem closedBeforeBody_delivers :
    Transition.run step start closeBeforeBody = some closedBeforeBody ∧
      closedBeforeBody.isOpen = false ∧ closedBeforeBody.messages = [] ∧
      (Transition.run step closedBeforeBody [.run silent]).map Session.messages =
        some [[7]] := by
  decide

theorem messages_after_close_closedBeforeBody :
    ∃ final extra, Transition.run step closedBeforeBody [.run silent] = some final ∧
      final.messages = closedBeforeBody.messages ++ extra ∧ extra.length ≤ 1 := by
  have hrun : Transition.run step start closeBeforeBody = some closedBeforeBody := by decide
  obtain ⟨final, hlater⟩ :
      ∃ final, Transition.run step closedBeforeBody [.run silent] = some final :=
    Option.isSome_iff_exists.mp (by decide)
  obtain ⟨extra, hmessages, hlength, -⟩ := messages_after_close hrun rfl hlater
  exact ⟨final, extra, hlater, hmessages, hlength⟩

end RpcDemo.Session
