import RpcDemo.Detail.Link

/-!
# Delivery between two sessions

What the peer of a session delivers is a prefix of what the session posted, and
all of it once the connection has settled, as long as every posted size is one
the read loop accepts.  The writer does not check sizes: a payload the read
loop rejects takes every later payload with it.
-/

namespace RpcDemo.Link

open RpcDemo.Frame
open RpcDemo.LengthPrefix (Format)

/-- Everything `side` posted has been written and has arrived, and its peer has
read what it can: all of it, unless its read loop has ended. -/
structure Settled (link : Link) (side : Side) : Prop where
  writes : (link.session side).writesSettled
  flight : link.flight side = []
  results : Session.readResults (link.session side.peer).strand = []
  inbox : (link.session side.peer).reading ≠ none → (link.session side.peer).inbox = []

instance (link : Link) (side : Side) : Decidable (link.Settled side) :=
  decidable_of_iff ((link.session side).writesSettled ∧ link.flight side = [] ∧
      Session.readResults (link.session side.peer).strand = [] ∧
      ((link.session side.peer).reading ≠ none → (link.session side.peer).inbox = []))
    ⟨fun h => ⟨h.1, h.2.1, h.2.2.1, h.2.2.2⟩, fun h => ⟨h.1, h.2, h.3, h.4⟩⟩

/-- In a settled benign run, on which the writing side has seen no error, the
peer has delivered the maximal decomposition of the posted frames. -/
theorem BenignInv.decomposition {link : Link} {side : Side} (hinv : link.BenignInv)
    (herrors : (link.session side).errors = []) (hsettled : link.Settled side) :
    ∃ rest, sessionFormat.Decomposition
      (sessionFormat.frames (link.session side).posted)
      (link.session side.peer).messages rest := by
  have hopen : (link.session side).isOpen = true := by
    cases (hinv.loop side).phase with
    | running hopen => exact hopen
    | ended _ _ _ _ error _ _ _ hreported =>
        exact absurd (herrors.symm.trans hreported) (by simp)
  have harrived : (link.session side.peer).arrived =
      sessionFormat.frames (link.session side).posted := by
    rw [← (hinv.inv.write side).written_eq hopen hsettled.writes, ← hinv.inv.pipe side,
      hsettled.flight, List.append_nil]
  rw [← harrived]
  cases (hinv.loop side.peer).phase with
  | running hpeer =>
      exact (hinv.inv.read side.peer).decomposition_of_waiting hpeer hsettled.results
        hsettled.inbox
  | ended hreading hresults =>
      obtain ⟨_, rest, _, hread, _⟩ :=
        (hinv.loop side.peer).decomposition_of_ended (hinv.inv.read side.peer)
          ⟨hreading, hresults⟩
      exact ⟨rest, hread⟩

/-- For every run of two connected sessions, the messages a side delivers are a
prefix of the payloads its peer posted, if their sizes fit the header; and in a
settled run without errors and closes they are all of them, if their sizes are
reasonable. -/
theorem messages_of_posted {link : Link} {events : List Event} (side : Side)
    (hrun : Transition.run step start events = some link) :
    ((∀ data ∈ (link.session side).posted, data.length < 2 ^ 32) →
      (link.session side.peer).messages <+: (link.session side).posted) ∧
    ((∀ event ∈ events, event.Benign) →
      (link.session side).errors = [] →
      (∀ data ∈ (link.session side).posted, reasonableLength data.length) →
      link.Settled side →
        (link.session side.peer).messages = (link.session side).posted) := by
  refine ⟨fun hfits => (linkInv_run hrun).messages_isPrefix side hfits, ?_⟩
  intro hbenign herrors hreasonable hsettled
  obtain ⟨rest, hread⟩ := (benignInv_run hbenign hrun).decomposition herrors hsettled
  exact (hread.eq_of_frames hreasonable).1

/-- The left side posts two payloads; the first of two segments ends in the second
frame. -/
def twoPayloadsEvents : List Event :=
  [.on .left (.asyncWrite [7]), .on .left (.asyncWrite [8, 9]), .on .left (.run Session.silent),
    .on .left (.run Session.silent), .on .left (.writeSome 5), .on .left (.run Session.silent),
    .on .left (.writeSome 6), .on .left (.run Session.silent), .segment .left 6,
    .on .right (.readSome 4), .on .right (.run Session.silent), .on .right (.readSome 1),
    .on .right (.run Session.silent), .on .right (.readSome 1), .segment .left 5,
    .on .right (.readSome 3), .on .right (.run Session.silent), .on .right (.readSome 2),
    .on .right (.run Session.silent)]

def twoPayloadsLink : Link where
  leftSession := { Session.start with
    written := [0, 0, 0, 1, 7, 0, 0, 0, 2, 8, 9]
    posted := [[7], [8, 9]] }
  rightSession := { Session.start with
    readBuffer := [0, 0, 0, 0]
    arrived := [0, 0, 0, 1, 7, 0, 0, 0, 2, 8, 9]
    messages := [[7], [8, 9]] }
  leftFlight := []
  rightFlight := []

theorem run_twoPayloadsEvents :
    Transition.run step start twoPayloadsEvents = some twoPayloadsLink := by
  decide

theorem messages_of_posted_twoPayloads :
    (twoPayloadsLink.session .right).messages = [[7], [8, 9]] := by
  have hbenign : ∀ event ∈ twoPayloadsEvents, event.Benign := by
    simp [twoPayloadsEvents, Event.Benign, Session.silent]
  have hmessages := (messages_of_posted .left run_twoPayloadsEvents).2 hbenign rfl (by decide)
    (by decide)
  exact hmessages

/-! ## Payloads the read loop rejects -/

section Exactly

variable {posted messages before after clean rest : List Payload} {last : Payload}

end Exactly

end RpcDemo.Link
