import RpcDemo.Detail.WriteQueue

/-!
# A reply before a close

A request handler runs inside the strand of its session.  There `reply` only
posts, while `close` takes effect at once, so the socket is shut down before
any reply of the same run has been written, however early the reply was made.
-/

namespace RpcDemo

open RpcDemo.Frame

namespace Session

/-- The payloads a handler passes to `reply` before its first `close`. -/
def repliesBeforeClose (calls : List Call) : List Payload :=
  replies (calls.takeWhile (· ≠ Call.close))

/-- Of everything posted, the payload at `position` and all before it are on
the wire. -/
def IsWritten (session : Session) (position : ℕ) : Prop :=
  sessionFormat.frames (session.posted.take (position + 1)) <+: session.written

instance (session : Session) (position : ℕ) : Decidable (session.IsWritten position) :=
  inferInstanceAs (Decidable (_ <+: _))

/-- When a handler called `close`, and the socket is shut down, what the handler
replied before its first `close` has been written. -/
def KeepsReplies (session : Session) (reaction : Reaction) : Prop :=
  ∀ events final,
    Transition.run step session (.run reaction :: events) = some final →
      Call.close ∈ reaction.calls → final.isOpen = false →
        ∀ index < (repliesBeforeClose reaction.calls).length,
          final.IsWritten (session.posted.length + index)

/-- The handler calls `close`, if at all, before any `reply`. -/
def ClosesFirst (calls : List Call) : Prop :=
  Call.close ∈ calls → repliesBeforeClose calls = []

instance (calls : List Call) : Decidable (ClosesFirst calls) :=
  inferInstanceAs (Decidable (_ → _))

theorem repliesBeforeClose_isPrefix (calls : List Call) :
    repliesBeforeClose calls <+: replies calls :=
  (List.takeWhile_prefix _).filterMap Call.payload

/-- At most what was posted is on the wire, so a payload posted only now is
not. -/
theorem not_isWritten_of_posted {session next : Session} {data : Payload}
    {datas : List Payload} (hinv : session.WriteInv)
    (hposted : next.posted = session.posted ++ data :: datas)
    (hwritten : next.written = session.written) :
    ¬ next.IsWritten session.posted.length := by
  intro hon
  have hprefix := hinv.written_isPrefix
  have htake : next.posted.take (session.posted.length + 1) = session.posted ++ [data] := by
    simp [hposted, List.take_append]
  rw [IsWritten, htake, hwritten] at hon
  have hle := (hon.trans hprefix).length_le
  rw [LengthPrefix.Format.frames_append, List.length_append] at hle
  have hframe : (sessionFormat.frames [data]).length = 4 + data.length := by
    simp
  omega

/-- The handler of `.read .body` calls the message handler and arms the next
read. -/
theorem step_onMessage {session : Session} {strand : List Handler} (reaction : Reaction)
    (hstrand : session.strand = .read .body none :: strand) :
    session.step (.run reaction) =
      some ({ session with strand := strand }.onReadBody reaction) := by
  simp only [step, runStep, hstrand]
  rfl

/-- On every session about to run its message handler, the handler's replies
before its `close` are written before the socket is shut down exactly when there
are none. -/
theorem keepsReplies_iff {events : List Event} {session : Session} {strand : List Handler}
    (hrun : Transition.run step start events = some session)
    (hstrand : session.strand = .read .body none :: strand) (reaction : Reaction) :
    session.KeepsReplies reaction ↔ ClosesFirst reaction.calls := by
  have hinv := writeInv_run hrun
  constructor
  · intro hkeeps hclose
    cases hreplies : repliesBeforeClose reaction.calls with
    | nil => rfl
    | cons data datas =>
        obtain ⟨rest, hall⟩ := repliesBeforeClose_isPrefix reaction.calls
        rw [hreplies] at hall
        have hnext := step_onMessage reaction hstrand
        generalize hafter : onReadBody { session with strand := strand } reaction = after at hnext
        have hfields : after.posted = session.posted ++ data :: (datas ++ rest) ∧
            after.written = session.written ∧ after.isOpen = false := by
          rw [← hafter, onReadBody, onMessage_eq]
          simp [doReadHeader, resizeBuffer, ← hall, hclose]
        obtain ⟨hposted, hwritten, hclosed⟩ := hfields
        have hone : Transition.run step session [.run reaction] = some after := by
          simp [Transition.run, hnext]
        have hon := hkeeps [] after hone hclose hclosed 0 (by simp [hreplies])
        exact absurd hon (not_isWritten_of_posted hinv hposted hwritten)
  · intro hfirst events final _ hclose _ index hindex
    rw [hfirst hclose] at hindex
    exact absurd hindex (by simp)

/-- A request of one byte, ready for the message handler. -/
def requestEvents : List Event :=
  [.arrive [0, 0, 0, 1, 65], .readSome 4, .run silent, .readSome 1]

def requestSession : Session where
  isOpen := true
  strand := [.read .body none]
  readBuffer := [65]
  writeQueue := []
  reading := none
  writing := none
  inbox := []
  ended := none
  arrived := [0, 0, 0, 1, 65]
  written := []
  posted := []
  messages := []
  errors := []

theorem keepsReplies_iff_requestEvents :
    requestSession.KeepsReplies ⟨[.close, .reply [65]], []⟩ ↔
      ClosesFirst [.close, .reply [65]] := by
  have hrun : Transition.run step start requestEvents = some requestSession := by decide
  exact keepsReplies_iff hrun rfl ⟨[.close, .reply [65]], []⟩

/-- The echo of one byte followed by `close`: the session after the handler. -/
def echoedSession : Session where
  isOpen := false
  strand := [.asyncWrite [65]]
  readBuffer := [0, 0, 0, 0]
  writeQueue := []
  reading := some ⟨.header, 0⟩
  writing := none
  inbox := []
  ended := none
  arrived := [0, 0, 0, 1, 65]
  written := []
  posted := [[65]]
  messages := [[65]]
  errors := []

theorem echo_then_close_not_keepsReplies :
    Transition.run step start requestEvents = some requestSession ∧
      ¬ requestSession.KeepsReplies ⟨[.reply [65], .close], []⟩ := by
  refine ⟨by decide, fun hkeeps => ?_⟩
  have hone : Transition.run step requestSession [.run ⟨[.reply [65], .close], []⟩] =
      some echoedSession := by decide
  have hon : echoedSession.IsWritten 0 :=
    hkeeps [] echoedSession hone (by decide) rfl 0 (by decide)
  exact absurd hon (by decide)

end Session

end RpcDemo
