import RpcDemo.Core.Beside

/-!
# The echo server of the demo

A session of the demo receives into a buffer of 1024 zeros and writes the buffer
back, all of it, however little was received; a buffer that begins with `exit` is
answered with `End.`, after which the session closes.  A completion handler looks
at the number of bytes and at no error code.  The server keeps every session it
has accepted.
-/

namespace RpcDemo.Demo

open Transition

inductive State
  | echo
  | stop
  deriving DecidableEq

/-- The outstanding operation, or none once the socket is closed. -/
inductive Pending
  | receive
  | writeSome (buff : List UInt8)
  | closed
  deriving DecidableEq

/-- A session with what each receive has brought and what has been written. -/
structure Session where
  now : State
  pending : Pending
  received : List (List UInt8)
  written : List UInt8
  deriving DecidableEq

def bufferSize : ℕ := 1024

/-- The four characters of `exit`. -/
def exit : List UInt8 := [101, 120, 105, 116]

/-- The four characters of `End.`. -/
def farewell : List UInt8 := [69, 110, 100, 46]

/-- The buffer of 1024 zeros with the received bytes in front. -/
def buffer (data : List UInt8) : List UInt8 :=
  data ++ List.replicate (bufferSize - data.length) 0

def isExit (buff : List UInt8) : Prop :=
  buff.take 4 = exit

instance (buff : List UInt8) : Decidable (isExit buff) :=
  inferInstanceAs (Decidable (_ = _))

namespace Session

def control (session : Session) : Session :=
  match session.now with
  | .stop => { session with pending := .closed }
  | .echo => { session with pending := .receive }

def doWrite (session : Session) (buff : List UInt8) : Session :=
  { session with pending := .writeSome buff }

/-- Accepted and started. -/
def start : Session :=
  control ⟨.echo, .receive, [], []⟩

/-- The handler of `async_receive`. -/
def onReceive (session : Session) (data : List UInt8) : Session :=
  let session := { session with received := session.received ++ [data] }
  if isExit (buffer data) then { session with now := .stop }.doWrite farewell
  else session.doWrite (buffer data)

/-- The handler of `async_write_some`. -/
def onWrite (session : Session) (buff : List UInt8) (writeLen : ℕ) : Session :=
  let session := { session with written := session.written ++ buff.take writeLen }
  if buff.length ≠ writeLen then session.doWrite (buff.drop writeLen)
  else session.control

/-- A receive completes with at most a buffer of data, with none when it fails; a write
completes with some of the bytes written, with none when it fails. -/
inductive Event
  | receive (data : List UInt8)
  | writeSome (writeLen : ℕ)
  deriving DecidableEq

def step (session : Session) : Event → Option Session
  | .receive data =>
      if session.pending = .receive ∧ data.length ≤ bufferSize then
        some (session.onReceive data)
      else none
  | .writeSome writeLen =>
      match session.pending with
      | .writeSome buff =>
          if writeLen ≤ buff.length then some (session.onWrite buff writeLen) else none
      | _ => none

/-- What is still to be written. -/
def unsent (session : Session) : List UInt8 :=
  match session.pending with
  | .writeSome buff => buff
  | _ => []

end Session

/-- What a receive is answered with. -/
def answer (data : List UInt8) : List UInt8 :=
  if isExit (buffer data) then farewell else buffer data

theorem answer_ne_nil (data : List UInt8) : answer data ≠ [] := by
  unfold answer buffer
  split
  · decide
  · by_cases hdata : data = []
    · rw [hdata]
      decide
    · exact List.append_ne_nil_of_left_ne_nil hdata _

namespace Session

/-- What was received was answered in order, but for what is still to be written.  The
session has stopped when the last receive said so; it reads on, or closes, when
nothing is left to write. -/
structure Inv (session : Session) : Prop where
  answered : session.written ++ session.unsent = (session.received.map answer).flatten
  earlier : ∀ data ∈ session.received.dropLast, ¬ isExit (buffer data)
  stopped : session.now = .stop ↔ ∃ data ∈ session.received.getLast?, isExit (buffer data)
  writing : ∀ buff, session.pending = .writeSome buff → buff ≠ []
  reading : session.pending = .receive → session.now = .echo
  closed : session.pending = .closed → session.now = .stop

theorem inv_start : start.Inv where
  answered := rfl
  earlier := by simp [start, control]
  stopped := by simp [start, control]
  writing := by simp [start, control]
  reading := fun _ => rfl
  closed := by simp [start, control]

section Steps

variable {session next : Session} {data buff : List UInt8} {writeLen : ℕ} {event : Event}

theorem step_receive : session.step (.receive data) = some next ↔
    session.pending = .receive ∧ data.length ≤ bufferSize ∧
      session.onReceive data = next := by
  rw [step, Option.ite_none_right_eq_some, Option.some.injEq, and_assoc]

theorem step_writeSome : session.step (.writeSome writeLen) = some next ↔
    ∃ buff, session.pending = .writeSome buff ∧ writeLen ≤ buff.length ∧
      session.onWrite buff writeLen = next := by
  cases hpending : session.pending with
  | writeSome buff =>
      simp only [step, hpending, Option.ite_none_right_eq_some, Option.some.injEq]
      constructor
      · exact fun hmoved => ⟨buff, rfl, hmoved⟩
      · rintro ⟨other, hother, hmoved⟩
        obtain rfl := Pending.writeSome.inj hother
        exact hmoved
  | receive | closed => simp [step, hpending]

theorem unsent_of_writeSome (hpending : session.pending = .writeSome buff) :
    session.unsent = buff := by
  rw [unsent, hpending]

theorem unsent_onReceive : (session.onReceive data).unsent = answer data := by
  unfold onReceive answer
  split <;> rfl

theorem received_onReceive : (session.onReceive data).received = session.received ++ [data] := by
  unfold onReceive
  split <;> rfl

theorem written_onReceive : (session.onReceive data).written = session.written := by
  unfold onReceive
  split <;> rfl

theorem now_ne_stop (hnow : session.now = .echo) : session.now ≠ .stop := by
  rw [hnow]
  decide

theorem now_onReceive (hnow : session.now = .echo) :
    (session.onReceive data).now = .stop ↔ isExit (buffer data) := by
  unfold onReceive
  split
  case isTrue hexit => exact ⟨fun _ => hexit, fun _ => rfl⟩
  case isFalse hexit =>
    constructor
    · intro hstop
      exact absurd hstop (now_ne_stop hnow)
    · exact fun hother => absurd hother hexit

/-- A session that reads on has not been told to exit. -/
theorem Inv.not_exit (hinv : session.Inv) (hnow : session.now = .echo) :
    ∀ data ∈ session.received, ¬ isExit (buffer data) := by
  intro data hdata hexit
  rcases List.eq_nil_or_concat session.received with hnil | ⟨earlier, last, hlast⟩
  · simp [hnil] at hdata
  · rw [hlast, List.concat_eq_append, List.mem_append, List.mem_singleton] at hdata
    rcases hdata with hold | rfl
    · apply hinv.earlier data _ hexit
      rwa [hlast, List.concat_eq_append, List.dropLast_concat]
    · have hmem : data ∈ session.received.getLast? := by
        rw [hlast, List.concat_eq_append, List.getLast?_concat]
        rfl
      have hstop : session.now = .stop := hinv.stopped.mpr ⟨data, hmem, hexit⟩
      exact absurd hstop (now_ne_stop hnow)

theorem Inv.receive (hinv : session.Inv) (hpending : session.pending = .receive) :
    (session.onReceive data).Inv where
  answered := by
    have hnothing : session.unsent = [] := by rw [unsent, hpending]
    have hbefore := hinv.answered
    rw [hnothing, List.append_nil] at hbefore
    rw [written_onReceive, unsent_onReceive, received_onReceive, List.map_append,
      List.flatten_append, hbefore]
    simp
  earlier := by
    rw [received_onReceive, List.dropLast_concat]
    exact hinv.not_exit (hinv.reading hpending)
  stopped := by
    rw [now_onReceive (hinv.reading hpending), received_onReceive, List.getLast?_concat]
    simp
  writing := by
    intro buff hbuff
    rw [← unsent_of_writeSome hbuff, unsent_onReceive]
    exact answer_ne_nil data
  reading := by
    unfold onReceive
    split <;> simp [doWrite]
  closed := by
    unfold onReceive
    split <;> simp [doWrite]

@[simp]
theorem now_control : session.control.now = session.now := by
  unfold control
  cases session.now <;> simp

@[simp]
theorem received_control : session.control.received = session.received := by
  unfold control
  cases session.now <;> rfl

@[simp]
theorem written_control : session.control.written = session.written := by
  unfold control
  cases session.now <;> rfl

@[simp]
theorem unsent_control : session.control.unsent = [] := by
  unfold control
  cases session.now <;> rfl

theorem pending_control : session.control.pending =
    match session.now with
    | .stop => .closed
    | .echo => .receive := by
  unfold control
  cases session.now <;> rfl

theorem written_onWrite : (session.onWrite buff writeLen).written =
    session.written ++ buff.take writeLen := by
  unfold onWrite
  split
  · rfl
  · exact written_control

theorem unsent_onWrite (hle : writeLen ≤ buff.length) :
    (session.onWrite buff writeLen).unsent = buff.drop writeLen := by
  unfold onWrite
  split
  case isTrue => rfl
  case isFalse hall =>
    obtain rfl : buff.length = writeLen := not_not.mp hall
    simp

/-- The bytes that were not written are written next. -/
theorem streams_onWrite (hle : writeLen ≤ buff.length) :
    (session.onWrite buff writeLen).written ++ (session.onWrite buff writeLen).unsent =
      session.written ++ buff := by
  rw [written_onWrite, unsent_onWrite hle, List.append_assoc, List.take_append_drop]

theorem fields_onWrite : (session.onWrite buff writeLen).now = session.now ∧
    (session.onWrite buff writeLen).received = session.received := by
  unfold onWrite
  split
  · exact ⟨rfl, rfl⟩
  · exact ⟨now_control, received_control⟩

/-- The rest is written, or the state says what comes next. -/
theorem pending_onWrite : (session.onWrite buff writeLen).pending =
    if buff.length ≠ writeLen then .writeSome (buff.drop writeLen)
    else match session.now with
      | .stop => .closed
      | .echo => .receive := by
  unfold onWrite
  split
  · rfl
  · exact pending_control

theorem Inv.writeSome (hinv : session.Inv) (hpending : session.pending = .writeSome buff)
    (hle : writeLen ≤ buff.length) : (session.onWrite buff writeLen).Inv where
  answered := by
    rw [streams_onWrite hle, fields_onWrite.2, ← hinv.answered, unsent_of_writeSome hpending]
  earlier := by
    rw [fields_onWrite.2]
    exact hinv.earlier
  stopped := by
    rw [fields_onWrite.1, fields_onWrite.2]
    exact hinv.stopped
  writing := by
    intro rest hrest
    rw [pending_onWrite] at hrest
    split at hrest
    case isTrue hmore =>
      obtain rfl := Pending.writeSome.inj hrest
      exact List.ne_nil_of_length_pos (by rw [List.length_drop]; omega)
    case isFalse => split at hrest <;> cases hrest
  reading := by
    intro hreceive
    rw [pending_onWrite] at hreceive
    rw [fields_onWrite.1]
    split at hreceive
    · cases hreceive
    · split at hreceive
      · cases hreceive
      · assumption
  closed := by
    intro hclosed
    rw [pending_onWrite] at hclosed
    rw [fields_onWrite.1]
    split at hclosed
    · cases hclosed
    · split at hclosed
      · assumption
      · cases hclosed

theorem inv_step (hinv : session.Inv) (hstep : session.step event = some next) : next.Inv := by
  cases event with
  | receive data =>
      obtain ⟨hpending, -, rfl⟩ := step_receive.mp hstep
      exact hinv.receive hpending
  | writeSome writeLen =>
      obtain ⟨buff, hpending, hle, rfl⟩ := step_writeSome.mp hstep
      exact hinv.writeSome hpending hle

/-- A write that makes progress. -/
def Writes : Event → Prop
  | .writeSome writeLen => 0 < writeLen
  | .receive _ => False

/-- Writing comes to an end. -/
theorem ranked_writes :
    Ranked step (fun _ event => Writes event) Inv fun session => session.unsent.length where
  kept := fun hinv _ hstep => inv_step hinv hstep
  lower := by
    intro session event next hinv hwrites hstep
    cases event with
    | receive data => exact absurd hwrites id
    | writeSome writeLen =>
        obtain ⟨buff, hpending, hle, rfl⟩ := step_writeSome.mp hstep
        have hpositive : 0 < writeLen := hwrites
        have hnonempty := List.length_pos_iff.mpr (hinv.writing buff hpending)
        rw [unsent_onWrite hle, unsent_of_writeSome hpending, List.length_drop]
        omega

/-- After a write that fails the session writes the same again. -/
theorem Inv.step_failed (hinv : session.Inv) (hunsent : session.unsent ≠ []) :
    session.step (.writeSome 0) = some session := by
  cases hpending : session.pending with
  | receive | closed => exact absurd (by rw [unsent, hpending]) hunsent
  | writeSome buff =>
      have hmore : buff.length ≠ 0 := by simpa using hinv.writing buff hpending
      refine step_writeSome.mpr ⟨buff, hpending, Nat.zero_le _, ?_⟩
      rw [onWrite, if_pos hmore]
      simp [doWrite, ← hpending]

theorem Inv.closed_iff (hinv : session.Inv) : session.pending = .closed ↔
    session.unsent = [] ∧ ∃ data ∈ session.received.getLast?, isExit (buffer data) := by
  constructor
  · intro hclosed
    exact ⟨by rw [unsent, hclosed], hinv.stopped.mp (hinv.closed hclosed)⟩
  · rintro ⟨hunsent, hexit⟩
    have hstop := hinv.stopped.mpr hexit
    cases hpending : session.pending with
    | closed => rfl
    | receive => exact absurd hstop (now_ne_stop (hinv.reading hpending))
    | writeSome buff =>
        rw [unsent_of_writeSome hpending] at hunsent
        exact absurd hunsent (hinv.writing buff hpending)

end Steps

end Session

/-! ## The server -/

/-- The sessions by the number under which they were accepted. -/
structure SingleServer where
  sessionPool : List Session
  deriving DecidableEq

namespace SingleServer

def start : SingleServer := ⟨[]⟩

inductive Event
  | accept
  | acceptError
  | on (idx : ℕ) (event : Session.Event)
  deriving DecidableEq

def step (server : SingleServer) : Event → Option SingleServer
  | .accept => some ⟨server.sessionPool ++ [Session.start]⟩
  | .acceptError => some server
  | .on idx event => (stepAt Session.step server.sessionPool (idx, event)).map .mk

variable {server next : SingleServer} {event : Event}

theorem inv_step (hinv : ∀ session ∈ server.sessionPool, session.Inv)
    (hstep : server.step event = some next) : ∀ session ∈ next.sessionPool, session.Inv := by
  cases event with
  | acceptError =>
      obtain rfl := Option.some.inj hstep
      exact hinv
  | accept =>
      obtain rfl := Option.some.inj hstep
      intro session hsession
      rcases List.mem_append.mp hsession with hold | hnew
      · exact hinv session hold
      · rw [List.mem_singleton.mp hnew]
        exact Session.inv_start
  | on idx event =>
      obtain ⟨sessions, hsessions, rfl⟩ := Option.map_eq_some_iff.mp hstep
      obtain ⟨session, moved, hsession, hmoved, rfl⟩ := stepAt_eq_some.mp hsessions
      have hbefore := hinv session (List.mem_of_getElem? hsession)
      exact forall_set hinv (Session.inv_step hbefore hmoved)

/-- In every run of the server each session has written, or is about to write, its
answers to what it received, a full buffer to each receive however little it brought;
only the last can have been told to exit, and the session is closed exactly when it
was and `End.` has been written.  Writes that make progress end; a write that fails
is made again, so that a session whose peer is gone goes on for ever. -/
theorem echoes_of_run {events : List Event} (hrun : run step start events = some server) :
    ∀ session ∈ server.sessionPool,
      session.written ++ session.unsent = (session.received.map answer).flatten ∧
      (∀ data ∈ session.received.dropLast, ¬ isExit (buffer data)) ∧
      (session.pending = .closed ↔
        session.unsent = [] ∧ ∃ data ∈ session.received.getLast?, isExit (buffer data)) ∧
      (∀ later final, run Session.step session later = some final →
        Guarded Session.step (fun _ event => Session.Writes event) session later →
          later.length + final.unsent.length ≤ session.unsent.length) ∧
      (session.unsent ≠ [] → session.step (.writeSome 0) = some session) := by
  have hstart : ∀ session ∈ start.sessionPool, session.Inv := by simp [start]
  have hall := run_invariant (fun _ _ _ => inv_step) hstart hrun
  intro session hsession
  have hinv := hall session hsession
  exact ⟨hinv.answered, hinv.earlier, hinv.closed_iff,
    fun later final hlater hwrites => Session.ranked_writes.length_add_le hinv hwrites hlater,
    hinv.step_failed⟩

/-- A session told to exit writes `End.` in two parts. -/
def exitEvents : List Event :=
  [.accept, .on 0 (.receive exit), .on 0 (.writeSome 1), .on 0 (.writeSome 3)]

theorem echoes_of_run_exit : ∃ session : Session, session.received = [exit] ∧
    session.pending = .closed ∧ session.written ++ session.unsent = [exit].flatMap answer := by
  have hrun : run step start exitEvents =
      some ⟨[⟨.stop, .closed, [exit], farewell⟩]⟩ := by decide
  obtain ⟨hanswered, -, -, -, -⟩ := echoes_of_run hrun _ (List.mem_singleton.mpr rfl)
  exact ⟨_, rfl, rfl, hanswered⟩

end SingleServer

end RpcDemo.Demo
