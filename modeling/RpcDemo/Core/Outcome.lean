import Mathlib.Algebra.Ring.Int.Defs

/-!
# Outcomes of a C++ computation

A computation returns a value, throws an exception, or runs into undefined
behaviour, which no `catch` sees.  Arithmetic on `int` and `operator[]` of a
vector are undefined outside their range.  Loops over a range of indices have
one rule: a loop all of whose steps are safe returns the state its steps lead
to, and any unsafe step makes the loop undefined.
-/

namespace RpcDemo

/-- A `std::exception` with the text of its `what()`, or anything else. -/
inductive Exn
  | stdException (what : String)
  | other
  deriving DecidableEq

inductive Outcome (α : Type*)
  | returns (value : α)
  | throws (exn : Exn)
  | undefined
  deriving DecidableEq

namespace Outcome

variable {α β State : Type _}

def bind (outcome : Outcome α) (next : α → Outcome β) : Outcome β :=
  match outcome with
  | returns value => next value
  | throws exn => throws exn
  | undefined => undefined

instance : Monad Outcome where
  pure := returns
  bind := bind

@[simp]
theorem bind_def (outcome : Outcome α) (next : α → Outcome β) :
    (outcome >>= next) = outcome.bind next := rfl

@[simp]
theorem returns_bind (value : α) (next : α → Outcome β) :
    (returns value).bind next = next value := rfl

@[simp]
theorem undefined_bind (next : α → Outcome β) :
    (undefined : Outcome α).bind next = undefined := rfl

/-- The outcome is `value` where `safe` holds and undefined where it does not. -/
structure SafeIff (outcome : Outcome α) (safe : Prop) (value : α) : Prop where
  returns_of : safe → outcome = returns value
  undefined_of : ¬ safe → outcome = undefined

theorem SafeIff.congr {outcome : Outcome α} {safe safe' : Prop} {value value' : α}
    (houtcome : outcome.SafeIff safe value) (hsafe : safe ↔ safe')
    (hvalue : safe → value = value') : outcome.SafeIff safe' value' where
  returns_of hsafe' := by
    rw [houtcome.returns_of (hsafe.mpr hsafe'), hvalue (hsafe.mpr hsafe')]
  undefined_of hunsafe := houtcome.undefined_of fun hheld => hunsafe (hsafe.mp hheld)

theorem safeIff_returns (value : α) : (returns value).SafeIff True value :=
  ⟨fun _ => rfl, fun hfalse => absurd trivial hfalse⟩

theorem SafeIff.bind {outcome : Outcome α} {next : α → Outcome β} {safe safe' : Prop}
    {value : α} {result : β} (houtcome : outcome.SafeIff safe value)
    (hnext : safe → (next value).SafeIff safe' result) :
    (outcome.bind next).SafeIff (safe ∧ safe') result where
  returns_of := by
    rintro ⟨hsafe, hsafe'⟩
    rw [houtcome.returns_of hsafe, returns_bind]
    exact (hnext hsafe).returns_of hsafe'
  undefined_of := by
    intro hunsafe
    by_cases hsafe : safe
    · rw [houtcome.returns_of hsafe, returns_bind]
      exact (hnext hsafe).undefined_of fun hsafe' => hunsafe ⟨hsafe, hsafe'⟩
    · rw [houtcome.undefined_of hsafe, undefined_bind]

/-! ## Loops -/

/-- `for (index = 0; index < count; ++index) state = body(state, index)`. -/
def forRange (body : State → ℕ → Outcome State) : ℕ → State → Outcome State
  | 0, state => returns state
  | count + 1, state => (forRange body count state).bind fun next => body next count

/-- The loop rule: `states index` is the state in front of step `index`, and
`safe index` says that step can be taken, given that the earlier ones were. -/
theorem safeIff_forRange {body : State → ℕ → Outcome State} {count : ℕ}
    (states : ℕ → State) (safe : ℕ → Prop)
    (hbody : ∀ index < count, (∀ earlier < index, safe earlier) →
      (body (states index) index).SafeIff (safe index) (states (index + 1))) :
    (forRange body count (states 0)).SafeIff (∀ index < count, safe index)
      (states count) := by
  induction count with
  | zero => exact (safeIff_returns (states 0)).congr (by simp) fun _ => rfl
  | succ count ih =>
      have hearlier := ih fun index hindex => hbody index (Nat.lt_succ_of_lt hindex)
      have hlast : (∀ index < count, safe index) →
          (body (states count) count).SafeIff (safe count) (states (count + 1)) :=
        hbody count (Nat.lt_succ_self count)
      exact (hearlier.bind hlast).congr Nat.forall_lt_succ_right.symm fun _ => rfl

/-! ## `int` and `std::vector` -/

/-- The values of `int`. -/
def FitsInt (value : ℤ) : Prop :=
  -2 ^ 31 ≤ value ∧ value < 2 ^ 31

instance (value : ℤ) : Decidable (FitsInt value) :=
  inferInstanceAs (Decidable (_ ∧ _))

theorem fitsInt_toInt (value : Int32) : FitsInt value.toInt :=
  ⟨value.le_toInt, value.toInt_lt⟩

theorem toInt_ofInt_of_fitsInt {value : ℤ} (hfits : FitsInt value) :
    (Int32.ofInt value).toInt = value :=
  Int32.toInt_ofInt_of_le hfits.1 hfits.2

/-- The result of an operation on `int`: undefined if it does not fit. -/
def ofExact (value : ℤ) : Outcome Int32 :=
  if FitsInt value then returns (Int32.ofInt value) else undefined

theorem safeIff_ofExact (value : ℤ) :
    (ofExact value).SafeIff (FitsInt value) (Int32.ofInt value) :=
  ⟨fun hfits => if_pos hfits, fun hunfit => if_neg hunfit⟩

def addInt (left right : Int32) : Outcome Int32 :=
  ofExact (left.toInt + right.toInt)

def mulInt (left right : Int32) : Outcome Int32 :=
  ofExact (left.toInt * right.toInt)

/-- Division truncates; a zero divisor and `INT_MIN / -1` are undefined. -/
def divInt (left right : Int32) : Outcome Int32 :=
  if right = 0 then undefined else ofExact (left.toInt.tdiv right.toInt)

theorem fitsInt_tdiv_iff (left right : Int32) (hright : right ≠ 0) :
    FitsInt (left.toInt.tdiv right.toInt) ↔ ¬ (left = Int32.minValue ∧ right = -1) := by
  constructor
  · rintro hfits ⟨rfl, rfl⟩
    exact absurd hfits (by decide)
  · intro hsafe
    have hdivided : (left / right).toInt = left.toInt.tdiv right.toInt := by
      by_cases hleft : left = Int32.minValue
      · exact Int32.toInt_div_of_ne_right left right fun hminus => hsafe ⟨hleft, hminus⟩
      · exact Int32.toInt_div_of_ne_left left right hleft
    rw [← hdivided]
    exact fitsInt_toInt (left / right)

theorem safeIff_divInt (left right : Int32) :
    (divInt left right).SafeIff
      (right ≠ 0 ∧ ¬ (left = Int32.minValue ∧ right = -1))
      (Int32.ofInt (left.toInt.tdiv right.toInt)) where
  returns_of := by
    rintro ⟨hright, hsafe⟩
    rw [divInt, if_neg hright]
    exact (safeIff_ofExact _).returns_of ((fitsInt_tdiv_iff left right hright).mpr hsafe)
  undefined_of := by
    intro hunsafe
    unfold divInt
    split
    case isTrue => rfl
    case isFalse hright =>
      apply (safeIff_ofExact _).undefined_of
      intro hfits
      exact hunsafe ⟨hright, (fitsInt_tdiv_iff left right hright).mp hfits⟩

/-- `operator[]` of a vector. -/
def index (vector : List α) (position : ℕ) : Outcome α :=
  match vector[position]? with
  | some value => returns value
  | none => undefined

theorem safeIff_index (vector : List α) (position : ℕ) (default : α) :
    (index vector position).SafeIff (position < vector.length)
      (vector.getD position default) where
  returns_of := by
    intro hposition
    simp [index, hposition]
  undefined_of := by
    intro hposition
    simp [index, List.getElem?_eq_none (not_lt.mp hposition)]

end Outcome

end RpcDemo
