import Mathlib.Order.Interval.Finset.Fin
import RpcDemo.Method.CalcMatrix

/-!
# Powers of square matrices

On matrices of one size, and as long as the exact evaluation stays in the range
of `int`, `calc_matrix` is multiplication by a power, so its calls compose.
-/

namespace RpcDemo.Operation

open RpcDemo.Outcome (FitsInt)

/-- `rows` is a rectangular matrix of this shape. -/
def IsMatrix (height width : ℕ) (rows : Rows) : Prop :=
  rows.length = height ∧ ∀ row ∈ rows, row.length = width

instance (height width : ℕ) (rows : Rows) : Decidable (IsMatrix height width rows) :=
  inferInstanceAs (Decidable (_ ∧ ∀ _ ∈ _, _))

/-- The exact integers in `rows`. -/
def toMatrix (height width : ℕ) (rows : Rows) : Matrix (Fin height) (Fin width) ℤ :=
  Matrix.of fun i j => exact rows i j

/-- In the evaluation of `left`, `left * right`, ... up to the given power every
product and every partial sum, in the order of the columns, fits `int`. -/
def EvaluationFits {n : ℕ} (left right : Matrix (Fin n) (Fin n) ℤ) (times : ℕ) : Prop :=
  ∀ turn < times, ∀ i k j, FitsInt ((left * right ^ turn) i k * right k j) ∧
    FitsInt (∑ k' ∈ Finset.Iic k, (left * right ^ turn) i k' * right k' j)

instance {n : ℕ} (left right : Matrix (Fin n) (Fin n) ℤ) (times : ℕ) :
    Decidable (EvaluationFits left right times) :=
  inferInstanceAs (Decidable (∀ _ < _, _))

section Shapes

variable {n height width : ℕ} {rows : Rows}

theorem length_getD_of_isMatrix (hrows : IsMatrix height width rows) {i : ℕ}
    (hi : i < height) : (rows.getD i []).length = width := by
  have hlt : i < rows.length := hrows.1.symm ▸ hi
  have hrow : rows.getD i [] = rows[i] := by simp [hlt]
  rw [hrow]
  exact hrows.2 _ (List.getElem_mem hlt)

theorem isMatrix_table (n : ℕ) (f : ℕ → ℕ → Int32) : IsMatrix n n (table n f) := by
  refine ⟨length_table, fun row hmem => ?_⟩
  obtain ⟨i, _, rfl⟩ := List.mem_map.mp hmem
  rw [List.length_map, List.length_range]

theorem coversSquare_of_isMatrix (hrows : IsMatrix n n rows) : CoversSquare n rows :=
  fun _ hi => ⟨hrows.1.symm ▸ hi, (length_getD_of_isMatrix hrows hi).ge⟩

theorem toMatrix_eq_square (n : ℕ) (rows : Rows) :
    toMatrix n n rows = square n (exact rows) := rfl

end Shapes

/-! ## The exact evaluation -/

/-- A partial sum over the indices of a row is a sum over a range. -/
theorem sum_Iic_eq_dot {n : ℕ} (a b : ℕ → ℕ → ℤ) (i k j : Fin n) :
    ∑ k' ∈ Finset.Iic k, square n a i k' * square n b k' j = dot a b (k + 1) i j := by
  rw [dot]
  apply Finset.sum_bij fun (k' : Fin n) _ => (k' : ℕ)
  · intro k' hmem
    have hle : k' ≤ k := Finset.mem_Iic.mp hmem
    exact Finset.mem_range.mpr (Nat.lt_succ_of_le hle)
  · intro k' _ other _ heq
    exact Fin.ext heq
  · intro position hmem
    have hle : position ≤ k := Nat.lt_succ_iff.mp (Finset.mem_range.mp hmem)
    exact ⟨⟨position, hle.trans_lt k.isLt⟩, Finset.mem_Iic.mpr hle, rfl⟩
  · intro k' _
    rfl

/-- The condition of the loops, over entries, and that of the evaluation, over
matrices, are the same. -/
theorem productFits_iff_evaluationFits (left right : Rows) (times : ℕ) :
    (∀ turn < times, ProductFits left.length (power left right turn) (exact right)) ↔
      EvaluationFits (toMatrix left.length left.length left)
        (toMatrix left.length left.length right) times := by
  have hpower : ∀ turn, toMatrix left.length left.length left *
      toMatrix left.length left.length right ^ turn =
        square left.length (power left right turn) :=
    fun turn => (square_power left right turn).symm
  constructor
  · intro hfits turn hturn i k j
    obtain ⟨hproduct, hsum⟩ := hfits turn hturn i i.isLt k k.isLt j j.isLt
    rw [hpower, toMatrix_eq_square, sum_Iic_eq_dot]
    exact ⟨hproduct, hsum⟩
  · intro hfits turn hturn i hi k hk j hj
    obtain ⟨hproduct, hsum⟩ := hfits turn hturn ⟨i, hi⟩ ⟨k, hk⟩ ⟨j, hj⟩
    rw [hpower, toMatrix_eq_square, sum_Iic_eq_dot] at hsum
    rw [hpower] at hproduct
    exact ⟨hproduct, hsum⟩

theorem calcSafe_of_isMatrix {n times : ℕ} {left right : Rows} (hleft : IsMatrix n n left)
    (hright : IsMatrix n n right)
    (hfits : EvaluationFits (toMatrix n n left) (toMatrix n n right) times) :
    CalcSafe left right times := by
  obtain rfl := hleft.1
  intro _
  exact ⟨coversSquare_of_isMatrix hleft, coversSquare_of_isMatrix hright,
    (productFits_iff_evaluationFits left right times).mpr hfits⟩

theorem isMatrix_resultAt {n : ℕ} {left right : Rows} (hleft : IsMatrix n n left)
    (times : ℕ) : IsMatrix n n (resultAt left right times) := by
  cases times with
  | zero => exact hleft
  | succ times => exact hleft.1 ▸ isMatrix_table _ _

theorem toMatrix_resultAt {n times : ℕ} {left right : Rows} (hlength : left.length = n)
    (hfits : ∀ turn < times, ProductFits n (power left right turn) (exact right)) :
    toMatrix n n (resultAt left right times) =
      toMatrix n n left * toMatrix n n right ^ times := by
  subst hlength
  calc
    toMatrix left.length left.length (resultAt left right times) =
        square left.length (power left right times) := by
      ext i j
      exact exact_resultAt hfits i.isLt j.isLt
    _ = toMatrix left.length left.length left * toMatrix left.length left.length right ^ times := by
      rw [square_power, toMatrix_eq_square, toMatrix_eq_square]

/-! ## Powers add up -/

section Composition

variable {left right : Rows} {first second : ℕ}

/-- Going on from an intermediate result is going on with the power. -/
theorem power_resultAt
    (hfits : ∀ turn < first, ProductFits left.length (power left right turn) (exact right))
    {i j : ℕ} (hi : i < left.length) (hj : j < left.length) :
    power (resultAt left right first) right second i j =
      power left right (first + second) i j := by
  induction second generalizing j with
  | zero => exact exact_resultAt hfits hi hj
  | succ second ih =>
      change dot (power (resultAt left right first) right second) (exact right)
          (resultAt left right first).length i j =
        dot (power left right (first + second)) (exact right) left.length i j
      rw [length_resultAt]
      exact dot_congr (le_refl _) fun k hk => ih hk

theorem resultAt_resultAt
    (hfits : ∀ turn < first, ProductFits left.length (power left right turn) (exact right)) :
    resultAt (resultAt left right first) right second =
      resultAt left right (first + second) := by
  cases second with
  | zero => rfl
  | succ second =>
      rw [resultAt, length_resultAt, ← Nat.add_assoc, resultAt]
      apply table_congr
      intro i hi j hj
      rw [power_resultAt hfits hi hj, Nat.add_assoc]

theorem calcSafe_resultAt (hsafe : CalcSafe left right (first + second)) :
    CalcSafe (resultAt left right first) right second := by
  intro hpositive
  obtain ⟨hleft, hright, hfits⟩ := hsafe (Nat.add_pos_right first hpositive)
  have hearlier : ∀ turn < first,
      ProductFits left.length (power left right turn) (exact right) :=
    fun turn hturn => hfits turn (Nat.lt_add_right second hturn)
  rw [length_resultAt]
  refine ⟨coversSquare_resultAt first hleft, hright, fun turn hturn => ?_⟩
  have hlater := hfits (first + turn) (Nat.add_lt_add_left hturn first)
  exact hlater.congr fun i hi k hk => (power_resultAt hearlier hi hk).symm

theorem CalcSafe.of_le (hsafe : CalcSafe left right (first + second)) :
    CalcSafe left right first := by
  intro hpositive
  obtain ⟨hleft, hright, hfits⟩ := hsafe (Nat.add_pos_left hpositive second)
  exact ⟨hleft, hright, fun turn hturn => hfits turn (Nat.lt_add_right second hturn)⟩

end Composition

/-- On square matrices of one size whose exact evaluation stays in the range of
`int`, `calc_matrix` returns `left * right ^ times`, and any split of `times`
into two calls returns the same. -/
theorem calcMatrix_eq_power {n : ℕ} {left right : Rows} {times : Int32}
    (hleft : IsMatrix n n left) (hright : IsMatrix n n right)
    (hfits : EvaluationFits (toMatrix n n left) (toMatrix n n right) times.toInt.toNat) :
    (∃ result, Impl.calcMatrix left right times = .returns result ∧ IsMatrix n n result ∧
      toMatrix n n result = toMatrix n n left * toMatrix n n right ^ times.toInt.toNat) ∧
    ∀ s t : Int32, 0 ≤ s → 0 ≤ t → s.toInt + t.toInt = times.toInt →
      Impl.calcMatrix left right times =
        (Impl.calcMatrix left right s).bind fun middle => Impl.calcMatrix middle right t := by
  have hsafe := calcSafe_of_isMatrix hleft hright hfits
  have hreturns := (safeIff_calcMatrix left right times).returns_of hsafe
  refine ⟨⟨_, hreturns, isMatrix_resultAt hleft _, ?_⟩, ?_⟩
  · obtain rfl := hleft.1
    apply toMatrix_resultAt rfl
    exact (productFits_iff_evaluationFits left right _).mpr hfits
  · intro s t hs ht hsum
    rw [Int32.le_iff_toInt_le, Int32.toInt_zero] at hs ht
    have hsplit : times.toInt.toNat = s.toInt.toNat + t.toInt.toNat := by omega
    rw [hsplit] at hsafe hreturns
    have hfirst := (safeIff_calcMatrix left right s).returns_of hsafe.of_le
    have hsecond := (safeIff_calcMatrix (resultAt left right s.toInt.toNat) right t).returns_of
      (calcSafe_resultAt hsafe)
    have hearlier : ∀ turn < s.toInt.toNat,
        ProductFits left.length (power left right turn) (exact right) :=
      fun turn hturn => (hsafe.of_le (Nat.zero_lt_of_lt hturn)).2.2 turn hturn
    calc
      Impl.calcMatrix left right times =
          .returns (resultAt left right (s.toInt.toNat + t.toInt.toNat)) := hreturns
      _ = .returns (resultAt (resultAt left right s.toInt.toNat) right t.toInt.toNat) := by
        rw [resultAt_resultAt hearlier]
      _ = Impl.calcMatrix (resultAt left right s.toInt.toNat) right t := hsecond.symm
      _ = (Impl.calcMatrix left right s).bind fun middle => Impl.calcMatrix middle right t := by
        rw [hfirst, Outcome.returns_bind]

theorem calcMatrix_eq_power_shear :
    Impl.calcMatrix [[1, 2], [3, 4]] [[1, 1], [0, 1]] 3 =
      (Impl.calcMatrix [[1, 2], [3, 4]] [[1, 1], [0, 1]] 1).bind fun middle =>
        Impl.calcMatrix middle [[1, 1], [0, 1]] 2 :=
  (calcMatrix_eq_power (show IsMatrix 2 2 _ by decide) (by decide) (by decide)).2 1 2
    (by decide) (by decide) (by decide)

end RpcDemo.Operation
