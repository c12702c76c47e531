import Mathlib.Algebra.BigOperators.Fin
import Mathlib.Data.Matrix.Mul
import RpcDemo.Method.Operation

/-!
# What `calc_matrix` computes

The triple loop of `multiply` is safe exactly when every access stays inside
its vector and every product and partial sum fits `int`; then it returns the
exact product of the two upper left squares of the size of its left argument.
Iterating it gives `left * right ^ times` over the integers, again exactly when
no step leaves the range of `int`.
-/

namespace RpcDemo.Operation

open RpcDemo.Outcome (FitsInt SafeIff forRange index safeIff_forRange safeIff_index
  safeIff_ofExact safeIff_returns addInt mulInt)

/-- The entry of a matrix at a position, zero outside of it. -/
def entry (matrix : Rows) (i j : ℕ) : Int32 :=
  (matrix.getD i []).getD j 0

/-- The square matrix with the given entries. -/
def table (n : ℕ) (f : ℕ → ℕ → Int32) : Rows :=
  (List.range n).map fun i => (List.range n).map (f i)

section Table

variable {n i j : ℕ} {f g : ℕ → ℕ → Int32}

@[simp]
theorem length_table : (table n f).length = n := by
  simp [table]

theorem getD_table (hi : i < n) : (table n f).getD i [] = (List.range n).map (f i) := by
  simp [table, hi]

theorem length_getD_table (hi : i < n) : ((table n f).getD i []).length = n := by
  rw [getD_table hi, List.length_map, List.length_range]

theorem entry_table (hi : i < n) (hj : j < n) : entry (table n f) i j = f i j := by
  rw [entry, getD_table hi]
  simp [hj]

theorem table_congr (hentries : ∀ i < n, ∀ j < n, f i j = g i j) :
    table n f = table n g := by
  apply List.map_congr_left
  intro i hi
  apply List.map_congr_left
  intro j hj
  exact hentries i (List.mem_range.mp hi) j (List.mem_range.mp hj)

theorem set_map_range {α : Type*} (h : ℕ → α) (value : α) :
    ((List.range n).map h).set i value =
      (List.range n).map fun position => if position = i then value else h position := by
  apply List.ext_getElem
  · simp
  · intro position hleft hright
    simp only [List.getElem_set, List.getElem_map, List.getElem_range, eq_comm]

theorem set_table (hi : i < n) (value : Int32) :
    (table n f).set i (((table n f).getD i []).set j value) =
      table n fun i' j' => if i' = i ∧ j' = j then value else f i' j' := by
  rw [getD_table hi, set_map_range, table, set_map_range]
  apply List.map_congr_left
  intro i' _
  by_cases hrow : i' = i
  · simp [hrow]
  · simp [hrow]

theorem table_zero : table n (fun _ _ => 0) = List.replicate n (List.replicate n 0) := by
  simp [table, List.map_const']

end Table

/-! ## One product -/

/-- The sum of the first `count` products of row `i` and column `j`. -/
def dot (a b : ℕ → ℕ → ℤ) (count i j : ℕ) : ℤ :=
  ∑ k ∈ Finset.range count, a i k * b k j

theorem dot_succ (a b : ℕ → ℕ → ℤ) (count i j : ℕ) :
    dot a b (count + 1) i j = dot a b count i j + a i count * b count j :=
  Finset.sum_range_succ _ _

def exact (matrix : Rows) (i j : ℕ) : ℤ :=
  (entry matrix i j).toInt

/-- Step `(i, k, j)` of `multiply` reads inside both arguments, and its product
and its partial sum fit `int`. -/
structure StepSafe (A B : Rows) (i k j : ℕ) : Prop where
  left : k < (A.getD i []).length
  right : k < B.length
  row : j < (B.getD k []).length
  product : FitsInt (exact A i k * exact B k j)
  sum : FitsInt (dot (exact A) (exact B) (k + 1) i j)

def MultiplySafe (A B : Rows) : Prop :=
  ∀ i < A.length, ∀ k < A.length, ∀ j < A.length, StepSafe A B i k j

/-- The table of the first `count i j` products of every entry. -/
def partialProduct (A B : Rows) (count : ℕ → ℕ → ℕ) : Rows :=
  table A.length fun i j => Int32.ofInt (dot (exact A) (exact B) (count i j) i j)

theorem partialProduct_congr {A B : Rows} {left right : ℕ → ℕ → ℕ}
    (hcounts : ∀ i < A.length, ∀ j < A.length, left i j = right i j) :
    partialProduct A B left = partialProduct A B right := by
  apply table_congr
  intro i hi j hj
  rw [hcounts i hi j hj]

/-- Entries in front of `(i, j)` in the order of the loops have their products
up to `k`, those of row `i` behind it their products before `k`. -/
def countAt (n i k j : ℕ) (i' j' : ℕ) : ℕ :=
  if i' < i then n else if i' = i then (if j' < j then k + 1 else k) else 0

theorem fitsInt_dot {A B : Rows} {i k j : ℕ}
    (hearlier : ∀ k' < k, StepSafe A B i k' j) :
    FitsInt (dot (exact A) (exact B) k i j) := by
  cases k with
  | zero => simp [dot, FitsInt]
  | succ k => exact (hearlier k (Nat.lt_succ_self k)).sum

/-- One step on any matrix `C` it can write to. -/
theorem safeIff_accumulate {A B C : Rows} {i k j : ℕ} (hi : i < A.length)
    (hC : i < C.length) (hrow : j < (C.getD i []).length) :
    (Impl.accumulate A B i k C j).SafeIff
      (k < (A.getD i []).length ∧ k < B.length ∧ j < (B.getD k []).length ∧
        FitsInt (exact A i k * exact B k j) ∧
        FitsInt (exact C i j + exact A i k * exact B k j))
      (C.set i ((C.getD i []).set j
        (Int32.ofInt (exact C i j + exact A i k * exact B k j)))) := by
  have hsteps : (Impl.accumulate A B i k C j).SafeIff
      (i < A.length ∧ k < (A.getD i []).length ∧ k < B.length ∧
        j < (B.getD k []).length ∧ i < C.length ∧
        FitsInt (exact A i k * exact B k j) ∧ j < (C.getD i []).length ∧
        FitsInt (exact C i j + (Int32.ofInt (exact A i k * exact B k j)).toInt) ∧ True)
      (C.set i ((C.getD i []).set j (Int32.ofInt
        (exact C i j + (Int32.ofInt (exact A i k * exact B k j)).toInt)))) := by
    apply (safeIff_index A i []).bind
    intro _
    apply (safeIff_index (A.getD i []) k 0).bind
    intro _
    apply (safeIff_index B k []).bind
    intro _
    apply (safeIff_index (B.getD k []) j 0).bind
    intro _
    apply (safeIff_index C i []).bind
    intro _
    apply (safeIff_ofExact (exact A i k * exact B k j)).bind
    intro _
    apply (safeIff_index (C.getD i []) j 0).bind
    intro _
    apply (safeIff_ofExact _).bind
    intro _
    exact safeIff_returns _
  apply hsteps.congr
  · constructor
    · rintro ⟨_, hleft, hright, hcolumn, _, hproduct, _, hsum, _⟩
      rw [Outcome.toInt_ofInt_of_fitsInt hproduct] at hsum
      exact ⟨hleft, hright, hcolumn, hproduct, hsum⟩
    · rintro ⟨hleft, hright, hcolumn, hproduct, hsum⟩
      refine ⟨hi, hleft, hright, hcolumn, hC, hproduct, hrow, ?_, trivial⟩
      rwa [Outcome.toInt_ofInt_of_fitsInt hproduct]
  · rintro ⟨_, _, _, _, _, hproduct, _⟩
    rw [Outcome.toInt_ofInt_of_fitsInt hproduct]

section PartialProduct

variable {A B : Rows} {count : ℕ → ℕ → ℕ} {i j : ℕ}

@[simp]
theorem length_partialProduct : (partialProduct A B count).length = A.length :=
  length_table

theorem length_row_partialProduct (hi : i < A.length) :
    ((partialProduct A B count).getD i []).length = A.length :=
  length_getD_table hi

theorem exact_partialProduct (hi : i < A.length) (hj : j < A.length)
    (hfits : FitsInt (dot (exact A) (exact B) (count i j) i j)) :
    exact (partialProduct A B count) i j = dot (exact A) (exact B) (count i j) i j := by
  rw [exact, partialProduct, entry_table hi hj, Outcome.toInt_ofInt_of_fitsInt hfits]

end PartialProduct

theorem safeIff_step {A B : Rows} {i k j : ℕ} (hi : i < A.length)
    (hj : j < A.length) (hearlier : ∀ k' < k, StepSafe A B i k' j) :
    (Impl.accumulate A B i k (partialProduct A B (countAt A.length i k j)) j).SafeIff
      (StepSafe A B i k j) (partialProduct A B (countAt A.length i k (j + 1))) := by
  have hcount : countAt A.length i k j i j = k := by simp [countAt]
  have hvalue : exact (partialProduct A B (countAt A.length i k j)) i j =
      dot (exact A) (exact B) k i j := by
    rw [exact_partialProduct hi hj, hcount]
    rw [hcount]
    exact fitsInt_dot hearlier
  have hC : i < (partialProduct A B (countAt A.length i k j)).length := by
    rwa [length_partialProduct]
  have hrow : j < ((partialProduct A B (countAt A.length i k j)).getD i []).length := by
    rwa [length_row_partialProduct hi]
  apply (safeIff_accumulate hi hC hrow).congr
  · rw [hvalue, ← dot_succ]
    constructor
    · rintro ⟨hleft, hright, hcolumn, hproduct, hsum⟩
      exact ⟨hleft, hright, hcolumn, hproduct, hsum⟩
    · rintro ⟨hleft, hright, hcolumn, hproduct, hsum⟩
      exact ⟨hleft, hright, hcolumn, hproduct, hsum⟩
  · intro _
    rw [hvalue, ← dot_succ, partialProduct, set_table hi]
    apply table_congr
    intro i' _ j' _
    by_cases hposition : i' = i ∧ j' = j
    · obtain ⟨rfl, rfl⟩ := hposition
      simp [countAt]
    · have hsame : countAt A.length i k j i' j' = countAt A.length i k (j + 1) i' j' := by
        simp only [countAt]
        split_ifs <;> omega
      rw [if_neg hposition, hsame]

theorem safeIff_columns {A B : Rows} {i k : ℕ} (hi : i < A.length)
    (hearlier : ∀ k' < k, ∀ j < A.length, StepSafe A B i k' j) :
    (forRange (Impl.accumulate A B i k) A.length
      (partialProduct A B (countAt A.length i k 0))).SafeIff
        (∀ j < A.length, StepSafe A B i k j)
        (partialProduct A B (countAt A.length i (k + 1) 0)) := by
  have hloop : (forRange (Impl.accumulate A B i k) A.length
      (partialProduct A B (countAt A.length i k 0))).SafeIff
        (∀ j < A.length, StepSafe A B i k j)
        (partialProduct A B (countAt A.length i k A.length)) := by
    apply safeIff_forRange (fun j => partialProduct A B (countAt A.length i k j))
    intro j hj _
    exact safeIff_step hi hj fun k' hk' => hearlier k' hk' j hj
  apply hloop.congr Iff.rfl
  intro _
  apply partialProduct_congr
  intro i' _ j' hj'
  simp [countAt, hj']

theorem safeIff_rows {A B : Rows} {i : ℕ} (hi : i < A.length) :
    (forRange (fun C k => forRange (Impl.accumulate A B i k) A.length C) A.length
      (partialProduct A B (countAt A.length i 0 0))).SafeIff
        (∀ k < A.length, ∀ j < A.length, StepSafe A B i k j)
        (partialProduct A B (countAt A.length (i + 1) 0 0)) := by
  have hloop : (forRange (fun C k => forRange (Impl.accumulate A B i k) A.length C) A.length
      (partialProduct A B (countAt A.length i 0 0))).SafeIff
        (∀ k < A.length, ∀ j < A.length, StepSafe A B i k j)
        (partialProduct A B (countAt A.length i A.length 0)) := by
    apply safeIff_forRange (fun k => partialProduct A B (countAt A.length i k 0))
    intro k _ hearlier
    exact safeIff_columns hi hearlier
  apply hloop.congr Iff.rfl
  intro _
  apply partialProduct_congr
  intro i' _ j' _
  simp only [countAt]
  split_ifs <;> omega

/-- `multiply` is safe exactly when all its steps are, and returns the exact
product. -/
theorem safeIff_multiply (A B : Rows) :
    (Impl.multiply A B).SafeIff (MultiplySafe A B)
      (partialProduct A B fun _ _ => A.length) := by
  have hstart : List.replicate A.length (List.replicate A.length 0) =
      partialProduct A B (countAt A.length 0 0 0) := by
    rw [← table_zero]
    apply table_congr
    intro i _ j _
    simp [countAt, dot]
  have hloop : (Impl.multiply A B).SafeIff (MultiplySafe A B)
      (partialProduct A B (countAt A.length A.length 0 0)) := by
    rw [Impl.multiply, hstart]
    apply safeIff_forRange (fun i => partialProduct A B (countAt A.length i 0 0))
    intro i hi _
    exact safeIff_rows hi
  apply hloop.congr Iff.rfl
  intro _
  apply partialProduct_congr
  intro i hi j _
  simp [countAt, hi]

/-! ## The power -/

/-- The rows of `matrix` cover the square of size `n`. -/
def CoversSquare (n : ℕ) (matrix : Rows) : Prop :=
  ∀ i < n, i < matrix.length ∧ n ≤ (matrix.getD i []).length

theorem coversSquare_table (n : ℕ) (f : ℕ → ℕ → Int32) : CoversSquare n (table n f) := by
  intro i hi
  rw [length_table, length_getD_table hi]
  exact ⟨hi, le_refl n⟩

/-- The products and partial sums of a product of size `n` fit `int`. -/
def ProductFits (n : ℕ) (a b : ℕ → ℕ → ℤ) : Prop :=
  ∀ i < n, ∀ k < n, ∀ j < n, FitsInt (a i k * b k j) ∧ FitsInt (dot a b (k + 1) i j)

theorem multiplySafe_iff {A B : Rows} :
    MultiplySafe A B ↔ CoversSquare A.length A ∧ CoversSquare A.length B ∧
      ProductFits A.length (exact A) (exact B) := by
  constructor
  · intro hsafe
    refine ⟨?_, ?_, ?_⟩
    · intro i hi
      have hlast := (hsafe i hi (A.length - 1) (by omega) 0 (by omega)).left
      exact ⟨hi, by omega⟩
    · intro k hk
      have hlast := (hsafe 0 (by omega) k hk (A.length - 1) (by omega)).row
      exact ⟨(hsafe 0 (by omega) k hk 0 (by omega)).right, by omega⟩
    · intro i hi k hk j hj
      exact ⟨(hsafe i hi k hk j hj).product, (hsafe i hi k hk j hj).sum⟩
  · rintro ⟨hleft, hright, hfits⟩ i hi k hk j hj
    obtain ⟨hproduct, hsum⟩ := hfits i hi k hk j hj
    exact ⟨hk.trans_le (hleft i hi).2, (hright k hk).1, hj.trans_le (hright k hk).2,
      hproduct, hsum⟩

theorem dot_congr {a a' b : ℕ → ℕ → ℤ} {n count i j : ℕ} (hcount : count ≤ n)
    (hentries : ∀ k < n, a i k = a' i k) : dot a b count i j = dot a' b count i j := by
  apply Finset.sum_congr rfl
  intro k hk
  rw [hentries k ((Finset.mem_range.mp hk).trans_le hcount)]

theorem ProductFits.congr {n : ℕ} {a a' b : ℕ → ℕ → ℤ}
    (hentries : ∀ i < n, ∀ k < n, a i k = a' i k) (hfits : ProductFits n a b) :
    ProductFits n a' b := by
  intro i hi k hk j hj
  obtain ⟨hproduct, hsum⟩ := hfits i hi k hk j hj
  rw [hentries i hi k hk] at hproduct
  rw [dot_congr hk (hentries i hi)] at hsum
  exact ⟨hproduct, hsum⟩

/-- The entries of `left * right ^ times` over the integers. -/
def power (left right : Rows) : ℕ → ℕ → ℕ → ℤ
  | 0 => exact left
  | times + 1 => dot (power left right times) (exact right) left.length

/-- The upper left square of size `n`. -/
def square (n : ℕ) (entries : ℕ → ℕ → ℤ) : Matrix (Fin n) (Fin n) ℤ :=
  Matrix.of fun i j => entries i j

theorem square_dot (n : ℕ) (a b : ℕ → ℕ → ℤ) :
    square n (dot a b n) = square n a * square n b := by
  ext i j
  simp only [square, Matrix.mul_apply, Matrix.of_apply, dot]
  exact (Fin.sum_univ_eq_sum_range (fun k => a i k * b k j) n).symm

theorem square_power (left right : Rows) (times : ℕ) :
    square left.length (power left right times) =
      square left.length (exact left) * square left.length (exact right) ^ times := by
  induction times with
  | zero => rw [power, pow_zero, mul_one]
  | succ times ih =>
      calc
        square left.length (power left right (times + 1)) =
            square left.length (power left right times) * square left.length (exact right) :=
          square_dot left.length _ _
        _ = square left.length (exact left) * square left.length (exact right) ^ times *
              square left.length (exact right) := by rw [ih]
        _ = square left.length (exact left) * square left.length (exact right) ^ (times + 1) := by
          rw [pow_succ, mul_assoc]

/-- The value of `result` after `times` turns of the loop of `calc_matrix`. -/
def resultAt (left right : Rows) : ℕ → Rows
  | 0 => left
  | times + 1 =>
      table left.length fun i j => Int32.ofInt (power left right (times + 1) i j)

/-- All turns of the loop are safe: the shapes cover the square, and over the
integers no product or partial sum leaves the range of `int`. -/
def CalcSafe (left right : Rows) (times : ℕ) : Prop :=
  0 < times → CoversSquare left.length left ∧ CoversSquare left.length right ∧
    ∀ turn < times, ProductFits left.length (power left right turn) (exact right)

@[simp]
theorem length_resultAt (left right : Rows) (times : ℕ) :
    (resultAt left right times).length = left.length := by
  cases times <;> simp [resultAt]

theorem fitsInt_dot_length {n : ℕ} {a b : ℕ → ℕ → ℤ} (hfits : ProductFits n a b)
    {i j : ℕ} (hi : i < n) (hj : j < n) : FitsInt (dot a b n i j) := by
  have hlast := (hfits i hi (n - 1) (by omega) j hj).2
  rwa [Nat.sub_add_cancel (by omega)] at hlast

theorem exact_resultAt {left right : Rows} {times : ℕ}
    (hfits : ∀ turn < times, ProductFits left.length (power left right turn) (exact right))
    {i j : ℕ} (hi : i < left.length) (hj : j < left.length) :
    exact (resultAt left right times) i j = power left right times i j := by
  cases times with
  | zero => rfl
  | succ times =>
      rw [exact, resultAt, entry_table hi hj]
      apply Outcome.toInt_ofInt_of_fitsInt
      exact fitsInt_dot_length (hfits times (Nat.lt_succ_self times)) hi hj

theorem coversSquare_resultAt {left right : Rows} (times : ℕ)
    (hleft : CoversSquare left.length left) :
    CoversSquare left.length (resultAt left right times) := by
  cases times with
  | zero => exact hleft
  | succ times => exact coversSquare_table _ _

/-- A turn that follows safe turns is safe exactly when the shapes cover the
square and the exact product fits. -/
theorem multiplySafe_resultAt_iff {left right : Rows} {times : ℕ}
    (hfits : ∀ turn < times, ProductFits left.length (power left right turn) (exact right)) :
    MultiplySafe (resultAt left right times) right ↔
      CoversSquare left.length (resultAt left right times) ∧
        CoversSquare left.length right ∧
          ProductFits left.length (power left right times) (exact right) := by
  have hentries : ∀ i < left.length, ∀ k < left.length,
      exact (resultAt left right times) i k = power left right times i k :=
    fun i hi k hk => exact_resultAt hfits hi hk
  rw [multiplySafe_iff, length_resultAt]
  constructor
  · rintro ⟨hcovers, hright, hproduct⟩
    exact ⟨hcovers, hright, hproduct.congr hentries⟩
  · rintro ⟨hcovers, hright, hproduct⟩
    exact ⟨hcovers, hright, hproduct.congr fun i hi k hk => (hentries i hi k hk).symm⟩

theorem productFits_of_multiplySafe {left right : Rows} {times : ℕ}
    (hsafe : ∀ turn < times, MultiplySafe (resultAt left right turn) right) :
    ∀ turn < times, ProductFits left.length (power left right turn) (exact right) := by
  intro turn
  induction turn using Nat.strong_induction_on with
  | _ turn ih =>
      intro hturn
      have hearlier : ∀ earlier < turn,
          ProductFits left.length (power left right earlier) (exact right) :=
        fun earlier hlt => ih earlier hlt (hlt.trans hturn)
      exact ((multiplySafe_resultAt_iff hearlier).mp (hsafe turn hturn)).2.2

theorem multiplySafe_iff_calcSafe {left right : Rows} {times : ℕ} :
    (∀ turn < times, MultiplySafe (resultAt left right turn) right) ↔
      CalcSafe left right times := by
  constructor
  · intro hsafe hpositive
    obtain ⟨hleft, hright, _⟩ :=
      (multiplySafe_resultAt_iff (by simp)).mp (hsafe 0 hpositive)
    exact ⟨hleft, hright, productFits_of_multiplySafe hsafe⟩
  · intro hsafe turn hturn
    obtain ⟨hleft, hright, hfits⟩ := hsafe (Nat.zero_lt_of_lt hturn)
    have hearlier : ∀ earlier < turn,
        ProductFits left.length (power left right earlier) (exact right) :=
      fun earlier hlt => hfits earlier (hlt.trans hturn)
    exact (multiplySafe_resultAt_iff hearlier).mpr
      ⟨coversSquare_resultAt turn hleft, hright, hfits turn hturn⟩

theorem safeIff_turn {left right : Rows} {turn : ℕ}
    (hearlier : ∀ earlier < turn, MultiplySafe (resultAt left right earlier) right) :
    (Impl.multiply (resultAt left right turn) right).SafeIff
      (MultiplySafe (resultAt left right turn) right) (resultAt left right (turn + 1)) := by
  apply (safeIff_multiply _ _).congr Iff.rfl
  intro _
  have hfits := productFits_of_multiplySafe hearlier
  rw [partialProduct, length_resultAt, resultAt]
  apply table_congr
  intro i hi j _
  rw [power, dot_congr (le_refl _) fun k hk => exact_resultAt hfits hi hk]

/-- `calc_matrix` is safe exactly under `CalcSafe`, and returns the exact
power; for `times <= 0` it returns `left` as it is. -/
theorem safeIff_calcMatrix (left right : Rows) (times : Int32) :
    (Impl.calcMatrix left right times).SafeIff
      (CalcSafe left right times.toInt.toNat)
      (resultAt left right times.toInt.toNat) := by
  unfold Impl.calcMatrix
  split
  case isTrue hnonpositive =>
    have hzero : times.toInt.toNat = 0 := by
      rw [Int32.le_iff_toInt_le] at hnonpositive
      exact Int.toNat_eq_zero.mpr hnonpositive
    rw [hzero]
    apply (safeIff_returns left).congr _ fun _ => rfl
    simp [CalcSafe]
  case isFalse =>
    have hloop : (forRange (fun result _ => Impl.multiply result right)
        times.toInt.toNat left).SafeIff
          (∀ turn < times.toInt.toNat, MultiplySafe (resultAt left right turn) right)
          (resultAt left right times.toInt.toNat) := by
      apply safeIff_forRange (resultAt left right)
      intro turn _ hearlier
      exact safeIff_turn hearlier
    exact hloop.congr multiplySafe_iff_calcSafe fun _ => rfl

end RpcDemo.Operation
