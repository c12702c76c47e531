import RpcDemo.Detail.Admissible
import RpcDemo.Method.MatrixPower

/-!
# What an OK answer to `calc_matrix` says

`calc_matrix` takes all its bounds from the number of rows of `left`, and its
count arrives as `uint32` and is narrowed to `int`.  So a request whose shapes
only cover a square, or whose count is 2 ^ 31 or more, is answered with
`STATUS_OK` although the matrix in the answer is no power product.
-/

namespace RpcDemo.ServerStub

open RpcDemo.Proto
open RpcDemo.Operation

/-- The turns of the loop: a count that does not fit `int` becomes negative. -/
def turns (times : ℕ) : ℕ :=
  if times < 2 ^ 31 then times else 0

theorem toNat_toInt32 (times : UInt32) : times.toInt32.toInt.toNat = turns times.toNat := by
  have hnarrowed : times.toInt32.toInt = times.toBitVec.toInt := rfl
  have hsame : times.toBitVec.toNat = times.toNat := rfl
  have hlt := times.toNat_lt
  rw [hnarrowed, BitVec.toInt_eq_toNat_cond, hsame, turns]
  split <;> split <;> omega

/-- `matrix` is `left` and the count is zero, or the shapes match and it is
`left * right ^ times`, exactly. -/
def IsPowerOf (left right : Rows) (times : ℕ) (matrix : Rows) : Prop :=
  (times = 0 ∧ matrix = left) ∨
    ∃ height width, IsMatrix height width left ∧ IsMatrix width width right ∧
      IsMatrix height width matrix ∧
        toMatrix height width matrix =
          toMatrix height width left * toMatrix width width right ^ times

/-- The count is zero; or the shapes match, and either the count fits `int` and
`left` is square or has no rows, or it does not fit and the power leaves `left`
as it is. -/
def WellPosed (left right : Rows) (times : ℕ) : Prop :=
  times = 0 ∨ ∃ width, IsMatrix left.length width left ∧ IsMatrix width width right ∧
    if times < 2 ^ 31 then left = [] ∨ left.length = width
    else toMatrix left.length width left * toMatrix width width right ^ times =
      toMatrix left.length width left

/-- The body of the answer reads as the power that was asked for. -/
def CorrectAnswer (proto : Protobuf) (args : CalcMatrix) (reply : Response) : Prop :=
  ∃ matrix, (calcMatrixTraits proto).parseResult reply.body = .returns matrix ∧
    IsPowerOf (readProtoMatrix args.left) (readProtoMatrix args.right) args.times.toNat matrix

section Result

variable {left right : Rows} {times : ℕ}

/-- The width of a matrix with rows is determined by them. -/
theorem width_unique {height width other : ℕ} {rows : Rows} (hrows : rows ≠ [])
    (hone : IsMatrix height width rows) (htwo : IsMatrix height other rows) : width = other := by
  obtain ⟨row, hmem⟩ := List.exists_mem_of_ne_nil rows hrows
  exact (hone.2 row hmem).symm.trans (htwo.2 row hmem)

theorem isPowerOf_resultAt_iff (hsafe : CalcSafe left right (turns times)) :
    IsPowerOf left right times (resultAt left right (turns times)) ↔
      WellPosed left right times := by
  constructor
  · rintro (⟨hzero, _⟩ | ⟨height, width, hleft, hright, hresult, hpower⟩)
    · exact .inl hzero
    · by_cases hzero : times = 0
      · exact .inl hzero
      obtain rfl := hleft.1
      refine .inr ⟨width, hleft, hright, ?_⟩
      unfold turns at hresult hpower
      split
      case isTrue hlt =>
        rw [if_pos hlt] at hresult
        obtain ⟨turn, rfl⟩ := Nat.exists_eq_succ_of_ne_zero hzero
        by_cases hempty : left = []
        · exact .inl hempty
        · have hsquare : IsMatrix left.length left.length (resultAt left right turn.succ) :=
            isMatrix_table _ _
          have hrows : resultAt left right turn.succ ≠ [] := by
            rw [← List.length_pos_iff, length_resultAt, List.length_pos_iff]
            exact hempty
          exact .inr (width_unique hrows hsquare hresult)
      case isFalse hge =>
        rw [if_neg hge] at hpower
        exact hpower.symm
  · rintro (rfl | ⟨width, hleft, hright, hcase⟩)
    · exact .inl ⟨rfl, rfl⟩
    · refine .inr ⟨left.length, width, hleft, hright, ?_⟩
      split at hcase
      case isTrue hlt =>
        have hturns : turns times = times := if_pos hlt
        rw [hturns] at hsafe ⊢
        rcases hcase with rfl | hsquare
        · have hempty : resultAt [] right times = [] :=
            List.eq_nil_of_length_eq_zero (length_resultAt [] right times)
          rw [hempty]
          exact ⟨hleft, by ext i; exact i.elim0⟩
        · subst hsquare
          refine ⟨isMatrix_resultAt hleft times, toMatrix_resultAt rfl ?_⟩
          exact fun turn hturn => (hsafe (Nat.zero_lt_of_lt hturn)).2.2 turn hturn
      case isFalse hge =>
        have hturns : turns times = 0 := if_neg hge
        rw [hturns]
        exact ⟨hleft, hcase.symm⟩

end Result

section Answer

variable {proto : Protobuf} {request : Request} {args : CalcMatrix} {fault : Option Exn}

/-- An OK answer carries the result of an invocation that was safe. -/
theorem body_of_ok {reply : Response} {invoked : List Method}
    (htype : request.type = metCalcMatrix)
    (hparse : proto.calcMatrix.parse request.body = some args)
    (hdispatch : dispatch proto fault request = .returns ⟨reply, invoked⟩)
    (hok : reply.status = statusOk) :
    Admissible .calcMatrix args ∧
      reply.body = (calcMatrixTraits proto).serializeResult (exactResult .calcMatrix args) := by
  have hlisted : request.type = (Method.calcMatrix.traits proto).id := htype
  have hargs : (Method.calcMatrix.traits proto).request.parse request.body = some args :=
    hparse
  rw [dispatch_of_type proto fault hlisted] at hdispatch
  cases fault with
  | some exn =>
      have hinterruptible : Interruptible .calcMatrix args := .inl rfl
      cases exn with
      | stdException what =>
          rw [dispatchOne_of_stdException what hargs hinterruptible, Outcome.returns.injEq,
            Answer.mk.injEq] at hdispatch
          rw [← hdispatch.1] at hok
          exact absurd hok (show statusInvokeError ≠ statusOk by decide)
      | other =>
          rw [dispatchOne_of_other hargs hinterruptible, Outcome.returns.injEq,
            Answer.mk.injEq] at hdispatch
          rw [← hdispatch.1] at hok
          exact absurd hok (show statusInternalError ≠ statusOk by decide)
  | none =>
      by_cases hadmissible : Admissible .calcMatrix args
      · rw [dispatchOne_of_admissible hargs hadmissible, Outcome.returns.injEq,
          Answer.mk.injEq] at hdispatch
        exact ⟨hadmissible, by rw [← hdispatch.1]; rfl⟩
      · rw [dispatchOne_of_not_admissible hargs (.inl rfl) hadmissible] at hdispatch
        exact absurd hdispatch (by simp)

theorem correctAnswer_exactResult {reply : Response} (hlawful : proto.Lawful)
    (hadmissible : Admissible .calcMatrix args)
    (hbody : reply.body =
      (calcMatrixTraits proto).serializeResult (exactResult .calcMatrix args)) :
    CorrectAnswer proto args reply ↔
      WellPosed (readProtoMatrix args.left) (readProtoMatrix args.right)
        args.times.toNat := by
  have hparsed : (calcMatrixTraits proto).parseResult reply.body =
      .returns (exactResult .calcMatrix args) := by
    rw [hbody]
    exact Method.parseResult_serializeResult hlawful .calcMatrix _
  simp only [Admissible, toNat_toInt32] at hadmissible
  rw [← isPowerOf_resultAt_iff hadmissible, CorrectAnswer]
  constructor
  · rintro ⟨matrix, hmatrix, hpower⟩
    obtain rfl := Outcome.returns.inj (hparsed.symm.trans hmatrix)
    rwa [exactResult, toNat_toInt32] at hpower
  · intro hpower
    refine ⟨_, hparsed, ?_⟩
    rwa [exactResult, toNat_toInt32]

/-- An OK answer to `calc_matrix` is right exactly when the request is well
posed. -/
theorem correctAnswer_iff {reply : Response} {invoked : List Method}
    (hlawful : proto.Lawful) (htype : request.type = metCalcMatrix)
    (hparse : proto.calcMatrix.parse request.body = some args)
    (hdispatch : dispatch proto fault request = .returns ⟨reply, invoked⟩)
    (hok : reply.status = statusOk) :
    CorrectAnswer proto args reply ↔
      WellPosed (readProtoMatrix args.left) (readProtoMatrix args.right)
        args.times.toNat := by
  obtain ⟨hadmissible, hbody⟩ := body_of_ok htype hparse hdispatch hok
  exact correctAnswer_exactResult hlawful hadmissible hbody

end Answer

/-! ## Two wrong answers -/

def calcArgs (left right : Rows) (times : UInt32) : CalcMatrix :=
  ⟨fillProtoMatrix left [], fillProtoMatrix right [], times⟩

def calcRequest (args : CalcMatrix) : Request :=
  ⟨1, metCalcMatrix, standard.calcMatrix.serialize args⟩

theorem parse_calcRequest (args : CalcMatrix) :
    standard.calcMatrix.parse (calcRequest args).body = some args :=
  lawful_standard.calcMatrix args

/-- The answer to an admissible request. -/
theorem dispatch_calcRequest {args : CalcMatrix} (hadmissible : Admissible .calcMatrix args) :
    ∃ reply, dispatch standard none (calcRequest args) = .returns ⟨reply, [.calcMatrix]⟩ ∧
      reply.status = statusOk ∧
        reply.body = (calcMatrixTraits standard).serializeResult
          (exactResult .calcMatrix args) := by
  have htype : (calcRequest args).type = (Method.calcMatrix.traits standard).id := rfl
  have hparse : (Method.calcMatrix.traits standard).request.parse (calcRequest args).body =
      some args := parse_calcRequest args
  rw [dispatch_of_type standard none htype, dispatchOne_of_admissible hparse hadmissible]
  exact ⟨_, rfl, rfl, rfl⟩

/-- Left is one row of two, and the answer is the one by one `[[1]]`. -/
def wideArgs : CalcMatrix :=
  calcArgs [[1, 2]] [[1, 1], [1, 1]] 1

/-- The count is 2 ^ 31, and the answer is `left`. -/
def longArgs : CalcMatrix :=
  calcArgs [[1]] [[0]] 2147483648

theorem not_wellPosed_wideArgs : ¬ WellPosed [[1, 2]] [[1, 1], [1, 1]] 1 := by
  rintro (hzero | ⟨width, hleft, _, hcase⟩)
  · exact absurd hzero (by decide)
  · have hwidth : 2 = width := hleft.2 [1, 2] List.mem_cons_self
    rw [if_pos (by decide)] at hcase
    rcases hcase with hempty | hsquare
    · exact absurd hempty (by decide)
    · exact absurd (hsquare.trans hwidth.symm) (by decide)

theorem not_wellPosed_longArgs : ¬ WellPosed [[1]] [[0]] 2147483648 := by
  rintro (hzero | ⟨width, hleft, _, hcase⟩)
  · exact absurd hzero (by decide)
  · obtain rfl : 1 = width := hleft.2 [1] List.mem_cons_self
    have hright : toMatrix 1 1 [[0]] = 0 := by
      ext i j
      obtain rfl := Fin.fin_one_eq_zero i
      obtain rfl := Fin.fin_one_eq_zero j
      rfl
    rw [if_neg (by decide), hright, zero_pow (by decide), mul_zero] at hcase
    exact absurd (congrFun (congrFun hcase 0) 0) (by decide)

theorem admissible_wideArgs : Admissible .calcMatrix wideArgs := by
  intro _
  refine ⟨?_, ?_, ?_⟩
  · unfold CoversSquare
    decide
  · unfold CoversSquare
    decide
  · unfold ProductFits
    decide

theorem admissible_longArgs : Admissible .calcMatrix longArgs :=
  fun hpositive => absurd hpositive (by decide)

theorem wrong_ok_answers :
    (∃ reply, dispatch standard none (calcRequest wideArgs) =
        .returns ⟨reply, [.calcMatrix]⟩ ∧
      reply.status = statusOk ∧ ¬ CorrectAnswer standard wideArgs reply) ∧
    ∃ reply, dispatch standard none (calcRequest longArgs) =
        .returns ⟨reply, [.calcMatrix]⟩ ∧
      reply.status = statusOk ∧ ¬ CorrectAnswer standard longArgs reply := by
  constructor
  · obtain ⟨reply, hreply, hok, hbody⟩ := dispatch_calcRequest admissible_wideArgs
    refine ⟨reply, hreply, hok, fun hcorrect => not_wellPosed_wideArgs ?_⟩
    exact (correctAnswer_exactResult lawful_standard admissible_wideArgs hbody).mp hcorrect
  · obtain ⟨reply, hreply, hok, hbody⟩ := dispatch_calcRequest admissible_longArgs
    refine ⟨reply, hreply, hok, fun hcorrect => not_wellPosed_longArgs ?_⟩
    exact (correctAnswer_exactResult lawful_standard admissible_longArgs hbody).mp hcorrect

/-- A square request that is answered rightly. -/
def squareArgs : CalcMatrix :=
  calcArgs [[1, 2], [3, 4]] [[1, 1], [1, 0]] 3

theorem squareArgs_correct :
    ∃ reply, dispatch standard none (calcRequest squareArgs) =
        .returns ⟨reply, [.calcMatrix]⟩ ∧
      CorrectAnswer standard squareArgs reply := by
  have hadmissible : Admissible .calcMatrix squareArgs := by
    intro _
    refine ⟨?_, ?_, ?_⟩
    · unfold CoversSquare
      decide
    · unfold CoversSquare
      decide
    · unfold ProductFits
      decide
  obtain ⟨reply, hreply, hok, _⟩ := dispatch_calcRequest hadmissible
  refine ⟨reply, hreply, ?_⟩
  exact (correctAnswer_iff lawful_standard rfl (parse_calcRequest squareArgs) hreply hok).mpr
    (.inr ⟨2, by decide, by decide, .inr rfl⟩)

end RpcDemo.ServerStub
