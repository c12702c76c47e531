import RpcDemo.Proto.Encoding

/-!
# Sizes of encoded messages

The number of bytes of each message in the standard encoding, as arithmetic on
its fields, and the bounds that hold for every value of a scalar field.
-/

namespace RpcDemo.Proto

open RpcDemo.Wire

/-- A scalar field with number 1 to 15. -/
def scalarSize (value : ℕ) : ℕ :=
  if value = 0 then 0 else 1 + varintSize value

/-- A `bytes` or `string` field with number 1 to 15. -/
def bytesSize (length : ℕ) : ℕ :=
  if length = 0 then 0 else 1 + varintSize length + length

theorem varintSize_le {count value : ℕ} (hcount : 0 < count) (hvalue : value < 128 ^ count) :
    varintSize value ≤ count :=
  length_encodeVarint_le hcount hvalue

theorem varintSize_tag {number wireType : ℕ} (hnumber : number < 16) (hwire : wireType < 8) :
    varintSize (8 * number + wireType) = 1 := by
  have hpos := length_encodeVarint_pos (8 * number + wireType)
  have hle : varintSize (8 * number + wireType) ≤ 1 := varintSize_le (by norm_num) (by omega)
  simp only [varintSize] at hle ⊢
  omega

theorem length_encodeFields_scalar {number : ℕ} (value : ℕ) (hnumber : number < 16) :
    (encodeFields (scalar number value)).length = scalarSize value := by
  unfold scalar scalarSize
  split
  · rfl
  · have htag := varintSize_tag hnumber (show 0 < 8 by norm_num)
    simp only [varintSize, Nat.add_zero] at htag ⊢
    simp [encodeFields, encodeField, FieldValue.encode, FieldValue.wireType, htag]

theorem length_encodeFields_bytesField {number : ℕ} (bytes : List UInt8)
    (hnumber : number < 16) :
    (encodeFields (bytesField number bytes)).length = bytesSize bytes.length := by
  unfold bytesField bytesSize
  simp only [List.length_eq_zero_iff]
  split
  · rfl
  · have htag := varintSize_tag hnumber (show 2 < 8 by norm_num)
    simp only [varintSize] at htag ⊢
    simp [encodeFields, encodeField, FieldValue.encode, FieldValue.wireType, htag]
    omega

theorem scalarSize_le {value : ℕ} (hvalue : value < 2 ^ 64) : scalarSize value ≤ 11 := by
  have hsize : varintSize value ≤ 10 :=
    varintSize_le (by norm_num) (lt_of_lt_of_le hvalue (by norm_num))
  unfold scalarSize
  split <;> omega

theorem ofInt32_lt (value : Int32) : ofInt32 value < 2 ^ 64 := by
  have hlt : value.toInt % 2 ^ 64 < 2 ^ 64 := Int.emod_lt_of_pos _ (by norm_num)
  have hnonneg : 0 ≤ value.toInt % 2 ^ 64 := Int.emod_nonneg _ (by norm_num)
  unfold ofInt32
  omega

/-- The length of a reply on the wire. -/
theorem length_serialize_response (response : Response) :
    (responseLayout.serialize response).length =
      scalarSize response.id.toNat + scalarSize (ofInt32 response.status.number) +
        scalarSize (ofInt32 response.type.number) + bytesSize response.body.length +
          bytesSize (ofText response.errorMessage).length := by
  simp only [Layout.serialize, responseLayout, encodeFields_append, List.length_append,
    length_encodeFields_scalar _ (show 1 < 16 by norm_num),
    length_encodeFields_scalar _ (show 2 < 16 by norm_num),
    length_encodeFields_scalar _ (show 3 < 16 by norm_num),
    length_encodeFields_bytesField _ (show 4 < 16 by norm_num),
    length_encodeFields_bytesField _ (show 5 < 16 by norm_num)]

/-- The length of a request on the wire. -/
theorem length_serialize_request (request : Request) :
    (requestLayout.serialize request).length =
      scalarSize request.id.toNat + scalarSize (ofInt32 request.type.number) +
        bytesSize request.body.length := by
  simp only [Layout.serialize, requestLayout, encodeFields_append, List.length_append,
    length_encodeFields_scalar _ (show 1 < 16 by norm_num),
    length_encodeFields_scalar _ (show 2 < 16 by norm_num),
    length_encodeFields_bytesField _ (show 3 < 16 by norm_num)]

theorem length_serialize_intResult (result : IntResult) :
    (intResultLayout.serialize result).length = scalarSize (ofInt32 result.ret) :=
  length_encodeFields_scalar _ (by norm_num)

/-! ## Matrices -/

/-- One row: the packed entries, a negative one taking ten bytes. -/
def rowSize (row : IntList) : ℕ :=
  bytesSize (row.edge.map fun value => varintSize (ofInt32 value)).sum

/-- The rows of a matrix, each a field of its own. -/
def rowsSize (rows : List IntList) : ℕ :=
  (rows.map fun row => 1 + varintSize (rowSize row) + rowSize row).sum

theorem length_serialize_intList (row : IntList) :
    (intListLayout.serialize row).length = rowSize row := by
  have hpacked : (encodePacked (row.edge.map ofInt32)).length =
      (row.edge.map fun value => varintSize (ofInt32 value)).sum := by
    rw [encodePacked, length_encodeAll, List.map_map]
    rfl
  rw [rowSize, ← hpacked]
  exact length_encodeFields_bytesField _ (by norm_num)

theorem length_encodeFields_rowFields {number : ℕ} (rows : List IntList)
    (hnumber : number < 16) :
    (encodeFields (rowFields number rows)).length = rowsSize rows := by
  have htag := varintSize_tag hnumber (show 2 < 8 by norm_num)
  rw [encodeFields, length_encodeAll, rowFields, List.map_map, rowsSize]
  congr 1
  apply List.map_congr_left
  intro row _
  simp only [varintSize] at htag
  simp only [Function.comp_apply, encodeField, FieldValue.encode, FieldValue.wireType,
    List.length_append, htag, length_serialize_intList, varintSize]
  omega

theorem length_serialize_matrixResult (result : MatrixResult) :
    (matrixResultLayout.serialize result).length = rowsSize result.ret :=
  length_encodeFields_rowFields _ (by norm_num)

/-- The length of the arguments of `calc_matrix` on the wire. -/
theorem length_serialize_calcMatrix (args : CalcMatrix) :
    (calcMatrixLayout.serialize args).length =
      rowsSize args.left + rowsSize args.right + scalarSize args.times.toNat := by
  simp only [Layout.serialize, calcMatrixLayout, encodeFields_append, List.length_append,
    length_encodeFields_scalar _ (show 3 < 16 by norm_num),
    length_encodeFields_rowFields _ (show 1 < 16 by norm_num),
    length_encodeFields_rowFields _ (show 2 < 16 by norm_num)]

end RpcDemo.Proto
