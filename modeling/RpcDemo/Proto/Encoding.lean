import RpcDemo.Core.Wire
import RpcDemo.Proto.Messages

/-!
# The proto3 encoding of the messages

How each message maps to fields: a scalar with its default value and an empty
`bytes` or `string` field are left out, a repeated `int32` is packed, and a
negative `int32` is written as a varint of ten bytes.  A parser skips fields it
does not know, and of a field that occurs twice the last one counts.
-/

namespace RpcDemo.Proto

open RpcDemo.Wire

/-! ## Scalars -/

/-- An `int32` is sign-extended to 64 bits. -/
def ofInt32 (value : Int32) : ℕ :=
  (value.toInt % 2 ^ 64).toNat

/-- The low 32 bits of a varint. -/
def toInt32 (value : ℕ) : Int32 :=
  Int32.ofInt value

/-- An `int32` is read back from its sign-extended varint. -/
theorem toInt32_ofInt32 (value : Int32) : toInt32 (ofInt32 value) = value := by
  have hcast : ((ofInt32 value : ℕ) : ℤ) = value.toInt % 2 ^ 64 :=
    Int.toNat_of_nonneg (Int.emod_nonneg _ (by norm_num))
  have hsame : (value.toInt % 2 ^ 64).bmod (2 ^ 32) = value.toInt.bmod (2 ^ 32) := by
    rw [← Int.emod_bmod, Int.emod_emod_of_dvd _ (by norm_num), Int.emod_bmod]
  apply Int32.toInt_inj.mp
  rw [toInt32, hcast, Int32.toInt_ofInt]
  exact hsame.trans (Int32.toInt_bmod_size value)

/-- A `string` is written in UTF-8. -/
def ofText (text : String) : List UInt8 :=
  text.toByteArray.data.toList

/-- A `string` that is not UTF-8 does not parse. -/
def toText (bytes : List UInt8) : Option String :=
  String.fromUTF8? ⟨bytes.toArray⟩

theorem toText_ofText (text : String) : toText (ofText text) = some text := by
  have hbytes : (⟨(ofText text).toArray⟩ : ByteArray) = text.toByteArray := by
    simp [ofText]
  rw [toText, hbytes, String.fromUTF8?, dif_pos text.isValidUTF8]
  rfl

/-- The field of a scalar, left out for zero. -/
def scalar (number value : ℕ) : List Field :=
  if value = 0 then [] else [⟨number, .varint value⟩]

/-- The field of `bytes` or a `string`, left out when empty. -/
def bytesField (number : ℕ) (bytes : List UInt8) : List Field :=
  if bytes = [] then [] else [⟨number, .delimited bytes⟩]

theorem wellFormed_scalar {number value : ℕ} (hpos : 0 < number) (hlt : number < 2 ^ 29) :
    ∀ field ∈ scalar number value, field.WellFormed := by
  intro field hmem
  unfold scalar at hmem
  split at hmem
  · exact absurd hmem List.not_mem_nil
  · rw [List.mem_singleton.mp hmem]
    exact ⟨hpos, hlt, trivial⟩

theorem wellFormed_bytesField {number : ℕ} {bytes : List UInt8} (hpos : 0 < number)
    (hlt : number < 2 ^ 29) : ∀ field ∈ bytesField number bytes, field.WellFormed := by
  intro field hmem
  unfold bytesField at hmem
  split at hmem
  · exact absurd hmem List.not_mem_nil
  · rw [List.mem_singleton.mp hmem]
    exact ⟨hpos, hlt, trivial⟩

/-! ## Messages -/

/-- How a message type is written and read: its fields, and what one received
field does to a message under construction. -/
structure Layout (Message : Type) where
  empty : Message
  fields : Message → List Field
  merge : Message → Field → Option Message
  wellFormed : ∀ message, ∀ field ∈ fields message, field.WellFormed
  merge_fields : ∀ message, (fields message).foldlM merge empty = some message

namespace Layout

variable {Message : Type} (layout : Layout Message)

/-- `SerializeAsString`. -/
def serialize (message : Message) : List UInt8 :=
  encodeFields (layout.fields message)

/-- `ParseFromString`. -/
def parse (bytes : List UInt8) : Option Message :=
  (decodeFields bytes).bind fun fields => fields.foldlM layout.merge layout.empty

def codec : Codec Message :=
  ⟨layout.serialize, layout.parse⟩

/-- A message is parsed back from its serialization. -/
theorem lawful_codec : layout.codec.Lawful := by
  intro message
  simp only [codec, parse, serialize]
  rw [decodeFields_encodeFields (layout.wellFormed message), Option.bind_some,
    layout.merge_fields message]

end Layout

section Merge

variable {Message : Type} {merge : Message → Field → Option Message} {message : Message}

/-- A scalar that is left out has its default value. -/
theorem foldlM_scalar {number : ℕ} (value : ℕ)
    (hdefault : merge message ⟨number, .varint 0⟩ = some message) :
    (scalar number value).foldlM merge message =
      merge message ⟨number, .varint value⟩ := by
  unfold scalar
  split
  case isTrue hzero =>
    rw [hzero, hdefault]
    rfl
  case isFalse => simp

/-- Bytes that are left out have their default value. -/
theorem foldlM_bytesField {number : ℕ} (bytes : List UInt8)
    (hdefault : merge message ⟨number, .delimited []⟩ = some message) :
    (bytesField number bytes).foldlM merge message =
      merge message ⟨number, .delimited bytes⟩ := by
  unfold bytesField
  split
  case isTrue hempty =>
    rw [hempty, hdefault]
    rfl
  case isFalse => simp

/-- The elements of a repeated field are added in order; `put items` adds
`items` at the end. -/
theorem foldlM_repeated {Item : Type} {number : ℕ} {serialize : Item → List UInt8}
    (put : List Item → Message) (items before : List Item)
    (hmerge : ∀ built item, merge (put built) ⟨number, .delimited (serialize item)⟩ =
      some (put (built ++ [item]))) :
    (items.map fun item => (⟨number, .delimited (serialize item)⟩ : Field)).foldlM merge
      (put before) = some (put (before ++ items)) := by
  induction items generalizing before with
  | nil => simp
  | cons item items ih =>
      rw [List.map_cons, List.foldlM_cons, hmerge]
      simpa using ih (before ++ [item])

end Merge

theorem wellFormed_repeated {Item : Type} {number : ℕ} {serialize : Item → List UInt8}
    {items : List Item} (hpos : 0 < number) (hlt : number < 2 ^ 29) :
    ∀ field ∈ items.map fun item => (⟨number, .delimited (serialize item)⟩ : Field),
      field.WellFormed := by
  intro field hmem
  obtain ⟨item, _, rfl⟩ := List.mem_map.mp hmem
  exact ⟨hpos, hlt, trivial⟩

@[simp]
theorem toInt32_zero : toInt32 0 = 0 := rfl

def requestLayout : Layout Request where
  empty := ⟨0, metUnknow, []⟩
  fields request := scalar 1 request.id.toNat ++ scalar 2 (ofInt32 request.type.number) ++
    bytesField 3 request.body
  merge request field :=
    match field.number, field.value with
    | 1, .varint value => some { request with id := UInt64.ofNat value }
    | 2, .varint value => some { request with type := ⟨toInt32 value⟩ }
    | 3, .delimited bytes => some { request with body := bytes }
    | _, _ => some request
  wellFormed request := by
    simp only [List.forall_mem_append]
    exact ⟨⟨wellFormed_scalar (by norm_num) (by norm_num),
      wellFormed_scalar (by norm_num) (by norm_num)⟩,
      wellFormed_bytesField (by norm_num) (by norm_num)⟩
  merge_fields request := by
    simp [foldlM_scalar, foldlM_bytesField, toInt32_ofInt32, metUnknow]

def responseLayout : Layout Response where
  empty := ⟨0, ⟨0⟩, metUnknow, [], ""⟩
  fields response := scalar 1 response.id.toNat ++ scalar 2 (ofInt32 response.status.number) ++
    scalar 3 (ofInt32 response.type.number) ++ bytesField 4 response.body ++
    bytesField 5 (ofText response.errorMessage)
  merge response field :=
    match field.number, field.value with
    | 1, .varint value => some { response with id := UInt64.ofNat value }
    | 2, .varint value => some { response with status := ⟨toInt32 value⟩ }
    | 3, .varint value => some { response with type := ⟨toInt32 value⟩ }
    | 4, .delimited bytes => some { response with body := bytes }
    | 5, .delimited bytes => (toText bytes).map fun text =>
        { response with errorMessage := text }
    | _, _ => some response
  wellFormed response := by
    simp only [List.forall_mem_append]
    exact ⟨⟨⟨⟨wellFormed_scalar (by norm_num) (by norm_num),
      wellFormed_scalar (by norm_num) (by norm_num)⟩,
      wellFormed_scalar (by norm_num) (by norm_num)⟩,
      wellFormed_bytesField (by norm_num) (by norm_num)⟩,
      wellFormed_bytesField (by norm_num) (by norm_num)⟩
  merge_fields response := by
    have hempty : toText [] = some "" := toText_ofText ""
    simp [foldlM_scalar, foldlM_bytesField, toInt32_ofInt32, metUnknow, hempty, toText_ofText]

def operandsLayout : Layout Operands where
  empty := ⟨0, 0⟩
  fields args := scalar 1 (ofInt32 args.left) ++ scalar 2 (ofInt32 args.right)
  merge args field :=
    match field.number, field.value with
    | 1, .varint value => some { args with left := toInt32 value }
    | 2, .varint value => some { args with right := toInt32 value }
    | _, _ => some args
  wellFormed args := by
    simp only [List.forall_mem_append]
    exact ⟨wellFormed_scalar (by norm_num) (by norm_num),
      wellFormed_scalar (by norm_num) (by norm_num)⟩
  merge_fields args := by
    simp [foldlM_scalar, toInt32_ofInt32]

def intResultLayout : Layout IntResult where
  empty := ⟨0⟩
  fields result := scalar 1 (ofInt32 result.ret)
  merge result field :=
    match field.number, field.value with
    | 1, .varint value => some { result with ret := toInt32 value }
    | _, _ => some result
  wellFormed result := wellFormed_scalar (by norm_num) (by norm_num)
  merge_fields result := by
    simp [foldlM_scalar, toInt32_ofInt32]

def intListLayout : Layout IntList where
  empty := ⟨[]⟩
  fields row := bytesField 1 (encodePacked (row.edge.map ofInt32))
  merge row field :=
    match field.number, field.value with
    | 1, .delimited bytes => (decodePacked bytes).map fun values =>
        { row with edge := row.edge ++ values.map toInt32 }
    | 1, .varint value => some { row with edge := row.edge ++ [toInt32 value] }
    | _, _ => some row
  wellFormed row := wellFormed_bytesField (by norm_num) (by norm_num)
  merge_fields row := by
    have hempty : decodePacked [] = some [] := rfl
    simp [foldlM_bytesField, hempty, decodePacked_encodePacked, Function.comp_def,
      toInt32_ofInt32]

/-- The rows of a matrix, each a field of its own. -/
def rowFields (number : ℕ) (rows : List IntList) : List Field :=
  rows.map fun row => ⟨number, .delimited (intListLayout.serialize row)⟩

theorem parse_intListLayout (row : IntList) :
    intListLayout.parse (intListLayout.serialize row) = some row :=
  intListLayout.lawful_codec row

/-- Rows of the two matrices are added as they come; the last count holds. -/
def calcMatrixMerge (args : CalcMatrix) (field : Field) : Option CalcMatrix :=
  match field.number, field.value with
  | 1, .delimited bytes => (intListLayout.parse bytes).map fun row =>
      { args with left := args.left ++ [row] }
  | 2, .delimited bytes => (intListLayout.parse bytes).map fun row =>
      { args with right := args.right ++ [row] }
  | 3, .varint value => some { args with times := UInt32.ofNat value }
  | _, _ => some args

def calcMatrixLayout : Layout CalcMatrix where
  empty := ⟨[], [], 0⟩
  fields args := rowFields 1 args.left ++ rowFields 2 args.right ++ scalar 3 args.times.toNat
  merge := calcMatrixMerge
  wellFormed args := by
    simp only [List.forall_mem_append, rowFields]
    exact ⟨⟨wellFormed_repeated (by norm_num) (by norm_num),
      wellFormed_repeated (by norm_num) (by norm_num)⟩,
      wellFormed_scalar (by norm_num) (by norm_num)⟩
  merge_fields args := by
    have hleft : (rowFields 1 args.left).foldlM calcMatrixMerge ⟨[], [], 0⟩ =
        some ⟨args.left, [], 0⟩ := by
      apply foldlM_repeated (fun rows => (⟨rows, [], 0⟩ : CalcMatrix)) args.left []
      intro built row
      simp [calcMatrixMerge, parse_intListLayout]
    have hright : (rowFields 2 args.right).foldlM calcMatrixMerge ⟨args.left, [], 0⟩ =
        some ⟨args.left, args.right, 0⟩ := by
      apply foldlM_repeated (fun rows => (⟨args.left, rows, 0⟩ : CalcMatrix)) args.right []
      intro built row
      simp [calcMatrixMerge, parse_intListLayout]
    rw [List.foldlM_append, List.foldlM_append, hleft]
    simp [hright, foldlM_scalar, calcMatrixMerge]

/-- Rows are added as they come. -/
def matrixResultMerge (result : MatrixResult) (field : Field) : Option MatrixResult :=
  match field.number, field.value with
  | 1, .delimited bytes => (intListLayout.parse bytes).map fun row =>
      { result with ret := result.ret ++ [row] }
  | _, _ => some result

def matrixResultLayout : Layout MatrixResult where
  empty := ⟨[]⟩
  fields result := rowFields 1 result.ret
  merge := matrixResultMerge
  wellFormed result := wellFormed_repeated (by norm_num) (by norm_num)
  merge_fields result := by
    apply foldlM_repeated MatrixResult.mk result.ret []
    intro built row
    simp [matrixResultMerge, parse_intListLayout]

/-- The generated code with the standard encoding. -/
def standard : Protobuf where
  request := requestLayout.codec
  response := responseLayout.codec
  add := operandsLayout.codec
  addResult := intResultLayout.codec
  div := operandsLayout.codec
  divResult := intResultLayout.codec
  calcMatrix := calcMatrixLayout.codec
  calcMatrixResult := matrixResultLayout.codec

/-- Every message is parsed back from its standard encoding. -/
theorem lawful_standard : standard.Lawful where
  request := requestLayout.lawful_codec
  response := responseLayout.lawful_codec
  add := operandsLayout.lawful_codec
  addResult := intResultLayout.lawful_codec
  div := operandsLayout.lawful_codec
  divResult := intResultLayout.lawful_codec
  calcMatrix := calcMatrixLayout.lawful_codec
  calcMatrixResult := matrixResultLayout.lawful_codec

/-- What a server sends is written in the standard encoding. -/
structure Protobuf.WritesStandard (proto : Protobuf) : Prop where
  response : proto.response.serialize = responseLayout.serialize
  addResult : proto.addResult.serialize = intResultLayout.serialize
  divResult : proto.divResult.serialize = intResultLayout.serialize
  calcMatrixResult : proto.calcMatrixResult.serialize = matrixResultLayout.serialize

theorem writesStandard_standard : standard.WritesStandard :=
  ⟨rfl, rfl, rfl, rfl⟩

end RpcDemo.Proto
