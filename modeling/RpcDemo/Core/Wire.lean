import Mathlib.Data.List.Basic
import Mathlib.Tactic.NormNum
import Mathlib.Tactic.Ring

/-!
# The wire format of protocol buffers

Base-128 varints, and messages as sequences of numbered fields.  A reader gets
back exactly the fields a writer put there, whatever the message they belong
to; how a message type maps to fields is left to its user.
-/

namespace RpcDemo.Wire

/-! ## Varints -/

/-- At most `groups` bytes of seven bits each, the lowest first; every byte but
the last has its high bit set. -/
def encodeGroups : ℕ → ℕ → List UInt8
  | 0, _ => []
  | groups + 1, value =>
      if value < 128 then [UInt8.ofNat value]
      else UInt8.ofNat (value % 128 + 128) :: encodeGroups groups (value / 128)

/-- Read groups up to the first byte without the high bit. -/
def decodeGroups : ℕ → List UInt8 → Option (ℕ × List UInt8)
  | 0, _ => none
  | _ + 1, [] => none
  | groups + 1, byte :: rest =>
      if byte.toNat < 128 then some (byte.toNat, rest)
      else (decodeGroups groups rest).map fun tail =>
        (byte.toNat - 128 + 128 * tail.1, tail.2)

/-- The bound on the groups is one that every value stays below. -/
def encodeVarint (value : ℕ) : List UInt8 :=
  encodeGroups (value + 1) value

/-- A varint in front of the rest of the input. -/
def decodeVarint (bytes : List UInt8) : Option (ℕ × List UInt8) :=
  decodeGroups bytes.length bytes

/-- A reader with enough fuel gets back what was written, and leaves what follows. -/
theorem decodeGroups_encodeGroups {groups fuel value : ℕ} (rest : List UInt8)
    (hvalue : value < 128 ^ groups) (hgroups : 0 < groups)
    (hfuel : (encodeGroups groups value).length ≤ fuel) :
    decodeGroups fuel (encodeGroups groups value ++ rest) = some (value, rest) := by
  induction groups generalizing fuel value with
  | zero => exact absurd hgroups (lt_irrefl 0)
  | succ groups ih =>
      by_cases hsmall : value < 128
      · have hbyte : (UInt8.ofNat value).toNat = value := by
          rw [UInt8.toNat_ofNat']
          omega
        rw [encodeGroups, if_pos hsmall] at hfuel ⊢
        obtain ⟨fuel, rfl⟩ := Nat.exists_eq_add_one_of_ne_zero (Nat.ne_of_gt hfuel)
        simp [decodeGroups, hsmall, hbyte]
      · have hbyte : (UInt8.ofNat (value % 128 + 128)).toNat = value % 128 + 128 := by
          rw [UInt8.toNat_ofNat']
          omega
        have hpositive : 0 < groups := by
          rcases Nat.eq_zero_or_pos groups with rfl | hpositive
          · omega
          · exact hpositive
        have hquotient : value / 128 < 128 ^ groups := by
          rw [pow_succ] at hvalue
          omega
        rw [encodeGroups, if_neg hsmall, List.length_cons] at hfuel
        obtain ⟨fuel, rfl⟩ := Nat.exists_eq_add_one_of_ne_zero
          (Nat.ne_of_gt (Nat.zero_lt_of_lt hfuel))
        have hrest := ih hquotient hpositive (Nat.le_of_succ_le_succ hfuel)
        have hlarge : ¬ value % 128 + 128 < 128 := by omega
        rw [encodeGroups, if_neg hsmall, List.cons_append, decodeGroups, hbyte,
          if_neg hlarge, hrest, Option.map_some]
        congr 2
        omega

/-- A varint is read back, whatever follows it. -/
theorem decodeVarint_encodeVarint (value : ℕ) (rest : List UInt8) :
    decodeVarint (encodeVarint value ++ rest) = some (value, rest) := by
  have hvalue : value < 128 ^ (value + 1) :=
    (Nat.lt_succ_self value).trans (Nat.lt_pow_self (by norm_num))
  apply decodeGroups_encodeGroups rest hvalue (Nat.succ_pos value)
  rw [List.length_append]
  exact Nat.le_add_right _ _

theorem length_encodeVarint_pos (value : ℕ) : 0 < (encodeVarint value).length := by
  rw [encodeVarint, encodeGroups]
  split <;> simp

theorem length_encodeGroups_of_lt {groups count value : ℕ} (hcount : 0 < count)
    (hvalue : value < 128 ^ count) : (encodeGroups groups value).length ≤ count := by
  induction groups generalizing count value with
  | zero => exact Nat.zero_le count
  | succ groups ih =>
      rw [encodeGroups]
      split
      case isTrue => exact hcount
      case isFalse hlarge =>
        obtain ⟨count, rfl⟩ := Nat.exists_eq_succ_of_ne_zero hcount.ne'
        have hpositive : 0 < count := by
          rcases Nat.eq_zero_or_pos count with rfl | hpositive
          · omega
          · exact hpositive
        have hquotient : value / 128 < 128 ^ count := by
          rw [Nat.succ_eq_add_one, pow_succ] at hvalue
          omega
        simpa using ih hpositive hquotient

/-- A value below `128 ^ count` takes at most `count` bytes. -/
theorem length_encodeVarint_le {count value : ℕ} (hcount : 0 < count)
    (hvalue : value < 128 ^ count) : (encodeVarint value).length ≤ count :=
  length_encodeGroups_of_lt hcount hvalue

/-- The number of bytes a value takes. -/
def varintSize (value : ℕ) : ℕ :=
  (encodeVarint value).length

/-! ## Sequences -/

section Sequence

variable {Item : Type*}

/-- Items one after the other. -/
def encodeAll (encodeOne : Item → List UInt8) (items : List Item) : List UInt8 :=
  (items.map encodeOne).flatten

/-- Read at most `count` items, up to the end of the input. -/
def decodeAllFrom (decodeOne : List UInt8 → Option (Item × List UInt8)) :
    ℕ → List UInt8 → Option (List Item)
  | _, [] => some []
  | 0, _ :: _ => none
  | count + 1, byte :: bytes =>
      (decodeOne (byte :: bytes)).bind fun first =>
        (decodeAllFrom decodeOne count first.2).map fun items => first.1 :: items

/-- Read items up to the end of the input. -/
def decodeAll (decodeOne : List UInt8 → Option (Item × List UInt8))
    (bytes : List UInt8) : Option (List Item) :=
  decodeAllFrom decodeOne bytes.length bytes

variable {encodeOne : Item → List UInt8} {decodeOne : List UInt8 → Option (Item × List UInt8)}

@[simp]
theorem encodeAll_nil : encodeAll encodeOne [] = [] := rfl

@[simp]
theorem encodeAll_cons (item : Item) (items : List Item) :
    encodeAll encodeOne (item :: items) = encodeOne item ++ encodeAll encodeOne items := rfl

@[simp]
theorem encodeAll_append (left right : List Item) :
    encodeAll encodeOne (left ++ right) =
      encodeAll encodeOne left ++ encodeAll encodeOne right := by
  simp [encodeAll]

theorem length_encodeAll (items : List Item) :
    (encodeAll encodeOne items).length = (items.map fun item => (encodeOne item).length).sum := by
  simp [encodeAll, List.length_flatten, Function.comp_def]

/-- Items that take room are no more than the bytes they take. -/
theorem length_le_length_encodeAll (hpos : ∀ item, 0 < (encodeOne item).length)
    (items : List Item) : items.length ≤ (encodeAll encodeOne items).length := by
  induction items with
  | nil => rfl
  | cons item items ih =>
      have := hpos item
      rw [encodeAll_cons, List.length_append, List.length_cons]
      omega

theorem decodeAllFrom_encodeAll {items : List Item} {count : ℕ}
    (hpos : ∀ item, 0 < (encodeOne item).length) (hcount : items.length ≤ count)
    (hone : ∀ item ∈ items, ∀ rest, decodeOne (encodeOne item ++ rest) = some (item, rest)) :
    decodeAllFrom decodeOne count (encodeAll encodeOne items) = some items := by
  induction items generalizing count with
  | nil => cases count <;> rfl
  | cons item items ih =>
      obtain ⟨count, rfl⟩ := Nat.exists_eq_succ_of_ne_zero
        (Nat.ne_of_gt (Nat.zero_lt_of_lt hcount))
      have hfirst := hone item List.mem_cons_self (encodeAll encodeOne items)
      have hrest := ih (Nat.le_of_succ_le_succ hcount)
        fun other hother => hone other (List.mem_cons_of_mem item hother)
      rw [encodeAll_cons]
      cases hbytes : encodeOne item ++ encodeAll encodeOne items with
      | nil =>
          have hlength := hpos item
          rw [List.append_eq_nil_iff] at hbytes
          rw [hbytes.1] at hlength
          exact absurd hlength (lt_irrefl 0)
      | cons byte bytes =>
          rw [hbytes] at hfirst
          rw [decodeAllFrom, hfirst, Option.bind_some, hrest, Option.map_some]

/-- A reader gets back the items that were written. -/
theorem decodeAll_encodeAll {items : List Item}
    (hpos : ∀ item, 0 < (encodeOne item).length)
    (hone : ∀ item ∈ items, ∀ rest, decodeOne (encodeOne item ++ rest) = some (item, rest)) :
    decodeAll decodeOne (encodeAll encodeOne items) = some items :=
  decodeAllFrom_encodeAll hpos (length_le_length_encodeAll hpos items) hone

end Sequence

/-! ## Fields -/

/-- The values of the wire types 0, 1, 2 and 5. -/
inductive FieldValue
  | varint (value : ℕ)
  | fixed64 (bytes : List UInt8)
  | delimited (bytes : List UInt8)
  | fixed32 (bytes : List UInt8)
  deriving DecidableEq

/-- A numbered value of a message. -/
structure Field where
  number : ℕ
  value : FieldValue
  deriving DecidableEq

namespace FieldValue

def wireType : FieldValue → ℕ
  | varint _ => 0
  | fixed64 _ => 1
  | delimited _ => 2
  | fixed32 _ => 5

def encode : FieldValue → List UInt8
  | varint value => encodeVarint value
  | fixed64 bytes => bytes
  | delimited bytes => encodeVarint bytes.length ++ bytes
  | fixed32 bytes => bytes

/-- The value can be written: it has the width of its wire type. -/
def WellFormed : FieldValue → Prop
  | fixed64 bytes => bytes.length = 8
  | fixed32 bytes => bytes.length = 4
  | _ => True

end FieldValue

/-- The number is one a tag can carry, and the value can be written. -/
structure Field.WellFormed (field : Field) : Prop where
  number_pos : 0 < field.number
  number_lt : field.number < 2 ^ 29
  value : field.value.WellFormed

def takeBytes (count : ℕ) (bytes : List UInt8) : Option (List UInt8 × List UInt8) :=
  if count ≤ bytes.length then some (bytes.take count, bytes.drop count) else none

/-- Read a value of the given wire type. -/
def decodeValue (wireType : ℕ) (bytes : List UInt8) : Option (FieldValue × List UInt8) :=
  match wireType with
  | 0 => (decodeVarint bytes).map fun result => (.varint result.1, result.2)
  | 1 => (takeBytes 8 bytes).map fun result => (.fixed64 result.1, result.2)
  | 2 => (decodeVarint bytes).bind fun length =>
      (takeBytes length.1 length.2).map fun result => (.delimited result.1, result.2)
  | 5 => (takeBytes 4 bytes).map fun result => (.fixed32 result.1, result.2)
  | _ => none

/-- The tag, which is the number and the wire type, and then the value. -/
def encodeField (field : Field) : List UInt8 :=
  encodeVarint (8 * field.number + field.value.wireType) ++ field.value.encode

def decodeField (bytes : List UInt8) : Option (Field × List UInt8) :=
  (decodeVarint bytes).bind fun tag =>
    if 0 < tag.1 / 8 ∧ tag.1 / 8 < 2 ^ 29 then
      (decodeValue (tag.1 % 8) tag.2).map fun result => (⟨tag.1 / 8, result.1⟩, result.2)
    else none

def encodeFields (fields : List Field) : List UInt8 :=
  encodeAll encodeField fields

def decodeFields (bytes : List UInt8) : Option (List Field) :=
  decodeAll decodeField bytes

theorem takeBytes_append (bytes rest : List UInt8) :
    takeBytes bytes.length (bytes ++ rest) = some (bytes, rest) := by
  simp [takeBytes]

/-- A value of the width of its wire type is read back. -/
theorem decodeValue_encode {value : FieldValue} (rest : List UInt8)
    (hvalue : value.WellFormed) :
    decodeValue value.wireType (value.encode ++ rest) = some (value, rest) := by
  cases value with
  | varint value =>
      simp only [FieldValue.wireType, FieldValue.encode, decodeValue,
        decodeVarint_encodeVarint value rest, Option.map_some]
  | fixed64 bytes =>
      have htake := takeBytes_append bytes rest
      rw [show bytes.length = 8 from hvalue] at htake
      simp only [FieldValue.wireType, FieldValue.encode, decodeValue, htake, Option.map_some]
  | delimited bytes =>
      simp only [FieldValue.wireType, FieldValue.encode, decodeValue, List.append_assoc,
        decodeVarint_encodeVarint bytes.length (bytes ++ rest), Option.bind_some,
        takeBytes_append, Option.map_some]
  | fixed32 bytes =>
      have htake := takeBytes_append bytes rest
      rw [show bytes.length = 4 from hvalue] at htake
      simp only [FieldValue.wireType, FieldValue.encode, decodeValue, htake, Option.map_some]

theorem FieldValue.wireType_lt (value : FieldValue) : value.wireType < 8 := by
  cases value <;> simp [wireType]

/-- A well-formed field is read back, whatever follows it. -/
theorem decodeField_encodeField {field : Field} (rest : List UInt8)
    (hfield : field.WellFormed) :
    decodeField (encodeField field ++ rest) = some (field, rest) := by
  have hwire := field.value.wireType_lt
  have hnumber := hfield.number_lt
  have hquotient : (8 * field.number + field.value.wireType) / 8 = field.number := by omega
  have hremainder : (8 * field.number + field.value.wireType) % 8 = field.value.wireType := by
    omega
  rw [decodeField, encodeField, List.append_assoc, decodeVarint_encodeVarint,
    Option.bind_some]
  simp only [hquotient, hremainder]
  rw [if_pos ⟨hfield.number_pos, hnumber⟩, decodeValue_encode rest hfield.value,
    Option.map_some]

theorem length_encodeField_pos (field : Field) : 0 < (encodeField field).length := by
  rw [encodeField, List.length_append]
  exact Nat.add_pos_left (length_encodeVarint_pos _) _

theorem encodeFields_append (left right : List Field) :
    encodeFields (left ++ right) = encodeFields left ++ encodeFields right :=
  encodeAll_append left right

/-- The fields of a message are read back. -/
theorem decodeFields_encodeFields {fields : List Field}
    (hfields : ∀ field ∈ fields, field.WellFormed) :
    decodeFields (encodeFields fields) = some fields :=
  decodeAll_encodeAll length_encodeField_pos
    fun field hfield rest => decodeField_encodeField rest (hfields field hfield)

/-! ## Packed repeated varints -/

/-- A packed field: the varints without tags. -/
def encodePacked (values : List ℕ) : List UInt8 :=
  encodeAll encodeVarint values

def decodePacked (bytes : List UInt8) : Option (List ℕ) :=
  decodeAll decodeVarint bytes

/-- A packed field is read back. -/
theorem decodePacked_encodePacked (values : List ℕ) :
    decodePacked (encodePacked values) = some values :=
  decodeAll_encodeAll length_encodeVarint_pos
    fun value _ rest => decodeVarint_encodeVarint value rest

end RpcDemo.Wire
