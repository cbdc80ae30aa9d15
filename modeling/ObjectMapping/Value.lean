import ObjectMapping.Enumeration
import ObjectMapping.DateTime
import ObjectMapping.Floating

/-! The values that move between records and the outside world, and the records
themselves. A record stores one datum in each of its slots; a value is what
reading a slot yields. The two differ where absence is involved: an unset
nullable and an empty variant both read as `null`. -/
namespace ObjectMapping

/-- The identity of a record type; messages show it as it is. -/
abbrev TypeName := String

/-- A value without parts. -/
inductive Scalar where
  | bool (b : Bool)
  | int32 (n : Int32)
  | uint32 (n : UInt32)
  | int64 (n : Int64)
  | uint64 (n : UInt64)
  | float (x : Single)
  | double (x : Double)
  | string (s : String)
  /-- A value of an enumeration or a union of flags. -/
  | enum (n : UInt32)
  | dateTime (t : DateTime)
  deriving DecidableEq

mutual

/-- What a slot of a record holds. -/
inductive Datum where
  | scalar (s : Scalar)
  /-- An embedded record. -/
  | record (r : Record)
  /-- A polymorphic slot without content. -/
  | vacant
  /-- A polymorphic slot that holds a record of whatever type. -/
  | occupied (r : Record)
  /-- A nullable slot without a value. -/
  | unset
  /-- A nullable slot with a value. -/
  | present (d : Datum)
  | list (items : List Datum)

/-- A record: its type and its slots in order. -/
inductive Record where
  | mk (type : TypeName) (slots : List (String × Datum))

end

namespace Record

/-- The type that the record is an instance of. -/
def type : Record → TypeName
  | mk type _ => type

/-- The slots with their contents, in order of declaration. -/
def slots : Record → List (String × Datum)
  | mk _ slots => slots

/-- The contents of a slot. -/
def slot? (r : Record) (name : String) : Option Datum := r.slots.lookup name

/-- The record with new contents in the first slot of the given name. -/
def setSlot (r : Record) (name : String) (d : Datum) : Record :=
  let rec replace : List (String × Datum) → List (String × Datum)
    | [] => []
    | (n, old) :: rest => if n == name then (n, d) :: rest else (n, old) :: replace rest
  mk r.type (replace r.slots)

/-- The contents of the slot at the end of a path through embedded records. -/
def get? (r : Record) : List String → Option Datum
  | [] => none
  | [slot] => r.slot? slot
  | slot :: path =>
    match r.slot? slot with
    | some (.record inner) => inner.get? path
    | _ => none

/-- The record with new contents in the slot at the end of a path. -/
def set? (r : Record) (d : Datum) : List String → Option Record
  | [] => none
  | [slot] => (r.slot? slot).map fun _ => r.setSlot slot d
  | slot :: path =>
    match r.slot? slot with
    | some (.record inner) =>
      (inner.set? d path).map fun changed => r.setSlot slot (.record changed)
    | _ => none

end Record

namespace Scalar

/-- The type that the scalar carries. -/
def type : Scalar → FieldType
  | bool _ => .bool
  | int32 _ => .int32
  | uint32 _ => .uint32
  | int64 _ => .int64
  | uint64 _ => .uint64
  | float _ => .float
  | double _ => .double
  | string _ => .string
  | enum _ => .enum
  | dateTime _ => .dateTime

/-- The whole number that a truth value, an integer or an enumeration value stands for. -/
def toInt? : Scalar → Option Int
  | bool b => some (if b then 1 else 0)
  | int32 n => some n.toInt
  | uint32 n => some n.toNat
  | int64 n => some n.toInt
  | uint64 n => some n.toNat
  | enum n => some n.toNat
  | _ => none

/-- Equality within one type; floating numbers are compared as numbers. -/
def equal : Scalar → Scalar → Bool
  | float x, float y => x.equal y
  | double x, double y => x.equal y
  | a, b => a == b

end Scalar

mutual

/-- Whether two slots hold equal contents. -/
def Datum.equal : Datum → Datum → Bool
  | .scalar a, .scalar b => a.equal b
  | .record a, .record b => a.equal b
  | .vacant, .vacant => true
  | .occupied a, .occupied b => a.equal b
  | .unset, .unset => true
  | .present a, .present b => a.equal b
  | .list as, .list bs => Datum.equalLists as bs
  | _, _ => false

/-- Whether two lists hold equal elements in the same order. -/
def Datum.equalLists : List Datum → List Datum → Bool
  | [], [] => true
  | a :: as, b :: bs => a.equal b && Datum.equalLists as bs
  | _, _ => false

/-- Whether two records have the same type and equal contents in every slot. -/
def Record.equal : Record → Record → Bool
  | .mk s as, .mk t bs => s == t && Record.equalSlots as bs

/-- Whether slots agree one by one. -/
def Record.equalSlots : List (String × Datum) → List (String × Datum) → Bool
  | [], [] => true
  | (m, a) :: as, (n, b) :: bs => m == n && a.equal b && Record.equalSlots as bs
  | _, _ => false

end

/-- A value on its way between a record and the outside world. -/
inductive Value where
  | null
  | scalar (s : Scalar)
  | object (r : Record)
  | array (items : List Value)

namespace Value

instance : Inhabited Value := ⟨null⟩

@[match_pattern] abbrev bool (b : Bool) : Value := scalar (.bool b)
@[match_pattern] abbrev int32 (n : Int32) : Value := scalar (.int32 n)
@[match_pattern] abbrev uint32 (n : UInt32) : Value := scalar (.uint32 n)
@[match_pattern] abbrev int64 (n : Int64) : Value := scalar (.int64 n)
@[match_pattern] abbrev uint64 (n : UInt64) : Value := scalar (.uint64 n)
@[match_pattern] abbrev float (x : Single) : Value := scalar (.float x)
@[match_pattern] abbrev double (x : Double) : Value := scalar (.double x)
@[match_pattern] abbrev string (s : String) : Value := scalar (.string s)
@[match_pattern] abbrev enum (n : UInt32) : Value := scalar (.enum n)
@[match_pattern] abbrev dateTime (t : DateTime) : Value := scalar (.dateTime t)

def isNull : Value → Bool
  | null => true
  | _ => false

/-- The type that the value carries; `null` carries none. -/
def type? : Value → Option FieldType
  | null => none
  | scalar s => some s.type
  | object _ => some .object
  | array _ => some .array

/-- What the value is called in messages. -/
def kindName (v : Value) : String := (v.type?.map FieldType.name).getD "null"

/-- The error for a value that is not of the expected type. -/
def mismatch (expected : FieldType) (found : Value) : Error :=
  .ofData (.typeMismatch expected) s!"expected {expected.name}, found {found.kindName}"

/-- The whole number that the value stands for, if it is integral. -/
def toInt? : Value → Option Int
  | scalar s => s.toInt?
  | _ => none

/-- The scalar of an integral type that stands for a whole number in its range. -/
def scalarOfInt? (target : FieldType) (n : Int) : Option Scalar :=
  match target with
  | .int32 =>
    if -0x80000000 ≤ n ∧ n < 0x80000000 then some (.int32 (Int32.ofInt n)) else none
  | .uint32 => if 0 ≤ n ∧ n < 0x100000000 then some (.uint32 (UInt32.ofNat n.toNat)) else none
  | .int64 =>
    if -0x8000000000000000 ≤ n ∧ n < 0x8000000000000000 then some (.int64 (Int64.ofInt n)) else none
  | .uint64 =>
    if 0 ≤ n ∧ n < 0x10000000000000000 then some (.uint64 (UInt64.ofNat n.toNat)) else none
  | .enum => if 0 ≤ n ∧ n < 0x100000000 then some (.enum (UInt32.ofNat n.toNat)) else none
  | _ => none

/-- A whole number as a value of an integral type, if that type can hold it. -/
def ofInteger (target : FieldType) (n : Int) : Except Error Value :=
  match scalarOfInt? target n with
  | some s => .ok (.scalar s)
  | none => .error (.ofData (.typeMismatch target) s!"{n} does not fit in {target.name}")

/-- An integral value as another integral type, if that type can hold it. -/
def coerceInteger (v : Value) (target : FieldType) : Except Error Value :=
  match v.toInt? with
  | none => .error (mismatch target v)
  | some n =>
    if target.isInteger || target == .enum then ofInteger target n
    else .error (mismatch target v)

/-- The value that stands for nothing in particular of a type. -/
def zero : FieldType → Value
  | .bool => bool false
  | .int32 => int32 0
  | .uint32 => uint32 0
  | .int64 => int64 0
  | .uint64 => uint64 0
  | .float => float (.zero false)
  | .double => double (.zero false)
  | .string => string ""
  | .enum => enum 0
  | .dateTime => dateTime .epoch
  | .array => array []
  | .object | .variant => null

mutual

/-- Equality within one kind of value; nothing is converted. -/
def equal : Value → Value → Bool
  | null, null => true
  | scalar a, scalar b => a.equal b
  | object a, object b => a.equal b
  | array as, array bs => equalLists as bs
  | _, _ => false

/-- Whether two lists hold equal values in the same order. -/
def equalLists : List Value → List Value → Bool
  | [], [] => true
  | a :: as, b :: bs => a.equal b && equalLists as bs
  | _, _ => false

end

end Value

mutual

/-- What reading a slot with these contents yields. -/
def Datum.toValue : Datum → Value
  | .scalar s => .scalar s
  | .record r => .object r
  | .vacant => .null
  | .occupied r => .object r
  | .unset => .null
  | .present d => d.toValue
  | .list items => .array (Datum.toValues items)

/-- What reading the elements of a list yields. -/
def Datum.toValues : List Datum → List Value
  | [] => []
  | d :: rest => d.toValue :: Datum.toValues rest

end

end ObjectMapping
