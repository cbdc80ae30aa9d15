import ObjectMapping.Error

/-! A value that may be unset. Clearing keeps what was stored, so that the value
can be marked as set again. -/
namespace ObjectMapping

/-- A storage place with a mark that tells whether its content counts. -/
structure Nullable (α : Type u) where
  isSet : Bool
  stored : α

namespace Nullable

variable {α : Type u}

/-- A set value. -/
def new (value : α) : Nullable α := ⟨true, value⟩

/-- An unset value over the given storage. -/
def null (stored : α) : Nullable α := ⟨false, stored⟩

/-- Set from a value, or unset over the given storage. -/
def ofOption (stored : α) : Option α → Nullable α
  | some value => new value
  | none => null stored

/-- The value, if set. -/
def toOption (n : Nullable α) : Option α := if n.isSet then some n.stored else none

/-- The value; reading an unset one fails. -/
def get (n : Nullable α) : Except Error α :=
  if n.isSet then .ok n.stored
  else .error (.usage .unsetNullable "read of an unset nullable value")

/-- Change the value in place; an unset one cannot be changed. -/
def write (n : Nullable α) (value : α) : Except Error (Nullable α) :=
  if n.isSet then .ok { n with stored := value }
  else .error (.usage .unsetNullable "write through an unset nullable value")

/-- The value, or a replacement when unset. -/
def valueOr (n : Nullable α) (replacement : α) : α :=
  if n.isSet then n.stored else replacement

/-- Change the mark and keep the storage. -/
def reset (n : Nullable α) (isSet : Bool) : Nullable α := { n with isSet := isSet }

/-- Whether both are unset, or both are set to values that agree. -/
def equal (agree : α → α → Bool) (m n : Nullable α) : Bool :=
  if m.isSet && n.isSet then agree m.stored n.stored else m.isSet == n.isSet

end Nullable

end ObjectMapping
