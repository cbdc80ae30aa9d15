import ObjectMapping.Error
import ObjectMapping.Text.Blank

/-! Enumerations: named 32-bit values that are either alternatives or flags to be
united. The text of a union lists the names of its members. -/
namespace ObjectMapping

/-- Whether an enumeration holds one of its values or a union of them. -/
inductive EnumKind where
  | simple
  | bitset
  deriving DecidableEq

/-- The name of the kind for display. -/
def EnumKind.name : EnumKind → String
  | simple => "Simple"
  | bitset => "Bitset"

/-- A named enumeration with its values in order of declaration. -/
structure Enumeration where
  name : String
  kind : EnumKind
  default : UInt32
  values : List (String × UInt32)
  deriving DecidableEq

namespace Enumeration

/-- The first name of a value. -/
def nameOf? (e : Enumeration) (value : UInt32) : Option String :=
  (e.values.find? (·.2 == value)).map (·.1)

/-- The first value of a name. -/
def valueOf? (e : Enumeration) (name : String) : Option UInt32 :=
  (e.values.find? (·.1 == name)).map (·.2)

/-- The union of all values. -/
def allBits (e : Enumeration) : UInt32 := e.values.foldl (fun bits entry => bits ||| entry.2) 0

/-- Whether the value is named or, for a bitset, has no bit outside the named ones. -/
def contains (e : Enumeration) (value : UInt32) : Bool :=
  match e.kind with
  | .simple => (e.nameOf? value).isSome
  | .bitset => value &&& ~~~e.allBits == 0

/-- The error for a value that the enumeration does not contain. -/
def unknownValue (e : Enumeration) (value : UInt32) : Error :=
  .ofData (.unknownEnumValue value) s!"{e.name} has no value {value.toNat}"

/-- The error for a name that the enumeration does not contain. -/
def unknownName (e : Enumeration) (name : String) : Error :=
  .ofData (.unknownEnumName name) s!"{e.name} has no value named '{name}'"

/-- The value itself, if the enumeration contains it. -/
def check (e : Enumeration) (value : UInt32) : Except Error UInt32 :=
  if e.contains value then .ok value else .error (e.unknownValue value)

/-- The names of the members that lie in `value` and still add a bit of `remaining`. -/
def memberNames (value : UInt32) : (remaining : UInt32) → List (String × UInt32) → List String
  | _, [] => []
  | remaining, (name, bits) :: rest =>
    if bits != 0 && value &&& bits == bits && remaining &&& bits != 0 then
      name :: memberNames value (remaining &&& ~~~bits) rest
    else memberNames value remaining rest

/-- The text of a value: its name or, for a union without a name of its own, the
names of its members in order, joined by bars. -/
def text (e : Enumeration) (value : UInt32) : Except Error String :=
  match e.nameOf? value, e.kind with
  | some name, _ => .ok name
  | none, .simple => .error (e.unknownValue value)
  | none, .bitset => do
    let value ← e.check value
    return "|".intercalate (memberNames value value e.values)

/-- The pieces between the bars of a text. -/
def splitBars : List Char → List (List Char)
  | [] => [[]]
  | '|' :: rest => [] :: splitBars rest
  | c :: rest =>
    match splitBars rest with
    | [] => [[c]]
    | piece :: pieces => (c :: piece) :: pieces

/-- The value that a text stands for. The names in the text of a union may have
blanks around them, and the empty text is the empty union. -/
def read (e : Enumeration) (text : String) : Except Error UInt32 :=
  match e.kind with
  | .simple =>
    match e.valueOf? text with
    | some value => .ok value
    | none => .error (e.unknownName text)
  | .bitset =>
    if text.isEmpty then .ok 0
    else (splitBars text.toList).foldlM (fun bits piece =>
      let name := trimBlanks (String.ofList piece)
      match e.valueOf? name with
      | some value => .ok (bits ||| value)
      | none => .error (e.unknownName name)) 0

/-- The bits of all the members. -/
def union (members : List (String × UInt32)) : UInt32 :=
  members.foldl (fun bits entry => bits ||| entry.2) 0

/-- The value is the union of some of the named ones. -/
def IsUnion (e : Enumeration) (value : UInt32) : Prop :=
  ∃ members, members ⊆ e.values ∧ union members = value

/-- The members that lie in the value. -/
def membersIn (e : Enumeration) (value : UInt32) : List (String × UInt32) :=
  e.values.filter fun entry => value &&& entry.2 == entry.2

/-- The names that a text lists: what stands between its bars, without the blanks around it. The
empty text lists none. -/
def namesIn (text : String) : List String :=
  if text.isEmpty then []
  else (text.toList.splitOn '|').map fun piece => trimBlanks (String.ofList piece)

/-- The names can be told apart in a text: no two are equal, none has a bar in it or
blanks around it, and the empty text names no flag. -/
structure Legible (e : Enumeration) : Prop where
  distinct : (e.values.map (·.1)).Nodup
  noBars : ∀ entry ∈ e.values, '|' ∉ entry.1.toList
  trimmed : ∀ entry ∈ e.values, trimBlanks entry.1 = entry.1
  nonempty : e.kind = .bitset → ∀ entry ∈ e.values, entry.1 = "" → entry.2 = 0

end Enumeration

end ObjectMapping
