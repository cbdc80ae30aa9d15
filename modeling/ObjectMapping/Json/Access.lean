import ObjectMapping.Json

/-! Looking into trees. A part that is missing, or of another kind than the one that
is asked for, reads as the empty one of that kind. -/
namespace ObjectMapping.Json

/-- The items of an array. -/
def items : Json → List Json
  | array items => items
  | _ => []

/-- The members of an object. -/
def members : Json → List (String × Json)
  | object members => members
  | _ => []

/-- The text of a string. -/
def text : Json → String
  | string s => s
  | _ => ""

/-- The whole number that the tree is. -/
def whole : Json → Int
  | integer n => n
  | _ => 0

/-- The whole number that the tree is, unless it is negative. -/
def count (j : Json) : Nat := j.whole.toNat

def isTrue : Json → Bool
  | bool b => b
  | _ => false

/-- The value of a key. -/
def get (j : Json) (key : String) : Json := (j.members.lookup key).getD null

/-- Whether an object has the key. -/
def has (j : Json) (key : String) : Bool := (j.members.lookup key).isSome

/-- The item at a position. -/
def nth (j : Json) (index : Nat) : Json := j.items.getD index null

/-- What the tree is read as, with `null` standing for nothing. -/
def asOption (read : Json → α) (j : Json) : Option α := if j.isNull then none else some (read j)

end ObjectMapping.Json
