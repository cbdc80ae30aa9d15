import ObjectMapping.Floating

/-! The tree format. The members of an object stand in the order of their keys,
each key once, so equal objects are equal as data. -/
namespace ObjectMapping

/-- A tree. Whole numbers within 64 bits are kept exactly; all others are floating. -/
inductive Json where
  | null
  | bool (b : Bool)
  | integer (n : Int)
  | double (x : Double)
  | string (s : String)
  | array (items : List Json)
  | object (members : List (String × Json))

namespace Json

instance : Inhabited Json := ⟨null⟩

def isNull : Json → Bool
  | null => true
  | _ => false

/-- What the tree is called in messages. -/
def kindName : Json → String
  | null => "null"
  | bool _ => "boolean"
  | integer _ | double _ => "number"
  | string _ => "string"
  | array _ => "array"
  | object _ => "object"

/-- The number that the tree stands for, as a floating one. -/
def toDouble? : Json → Option Double
  | integer n => some (.ofInt n)
  | double x => some x
  | _ => none

/-- Members with a member added in its place, or replaced. -/
def insert (key : String) (value : Json) : List (String × Json) → List (String × Json)
  | [] => [(key, value)]
  | (k, v) :: rest =>
    if key < k then (key, value) :: (k, v) :: rest
    else if key = k then (key, value) :: rest
    else (k, v) :: insert key value rest

mutual

/-- The tree with the members of its objects in order; of equal keys the last counts. -/
def canonical : Json → Json
  | array items => array (canonicalItems items)
  | object members => object (canonicalMembers [] members)
  | leaf => leaf

/-- The canonical forms of the items. -/
def canonicalItems : List Json → List Json
  | [] => []
  | j :: rest => canonical j :: canonicalItems rest

/-- The members added one after the other to those already in order. -/
def canonicalMembers (placed : List (String × Json)) :
    List (String × Json) → List (String × Json)
  | [] => placed
  | (k, v) :: rest => canonicalMembers (insert k (canonical v) placed) rest

end

end Json

end ObjectMapping
