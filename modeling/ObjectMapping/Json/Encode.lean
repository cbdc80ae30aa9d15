import ObjectMapping.Json.Context
import ObjectMapping.Json.Writer
import ObjectMapping.Value.Size

/-! Writing records as trees: one member for each described field, nested records
as nested objects, and the registered name of its type with every polymorphic one. -/
namespace ObjectMapping.Json

/-- A finite number as a tree. -/
def ofDouble (x : Double) : Except Error Json :=
  if x.isFinite then .ok (.double x)
  else .error (.malformed s!"{x.plainText} has no JSON representation")

/-- A scalar as a tree. Values of an enumeration are written as text. -/
def ofScalar (c : Context) : Scalar → Except Error Json
  | .bool b => .ok (.bool b)
  | .int32 n => .ok (.integer n.toInt)
  | .uint32 n => .ok (.integer n.toNat)
  | .int64 n => .ok (.integer n.toInt)
  | .uint64 n => .ok (.integer n.toNat)
  | .float x => ofDouble x.widen
  | .double x => ofDouble x
  | .string s => .ok (.string s)
  | .enum n =>
    match c.enumeration with
    | some e => (e.text n).map .string
    | none => .ok (.integer n.toNat)
  | .dateTime t => .ok (.string t.text)

variable (reg : Registry) (options : JsonOptions)

mutual

/-- A record as an object. A tagged one names its type; a field of the same name
takes the place of the tag. -/
def ofRecord (tagged : Bool) (r : Record) : Except Error Json := do
  let d ← reg.descriptorFor r
  let start := if tagged then [(options.typeKey, string d.name)] else []
  let members ← ofFields r start d.fields
  return object members
termination_by (sizeOf r, 1, 0)

/-- The members for the fields of a record, added to those already there. -/
def ofFields (r : Record) (placed : List (String × Json)) :
    List Field → Except Error (List (String × Json))
  | [] => .ok placed
  | f :: rest =>
    match read : f.get r with
    | .error e => .error e
    | .ok v =>
      if v.isNull && !options.emitNulls then ofFields r placed rest
      else
        have := Field.sizeOf_get_lt read
        match inField f.name (ofValue (.ofField f) v) with
        | .error e => .error e
        | .ok j => ofFields r (insert f.name j placed) rest
termination_by fields => (sizeOf r, 0, fields.length)

/-- A value as a tree, for the place that holds it. -/
def ofValue (c : Context) : Value → Except Error Json
  | .null => .ok null
  | .scalar s => ofScalar c s
  | .object r => ofRecord (c.type = .variant) r
  | .array items => do
    let element ← c.elements
    let found ← ofItems element items
    return array found
termination_by v => (sizeOf v, 0, 0)

/-- The elements of a list as trees. -/
def ofItems (c : Context) : List Value → Except Error (List Json)
  | [] => .ok []
  | v :: rest => do
    let j ← ofValue c v
    let others ← ofItems c rest
    return j :: others
termination_by items => (sizeOf items, 0, 0)

end

/-- A record as a tree. -/
def encode (r : Record) : Except Error Json := ofRecord reg options false r

/-- A record as text. -/
def encodeText (r : Record) : Except Error String := do
  let j ← encode reg options r
  return if options.pretty then indented 0 j else compact j

end ObjectMapping.Json
