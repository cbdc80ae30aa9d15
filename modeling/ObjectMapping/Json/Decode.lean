import ObjectMapping.Json.Context
import ObjectMapping.Value.Size
import ObjectMapping.Action

/-! Reading records from trees. Members are matched with fields by name; a field
without a member is resolved as absent, and a member without a field is passed
over. The first field that fails ends the walk and keeps its old value, while the
fields read before it keep their new ones. -/
namespace ObjectMapping.Json

/-- The error for a tree that is not of the expected kind. -/
def mismatch (expected : FieldType) (found : Json) : Error :=
  .ofData (.typeMismatch expected) s!"expected {expected.name}, found JSON {found.kindName}"

/-- A whole number as a value of an integral type. -/
def toInteger (target : FieldType) : Json → Except Error Value
  | integer n => Value.ofInteger target n
  | j => .error (mismatch target j)

/-- A text or a number as a value of an enumeration. -/
def toEnum (enumeration : Option Enumeration) (j : Json) : Except Error Value :=
  match enumeration, j with
  | none, j => toInteger .enum j
  | some e, string text => (e.read text).map .enum
  | some e, integer n =>
    if 0 ≤ n ∧ n < 0x100000000 then (e.check (UInt32.ofNat n.toNat)).map .enum
    else .error (mismatch .enum j)
  | some _, j => .error (mismatch .enum j)

/-- The value that `null` stands for in a place. -/
def ofNull (c : Context) : Except Error Value :=
  if c.nullable then .ok .null
  else
    match c.type with
    | .array => .ok (.array [])
    | .variant => .ok .null
    | .dateTime => .ok (.dateTime .epoch)
    | other => .error (mismatch other null)

/-- A tree without nested records as a value of a type. -/
def toPlain (c : Context) (j : Json) : Except Error Value :=
  match c.type, j with
  | .bool, bool b => .ok (.bool b)
  | .string, string s => .ok (.string s)
  | .dateTime, string text => (DateTime.parse text).map .dateTime
  | .enum, j => toEnum c.enumeration j
  | .float, j =>
    match j.toDouble? with
    | some x => .ok (.float x.narrow)
    | none => .error (mismatch .float j)
  | .double, j =>
    match j.toDouble? with
    | some x => .ok (.double x)
    | none => .error (mismatch .double j)
  | type, j => if type.isInteger then toInteger type j else .error (mismatch type j)

/-- The record that a nested object is read into: the one already held, or a new one. -/
def nestedTarget (reg : Registry) (c : Context) : Option Value → Except Error Record
  | some (.object r) => .ok r
  | _ =>
    match c.recordType.bind reg.byType? with
    | some d => .ok d.initial
    | none => .error (.usage .unregisteredType "nested object type is not registered")

/-- A new instance of the type that a polymorphic object names. -/
def namedTarget (resolve : Resolver) (options : JsonOptions) (members : List (String × Json)) :
    Except Error Record :=
  match members.lookup options.typeKey with
  | some (string name) =>
    match resolve name with
    | some r => .ok r
    | none => .error (.ofData (.unknownType name) s!"type '{name}' cannot be resolved")
  | _ =>
    .error (.ofData (.unknownType "") s!"polymorphic value has no '{options.typeKey}' key")

/-- What a field holds already, for fields that are read in place. -/
def heldValue (f : Field) (r : Record) : Except Error (Option Value) :=
  if f.type = .object then (f.get r).map some else .ok none

variable (reg : Registry) (resolve : Resolver) (options : JsonOptions)

mutual

/-- Read the members for the fields of a record; yields the outcome and the record
as far as it was read. -/
def toFields (members : List (String × Json)) :
    List Field → Record → Except Error Unit × Record
  | [], r => (.ok (), r)
  | f :: rest, r =>
    match toField members f r with
    | .ok r => toFields members rest r
    | .error e => (.error e, r)
termination_by fields => (sizeOf members, 2, fields.length)

/-- The record with one field read. -/
def toField (members : List (String × Json)) (f : Field) (r : Record) : Except Error Record :=
  match found : members.lookup f.name with
  | none => f.resolveAbsent r
  | some j => do
    let held ← heldValue f r
    have := sizeOf_lookup_lt found
    let v ← inField f.name (toValue (.ofField f) held j)
    f.set r v
termination_by (sizeOf members, 1, 0)

/-- A tree as a value for a place, where `held` is what the place holds already. -/
def toValue (c : Context) (held : Option Value) (j : Json) : Except Error Value :=
  if j.isNull then ofNull c
  else
    match c.type, j with
    | .object, object members => do
      let target ← nestedTarget reg c held
      let r ← toRecord members target
      return .object r
    | .object, j => do
      let _ ← nestedTarget reg c held
      throw (mismatch .object j)
    | .array, array items => do
      let element ← c.elements
      let found ← toItems element items
      return .array found
    | .array, j => do
      let _ ← c.elements
      throw (mismatch .array j)
    | .variant, object members => do
      let target ← namedTarget resolve options members
      let r ← toRecord members target
      return .object r
    | _, j => toPlain c j
termination_by (sizeOf j, 0, 0)
decreasing_by
  all_goals apply Prod.Lex.left
  all_goals simp only [object.sizeOf_spec, array.sizeOf_spec, wfParam]
  all_goals omega

/-- The elements of a list. -/
def toItems (c : Context) : List Json → Except Error (List Value)
  | [] => .ok []
  | j :: rest => do
    let v ← toValue c none j
    let others ← toItems c rest
    return v :: others
termination_by items => (sizeOf items, 0, 0)

/-- A nested record read whole, or not at all. -/
def toRecord (members : List (String × Json)) (target : Record) : Except Error Record := do
  let d ← reg.descriptorFor target
  match toFields members d.fields target with
  | (.ok (), r) => return r
  | (.error e, _) => throw e
termination_by (sizeOf members, 3, 0)

end

/-- Read a tree into a record. -/
def decodeInto (j : Json) : Action Record Unit :=
  match j with
  | object members => do
    let d ← Action.ofExcept (reg.descriptorFor (← getThe Record))
    Action.ofFunction (toFields reg resolve options members d.fields)
  | j => throw (mismatch .object j)

/-- A new record of the type of `initial` read from a text. -/
def decodeText (initial : Record) (text : String) : Except Error Record := do
  let j ← read text
  match (decodeInto reg resolve options j).perform initial with
  | (.ok (), r) => return r
  | (.error e, _) => throw e

end ObjectMapping.Json
