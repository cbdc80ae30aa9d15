import ObjectMapping.Registry
import ObjectMapping.Wire.Value

/-! Enumerations, descriptors and registries as trees. Descriptors are declared one
after the other, so that later ones can inherit from earlier ones; a hidden one
takes no part in the registry. -/
namespace ObjectMapping.Wire

def ofEnum (e : Enumeration) : Json :=
  .object [("name", .string e.name), ("kind", .string e.kind.name),
    ("default", .integer e.default.toNat),
    ("values", .array (e.values.map fun (name, n) => .array [.string name, .integer n.toNat]))]

def enumName (e : Option Enumeration) : Json := orNull (fun e => .string e.name) e

/-- What a shape says about the values it holds. -/
def ofSingle (s : Shape) : List (String × Json) :=
  [("type", .string s.type.name), ("object", orNull .string s.recordType?),
    ("enum", enumName s.enumeration?), ("nullable", .integer s.nullableDepth)]

/-- The same for the elements of a list. -/
def ofElement (s : Shape) : Json := orNull (fun e => .object (ofSingle e)) s.element?

/-- What a shape says about its values and, for a list, about their elements. -/
def ofShape (s : Shape) : List (String × Json) := ("array", ofElement s) :: ofSingle s

variable (s : Scope)

/-- A field with everything that is declared about it. -/
def ofField (f : Field) : Json :=
  .object [("name", .string f.name), ("type", .string f.type.name),
    ("nullable", .integer f.shape.nullableDepth), ("mandatoriness", .string f.mandatoriness.name),
    ("default", orNull (ofValue s) f.explicitDefault),
    ("has_default", .bool f.explicitDefault.isSome), ("absent", ofValue s f.defaultForAbsent),
    ("enum", enumName f.enumeration), ("object", orNull .string f.shape.recordType?),
    ("array", ofElement f.shape), ("pk", .bool f.primaryKey), ("auto", .bool f.autoIncrement),
    ("column", .bool f.isColumn), ("owner", .string f.owner)]

/-- The parts of a descriptor. -/
def ofDescriptor (d : Descriptor) : List (String × Json) :=
  let names (fields : List Field) : Json := ofTexts (fields.map (·.name))
  [("name", .string d.name), ("table", .string d.table),
    ("super", orNull (fun b => .string b.name) d.super),
    ("fields", .array (d.fields.map (ofField s))), ("own", names d.ownFields),
    ("columns", names d.columns), ("pk", orNull (fun f => .string f.name) d.primaryKey?)]

/-- A known enumeration by its name, or one described in full. -/
def readEnum (j : Json) : Enumeration :=
  match s.enums.find? (·.name == j.text) with
  | some known => known
  | none =>
    { name := (j.get "name").text
      kind := if (j.get "kind").text = "bitset" then .bitset else .simple
      default := .ofNat (j.get "default").count
      values := (j.get "values").items.map fun v => ((v.nth 0).text, .ofNat (v.nth 1).count) }

/-- What is declared about a field beyond its slot. -/
def declare (f : Field) (j : Json) : Except Error Field :=
  let arg := j.nth 1
  match (j.nth 0).text with
  | "pk" => .ok { f with primaryKey := arg.isTrue }
  | "auto" => .ok { f with autoIncrement := arg.isTrue }
  | "required" => .ok { f with mandatoriness := .required }
  | "mand" => do
    let rule ← named "rule for absent fields" (foldCase ·.name) Mandatoriness.all arg
    return { f with mandatoriness := rule }
  | "default" => (readValue s arg).map f.withDefault
  | "enum" => .ok (f.withEnumeration (readEnum s arg))
  | other => .error (.malformed s!"'{other}' declares nothing about a field")

/-- The slot of a type. -/
def slot (type : RecordType) (name : String) : Except Error Slot :=
  match type.slot? name with
  | some found => .ok found
  | none => .error (.malformed s!"{type.name} has no slot '{name}'")

/-- A field of a type: a slot by its name, or with what is declared about it. -/
def readField (c : Catalogue) (owner : String) (j : Json) : Except Error Field := do
  let j : Json := match j with
    | .string _ => .object [("slot", j)]
    | j => j
  let given (key default : String) := if j.has key then (j.get key).text else default
  let type := s.recordType (given "of" owner)
  let slot ← slot type (j.get "slot").text
  let slot := if j.has "offset" then { slot with offset := (j.get "offset").count } else slot
  (j.get "mods").items.foldlM (declare s) (.ofSlot c type.name slot (given "name" slot.name))

/-- Inherit from the descriptor that an object names, if it names one. -/
def extend (j : Json) (b : Descriptor.Draft) : Except Error Descriptor.Draft := do
  if !j.has "extends" then return b
  b.extend (← s.descriptor (j.get "extends")) (← slot b.type "base")

/-- The descriptor that an object declares. -/
def readDescriptor (c : Catalogue) (j : Json) : Except Error Descriptor := do
  let owner := (j.get "type").text
  let type := s.recordType owner
  let start := { Descriptor.draft type (if j.has "name" then (j.get "name").text else owner) with
    table := (j.get "table").asOption Json.text }
  let fields : List Json := match j.get "fields" with
    | .array fields => fields
    | _ => type.slots.map fun slot => .string slot.name
  let addFields (b : Descriptor.Draft) : Except Error Descriptor.Draft :=
    fields.foldlM (fun b f => b.field <$> readField s c owner f) b
  let draft ← if (j.get "extends_late").isTrue then addFields start >>= extend s j
    else extend s j start >>= addFields
  draft.build

/-- The scope with the declared descriptors, and the registry of those not hidden. -/
def readRegistry (c : Catalogue) (j : Json) : Except Error (Scope × Registry) := do
  let objects := (j.get "objects").items
  let s ← objects.foldlM (fun (s : Scope) o => do
    let d ← readDescriptor s c o
    return { s with described := s.described ++ [d] }) s
  let visible := (s.described.zip objects).filter fun (_, o) => !(o.get "hidden").isTrue
  return (s, ← Registry.build (visible.map (·.1)) ((j.get "enums").items.map (readEnum s)))

end ObjectMapping.Wire
