import ObjectMapping.Descriptor

/-! The registry of described types. It is closed: whatever a registered type
inherits from, embeds or lists is registered as well, and one name stands for one
object and for one enumeration. -/
namespace ObjectMapping

/-- The described types of a program and the enumerations that their fields use. -/
structure Registry where
  objects : List Descriptor
  enums : List Enumeration

/-- Creates new instances of polymorphic types from their names. -/
abbrev Resolver := String → Option Record

namespace Registry

/-- The descriptor of a type. -/
def byType? (reg : Registry) (type : TypeName) : Option Descriptor :=
  reg.objects.find? (·.type == type)

/-- The descriptor of a name. -/
def byName? (reg : Registry) (name : String) : Option Descriptor :=
  reg.objects.find? (·.name == name)

/-- The enumeration of a name. -/
def enumByName? (reg : Registry) (name : String) : Option Enumeration :=
  reg.enums.find? (·.name == name)

/-- The descriptor of a type that the caller takes to be registered. -/
def descriptorOf (reg : Registry) (type : TypeName) : Except Error Descriptor :=
  match reg.byType? type with
  | some d => .ok d
  | none => .error (.usage .unregisteredType s!"{type} is not registered")

/-- The descriptor of the type that a record is an instance of. The message of the error shows the
record by the name of its type; its contents, which a printed record shows besides, are left out. -/
def descriptorFor (reg : Registry) (r : Record) : Except Error Descriptor :=
  match reg.byType? r.type with
  | some d => .ok d
  | none => .error (.usage .unregisteredType s!"{r.type} has no registered metadata")

/-- A new instance of the type registered under a name. -/
def resolver (reg : Registry) : Resolver := fun name => (reg.byName? name).map (·.initial)

/-- Check that neither types nor names occur twice. -/
def checkDistinct : (seen : List Descriptor) → List Descriptor → Except Error Unit
  | _, [] => .ok ()
  | seen, d :: rest =>
    if seen.any (·.type == d.type) then
      .error (.metadata .duplicateType s!"{d.type} is registered twice")
    else if seen.any (·.name == d.name) then
      .error (.metadata .duplicateType s!"object name '{d.name}' is registered twice")
    else checkDistinct (d :: seen) rest

/-- The types that a field refers to. -/
def referredTypes (f : Field) : List TypeName :=
  f.shape.recordType?.toList ++ (f.shape.element?.bind Shape.recordType?).toList

/-- The types that a descriptor refers to, each with the place that refers to it. -/
def references (d : Descriptor) : List (String × TypeName) :=
  (d.super.map fun s => ("super type", s.type)).toList ++
    d.fields.flatMap fun f => (referredTypes f).map fun type => (f.name, type)

/-- The enumerations that the fields of a descriptor use. -/
def usedEnums (d : Descriptor) : List Enumeration :=
  d.fields.flatMap fun f =>
    (f.shape.element?.bind Shape.enumeration?).toList ++ f.enumeration.toList

/-- Check that every type referred to is among the objects. -/
def checkClosed (objects : List Descriptor) : Except Error Unit :=
  objects.forM fun d => (references d).forM fun (place, type) =>
    if objects.any (·.type == type) then .ok ()
    else .error (.metadata .unknownReference
      s!"{d.name}.{place} refers to unregistered type {type}")

/-- The enumerations with one more, unless it is known or another one has its name. -/
def merge (merged : List Enumeration) (e : Enumeration) : Except Error (List Enumeration) :=
  match merged.find? (·.name == e.name) with
  | none => .ok (merged ++ [e])
  | some known =>
    if known = e then .ok merged
    else .error (.metadata .duplicateEnum s!"two different enums are named '{e.name}'")

/-- The enumerations without repetitions, if none of two with one name differ. -/
def mergeEnums (enums : List Enumeration) : Except Error (List Enumeration) :=
  enums.foldlM merge []

/-- The registry of the given objects, with further enumerations that no field uses. -/
def build (objects : List Descriptor) (enums : List Enumeration) : Except Error Registry := do
  checkDistinct [] objects
  checkClosed objects
  let merged ← mergeEnums (enums ++ objects.flatMap usedEnums)
  return ⟨objects, merged⟩

end Registry

/-- A record together with the descriptor that it is stored under. -/
structure Storable where
  record : Record
  descriptor : Descriptor

namespace Storable

/-- Pair a record with a descriptor of its type. -/
def make (d : Descriptor) (r : Record) : Except Error Storable :=
  if d.describes r then .ok ⟨r, d⟩
  else .error (.usage .objectMismatch s!"{d.name} does not describe {r.type}")

/-- Pair a record with the registered descriptor of its type. -/
def ofRegistry (reg : Registry) (r : Record) : Except Error Storable := do
  make (← reg.descriptorOf r.type) r

end Storable

end ObjectMapping
