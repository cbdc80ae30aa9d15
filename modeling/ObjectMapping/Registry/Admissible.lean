import ObjectMapping.Registry

/-! Which descriptors and enumerations make up a registry: nothing is there twice, whatever is
referred to is there, and one name does not stand for two enumerations. -/
namespace ObjectMapping

namespace Shape

/-- Slots of the shape embed records of the type, if they hold anything. -/
inductive Embeds : Shape → TypeName → Prop where
  | record {type : TypeName} : Embeds (.record type) type
  | nullable {type : TypeName} (inside : Embeds s type) : Embeds (.nullable s) type

/-- Slots of the shape hold values of the enumeration, if they hold anything. -/
inductive Enumerates : Shape → Enumeration → Prop where
  | enum : Enumerates (.enum e) e
  | nullable (inside : Enumerates s e) : Enumerates (.nullable s) e

/-- Slots of the shape hold lists of such elements, if they hold anything. -/
inductive Lists : Shape → Shape → Prop where
  | list : Lists (.list element) element
  | nullable (inside : Lists s element) : Lists (.nullable s) element

end Shape

/-- The descriptor needs the other type to be described, too. -/
inductive Descriptor.Refers (d : Descriptor) : TypeName → Prop where
  | super (inherits : d.super = some s) : d.Refers s.type
  | nested {type : TypeName} (member : f ∈ d.fields) (embeds : f.shape.Embeds type) : d.Refers type
  | element {type : TypeName} (member : f ∈ d.fields) (lists : f.shape.Lists s)
      (embeds : s.Embeds type) : d.Refers type

namespace Registry

/-- The enumeration has been added, or a field or the elements of one are described by it. -/
inductive Collects (objects : List Descriptor) (enums : List Enumeration) : Enumeration → Prop where
  | added (member : e ∈ enums) : Collects objects enums e
  | field (object : d ∈ objects) (member : f ∈ d.fields) (described : f.enumeration = some e) :
      Collects objects enums e
  | element (object : d ∈ objects) (member : f ∈ d.fields) (lists : f.shape.Lists s)
      (enumerates : s.Enumerates e) : Collects objects enums e

/-- The objects and enumerations may be registered together. -/
structure Admissible (objects : List Descriptor) (enums : List Enumeration) : Prop where
  types : objects.Pairwise fun a b => a.type ≠ b.type
  names : objects.Pairwise fun a b => a.name ≠ b.name
  closed : ∀ d ∈ objects, ∀ type, d.Refers type → ∃ e ∈ objects, e.type = type
  unambiguous : ∀ a b, Collects objects enums a → Collects objects enums b → a.name = b.name → a = b

end Registry

end ObjectMapping
