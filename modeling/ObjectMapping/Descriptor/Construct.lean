import ObjectMapping.Descriptor

/-! What a new instance needs to be made from named values, what its fields then read as, and which
differences between two lists of values cannot be seen in it. -/
namespace ObjectMapping

/-- The value that slots of the shape yield after the value has been written into them. A slot
yields the number of a flag as a number and the number of an enumeration value as that value. -/
def Shape.shown : Shape → Value → Value
  | .plain .uint32, .enum n => .uint32 n
  | .enum _, .uint32 n => .enum n
  | .nullable inner, v => inner.shown v
  | .list element, .array items => .array (items.map element.shown)
  | _, v => v

/-- Slots of the shape take the value as another one: the value of an enumeration as a number or a
number as the value of an enumeration, also among the items of a list. -/
inductive Shape.Recasts : Shape → Value → Prop where
  | number (n : UInt32) : Recasts (.plain .uint32) (.enum n)
  | enum (e : Enumeration) (n : UInt32) : Recasts (.enum e) (.uint32 n)
  | nullable {s : Shape} (inside : Recasts s v) : Recasts (.nullable s) v
  | item {s : Shape} (member : v ∈ items) (inside : Recasts s v) : Recasts (.list s) (.array items)

namespace Field

/-- What the field reads as after the value has been written. -/
def shown (f : Field) (v : Value) : Value := f.present (f.shape.shown v)

/-- The field does not read as the value that has been written: it reads as the value of an
enumeration where a number has been written, or as a list of which items have been recast. -/
inductive Recasts (f : Field) : Value → Prop where
  | number (enum : f.type = .enum) (n : UInt32) : f.Recasts (.uint32 n)
  | items (list : f.type = .array) (inside : f.shape.Recasts v) : f.Recasts v

/-- The value that is written into the field of a new instance, if any is. -/
def drawn? (f : Field) (values : List (String × Value)) : Option Value :=
  match values.lookup f.name with
  | some v => some v
  | none => if f.mandatoriness = .defaultable then some f.defaultForAbsent else none

end Field

namespace Descriptor

/-- The values are all that a new instance needs: every required field is named, and the fields
take what is drawn for them. -/
structure Suffices (d : Descriptor) (values : List (String × Value)) : Prop where
  required : ∀ f ∈ d.fields, f.mandatoriness = .required → ∃ v, values.lookup f.name = some v
  named : ∀ f ∈ d.fields, ∀ v, values.lookup f.name = some v →
    ∃ changed, f.set d.initial v = .ok changed
  default : ∀ f ∈ d.fields, f.mandatoriness = .defaultable → values.lookup f.name = none →
    ∃ changed, f.set d.initial f.defaultForAbsent = .ok changed

/-- The instance has the named values, and what an instance has without one where none is named. -/
structure Renders (d : Descriptor) (values : List (String × Value)) (r : Record) : Prop where
  type : r.type = d.type
  named : ∀ f ∈ d.fields, ∀ v, values.lookup f.name = some v →
    ∃ changed w, f.set d.initial v = .ok changed ∧ f.get changed = .ok w ∧ f.get r = .ok w
  default : ∀ f ∈ d.fields, f.mandatoriness = .defaultable → values.lookup f.name = none →
    f.get r = .ok (f.shown f.defaultForAbsent)
  optional : ∀ f ∈ d.fields, f.mandatoriness = .optional → values.lookup f.name = none →
    ∃ w, f.get d.initial = .ok w ∧ f.get r = .ok w

/-- The two lists differ by entries that name no field, by later entries of a name, and in the order
of entries with distinct names. -/
inductive Rewords (d : Descriptor) : List (String × Value) → List (String × Value) → Prop where
  | refl (values : List (String × Value)) : d.Rewords values values
  | symm (rewords : d.Rewords values other) : d.Rewords other values
  | trans (first : d.Rewords values between) (second : d.Rewords between other) :
      d.Rewords values other
  | stranger {v : Value} (unknown : ∀ f ∈ d.fields, f.name ≠ key) :
      d.Rewords (before ++ (key, v) :: after) (before ++ after)
  | duplicate {v : Value} (earlier : key ∈ before.map Prod.fst) :
      d.Rewords (before ++ (key, v) :: after) (before ++ after)
  | swap {a b : String × Value} (distinct : a.1 ≠ b.1) :
      d.Rewords (before ++ a :: b :: after) (before ++ b :: a :: after)

end Descriptor

end ObjectMapping
