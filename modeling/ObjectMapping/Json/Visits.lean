import ObjectMapping.Json.Context

/-! Which values writing a record comes to, and which of them have a form as a tree. -/
namespace ObjectMapping.Json

/-- The value is that of a described field of the record. -/
def Reads (reg : Registry) (r : Record) (f : Field) (v : Value) : Prop :=
  ∃ d, reg.byType? r.type = some d ∧ f ∈ d.fields ∧ f.get r = .ok v

/-- Writing the record comes to the value in the place: it is in a field of the record, of a record
further down or among the elements of a list. -/
inductive Visits (reg : Registry) (o : Record) : Context → Value → Prop where
  | field {f : Field} (reads : Reads reg o f v) : Visits reg o (.ofField f) v
  | nested {context : Context} {r : Record} {f : Field} (above : Visits reg o context (.object r))
      (reads : Reads reg r f v) : Visits reg o (.ofField f) v
  | element {context element : Context} {items : List Value}
      (above : Visits reg o context (.array items)) (described : context.elements = .ok element)
      (member : v ∈ items) : Visits reg o element v

/-- The value can be written in the place, apart from what it holds: numbers with a fraction are
finite, values of a described enumeration are contained in it, lists are not lists of lists, and
records of any type are of a registered one. -/
def Writable (reg : Registry) (context : Context) : Value → Prop
  | .float x => x.isFinite
  | .double x => x.isFinite
  | .enum n => ∀ e, context.enumeration = some e → e.contains n
  | .array _ => ∀ element, context.element = some element → element.type ≠ .array
  | .object r => context.type = .variant → ∃ d, reg.byType? r.type = some d
  | _ => True

end ObjectMapping.Json
