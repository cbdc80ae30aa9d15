import ObjectMapping.Json.Context

/-! When two records read the same, which records the tree format can carry, and which of them
it can carry without their nulls. -/
namespace ObjectMapping

/-- The two values are the same, but for what records hold besides their described fields. -/
inductive Value.Agrees (reg : Registry) : Value → Value → Prop where
  | null : Agrees reg .null .null
  | scalar (s : Scalar) : Agrees reg (.scalar s) (.scalar s)
  | array {items others : List Value} (length : items.length = others.length)
      (each : ∀ pair ∈ items.zip others, Agrees reg pair.1 pair.2) :
      Agrees reg (.array items) (.array others)
  | object {r s : Record} {d : Descriptor} (type : r.type = s.type)
      (found : reg.byType? r.type = some d) (first second : Field → Value)
      (reads : ∀ f ∈ d.fields, f.get r = .ok (first f) ∧ f.get s = .ok (second f))
      (each : ∀ f ∈ d.fields, Agrees reg (first f) (second f)) :
      Agrees reg (.object r) (.object s)

/-- A source that does not mention the field leaves it null in the record. -/
def Field.NullWhenAbsent (f : Field) (r : Record) : Prop :=
  match f.mandatoriness with
  | .required => False
  | .optional => f.get r = .ok .null
  | .defaultable => f.defaultForAbsent = .null

/-- The record that an object is read into: the one that is there, or else a new one. -/
def Value.recordOr (held : Value) (new : Record) : Record :=
  match held with
  | .object r => r
  | _ => new

/-- The nulls of a value need not be written if it is read into a place that holds `held`:
without them the fields that are null become null, at every depth. -/
inductive Value.NullsImplied (reg : Registry) : Value → (held : Value) → Prop where
  | null : NullsImplied reg .null .null
  | scalar (s : Scalar) (held : Value) : NullsImplied reg (.scalar s) held
  | array {items : List Value} (each : ∀ v ∈ items, NullsImplied reg v .null) (held : Value) :
      NullsImplied reg (.array items) held
  | object {r : Record} {held : Value} {d : Descriptor} (found : reg.byType? r.type = some d)
      (value inPlace : Field → Value)
      (reads : ∀ f ∈ d.fields, f.get r = .ok (value f))
      (nulls : ∀ f ∈ d.fields, value f = .null → f.NullWhenAbsent (held.recordOr d.initial))
      (nested : ∀ f ∈ d.fields, value f ≠ .null → f.type = .object →
        f.get (held.recordOr d.initial) = .ok (inPlace f))
      (each : ∀ f ∈ d.fields, value f ≠ .null →
        NullsImplied reg (value f) (if f.type = .object then inPlace f else .null)) :
      NullsImplied reg (.object r) held

namespace Json

/-- The tree format can tell the scalar from every other one of its place. -/
def Carries (context : Context) : Scalar → Prop
  | .dateTime t => 0 ≤ t.year.toInt ∧ t.year.toInt ≤ 9999
  | .enum n => ∀ e, context.enumeration = some e → e.Legible ∧ (e.kind = .bitset → e.IsUnion n)
  | _ => True

/-- The tree format can carry the value, down to the described fields of its records. -/
inductive CarriesValue (reg : Registry) : Context → Value → Prop where
  | null : CarriesValue reg context .null
  | scalar (carried : Carries context s) : CarriesValue reg context (.scalar s)
  | array {items : List Value} (each : ∀ element, context.elements = .ok element → ∀ v ∈ items,
      CarriesValue reg element v) : CarriesValue reg context (.array items)
  | object {r : Record} (each : ∀ d, reg.byType? r.type = some d → ∀ f ∈ d.fields, ∀ v,
      f.get r = .ok v → CarriesValue reg (.ofField f) v) : CarriesValue reg context (.object r)

/-- The tree format can carry the described fields of the record. -/
def CarriesRecord (reg : Registry) (r : Record) : Prop :=
  ∀ d, reg.byType? r.type = some d → ∀ f ∈ d.fields, ∀ v, f.get r = .ok v →
    CarriesValue reg (.ofField f) v

end Json

end ObjectMapping
