import ObjectMapping.Proofs.Field.Access
import ObjectMapping.Proofs.Field.Default

/-! Typed values: what holds instances of declared types only is stored as data of the shape of its
slot, so that instances stay instances when it is written into them. -/
namespace ObjectMapping

variable {c : Catalogue} {s : Shape} {d : Datum} {v : Value}

/-- What a slot holds reads as a typed value. -/
theorem Datum.Holds.typed (holds : d.Holds c s) : d.toValue.Typed c := by
  induction s generalizing d with
  | plain | enum =>
    cases holds
    exact .scalar _
  | record =>
    cases holds with
    | record same inside => exact .object inside
  | variant =>
    cases holds with
    | vacant => exact .null
    | occupied inside => exact .object inside
  | nullable inner ih =>
    cases holds with
    | unset => exact .null
    | present inside =>
      have kept := ih inside
      exact kept
  | list element ih =>
    cases holds with
    | list each =>
      refine .array fun v member => ?_
      obtain ⟨d, within, rfl⟩ := Datum.mem_toValues.mp member
      exact ih (each d within)

namespace Shape

private theorem enumOfNumber_holds {e : Enumeration} {n : UInt32}
    (ok : enumOfNumber e n = .ok d) : d.Holds c (.enum e) := by
  have named := enumOfNumber_iff.mp ⟨d, ok⟩
  obtain rfl := enumOfNumber_ok ok
  exact .enum named

/-- A typed value is stored as data of the shape. -/
theorem holds_of_ofValue (typed : v.Typed c) (ok : s.ofValue v = .ok d) : d.Holds c s := by
  induction s generalizing v d with
  | plain p =>
    cases v with
    | scalar a =>
      change singleOfValue (plain p) (.scalar a) = .ok d at ok
      rw [singleOfValue] at ok
      split at ok
      · rename_i accepted
        obtain rfl := Except.ok.inj ok
        exact .plain (accept_type accepted)
      · cases ok
    | null | object | array => cases ok
  | enum e =>
    cases v with
    | scalar a =>
      cases a with
      | enum n => exact enumOfNumber_holds ok
      | uint32 n => exact enumOfNumber_holds ok
      | _ => cases ok
    | null | object | array => cases ok
  | record type =>
    cases typed with
    | object inside =>
      change singleOfValue (record type) (.object _) = .ok d at ok
      rw [singleOfValue] at ok
      split at ok
      · obtain rfl := Except.ok.inj ok
        exact .record (by assumption) inside
      · cases ok
    | null | scalar | array => cases ok
  | variant =>
    cases typed with
    | null =>
      obtain rfl := Except.ok.inj ok
      exact .vacant
    | object inside =>
      obtain rfl := Except.ok.inj ok
      exact .occupied inside
    | scalar | array => cases ok
  | nullable inner ih =>
    cases nothing : v.isNull with
    | true =>
      obtain rfl := Value.eq_null_of_isNull nothing
      obtain rfl := Except.ok.inj ok
      exact .unset
    | false =>
      rw [ofValue_nullable nothing] at ok
      obtain ⟨content, inside, rfl⟩ := except_map_eq_ok.mp ok
      exact .present (ih typed inside)
  | list element ih =>
    cases typed with
    | @array items each =>
      obtain ⟨ds, stored, rfl⟩ := except_map_eq_ok.mp ok
      refine .list fun d member => ?_
      obtain ⟨v, within, kept⟩ := exists_of_mapM_ok stored member
      exact ih (each v within) kept
    | null | scalar | object => cases ok

/-- What the slots of a shape begin with is typed, if the shape holds anything at all. -/
theorem typed_zero (types : c.Sound) (holds : d.Holds c s) : (s.zero c.initial).toValue.Typed c := by
  cases s with
  | plain | enum => exact .scalar _
  | variant | nullable => exact .null
  | list => exact .array nofun
  | record type =>
    obtain ⟨r, rfl, same, inside⟩ := Datum.holds_record.mp holds
    cases inside with
    | intro found content stored holds =>
      rw [same] at found
      refine .object ?_
      rw [Catalogue.initial, found]
      exact (types type _ found).2

end Shape

namespace Field

variable {f : Field} {r : Record}

/-- An instance takes what suits the slot of a field and stays an instance. -/
theorem set_typed (linked : f.Linked c) (typed : v.Typed c) (fits : f.shape.ofValue v = .ok d)
    (inside : r.Instance c) (owned : r.type = f.owner) :
    ∃ changed, f.set r v = .ok changed ∧ r.set? d f.path = some changed ∧ changed.Instance c := by
  have leads := owned ▸ linked.leads
  obtain ⟨old, found, -⟩ := Record.get_of_leads inside leads
  obtain ⟨changed, set, kept, -⟩ :=
    Record.set_of_leads inside leads (Shape.holds_of_ofValue typed fits)
  obtain ⟨s, ok⟩ := (set_iff linked owned found).mpr (Shape.ofValue_iff.mp ⟨d, fits⟩)
  obtain ⟨-, stored, again, same⟩ := set_eq_ok ok
  obtain rfl := Except.ok.inj (fits.symm.trans again)
  obtain rfl := Option.some.inj (set.symm.trans same)
  exact ⟨changed, ok, set, kept⟩

/-- What a field receives when it is absent is typed, if its default is. -/
theorem typed_defaultForAbsent (types : c.Sound) (regular : f.Regular c) (holds : d.Holds c f.shape)
    (given : ∀ v, f.explicitDefault = some v → v.Typed c) : f.defaultForAbsent.Typed c := by
  unfold defaultForAbsent
  split
  · rename_i v explicit
    exact given v explicit
  · have zero : f.zero.Typed c := regular.zero ▸ Shape.typed_zero types holds
    split
    · split
      · exact .scalar _
      · exact zero
    · exact zero

end Field

end ObjectMapping
