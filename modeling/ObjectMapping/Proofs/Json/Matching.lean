import ObjectMapping.Json.Agreement
import ObjectMapping.Proofs.Registry

/-! Relations between records place by place. Putting what is related into one place of a
record leaves what is related in all others as it is, also where one place lies inside another
one. Agreement is such a relation. -/
namespace ObjectMapping

/-- Agreement of values by the contents of the described places. -/
inductive Value.Matches (reg : Registry) : Value → Value → Prop where
  | null : Matches reg .null .null
  | scalar (s : Scalar) : Matches reg (.scalar s) (.scalar s)
  | array {items others : List Value} (length : items.length = others.length)
      (each : ∀ pair ∈ items.zip others, Matches reg pair.1 pair.2) :
      Matches reg (.array items) (.array others)
  | object {r s : Record} {d : Descriptor} (type : r.type = s.type)
      (found : reg.byType? r.type = some d) (first second : Field → Datum)
      (holds : ∀ f ∈ d.fields, r.get? f.path = some (first f) ∧ s.get? f.path = some (second f))
      (each : ∀ f ∈ d.fields, Matches reg (first f).toValue (second f).toValue) :
      Matches reg (.object r) (.object s)

/-- Two records have related values at the end of a path. -/
def Record.RelatedAt (R : Value → Value → Prop) (r s : Record) (path : List String) : Prop :=
  ∃ x y, r.get? path = some x ∧ s.get? path = some y ∧ R x.toValue y.toValue

/-- Two records agree in what lies at the end of a path. -/
def Record.MatchesAt (reg : Registry) (r s : Record) (path : List String) : Prop :=
  ∃ x y, r.get? path = some x ∧ s.get? path = some y ∧ x.toValue.Matches reg y.toValue

variable {reg : Registry} {r s : Record}

theorem Value.matches_object : (Value.object r).Matches reg (.object s) ↔
    r.type = s.type ∧
      ∃ d, reg.byType? r.type = some d ∧ ∀ f ∈ d.fields, r.MatchesAt reg s f.path := by
  constructor
  · intro agree
    cases agree with
    | object type found first second holds each =>
      exact ⟨type, _, found, fun f member =>
        ⟨first f, second f, (holds f member).1, (holds f member).2, each f member⟩⟩
  · rintro ⟨type, d, found, each⟩
    refine .object type found (fun f => (r.get? f.path).getD .unset)
      (fun f => (s.get? f.path).getD .unset) (fun f member => ?_) (fun f member => ?_)
    · obtain ⟨x, y, here, there, _⟩ := each f member
      rw [here, there]
      exact ⟨rfl, rfl⟩
    · obtain ⟨x, y, here, there, agree⟩ := each f member
      rwa [here, there]

namespace Record

theorem set_type {r changed : Record} {d : Datum} (set : r.set? d path = some changed) :
    changed.type = r.type := by
  unfold set? at set
  split at set
  · cases set
  · obtain ⟨_, _, rfl⟩ := Option.map_eq_some_iff.mp set
    rfl
  · split at set
    · obtain ⟨_, _, rfl⟩ := Option.map_eq_some_iff.mp set
      rfl
    · cases set

private theorem get_setSlot_other (r : Record) (d : Datum) {other name : String}
    (differ : other ≠ name) (path : List String) :
    (r.setSlot name d).get? (other :: path) = r.get? (other :: path) := by
  cases path with
  | nil => simp only [get?, slot_setSlot_other r d differ]
  | cons next path => simp only [get?, slot_setSlot_other r d differ]

/-- A longer path leads through an embedded record. -/
theorem get_longer {r : Record} {name next : String}
    (found : r.get? (name :: next :: path) = some x) :
    ∃ inner, r.slot? name = some (.record inner) ∧ inner.get? (next :: path) = some x := by
  simp only [get?] at found
  split at found
  · rename_i inner here
    exact ⟨inner, here, found⟩
  · cases found

theorem set_longer {r changed : Record} {name next : String} {d : Datum}
    (set : r.set? d (name :: next :: path) = some changed) :
    ∃ inner new, r.slot? name = some (.record inner) ∧ inner.set? d (next :: path) = some new ∧
      changed = r.setSlot name (.record new) := by
  simp only [set?] at set
  split at set
  · rename_i inner here
    obtain ⟨new, inside, rfl⟩ := Option.map_eq_some_iff.mp set
    exact ⟨inner, new, here, inside, rfl⟩
  · cases set

theorem set_first {r changed : Record} {name : String} {d : Datum}
    (set : r.set? d (name :: path) = some changed) : ∃ stored, changed = r.setSlot name stored := by
  cases path with
  | nil =>
    obtain ⟨_, _, rfl⟩ := Option.map_eq_some_iff.mp set
    exact ⟨d, rfl⟩
  | cons next path =>
    obtain ⟨_, new, _, _, rfl⟩ := set_longer set
    exact ⟨.record new, rfl⟩

/-- What was put at the end of a path is found there. -/
theorem get_of_set {r changed : Record} {path : List String} {d : Datum}
    (set : r.set? d path = some changed) : changed.get? path = some d := by
  induction path generalizing r changed with
  | nil => cases set
  | cons name path ih =>
    cases path with
    | nil =>
      obtain ⟨old, here, rfl⟩ := Option.map_eq_some_iff.mp set
      exact slot_setSlot_same here d
    | cons next path =>
      obtain ⟨inner, new, here, inside, rfl⟩ := set_longer set
      have stored := slot_setSlot_same here (.record new)
      rw [get_through stored (List.cons_ne_nil _ _)]
      exact ih inside

/-- What lies neither on the path nor beyond its end is not touched. -/
theorem get_of_set_apart {r changed : Record} {path q : List String} {d : Datum}
    (set : r.set? d path = some changed) (apart : ¬path <+: q) (beyond : ¬q <+: path) :
    changed.get? q = r.get? q := by
  induction path generalizing r changed q with
  | nil => cases set
  | cons name path ih =>
    cases q with
    | nil => exact absurd List.nil_prefix beyond
    | cons first q =>
      by_cases same : first = name
      · subst same
        have apart : ¬path <+: q := fun below => apart (List.cons_prefix_cons.mpr ⟨rfl, below⟩)
        have beyond : ¬q <+: path := fun above => beyond (List.cons_prefix_cons.mpr ⟨rfl, above⟩)
        cases path with
        | nil => exact absurd List.nil_prefix apart
        | cons next path =>
          obtain ⟨inner, new, here, inside, rfl⟩ := set_longer set
          have stored := slot_setSlot_same here (.record new)
          have longer : q ≠ [] := by
            rintro rfl
            exact beyond List.nil_prefix
          rw [get_through stored longer, get_through here longer]
          exact ih inside apart beyond
      · obtain ⟨_, rfl⟩ := set_first set
        exact get_setSlot_other r _ same q

section

variable {R : Value → Value → Prop} {o r : Record}

private theorem relatedAt_other {d : Datum} {other name : String} (differ : other ≠ name)
    (before : o.RelatedAt R r (other :: path)) :
    o.RelatedAt R (r.setSlot name d) (other :: path) := by
  obtain ⟨x, y, here, there, related⟩ := before
  exact ⟨x, y, here, (get_setSlot_other r d differ path).trans there, related⟩

/-- Being related further down a path is being related in the records that lie there. -/
private theorem relatedAt_through {inner held : Record} {name : String}
    (above : o.slot? name = some (.record inner)) (below : r.slot? name = some (.record held))
    (longer : path ≠ []) : o.RelatedAt R r (name :: path) ↔ inner.RelatedAt R held path := by
  unfold RelatedAt
  rw [get_through above longer, get_through below longer]

/-- A record stays related to another one if all places in it do. -/
def Placewise (R : Value → Value → Prop) : Prop :=
  ∀ inner held new : Record, R (.object inner) (.object held) → new.type = held.type →
    (∀ q, inner.RelatedAt R held q → inner.RelatedAt R new q) → R (.object inner) (.object new)

/-- A record takes the place of one of its type and is related wherever that one was. -/
private theorem relatedAt_replace {inner held new : Record} {name : String}
    (placewise : Placewise R) (above : o.slot? name = some (.record inner)) (below : r.slot? name = some (.record held))
    (type : new.type = held.type)
    (step : ∀ q, inner.RelatedAt R held q → inner.RelatedAt R new q)
    (before : o.RelatedAt R r (name :: path)) :
    o.RelatedAt R (r.setSlot name (.record new)) (name :: path) := by
  have stored := slot_setSlot_same below (.record new)
  cases path with
  | nil =>
    obtain ⟨a, b, left, right, related⟩ := before
    obtain rfl : a = .record inner := Option.some.inj (left.symm.trans above)
    obtain rfl : b = .record held := Option.some.inj (right.symm.trans below)
    exact ⟨.record inner, .record new, above, stored, placewise inner held new related type step⟩
  | cons next path =>
    have longer : next :: path ≠ [] := List.cons_ne_nil _ _
    have inside := (relatedAt_through above below longer).mp before
    exact (relatedAt_through above stored longer).mpr (step _ inside)

/-- Where the original has a record, what takes the place of another record is related to
the original wherever that one was. -/
def Keeps (R : Value → Value → Prop) (x : Datum) (old : Option Datum) (y : Datum) : Prop :=
  ∀ inner held, x = .record inner → old = some (.record held) →
    ∃ new, y = .record new ∧ ∀ q, inner.RelatedAt R held q → inner.RelatedAt R new q

/-- Putting what is related to the original into one place of a record spoils no other place. -/
theorem RelatedAt.set {changed : Record} {path q : List String} {x y : Datum}
    (placewise : Placewise R) (here : o.get? path = some x) (set : r.set? y path = some changed)
    (related : ∀ old, r.get? path = some old → R x.toValue old.toValue → R x.toValue y.toValue)
    (keeps : Keeps R x (r.get? path) y) (before : o.RelatedAt R r q) : o.RelatedAt R changed q := by
  induction path generalizing o r changed q with
  | nil => cases set
  | cons name path ih =>
    cases q with
    | nil =>
      obtain ⟨_, _, none, _⟩ := before
      cases none
    | cons first q =>
      by_cases same : first = name
      · subst same
        cases path with
        | nil =>
          obtain ⟨old, present, rfl⟩ := Option.map_eq_some_iff.mp set
          have stored := slot_setSlot_same present y
          cases q with
          | nil =>
            obtain ⟨a, b, above, below, was⟩ := before
            obtain rfl := Option.some.inj (here.symm.trans above)
            exact ⟨x, y, here, stored, related b below was⟩
          | cons next q =>
            -- The place lies inside the record that is replaced.
            have ⟨_, _, above, below, _⟩ := before
            obtain ⟨inner, slot, _⟩ := get_longer above
            obtain ⟨held, kept, _⟩ := get_longer below
            obtain rfl : x = .record inner := Option.some.inj (here.symm.trans slot)
            obtain ⟨new, rfl, keep⟩ := keeps inner held rfl kept
            have longer : next :: q ≠ [] := List.cons_ne_nil _ _
            have inside := (relatedAt_through slot kept longer).mp before
            exact (relatedAt_through slot stored longer).mpr (keep _ inside)
        | cons next path =>
          -- The path leads through a record, inside of which one place changes.
          obtain ⟨inner, slot, inside⟩ := get_longer here
          obtain ⟨held, new, kept, deep, rfl⟩ := set_longer set
          have through := get_through kept (List.cons_ne_nil next path)
          have step : ∀ q, inner.RelatedAt R held q → inner.RelatedAt R new q := fun q =>
            ih inside deep (fun old found => related old (through.trans found))
              (fun _ _ record found => keeps _ _ record (through.trans found))
          exact relatedAt_replace placewise slot kept (set_type deep) step before
      · obtain ⟨_, rfl⟩ := set_first set
        exact relatedAt_other same before

end

theorem placewise_matches : Placewise (Value.Matches reg) := by
  intro inner held new related type step
  obtain ⟨same, d, found, each⟩ := Value.matches_object.mp related
  exact Value.matches_object.mpr
    ⟨same.trans type.symm, d, found, fun f member => step _ (each f member)⟩

/-- Putting what agrees with the original into one place of a record spoils no other place. -/
theorem MatchesAt.set {o r changed : Record} {path q : List String} {x y : Datum}
    (here : o.get? path = some x) (set : r.set? y path = some changed)
    (agree : x.toValue.Matches reg y.toValue) (keeps : Keeps (Value.Matches reg) x (r.get? path) y)
    (before : o.MatchesAt reg r q) : o.MatchesAt reg changed q :=
  RelatedAt.set placewise_matches here set (fun _ _ _ => agree) keeps before

end Record

private theorem Value.Agrees.present {v w : Value} (f : Field) (agree : v.Agrees reg w) :
    (f.present v).Agrees reg (f.present w) := by
  cases agree with
  | null => exact .null
  | scalar s =>
    cases s with
    | uint32 bits =>
      simp only [Field.present]
      split <;> exact .scalar _
    | _ => exact .scalar _
  | array length each => exact .array length each
  | object type found first second reads each => exact .object type found first second reads each

/-- Agreement of the places is agreement of what the fields read. -/
theorem Value.Matches.agrees {v w : Value}
    (owned : ∀ d ∈ reg.objects, ∀ f ∈ d.fields, f.owner = d.type) (agree : v.Matches reg w) :
    v.Agrees reg w := by
  induction agree with
  | null => exact .null
  | scalar s => exact .scalar s
  | array length _ ih => exact .array length ih
  | @object r s d type found first second holds _ ih =>
    obtain ⟨member, same⟩ := Registry.byType_mem found
    refine .object type found (fun f => f.present (first f).toValue)
      (fun f => f.present (second f).toValue) (fun f here => ?_)
      (fun f here => (ih f here).present f)
    have owner := owned d member f here
    exact ⟨Field.get_eq (same ▸ owner.symm) (holds f here).1,
      Field.get_eq (type ▸ same ▸ owner.symm) (holds f here).2⟩

end ObjectMapping
