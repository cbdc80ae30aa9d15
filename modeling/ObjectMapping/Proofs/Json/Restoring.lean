import ObjectMapping.Proofs.Json.Implied
import ObjectMapping.Proofs.Json.Members
import ObjectMapping.Proofs.Json.Places
import ObjectMapping.Proofs.Json.Scalar

/-! The tree of a datum is read back as a datum like it. The shape of the slot settles which
branches both walks take there; embedded records are taken to be read back already. -/
namespace ObjectMapping.Json

/-- What writing and reading rest upon. -/
structure Setting (c : Catalogue) (reg : Registry) (options : JsonOptions) : Prop where
  types : c.Sound
  registry : reg.Sound c
  key : ∀ d ∈ reg.objects, ∀ f ∈ d.fields, f.name ≠ options.typeKey

/-- Nothing is left out of the tree of the value, or its nulls are implied by what is in the
place that the tree is read into. -/
def Ready (reg : Registry) (options : JsonOptions) (v held : Value) : Prop :=
  options.emitNulls ∨ v.NullsImplied reg held

/-- The tree of the record is read into every instance of its type that is ready for it as a
record like it, and spoils nothing in that instance that was like it before. -/
def Recovers (c : Catalogue) (reg : Registry) (options : JsonOptions) (o : Record) : Prop :=
  ∀ tagged j, CarriesRecord reg o → ofRecord reg options tagged o = .ok j →
    ∃ d members, reg.byType? o.type = some d ∧ j = .object members ∧
      (tagged → members.lookup options.typeKey = some (.string d.name)) ∧
      ∀ target : Record, target.type = o.type → target.Instance c →
        Ready reg options (.object o) (.object target) →
        ∃ r, toRecord reg reg.resolver options members target = .ok r ∧ r.Instance c ∧
          (Value.object o).Matches reg (.object r) ∧ o.Nearer reg target r

/-- The tree `j` of the datum `x` is read as a value that puts a datum like `x` into a
slot of the shape; a record held there is read in place. -/
structure Restored (c : Catalogue) (reg : Registry) (options : JsonOptions) (context : Context)
    (s : Shape) (x : Datum) (held : Option Value) (j : Json) (v : Value) (y : Datum) : Prop where
  reads : toValue reg reg.resolver options context held j = .ok v
  fits : s.ofValue v = .ok y
  holds : y.Holds c s
  agrees : x.toValue.Matches reg y.toValue
  null : v.isNull = x.toValue.isNull
  keeps : ∀ inner target, x = .record inner → held = some (.object target) →
    ∃ new, y = .record new ∧ inner.Nearer reg target new

section

variable {c : Catalogue} {reg : Registry} {options : JsonOptions} {context : Context}
variable {s : Shape} {x : Datum} {held : Option Value} {j : Json} {bound : Nat}

private theorem Ready.element {items : List Value} {v place : Value}
    (ready : Ready reg options (.array items) place) (member : v ∈ items) :
    Ready reg options v .null := by
  refine ready.imp_right fun implied => ?_
  cases implied with
  | array each => exact each v member

/-- A place is ready for an object if the record is that the object is read into. -/
private theorem Ready.into {o target : Record} {d : Descriptor} {place : Value}
    (ready : Ready reg options (.object o) place) (found : reg.byType? o.type = some d)
    (chosen : place.recordOr d.initial = target) :
    Ready reg options (.object o) (.object target) := by
  refine ready.imp_right fun implied => implied.held_congr (fun null => by cases null) ?_
  intro r e same found'
  obtain rfl := Value.object.inj same
  obtain rfl := Option.some.inj (found.symm.trans found')
  exact chosen.symm

/-- A scalar is read back as itself. -/
private theorem restored_scalar {stored shown : Scalar}
    (typed : shown.type = context.type)
    (presented : context.present (.scalar stored) = .scalar shown)
    (fits : s.ofValue (.scalar shown) = .ok (.scalar stored))
    (holds : (Datum.scalar stored).Holds c s)
    (carried : CarriesValue reg context (context.present (.scalar stored)))
    (ok : ofValue reg options context (context.present (.scalar stored)) = .ok j) :
    Restored c reg options context s (.scalar stored) held j (.scalar shown) (.scalar stored) := by
  rw [presented] at carried ok
  rw [ofValue] at ok
  cases carried with
  | scalar carried =>
    refine ⟨?_, fits, holds, .scalar stored, rfl, fun _ _ record => by cases record⟩
    rw [toValue_plain (isNull_ofScalar ok) (typed ▸ Scalar.isColumn_type shown)]
    exact toPlain_ofScalar typed carried ok

/-- Absence is read back as absence. -/
private theorem restored_null (describes : context.Describes s)
    (absent : context.nullable = decide (0 < s.nullableDepth)) (holds : x.Holds c s)
    (nothing : x.toValue.isNull)
    (ok : ofValue reg options context (context.present x.toValue) = .ok j) :
    ∃ v y, Restored c reg options context s x held j v y := by
  have null := Value.eq_null_of_isNull nothing
  rw [null] at ok
  rw [Context.present, ofValue] at ok
  · obtain rfl := Except.ok.inj ok
    cases holds with
    | plain | enum | record | occupied | list => cases null
    | vacant =>
      refine ⟨.null, .vacant, ?_, rfl, .vacant, .null, rfl, fun _ _ record => by cases record⟩
      rw [toValue_null rfl, ofNull, absent, describes.type rfl (by decide)]
      rfl
    | unset | present =>
      refine ⟨.null, .unset, ?_, rfl, .unset, ?_, ?_, fun _ _ record => by cases record⟩
      · rw [toValue_null rfl, ofNull, absent]
        exact if_pos (decide_eq_true (Nat.succ_pos _))
      · rw [null]
        exact .null
      · rw [null]
  · intro bits same
    cases same

/-- The elements of a list are read back one by one. -/
private theorem restored_items {items : List Datum}
    (each : ∀ d ∈ items, ∀ j, ofValue reg options context d.toValue = .ok j →
      ∃ v y, Restored c reg options context s d none j v y)
    (ok : ofItems reg options context (Datum.toValues items) = .ok trees) :
    ∃ vs ys, toItems reg reg.resolver options context trees = .ok vs ∧
      vs.mapM s.ofValue = .ok ys ∧ (∀ y ∈ ys, y.Holds c s) ∧
      (Value.array (Datum.toValues items)).Matches reg (.array (Datum.toValues ys)) := by
  induction items generalizing trees with
  | nil =>
    rw [Datum.toValues, ofItems] at ok
    obtain rfl := Except.ok.inj ok
    refine ⟨[], [], ?_, rfl, ?_, .array rfl ?_⟩
    · rw [toItems]
    · intro y member
      cases member
    · intro pair member
      cases member
  | cons d rest ih =>
    rw [Datum.toValues, ofItems] at ok
    obtain ⟨j, written, ok⟩ := bind_eq_ok.mp ok
    obtain ⟨others, following, ok⟩ := bind_eq_ok.mp ok
    obtain rfl := Except.ok.inj ok
    obtain ⟨v, y, here⟩ := each d List.mem_cons_self j written
    obtain ⟨vs, ys, read, stored, hold, alike⟩ :=
      ih (fun d member => each d (List.mem_cons_of_mem _ member)) following
    refine ⟨v :: vs, y :: ys, ?_, ?_, ?_, ?_⟩
    · rw [toItems, here.reads, read]
      rfl
    · exact mapM_cons_eq_ok.mpr ⟨y, ys, here.fits, stored, rfl⟩
    · intro z member
      rcases List.mem_cons.mp member with rfl | later
      · exact here.holds
      · exact hold z later
    · cases alike with
      | array length pairs =>
        refine .array (congrArg Nat.succ length) ?_
        intro pair member
        rcases List.mem_cons.mp member with rfl | later
        · exact here.agrees
        · exact pairs pair later

/-- A list whose elements are read back is read back. -/
private theorem restored_list {element : Shape} {items : List Datum} {place : Context}
    (describes : context.Describes (.list element)) (described : context.elements = .ok place)
    (each : ∀ d ∈ items, ∀ j, ofValue reg options place d.toValue = .ok j →
      ∃ v y, Restored c reg options place element d none j v y)
    (ok : ofItems reg options place (Datum.toValues items) = .ok trees) :
    ∃ v y,
      Restored c reg options context (.list element) (.list items) held (.array trees) v y := by
  have type : context.type = .array := describes.type rfl (by decide)
  obtain ⟨vs, ys, read, stored, hold, alike⟩ := restored_items each ok
  refine ⟨.array vs, .list ys, toValue_list type described read, ?_, .list hold, alike, rfl, ?_⟩
  · rw [Shape.ofValue, stored]
    rfl
  · intro inner target record
    cases record

/-- What is read back in a slot is read back in an optional slot. -/
private theorem Restored.present {d y : Datum} {v : Value}
    (here : Restored c reg options context s d held j v y) (something : d.toValue.isNull = false) :
    Restored c reg options context (.nullable s) (.present d) held j v (.present y) := by
  refine ⟨here.reads, ?_, .present here.holds, here.agrees, here.null, ?_⟩
  · rw [Shape.ofValue_nullable (here.null.trans something), here.fits]
    rfl
  · intro inner target record
    cases record

private theorem recordOr_empty (empty : ∀ old, held = some (.object old) → False) (new : Record) :
    (held.getD .null).recordOr new = new := by
  unfold Value.recordOr
  split
  · rename_i r same
    cases held with
    | none => cases same
    | some v => exact (empty r (congrArg some same)).elim
  · rfl

/-- Where a nested object is read into when the place holds what it may hold. -/
private theorem nestedTarget_ok {d : Descriptor} {type : TypeName} (setting : Setting c reg options)
    (describes : context.Describes (.record type)) (found : reg.byType? type = some d)
    (fits : ∀ target, held = some (.object target) → target.type = type ∧ target.Instance c) :
    ∃ target, nestedTarget reg context held = .ok target ∧ target.type = type ∧
      target.Instance c ∧ (held.getD .null).recordOr d.initial = target := by
  unfold nestedTarget
  split
  · rename_i target
    obtain ⟨same, inside⟩ := fits target rfl
    exact ⟨target, rfl, same, inside, rfl⟩
  · rename_i none
    obtain ⟨member, same⟩ := Registry.byType_mem found
    obtain ⟨type, inside⟩ := setting.registry.initial setting.types member
    rw [describes.record, Shape.recordType?, Option.bind_some, found]
    exact ⟨d.initial, rfl, type.trans same, inside, recordOr_empty none d.initial⟩

/-- A record in a slot of its type is read back, in place if the slot holds one already. -/
private theorem restored_record {o : Record} {type : TypeName} (setting : Setting c reg options)
    (recovers : Recovers c reg options o) (describes : context.Describes (.record type))
    (same : o.type = type)
    (fits : ∀ target, held = some (.object target) → target.type = type ∧ target.Instance c)
    (ready : Ready reg options (.object o) (held.getD .null)) (carried : CarriesRecord reg o)
    (ok : ofValue reg options context (.object o) = .ok j) :
    ∃ v y, Restored c reg options context (.record type) (.record o) held j v y := by
  rw [ofValue] at ok
  obtain ⟨d, members, found, rfl, _, into⟩ := recovers _ j carried ok
  obtain ⟨target, chosen, typed, inside, place⟩ :=
    nestedTarget_ok setting describes (same ▸ found) fits
  obtain ⟨r, read, kept, agree, near⟩ :=
    into target (typed.trans same.symm) inside (ready.into found place)
  have kind : r.type = type := (Value.matches_object.mp agree).1.symm.trans same
  refine ⟨.object r, .record r, ?_, if_pos kind, .record kind kept, agree, rfl, ?_⟩
  · exact toValue_nested (describes.type rfl (by decide)) chosen read
  · intro inner old record here
    obtain rfl := Datum.record.inj record
    obtain rfl : old = target := by rwa [here] at place
    exact ⟨r, rfl, near⟩

/-- A polymorphic record is read back into a new one of the type that its tag names. -/
private theorem restored_occupied {o : Record} (setting : Setting c reg options)
    (recovers : Recovers c reg options o) (describes : context.Describes .variant)
    (empty : ∀ old, held = some (.object old) → False)
    (ready : Ready reg options (.object o) (held.getD .null)) (carried : CarriesRecord reg o)
    (ok : ofValue reg options context (.object o) = .ok j) :
    ∃ v y, Restored c reg options context .variant (.occupied o) held j v y := by
  have type : context.type = .variant := describes.type rfl (by decide)
  rw [ofValue] at ok
  obtain ⟨d, members, found, rfl, tag, into⟩ := recovers _ j carried ok
  obtain ⟨member, same⟩ := Registry.byType_mem found
  obtain ⟨typed, inside⟩ := setting.registry.initial setting.types member
  obtain ⟨r, read, kept, agree, _⟩ :=
    into d.initial (typed.trans same) inside (ready.into found (recordOr_empty empty d.initial))
  have named : namedTarget reg.resolver options members = .ok d.initial := by
    have resolved : reg.resolver d.name = some d.initial :=
      congrArg (Option.map Descriptor.initial) (setting.registry.byName member)
    simp only [namedTarget, tag (decide_eq_true type), resolved]
  refine ⟨.object r, .occupied r, toValue_named type named read, rfl, .occupied kept, agree, rfl,
    ?_⟩
  intro inner old record
  cases record

/-- The tree of a datum is read back as a datum like it. -/
theorem restored (setting : Setting c reg options)
    (smaller : ∀ inner : Record, sizeOf inner < bound → inner.Instance c →
      Recovers c reg options inner)
    (describes : context.Describes s) (holds : x.Holds c s) (small : sizeOf x ≤ bound)
    (absent : x.toValue.isNull → context.nullable = decide (0 < s.nullableDepth))
    (fits : ∀ target, held = some (.object target) →
      s.recordType? = some target.type ∧ target.Instance c)
    (ready : Ready reg options (context.present x.toValue) (held.getD .null))
    (carried : CarriesValue reg context (context.present x.toValue))
    (ok : ofValue reg options context (context.present x.toValue) = .ok j) :
    ∃ v y, Restored c reg options context s x held j v y := by
  induction s generalizing x context held j with
  | plain | enum =>
    obtain ⟨stored, rfl⟩ : ∃ stored, x = .scalar stored := by
      cases holds
      exact ⟨_, rfl⟩
    have column := Shape.isColumn_of_scalar holds
    obtain ⟨shown, presented, typed, fit⟩ := describes.shown holds column rfl
    exact ⟨_, _, restored_scalar typed presented fit holds carried ok⟩
  | record type =>
    obtain ⟨inner, rfl, same, inside⟩ := Datum.holds_record.mp holds
    cases carried with
    | object carried =>
      have below : sizeOf inner < bound := by
        rw [Datum.record.sizeOf_spec] at small
        omega
      refine restored_record setting (smaller inner below inside) describes same ?_ ready carried ok
      intro target here
      obtain ⟨typed, fit⟩ := fits target here
      exact ⟨(Option.some.inj typed).symm, fit⟩
  | variant =>
    cases holds with
    | vacant => exact restored_null describes (absent rfl) .vacant rfl ok
    | @occupied inner inside =>
      cases carried with
      | object carried =>
        have below : sizeOf inner < bound := by
          rw [Datum.occupied.sizeOf_spec] at small
          omega
        have empty : ∀ old, held = some (.object old) → False := fun old here => by
          cases (fits old here).1
        exact restored_occupied setting (smaller inner below inside) describes empty ready carried
          ok
  | nullable inner ih =>
    cases nothing : x.toValue.isNull with
    | true => exact restored_null describes (absent nothing) holds nothing ok
    | false =>
      cases holds with
      | unset => cases nothing
      | @present _ d inside =>
        have within : sizeOf d ≤ bound := by
          rw [Datum.present.sizeOf_spec] at small
          omega
        have something : ¬d.toValue.isNull := Bool.eq_false_iff.mp nothing
        obtain ⟨v, y, here⟩ :=
          ih describes.inner inside within (fun null => absurd null something) fits ready carried ok
        exact ⟨v, .present y, here.present nothing⟩
  | list element ih =>
    cases holds with
    | @list _ items each =>
      rw [Datum.toValue, Context.present, ofValue] at ok
      · obtain ⟨place, described, ok⟩ := bind_eq_ok.mp ok
        obtain ⟨trees, written, ok⟩ := bind_eq_ok.mp ok
        obtain rfl := Except.ok.inj ok
        obtain ⟨within, same, optional⟩ := Context.elements_ok describes.element described
        cases carried with
        | array carried =>
          refine restored_list describes described (fun d member j tree => ?_) written
          have inside := each d member
          have unchanged := Context.present_eq inside same
          have below : sizeOf d ≤ bound := by
            have lower := List.sizeOf_lt_of_mem member
            rw [Datum.list.sizeOf_spec] at small
            omega
          refine ih within inside below (fun _ => optional) (fun _ none => by cases none) ?_ ?_ ?_
          · rw [unchanged]
            exact ready.element (Datum.mem_toValues.mpr ⟨d, member, rfl⟩)
          · rw [unchanged]
            exact carried place described _ (Datum.mem_toValues.mpr ⟨d, member, rfl⟩)
          · rw [unchanged, tree]
      · intro bits number
        cases number

end

end ObjectMapping.Json
