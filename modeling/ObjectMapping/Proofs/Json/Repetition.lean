import ObjectMapping.Proofs.Edit
import ObjectMapping.Proofs.Field.Typed
import ObjectMapping.Proofs.Json.Failure

/-! Reading a tree twice. A tree that is read into one instance of a type is read into all of them,
and makes the same changes in each; what is read a second time changes nothing. -/
namespace ObjectMapping.Json

/-- Whatever a tree without nested records is read as is a scalar. -/
private theorem typed_of_toPlain {c : Catalogue} {context : Context} {j : Json} {v : Value}
    (ok : toPlain context j = .ok v) : v.Typed c := by
  have integer : ∀ target n, Value.ofInteger target n = .ok v → v.Typed c := by
    intro target n ok
    unfold Value.ofInteger at ok
    split at ok
    · exact Except.ok.inj ok ▸ .scalar _
    · cases ok
  have whole : ∀ target j, toInteger target j = .ok v → v.Typed c := by
    intro target j ok
    unfold toInteger at ok
    split at ok
    · exact integer _ _ ok
    · cases ok
  unfold toPlain at ok
  split at ok
  · exact Except.ok.inj ok ▸ .scalar _
  · exact Except.ok.inj ok ▸ .scalar _
  · obtain ⟨t, -, rfl⟩ := except_map_eq_ok.mp ok
    exact .scalar _
  · unfold toEnum at ok
    split at ok
    · exact whole _ _ ok
    · obtain ⟨n, -, rfl⟩ := except_map_eq_ok.mp ok
      exact .scalar _
    · split at ok
      · obtain ⟨n, -, rfl⟩ := except_map_eq_ok.mp ok
        exact .scalar _
      · cases ok
    · cases ok
  · split at ok
    · exact Except.ok.inj ok ▸ .scalar _
    · cases ok
  · split at ok
    · exact Except.ok.inj ok ▸ .scalar _
    · cases ok
  · split at ok
    · exact whole _ _ ok
    · cases ok

private theorem typed_of_ofNull {c : Catalogue} {context : Context} {v : Value}
    (ok : ofNull context = .ok v) : v.Typed c := by
  unfold ofNull at ok
  split at ok
  · exact Except.ok.inj ok ▸ .null
  · split at ok
    · exact Except.ok.inj ok ▸ .array nofun
    · exact Except.ok.inj ok ▸ .null
    · exact Except.ok.inj ok ▸ .scalar _
    · cases ok

/-- What reading rests upon: types and descriptors are sound, and whatever is made, by default or for
a name, is an instance of a declared type. -/
private structure Grounds (c : Catalogue) (reg : Registry) (resolve : Resolver) : Prop where
  types : c.Sound
  registry : reg.Sound c
  regular : ∀ d ∈ reg.objects, ∀ f ∈ d.fields, f.Regular c
  defaults : ∀ d ∈ reg.objects, ∀ f ∈ d.fields, ∀ v, f.explicitDefault = some v → v.Typed c
  made : ∀ name r, resolve name = some r → r.Instance c

/-- The step makes the same changes in all instances of the type, and instances of them. -/
private def Changes (c : Catalogue) (type : TypeName) (step : Record → Except Error Record) : Prop :=
  ∃ edits, ∀ r : Record, r.Instance c → r.type = type →
    step r = .ok (Edit.run c.fresh edits r) ∧ (Edit.run c.fresh edits r).Instance c

variable {c : Catalogue} {reg : Registry} {resolve : Resolver} {options : JsonOptions}
variable {members : List (String × Json)} {f : Field} {d : Descriptor} {v : Value} {r s : Record}

private theorem Changes.nothing (type : TypeName) : Changes c type .ok :=
  ⟨[], fun _ inside _ => ⟨rfl, inside⟩⟩

/-- Steps that make changes make changes together. -/
private theorem Changes.append {first second : Record → Except Error Record}
    (before : Changes c type first) (after : Changes c type second) :
    Changes c type fun r => first r >>= second := by
  obtain ⟨edits, before⟩ := before
  obtain ⟨others, after⟩ := after
  refine ⟨edits ++ others, fun r inside same => ?_⟩
  obtain ⟨step, kept⟩ := before r inside same
  obtain ⟨next, still⟩ := after _ kept ((Edit.run_type edits r).trans same)
  rw [Edit.run_append]
  exact ⟨bind_eq_ok.mpr ⟨_, step, next⟩, still⟩

/-- A value that one record takes is a change of every instance. -/
private theorem changes_set (linked : f.Linked c) (typed : v.Typed c) (ok : f.set r v = .ok s) :
    Changes c f.owner (f.set · v) := by
  obtain ⟨-, d, fits, -⟩ := Field.set_eq_ok ok
  refine ⟨(Edit.put d).atPath f.path, fun t inside owned => ?_⟩
  have leads := owned ▸ linked.leads
  obtain ⟨old, found, -⟩ := Record.get_of_leads inside leads
  obtain ⟨changed, set, same, kept⟩ := Field.set_typed linked typed fits inside owned
  have run := Edit.set_eq_run inside leads found (.put d)
  rw [Edit.apply, same] at run
  rw [← Option.some.inj run]
  exact ⟨set, kept⟩

/-- What a slot for records of one type holds is changed in turn, or the first record of it is. -/
private theorem merged {shape : Shape} {x : Datum} {type : TypeName} {context : Context}
    (grounds : Grounds c reg resolve) (holds : x.Holds c shape) (object : shape.type = .object)
    (flat : shape.nullableDepth ≤ 1) (named : shape.recordType? = some type)
    (place : context.recordType = some type) (found : reg.byType? type = some d) :
    ∃ r : Record, nestedTarget reg context (some x.toValue) = .ok r ∧ r.Instance c ∧ r.type = type ∧
      ∀ edits, shape.ofValue (.object (Edit.run c.fresh edits r)) =
        .ok (Edit.apply c.fresh (c.initial type) (.merge edits) x) := by
  have stored : ∀ r : Record, r.type = type → ∀ edits,
      (Shape.record type).ofValue (.object (Edit.run c.fresh edits r)) =
        .ok (.record (Edit.run c.fresh edits r)) :=
    fun r same edits => if_pos ((Edit.run_type edits r).trans same)
  cases shape with
  | plain p => cases named
  | enum | variant | list => cases named
  | record other =>
    obtain rfl := Option.some.inj named
    obtain ⟨r, rfl, same, inside⟩ := Datum.holds_record.mp holds
    exact ⟨r, rfl, inside, same, stored r same⟩
  | nullable inner =>
    cases inner with
    | plain p => cases named
    | enum | variant | list => cases named
    | nullable => exact absurd flat (by simp [Shape.nullableDepth])
    | record other =>
      obtain rfl := Option.some.inj named
      have kept : ∀ r : Record, r.type = other → ∀ edits,
          (Shape.nullable (.record other)).ofValue (.object (Edit.run c.fresh edits r)) =
            .ok (.present (.record (Edit.run c.fresh edits r))) := by
        intro r same edits
        rw [Shape.ofValue_nullable rfl, stored r same]
        rfl
      cases holds with
      | unset =>
        obtain ⟨begins, same, inside⟩ := grounds.registry.initial_of_byType grounds.types found
        refine ⟨d.initial, ?_, inside, same, ?_⟩
        · unfold nestedTarget
          rw [place, Option.bind_some, found]
          rfl
        · rw [begins]
          exact kept d.initial same
      | present holds =>
        obtain ⟨r, rfl, same, inside⟩ := Datum.holds_record.mp holds
        exact ⟨r, rfl, inside, same, kept r same⟩

/-- What is read into is an instance, of the type of the records in the place if it is one for
records of one type. -/
private theorem nestedTarget_typed {context : Context} {held : Option Value} {target : Record}
    (grounds : Grounds c reg resolve)
    (before : ∀ r, held = some (.object r) → r.Instance c ∧ context.recordType = some r.type)
    (place : nestedTarget reg context held = .ok target) :
    target.Instance c ∧ context.recordType = some target.type := by
  unfold nestedTarget at place
  split at place
  · obtain rfl := Except.ok.inj place
    exact before _ rfl
  · split at place
    · rename_i d found
      obtain rfl := Except.ok.inj place
      obtain ⟨type, named, registered⟩ := Option.bind_eq_some_iff.mp found
      obtain ⟨-, same, inside⟩ := grounds.registry.initial_of_byType grounds.types registered
      exact ⟨inside, same ▸ named⟩
    · cases place

/-- A tree that is read into the record of a field makes the changes of that record. -/
private theorem changes_nested {inner : List (String × Json)} {type : TypeName}
    (grounds : Grounds c reg resolve) (sound : d.Sound c) (member : f ∈ d.fields)
    (object : f.type = .object) (named : f.shape.recordType? = some type)
    (found : members.lookup f.name = some (.object inner)) (known : reg.byType? type = some e)
    (changes : Changes c type (toRecord reg resolve options inner)) :
    Changes c d.type (toField reg resolve options members f) := by
  obtain ⟨edits, changes⟩ := changes
  refine ⟨(Edit.merge edits).atPath f.path, fun t inside same => ?_⟩
  have linked := sound.linked f member
  have owned : t.type = f.owner := same.trans (sound.owned f member).symm
  have leads := owned ▸ linked.leads
  have kind : f.shape.type = .object := linked.typed.elim (fun tag => tag.symm.trans object)
    fun tag => by cases object.symm.trans tag.1
  obtain ⟨x, here, holds⟩ := Record.get_of_leads inside leads
  have shown : f.get t = .ok x.toValue := by
    rw [Field.get_eq owned here, Field.present_of_ne_enum (by rw [object]; nofun)]
  have held : heldValue f t = .ok (some x.toValue) := by
    rw [heldValue, if_pos object, shown]
    rfl
  have single : (Context.ofField f).recordType = some type := named
  obtain ⟨target, place, typed, sameType, fits⟩ :=
    merged grounds holds kind (sound.flat f member).1 named single known
  obtain ⟨read, kept⟩ := changes target typed sameType
  have reads : toValue reg resolve options (.ofField f) (some x.toValue) (.object inner) =
      .ok (.object (Edit.run c.fresh edits target)) := toValue_nested object place read
  obtain ⟨changed, set, stored, still⟩ :=
    Field.set_typed linked (.object kept) (fits edits) inside owned
  have run := Edit.set_eq_run inside leads here (.merge edits)
  rw [named, Option.getD_some, stored] at run
  rw [← Option.some.inj run]
  exact ⟨toField_ok found held reads set, still⟩

/-- The walk over the fields is a step after the other. -/
private theorem toFields_eq_ok {fields : List Field} :
    toFields reg resolve options members fields r = (.ok (), s) ↔
      fields.foldlM (fun r f => toField reg resolve options members f r) r = .ok s := by
  induction fields generalizing r with
  | nil =>
    rw [toFields, List.foldlM_nil]
    exact ⟨fun ok => congrArg Except.ok (Prod.mk.inj ok).2, fun ok =>
      congrArg (Prod.mk (Except.ok ())) (Except.ok.inj ok)⟩
  | cons f rest ih =>
    rw [toFields, List.foldlM_cons]
    cases toField reg resolve options members f r with
    | error e =>
      constructor <;> intro ok <;> cases ok
    | ok next => exact ih

/-- Whatever the place holds for nested objects stands there as one of them. -/
private def Stood (c : Catalogue) (context : Context) (held : Option Value) : Prop :=
  ∀ r, held = some (.object r) → r.Instance c ∧ context.recordType = some r.type

/-- What a field holds already stands there. -/
private theorem stood_of_heldValue {x : Datum} (owned : r.type = f.owner) (linked : f.Linked c)
    (here : r.get? f.path = some x) (holds : x.Holds c f.shape)
    (looked : heldValue f r = .ok held) : Stood c (.ofField f) held := by
  obtain ⟨_, again, holding⟩ := heldValue_ok owned here
  obtain rfl := Except.ok.inj (looked.symm.trans again)
  intro target same
  obtain ⟨object, shown⟩ := (holding target).mp same
  obtain ⟨inside, named | variant⟩ := Shape.holds_object holds shown
  · exact ⟨inside, named⟩
  · rcases linked.typed with type | ⟨enum, -⟩
    · cases (object.symm.trans type).trans variant
    · cases object.symm.trans enum

-- Reading goes down the tree, so the induction is on its size, as the recursion of the walk is.
mutual

/-- What is read holds instances of declared types only. -/
private theorem typed_of_toValue (grounds : Grounds c reg resolve) {context : Context}
    {held : Option Value} {j : Json} {v : Value} (stood : Stood c context held)
    (ok : toValue reg resolve options context held j = .ok v) : v.Typed c := by
  cases nothing : j.isNull with
  | true =>
    rw [toValue_null nothing] at ok
    exact typed_of_ofNull ok
  | false =>
    rcases toValue_eq_ok nothing ok with ⟨-, plain⟩ | ⟨-, members, target, r, rfl, place, read, rfl⟩ |
      ⟨-, members, target, r, rfl, made, read, rfl⟩ | ⟨-, items, place, values, rfl, -, read, rfl⟩
    · exact typed_of_toPlain plain
    · obtain ⟨inside, -⟩ := nestedTarget_typed grounds stood place
      obtain ⟨edits, changes⟩ := changes_record grounds inside read
      obtain ⟨again, kept⟩ := changes target inside rfl
      obtain rfl := Except.ok.inj (read.symm.trans again)
      exact .object kept
    · obtain ⟨name, -, resolved⟩ := namedTarget_eq_ok made
      have inside := grounds.made name target resolved
      obtain ⟨edits, changes⟩ := changes_record grounds inside read
      obtain ⟨again, kept⟩ := changes target inside rfl
      obtain rfl := Except.ok.inj (read.symm.trans again)
      exact .object kept
    · exact .array (typed_of_toItems grounds read)
termination_by (sizeOf j, 0, 0)

private theorem typed_of_toItems (grounds : Grounds c reg resolve) {context : Context}
    {items : List Json} {values : List Value}
    (ok : toItems reg resolve options context items = .ok values) : ∀ v ∈ values, v.Typed c := by
  cases items with
  | nil =>
    rw [toItems] at ok
    obtain rfl := Except.ok.inj ok
    nofun
  | cons j items =>
    obtain ⟨v, others, first, later, rfl⟩ := toItems_cons_eq_ok ok
    have empty : Stood c context none := fun _ some => by cases some
    exact List.forall_mem_cons.mpr
      ⟨typed_of_toValue grounds empty first, typed_of_toItems grounds later⟩
termination_by (sizeOf items, 0, 0)

private theorem changes_field (grounds : Grounds c reg resolve) {d : Descriptor} {f : Field}
    {members : List (String × Json)} {r s : Record} (member : d ∈ reg.objects) (listed : f ∈ d.fields)
    (typed : r.Instance c) (same : r.type = d.type)
    (ok : toField reg resolve options members f r = .ok s) :
    Changes c d.type (toField reg resolve options members f) := by
  have sound := grounds.registry.described d member
  have linked := sound.linked f listed
  obtain ⟨owned, x, here, holds⟩ := sound.content listed typed same
  rcases toField_eq_ok ok with ⟨missing, absent⟩ | ⟨j, held, v, found, looked, read, set⟩
  · have step : toField reg resolve options members f = f.resolveAbsent :=
      funext fun t => toField_absent missing
    rw [step]
    unfold Field.resolveAbsent at absent ⊢
    cases rule : f.mandatoriness with
    | required =>
      rw [rule] at absent
      cases absent
    | optional => exact .nothing d.type
    | defaultable =>
      rw [rule] at absent
      have default := Field.typed_defaultForAbsent grounds.types (grounds.regular d member f listed)
        holds (grounds.defaults d member f listed)
      exact sound.owned f listed ▸ changes_set linked default absent
  · have stood := stood_of_heldValue owned linked here holds looked
    have smaller := sizeOf_lookup_lt found
    by_cases nested : f.type = .object ∧ j.isNull = false
    · obtain ⟨object, something⟩ := nested
      rcases toValue_eq_ok something read with ⟨other, -⟩ |
        ⟨-, inner, target, new, rfl, place, inside, rfl⟩ | ⟨variant, -⟩ | ⟨array, -⟩
      · exact absurd object other
      · obtain ⟨typed, named⟩ := nestedTarget_typed grounds stood place
        obtain ⟨e, known, -⟩ := toRecord_eq_ok inside
        have deeper : sizeOf inner < sizeOf members := by
          simp only [Json.object.sizeOf_spec] at smaller
          omega
        exact changes_nested grounds sound listed object named found known
          (changes_record grounds typed inside)
      · cases object.symm.trans variant
      · cases object.symm.trans array
    · -- What is read does not depend on the record, so that it is written into all alike.
      have unheld : (Context.ofField f).type = .object → j.isNull := fun object => by
        by_contra something
        exact nested ⟨object, Bool.eq_false_iff.mpr something⟩
      obtain ⟨edits, changes⟩ := changes_set linked (typed_of_toValue grounds stood read) set
      refine ⟨edits, fun t inside type => ?_⟩
      obtain ⟨owned, y, there, -⟩ := sound.content listed inside type
      obtain ⟨other, looked, -⟩ := heldValue_ok owned there
      obtain ⟨set, kept⟩ := changes t inside owned
      exact ⟨toField_ok found looked ((toValue_unheld unheld other held).trans read) set, kept⟩
termination_by (sizeOf members, 1, 0)

private theorem changes_fields (grounds : Grounds c reg resolve) {d : Descriptor}
    {members : List (String × Json)} {fields : List Field} {r s : Record} (member : d ∈ reg.objects)
    (listed : ∀ f ∈ fields, f ∈ d.fields) (typed : r.Instance c) (same : r.type = d.type)
    (ok : fields.foldlM (fun r f => toField reg resolve options members f r) r = .ok s) :
    Changes c d.type (fields.foldlM fun r f => toField reg resolve options members f r) := by
  cases fields with
  | nil => exact .nothing d.type
  | cons f rest =>
    obtain ⟨here, later⟩ := List.forall_mem_cons.mp listed
    rw [List.foldlM_cons] at ok
    obtain ⟨next, read, ok⟩ := bind_eq_ok.mp ok
    have first := changes_field grounds member here typed same read
    have ⟨edits, changes⟩ := first
    obtain ⟨again, kept⟩ := changes r typed same
    obtain rfl := Except.ok.inj (read.symm.trans again)
    exact first.append (changes_fields grounds member later kept
      ((Edit.run_type edits r).trans same) ok)
termination_by (sizeOf members, 2, fields.length)

private theorem changes_record (grounds : Grounds c reg resolve) {members : List (String × Json)}
    {target r : Record} (typed : target.Instance c)
    (ok : toRecord reg resolve options members target = .ok r) :
    Changes c target.type (toRecord reg resolve options members) := by
  obtain ⟨d, found, read⟩ := toRecord_eq_ok ok
  obtain ⟨member, same⟩ := Registry.byType_mem found
  obtain ⟨edits, changes⟩ := changes_fields grounds member (fun f listed => listed) typed same.symm
    (toFields_eq_ok.mp read)
  refine ⟨edits, fun t inside type => ?_⟩
  obtain ⟨again, kept⟩ := changes t inside (type.trans same.symm)
  exact ⟨toRecord_ok (type ▸ found) (toFields_eq_ok.mpr again), kept⟩
termination_by (sizeOf members, 3, 0)

end

/-- Reading the same tree once more changes nothing. What has been read into a record is read into
the result as well, and the result stays as it is, whatever is read into records that are held
already, replaced by new ones, left out or written by several fields. -/
theorem decodeInto_twice {objects : List Descriptor} {enums : List Enumeration} {j : Json}
    {target : Record} (types : c.Sound) (built : ∀ d ∈ objects, d.Built c)
    (accepted : Registry.build objects enums = .ok reg)
    (defaults : ∀ d ∈ objects, ∀ f ∈ d.fields, ∀ v, f.explicitDefault = some v → v.Typed c)
    (made : ∀ name r, resolve name = some r → r.Instance c) (typed : target.Instance c)
    (ok : (decodeInto reg resolve options j).perform target = (.ok (), r)) :
    (decodeInto reg resolve options j).perform r = (.ok (), r) := by
  obtain rfl := Registry.objects_of_build accepted
  have regular : ∀ d ∈ reg.objects, ∀ f ∈ d.fields, f.Regular c :=
    fun d member => (built d member).each (fun _ declared => declared.regular)
      fun _ _ _ before => ⟨before.zero, before.described⟩
  have grounds : Grounds c reg resolve :=
    ⟨types, Registry.sound_of_build built accepted, regular, defaults, made⟩
  obtain ⟨members, d, rfl, found, read⟩ := decodeInto_eq_ok ok
  have first := toRecord_ok found read
  obtain ⟨edits, changes⟩ := changes_record grounds typed first
  obtain ⟨once, kept⟩ := changes target typed rfl
  obtain rfl := Except.ok.inj (first.symm.trans once)
  obtain ⟨again, -⟩ := changes _ kept (Edit.run_type edits target)
  rw [Edit.run_run] at again
  exact decodeInto_ok again

namespace Picture

private theorem built_descriptors : ∀ d ∈ [pictureDescriptor, pointDescriptor], d.Built catalogue := by
  have known : catalogue.type? pictures.name = some pictures := rfl
  have hasTitle : pictures.slot? titleSlot.name = some titleSlot := rfl
  have hasSpot : pictures.slot? spotSlot.name = some spotSlot := rfl
  have knownPoint : catalogue.type? points.name = some points := rfl
  have hasX : points.slot? xSlot.name = some xSlot := rfl
  have hasY : points.slot? ySlot.name = some ySlot := rfl
  have ofPicture : pictureDescriptor.Built catalogue :=
    .build (.field (.field (.draft known "Picture") (.slot known hasTitle 0 "title"))
      (.slot known hasSpot 24 "spot")) rfl
  have ofPoint : pointDescriptor.Built catalogue :=
    .build (.field (.field (.draft knownPoint "Point") (.slot knownPoint hasX 0 "x"))
      (.slot knownPoint hasY 4 "y")) rfl
  simp [ofPicture, ofPoint]

private theorem instance_point (x y : Int32) : (point x y).Instance catalogue := by
  have found : catalogue.type? "Point" = some points := rfl
  refine .of_slots found fun slot member => ?_
  simp only [points, List.mem_cons, List.not_mem_nil, or_false] at member
  rcases member with rfl | rfl <;> exact ⟨_, rfl, .plain rfl⟩

private theorem instance_picture (title : String) (holds : spot.Holds catalogue spotSlot.shape) :
    (picture title spot).Instance catalogue := by
  have found : catalogue.type? "Picture" = some pictures := rfl
  refine .of_slots found fun slot member => ?_
  simp only [pictures, List.mem_cons, List.not_mem_nil, or_false] at member
  rcases member with rfl | rfl
  · exact ⟨_, rfl, .plain rfl⟩
  · exact ⟨_, rfl, holds⟩

private theorem sound_catalogue : catalogue.Sound := by
  intro name t found
  have named : t.name = name := by simpa using List.find?_some found
  have member : t ∈ catalogue := List.mem_of_find?_eq_some found
  simp only [catalogue, List.mem_cons, List.not_mem_nil, or_false] at member
  rcases member with rfl | rfl
  · exact ⟨named, instance_picture "" .unset⟩
  · exact ⟨named, instance_point 0 0⟩

private theorem no_defaults : ∀ d ∈ [pictureDescriptor, pointDescriptor], ∀ f ∈ d.fields,
    f.explicitDefault = none := by
  simp [pictureDescriptor, pointDescriptor, titleField, spotField, xField, yField, Field.ofSlot]

end Picture

open Picture in
/-- The spot is new at first, and from then on one that is there already. -/
theorem decodeInto_twice_picture :
    (decodeInto registry registry.resolver .default
        (.object [("spot", .object [("x", .integer 5)])])).perform (picture "old" .unset) =
      (.ok (), picture "old" (.present (.record (point 5 0)))) ∧
    (decodeInto registry registry.resolver .default
        (.object [("spot", .object [("x", .integer 5)])])).perform
          (picture "old" (.present (.record (point 5 0)))) =
      (.ok (), picture "old" (.present (.record (point 5 0)))) := by
  have read : (decodeInto registry registry.resolver .default
      (.object [("spot", .object [("x", .integer 5)])])).perform (picture "old" .unset) =
      (.ok (), picture "old" (.present (.record (point 5 0)))) := by cbv
  have accepted : Registry.build [pictureDescriptor, pointDescriptor] [] = .ok registry := rfl
  have defaults : ∀ d ∈ [pictureDescriptor, pointDescriptor], ∀ f ∈ d.fields, ∀ v,
      f.explicitDefault = some v → v.Typed catalogue :=
    fun d member f listed v given => by cases (no_defaults d member f listed).symm.trans given
  have made : ∀ name r, registry.resolver name = some r → r.Instance catalogue := by
    intro name r found
    obtain ⟨d, known, rfl⟩ := Option.map_eq_some_iff.mp found
    exact ((Registry.sound_of_build built_descriptors accepted).initial sound_catalogue
      (List.mem_of_find?_eq_some known)).2
  exact ⟨read, decodeInto_twice sound_catalogue built_descriptors accepted defaults made
    (instance_picture "old" .unset) read⟩

end ObjectMapping.Json
