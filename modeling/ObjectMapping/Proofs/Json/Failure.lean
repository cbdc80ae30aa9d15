import ObjectMapping.Json.InPlace
import ObjectMapping.Proofs.Field.Access
import ObjectMapping.Proofs.Json.Resolver

/-! Reading that fails. The record is left as the fields before the failing one have made it, and
the failing one keeps what it held, however far its own tree has been read. -/
namespace ObjectMapping

theorem Field.perform_assignAbsent (f : Field) (r : Record) :
    f.assignAbsent.perform r = (Action.update f.resolveAbsent).perform r := by
  unfold assignAbsent resolveAbsent Action.update
  rw [Action.perform_ofFunction]
  cases f.mandatoriness with
  | required | optional => rfl
  | defaultable => exact f.perform_assign f.defaultForAbsent r

namespace Json

variable {reg : Registry} {resolve : Resolver} {options : JsonOptions}
variable {members : List (String × Json)} {fields before : List Field} {f : Field} {j : Json}
variable {r s target : Record} {e : Error}

private theorem looked : (getThe Record : Action Record Record).perform r = (.ok r, r) := rfl

/-- Reading a field in place is reading it, and keeping the record when that fails. -/
theorem perform_readField (members : List (String × Json)) (f : Field) (r : Record) :
    (readField reg resolve options members f).perform r =
      (Action.update (toField reg resolve options members f)).perform r := by
  unfold readField
  rw [Action.update, Action.perform_ofFunction]
  cases found : members.lookup f.name with
  | none =>
    rw [toField_absent found]
    exact f.perform_assignAbsent r
  | some j =>
    rw [toField_found found]
    simp only [Action.perform_bind, looked, Action.perform_ofExcept]
    cases heldValue f r with
    | error e => rfl
    | ok held =>
      simp only [bind, Except.bind]
      cases inField f.name (toValue reg resolve options (.ofField f) held j) with
      | error e => rfl
      | ok v => exact f.perform_assign v r

private theorem perform_forM_cons (step : Field → Action Record Unit) (f : Field)
    (rest : List Field) (r : Record) :
    ((f :: rest).forM step).perform r =
      match (step f).perform r with
      | (.ok (), next) => (rest.forM step).perform next
      | (.error e, next) => (.error e, next) := by
  change (step f >>= fun _ => rest.forM step).perform r = _
  rw [Action.perform_bind]
  rcases (step f).perform r with ⟨_ | _, next⟩ <;> rfl

/-- Reading the fields in place is reading them one after the other. -/
theorem perform_readFields (members : List (String × Json)) (fields : List Field) (r : Record) :
    (fields.forM (readField reg resolve options members)).perform r =
      toFields reg resolve options members fields r := by
  induction fields generalizing r with
  | nil =>
    rw [toFields]
    rfl
  | cons f rest ih =>
    rw [perform_forM_cons, perform_readField, Action.update, Action.perform_ofFunction, toFields]
    cases toField reg resolve options members f r with
    | error e => rfl
    | ok next => exact ih next

theorem perform_readRecord (members : List (String × Json)) (r : Record) :
    (readRecord reg resolve options members).perform r =
      match reg.descriptorFor r with
      | .ok d => toFields reg resolve options members d.fields r
      | .error e => (.error e, r) := by
  unfold readRecord
  simp only [Action.perform_bind, looked, Action.perform_ofExcept]
  cases reg.descriptorFor r with
  | error e => rfl
  | ok d => exact perform_readFields members d.fields r

/-- A record that is nested is read in place like any other, in a copy that is given up when reading
it fails. -/
theorem toRecord_eq (members : List (String × Json)) (target : Record) :
    toRecord reg resolve options members target =
      match (readRecord reg resolve options members).perform target with
      | (.ok (), r) => .ok r
      | (.error e, _) => .error e := by
  rw [toRecord, perform_readRecord]
  cases reg.descriptorFor target with
  | error e => rfl
  | ok d =>
    simp only [bind, Except.bind]
    cases toFields reg resolve options members d.fields target with
    | mk outcome r => cases outcome <;> rfl

/-- An object is read in place. -/
theorem perform_decodeInto (members : List (String × Json)) (target : Record) :
    (decodeInto reg resolve options (.object members)).perform target =
      (readRecord reg resolve options members).perform target := by
  rw [perform_readRecord]
  simp only [decodeInto, Action.perform_bind, looked, Action.perform_ofExcept]
  cases reg.descriptorFor target <;> rfl

/-- Nothing but an object is read into a record. -/
theorem perform_decodeInto_other (other : ∀ members, j ≠ .object members) (target : Record) :
    (decodeInto reg resolve options j).perform target = (.error (mismatch .object j), target) := by
  cases j with
  | object members => exact absurd rfl (other members)
  | _ => rfl

/-- A walk of steps that leave the record alone when they fail ends at the first that does. -/
private theorem perform_forM_error {step : Field → Action Record Unit}
    (clean : ∀ f r e s, (step f).perform r = (.error e, s) → s = r) :
    (fields.forM step).perform target = (.error e, r) ↔
      ∃ before f after, fields = before ++ f :: after ∧
        (before.forM step).perform target = (.ok (), r) ∧ (step f).perform r = (.error e, r) := by
  induction fields generalizing target with
  | nil =>
    constructor
    · nofun
    · rintro ⟨before, f, after, split, -⟩
      cases before <;> cases split
  | cons g rest ih =>
    rw [perform_forM_cons]
    rcases done : (step g).perform target with ⟨cause | _, next⟩
    · obtain rfl := clean g target cause next done
      constructor
      · intro ends
        obtain ⟨-, rfl⟩ := Prod.mk.inj ends
        exact ⟨[], g, rest, rfl, rfl, done.trans ends⟩
      · rintro ⟨before, f, after, split, earlier, fails⟩
        rcases List.cons_eq_append_iff.mp split with ⟨rfl, same⟩ | ⟨later, rfl, -⟩
        · obtain ⟨rfl, -⟩ := List.cons.inj same
          obtain ⟨-, rfl⟩ := Prod.mk.inj earlier
          exact done.symm.trans fails
        · rw [perform_forM_cons, done] at earlier
          cases earlier
    · refine ih.trans ⟨?_, ?_⟩
      · rintro ⟨before, f, after, rfl, earlier, fails⟩
        exact ⟨g :: before, f, after, rfl, by rw [perform_forM_cons, done]; exact earlier, fails⟩
      · rintro ⟨before, f, after, split, earlier, fails⟩
        rcases List.cons_eq_append_iff.mp split with ⟨rfl, same⟩ | ⟨later, rfl, rest⟩
        · obtain ⟨rfl, -⟩ := List.cons.inj same
          obtain ⟨-, rfl⟩ := Prod.mk.inj earlier
          cases fails.symm.trans done
        · rw [perform_forM_cons, done] at earlier
          exact ⟨later, f, after, rest, earlier, fails⟩

/-- A field that cannot be read is left as it is. -/
private theorem readField_clean (members : List (String × Json)) (f : Field) (r : Record) (e : Error)
    (s : Record)
    (failed : (readField reg resolve options members f).perform r = (.error e, s)) : s = r := by
  rw [perform_readField, Action.update, Action.perform_ofFunction] at failed
  split at failed
  · cases failed
  · exact (Prod.mk.inj failed).2.symm

private theorem toItems_error {context : Context} {read rest : List Json} {values : List Value}
    (earlier : toItems reg resolve options context read = .ok values)
    (fails : toValue reg resolve options context none j = .error e) :
    toItems reg resolve options context (read ++ j :: rest) = .error e := by
  induction read generalizing values with
  | nil =>
    rw [List.nil_append, toItems]
    exact bind_eq_error.mpr (.inl fails)
  | cons first read ih =>
    obtain ⟨v, others, here, later, -⟩ := toItems_cons_eq_ok earlier
    rw [List.cons_append, toItems]
    exact bind_eq_error.mpr (.inr ⟨v, here, bind_eq_error.mpr (.inl (ih later))⟩)

/-- The value of a tree that breaks off inside is not there. -/
private theorem toValue_breaksOff (breaks : BreaksOff reg resolve options f r j e) :
    ∃ held, heldValue f r = .ok held ∧
      toValue reg resolve options (.ofField f) held j = .error e := by
  have copied : ∀ {inner copy part}, (readRecord reg resolve options inner).perform copy =
      (.error e, part) → toRecord reg resolve options inner copy = .error e := by
    intro inner copy part fails
    rw [toRecord_eq, fails]
  have unheld : f.type ≠ .object → heldValue f r = .ok none :=
    fun other => if_neg other
  cases breaks with
  | nested object looked place fails =>
    refine ⟨_, looked, ?_⟩
    have kind : (Context.ofField f).type = .object := object
    rw [toValue_object_eq kind]
    exact bind_eq_error.mpr (.inr ⟨_, place, bind_eq_error.mpr (.inl (copied fails))⟩)
  | named variant made fails =>
    refine ⟨none, unheld (by rw [variant]; nofun), ?_⟩
    have kind : (Context.ofField f).type = .variant := variant
    rw [toValue_variant_eq kind]
    exact bind_eq_error.mpr (.inr ⟨_, made, bind_eq_error.mpr (.inl (copied fails))⟩)
  | element array described earlier fails =>
    refine ⟨none, unheld (by rw [array]; nofun), ?_⟩
    have kind : (Context.ofField f).type = .array := array
    rw [toValue_array_eq kind]
    exact bind_eq_error.mpr (.inr ⟨_, described, bind_eq_error.mpr (.inl (toItems_error earlier fails))⟩)

/-- Reading that fails stops cleanly. Either nothing is read at all, because the tree is no object or
the type of the record is not registered, or reading ends at a field of the descriptor, and then the
record is what reading the fields before it has left. The field keeps what it held by then, which is
what it held in the first place unless one of those may have written over it. In particular, a tree
that breaks off inside changes nothing, however much of it had been read. -/
theorem decodeInto_error_iff (reg : Registry) (resolve : Resolver) (options : JsonOptions) (j : Json)
    (target : Record) (e : Error) (r : Record) :
    ((decodeInto reg resolve options j).perform target = (.error e, r) ↔
      r = target ∧ ((∀ members, j ≠ .object members) ∧ e = mismatch .object j ∨
        (∃ members, j = .object members) ∧ reg.descriptorFor target = .error e) ∨
      ∃ members before f, j = .object members ∧
        EndsAt reg resolve options members target before f e r) ∧
    (∀ members before f, EndsAt reg resolve options members target before f e r →
      (∀ g ∈ before, Spares members f g) → f.get r = f.get target) ∧
    ∀ members f tree cause, members.lookup f.name = some tree →
      BreaksOff reg resolve options f r tree cause →
      (readField reg resolve options members f).perform r = (.error (cause.inField f.name), r) := by
  refine ⟨?_, ?_, ?_⟩
  · by_cases object : ∃ members, j = .object members
    · obtain ⟨members, rfl⟩ := object
      rw [perform_decodeInto, perform_readRecord]
      cases described : reg.descriptorFor target with
      | error cause =>
        have unknown : reg.byType? target.type = none := by
          cases found : reg.byType? target.type with
          | none => rfl
          | some d => cases described.symm.trans (Registry.descriptorFor_eq.mpr found)
        constructor
        · rintro ⟨⟩
          exact .inl ⟨rfl, .inr ⟨⟨members, rfl⟩, rfl⟩⟩
        · rintro (⟨rfl, ⟨other, -⟩ | ⟨-, same⟩⟩ | ⟨_, _, _, _, ⟨found, -, -, -⟩⟩)
          · exact absurd rfl (other members)
          · rw [Except.error.inj same]
          · cases unknown.symm.trans found
      | ok d =>
        have found := Registry.descriptorFor_eq.mp described
        simp only
        rw [← perform_readFields, perform_forM_error (readField_clean members)]
        constructor
        · rintro ⟨before, f, after, order, earlier, fails⟩
          exact .inr ⟨members, before, f, rfl, ⟨found, order, earlier, fails⟩⟩
        · rintro (⟨rfl, ⟨other, -⟩ | ⟨-, failed⟩⟩ | ⟨_, before, f, same, ⟨again, order, earlier, fails⟩⟩)
          · exact absurd rfl (other members)
          · cases failed
          · obtain rfl := Json.object.inj same
            obtain rfl := Option.some.inj (found.symm.trans again)
            exact ⟨before, f, _, order, earlier, fails⟩
    · have other : ∀ members, j ≠ .object members := fun members same => object ⟨members, same⟩
      rw [perform_decodeInto_other other]
      constructor
      · rintro ⟨⟩
        exact .inl ⟨rfl, .inl ⟨other, rfl⟩⟩
      · rintro (⟨rfl, ⟨-, rfl⟩ | ⟨some, -⟩⟩ | ⟨members, _, _, same, -⟩)
        · rfl
        · exact absurd some object
        · exact absurd same (other members)
  · rintro members before f ⟨-, -, earlier, -⟩ spared
    rw [perform_readFields] at earlier
    obtain ⟨type, still⟩ := toFields_keeps earlier
    rw [Field.get, Field.get, type, still f spared]
  · intro members f tree cause found breaks
    obtain ⟨held, looked, fails⟩ := toValue_breaksOff breaks
    rw [perform_readField, Action.update, Action.perform_ofFunction, toField_found found, looked]
    simp only [bind, Except.bind, fails]
    rfl

namespace Picture

def xSlot : Slot := ⟨"x", .plain .int32, 0, 4⟩

def ySlot : Slot := ⟨"y", .plain .int32, 4, 4⟩

def point (x y : Int32) : Record :=
  .mk "Point" [("x", .scalar (.int32 x)), ("y", .scalar (.int32 y))]

def points : RecordType := ⟨"Point", [xSlot, ySlot], 8, point 0 0⟩

def titleSlot : Slot := ⟨"title", .plain .string, 0, 24⟩

def spotSlot : Slot := ⟨"spot", .nullable (.record "Point"), 24, 12⟩

/-- A picture has a title and perhaps a spot on it. -/
def picture (title : String) (spot : Datum) : Record :=
  .mk "Picture" [("title", .scalar (.string title)), ("spot", spot)]

def pictures : RecordType := ⟨"Picture", [titleSlot, spotSlot], 36, picture "" .unset⟩

def catalogue : Catalogue := [pictures, points]

def xField : Field := Field.ofSlot catalogue "Point" xSlot "x"

def yField : Field := Field.ofSlot catalogue "Point" ySlot "y"

def titleField : Field := Field.ofSlot catalogue "Picture" titleSlot "title"

def spotField : Field := Field.ofSlot catalogue "Picture" spotSlot "spot"

def pointDescriptor : Descriptor :=
  ⟨"Point", "Point", "Point", none, [xField, yField], 0, point 0 0⟩

def pictureDescriptor : Descriptor :=
  ⟨"Picture", "Picture", "Picture", none, [titleField, spotField], 0, picture "" .unset⟩

def registry : Registry := ⟨[pictureDescriptor, pointDescriptor], []⟩

/-- A spot of which one half can be read. -/
def spoiltSpot : List (String × Json) := [("x", .integer 5), ("y", .string "bad")]

def spoilt : List (String × Json) := [("title", .string "new"), ("spot", .object spoiltSpot)]

end Picture

open Picture in
/-- The picture has got its new title and shows the old spot, although one half of the new spot had
been read. -/
theorem decodeInto_error_picture :
    ∃ cause e,
      (readRecord registry registry.resolver .default spoiltSpot).perform (point 1 2) =
        (.error cause, point 5 2) ∧
      (decodeInto registry registry.resolver .default (.object spoilt)).perform
          (picture "old" (.present (.record (point 1 2)))) =
        (.error e, picture "new" (.present (.record (point 1 2)))) ∧
      spotField.get (picture "new" (.present (.record (point 1 2)))) = .ok (.object (point 1 2)) := by
  have order : pictureDescriptor.fields = [titleField] ++ spotField :: [] := rfl
  have earlier : ([titleField].forM
      (readField registry registry.resolver .default spoilt)).perform
        (picture "old" (.present (.record (point 1 2)))) =
      (.ok (), picture "new" (.present (.record (point 1 2)))) := by cbv
  have half : (readRecord registry registry.resolver .default spoiltSpot).perform (point 1 2) =
      (.error ((mismatch .int32 (.string "bad")).inField "y"), point 5 2) := by cbv
  have looked : heldValue spotField (picture "new" (.present (.record (point 1 2)))) =
      .ok (some (.object (point 1 2))) := rfl
  have breaks : BreaksOff registry registry.resolver .default spotField
      (picture "new" (.present (.record (point 1 2)))) (.object spoiltSpot)
      ((mismatch .int32 (.string "bad")).inField "y") := .nested rfl looked rfl half
  obtain ⟨ends, keeps, clean⟩ := decodeInto_error_iff registry registry.resolver .default
    (.object spoilt) (picture "old" (.present (.record (point 1 2))))
    (((mismatch .int32 (.string "bad")).inField "y").inField "spot")
    (picture "new" (.present (.record (point 1 2))))
  have stops : EndsAt registry registry.resolver .default spoilt
      (picture "old" (.present (.record (point 1 2)))) [titleField] spotField
      (((mismatch .int32 (.string "bad")).inField "y").inField "spot")
      (picture "new" (.present (.record (point 1 2)))) :=
    .intro rfl order earlier (clean spoilt spotField _ _ rfl breaks)
  have apart : ∀ g ∈ [titleField], Spares spoilt spotField g := by
    intro g member
    obtain rfl := List.mem_singleton.mp member
    exact .inl ⟨by decide, by decide⟩
  exact ⟨_, _, half, ends.mpr (.inr ⟨spoilt, _, _, rfl, stops⟩),
    (keeps spoilt _ _ stops apart).trans rfl⟩

end Json

end ObjectMapping
