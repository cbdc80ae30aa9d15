import ObjectMapping.Proofs.Json.Restoring

/-! A record is read back from its tree field by field. A field without a member is resolved as
absent and becomes null, because the record that is read into implies it and no field read
before has changed that. Embedded records are smaller than the record that embeds them, which
is what the induction is on. -/
namespace ObjectMapping.Json

variable {c : Catalogue} {reg : Registry} {options : JsonOptions} {x y old : Datum} {j : Json}
variable {members : List (String × Json)} {o r s : Record} {f : Field} {v : Value}

/-- The record is ready for what the original has in the field, be it left out or not. -/
private def Awaits (reg : Registry) (options : JsonOptions) (o r : Record) (f : Field) : Prop :=
  options.emitNulls ∨ ∀ v, f.get o = .ok v → (v = .null → f.NullWhenAbsent r) ∧
    (v ≠ .null → ∃ held, heldValue f r = .ok held ∧ v.NullsImplied reg (held.getD .null))

private theorem awaits_fields {d : Descriptor} (ready : Ready reg options (.object o) (.object r))
    (found : reg.byType? o.type = some d) (member : f ∈ d.fields) : Awaits reg options o r f := by
  refine ready.imp_right fun implied v read => ?_
  cases implied with
  | object found' value inPlace reads nulls nested each =>
    obtain rfl := Option.some.inj (found.symm.trans found')
    obtain rfl := Except.ok.inj ((reads f member).symm.trans read)
    refine ⟨nulls f member, fun something => ?_⟩
    have implied := each f member something
    by_cases object : f.type = .object
    · rw [if_pos object] at implied
      refine ⟨some (inPlace f), ?_, implied⟩
      have there : f.get r = .ok (inPlace f) := nested f member something object
      rw [heldValue, if_pos object, there]
      rfl
    · rw [if_neg object] at implied
      exact ⟨none, if_neg object, implied⟩

private theorem Awaits.nearer (awaits : Awaits reg options o r f) (near : o.Nearer reg r s)
    (type : s.type = r.type) : Awaits reg options o s f := by
  refine awaits.imp_right fun awaits v read => ?_
  obtain ⟨absent, present⟩ := awaits v read
  refine ⟨fun null => (absent null).mono fun there => ?_, fun something => ?_⟩
  · exact Value.NullsImplied.null_of_step (null ▸ read) there type (near.implied f.path)
  · obtain ⟨held, looked, implied⟩ := present something
    unfold heldValue at looked ⊢
    by_cases object : f.type = .object
    · rw [if_pos object] at looked ⊢
      obtain ⟨w, there, rfl⟩ := except_map_eq_ok.mp looked
      obtain ⟨w, there, implied⟩ :=
        implied.get_of_step (.inr object) read there type (near.implied f.path)
      exact ⟨some w, except_map_eq_ok.mpr ⟨w, there, rfl⟩, implied⟩
    · rw [if_neg object] at looked ⊢
      exact ⟨held, looked, implied⟩

/-- Writing what agrees with the original into one of its fields. -/
private theorem set_restored (inside : r.Instance c) (same : r.type = o.type)
    (owned : f.owner = o.type) (linked : f.Linked c) (here : o.get? f.path = some x)
    (there : r.get? f.path = some old) (fits : f.shape.ofValue v = .ok y)
    (holds : y.Holds c f.shape) (agrees : x.toValue.Matches reg y.toValue)
    (absent : v.isNull → 0 < f.shape.nullableDepth ∨ f.shape.type = .variant)
    (keeps : ∀ inner held, x = .record inner → old = .record held →
      ∃ new, y = .record new ∧ inner.Nearer reg held new) :
    ∃ changed, f.set r v = .ok changed ∧ changed.type = o.type ∧ changed.Instance c ∧
      o.MatchesAt reg changed f.path ∧ o.Nearer reg r changed := by
  have leads : c.Leads r.type f.path f.shape := same ▸ owned ▸ linked.leads
  obtain ⟨changed, set, kept, type⟩ := Record.set_of_leads inside leads holds
  refine ⟨changed, ?_, type.trans same, kept, ⟨x, y, here, Record.get_of_set set, agrees⟩, ?_⟩
  · refine Field.set_eq (same.trans owned.symm) (fun null => ?_) fits set
    rcases absent null with nullable | variant
    · exact .inl (decide_eq_true nullable)
    · exact .inr ((Context.Describes.ofField linked).type variant (by decide))
  · refine .set here set agrees fun inner held record found => ?_
    exact keeps inner held record (Option.some.inj (there.symm.trans found))

/-- Reading its member makes a field like the written one. -/
private theorem restored_member (setting : Setting c reg options)
    (smaller : ∀ inner : Record, sizeOf inner < sizeOf o → inner.Instance c →
      Recovers c reg options inner)
    (typed : o.Instance c) (inside : r.Instance c) (same : r.type = o.type)
    (owned : f.owner = o.type) (linked : f.Linked c) (read : f.get o = .ok v)
    (kept : options.emitNulls ∨ v ≠ .null) (awaits : Awaits reg options o r f)
    (carried : CarriesValue reg (.ofField f) v)
    (written : ofValue reg options (.ofField f) v = .ok j)
    (found : members.lookup f.name = some j) :
    ∃ changed, toField reg reg.resolver options members f r = .ok changed ∧
      changed.type = o.type ∧ changed.Instance c ∧ o.MatchesAt reg changed f.path ∧
      o.Nearer reg r changed := by
  have leads : c.Leads r.type f.path f.shape := same ▸ owned ▸ linked.leads
  have owner : r.type = f.owner := same.trans owned.symm
  obtain ⟨x, here, holds⟩ := Record.get_of_leads typed (same ▸ leads)
  obtain ⟨old, there, fit⟩ := Record.get_of_leads inside leads
  obtain ⟨held, looked, holding⟩ := heldValue_ok owner there
  have ready : Ready reg options v (held.getD .null) := by
    rcases awaits with nulls | awaits
    · exact .inl nulls
    · refine kept.imp_right fun something => ?_
      obtain ⟨_, again, implied⟩ := (awaits v read).2 something
      rwa [Except.ok.inj (looked.symm.trans again)]
  obtain rfl : f.present x.toValue = v := by
    rw [Field.get_eq owned.symm here] at read
    exact Except.ok.inj read
  rw [← Context.present_ofField] at carried written ready
  have object : ∀ target, held = some (.object target) →
      f.shape.recordType? = some target.type ∧ target.Instance c := by
    intro target holds
    obtain ⟨object, reads⟩ := (holding target).mp holds
    rcases linked.typed with type | ⟨enum, _⟩
    · exact Shape.recordType_of_object fit (type.symm.trans object) reads
    · exact absurd (enum.symm.trans object) (by decide)
  have describes := Context.Describes.ofField linked
  obtain ⟨w, y, restored⟩ := restored setting smaller describes holds
    (Nat.le_of_lt (Record.sizeOf_get_lt here)) (fun _ => rfl) object ready carried written
  obtain ⟨changed, set, result⟩ := set_restored inside same owned linked here there restored.fits
    restored.holds restored.agrees (fun null => Shape.absent holds (restored.null ▸ null)) (by
      rintro inner target rfl rfl
      have nested : f.type = .object := describes.type (Shape.type_of_record holds) (by decide)
      exact restored.keeps inner target rfl ((holding target).mpr ⟨nested, rfl⟩))
  exact ⟨changed, toField_ok found looked restored.reads set, result⟩

/-- A field that was left out becomes null. -/
private theorem restored_absent (typed : o.Instance c) (inside : r.Instance c)
    (same : r.type = o.type) (owned : f.owner = o.type) (linked : f.Linked c)
    (read : f.get o = .ok .null) (absent : f.NullWhenAbsent r)
    (missing : members.lookup f.name = none) :
    ∃ changed, toField reg reg.resolver options members f r = .ok changed ∧
      changed.type = o.type ∧ changed.Instance c ∧ o.MatchesAt reg changed f.path ∧
      o.Nearer reg r changed := by
  rw [toField_absent missing]
  have leads : c.Leads r.type f.path f.shape := same ▸ owned ▸ linked.leads
  obtain ⟨x, here, holds⟩ := Record.get_of_leads typed (same ▸ leads)
  obtain ⟨old, there, _⟩ := Record.get_of_leads inside leads
  unfold Field.NullWhenAbsent at absent
  unfold Field.resolveAbsent
  cases rule : f.mandatoriness with
  | required =>
    rw [rule] at absent
    exact absent.elim
  | optional =>
    rw [rule] at absent
    have agree : o.MatchesAt reg r f.path :=
      (Record.relatedAt_iff_get (fun _ => Value.Matches.eq_null) (.inl rfl) read
        (same.trans owned.symm)).mpr ⟨.null, absent, .null⟩
    exact ⟨r, rfl, same, inside, agree, .refl o r⟩
  | defaultable =>
    rw [rule] at absent
    have null : x.toValue = .null := by
      rw [Field.get_eq owned.symm here] at read
      exact Field.present_eq_null.mp (Except.ok.inj read)
    have allowed := Shape.absent holds (null ▸ rfl)
    obtain ⟨y, fits, kept, empty⟩ := Shape.ofValue_null c allowed
    simp only [absent]
    refine set_restored inside same owned linked here there fits kept ?_ (fun _ => allowed) ?_
    · rw [null, empty]
      exact .null
    · rintro inner held rfl
      cases null

/-- Reading all members makes every field like the written one. -/
private theorem restored_fields {fields : List Field} (setting : Setting c reg options)
    (smaller : ∀ inner : Record, sizeOf inner < sizeOf o → inner.Instance c →
      Recovers c reg options inner)
    (typed : o.Instance c) (inside : r.Instance c) (same : r.type = o.type)
    (each : ∀ f ∈ fields, f.owner = o.type ∧ f.Linked c ∧
      ∀ v, f.get o = .ok v → CarriesValue reg (.ofField f) v)
    (written : ∀ f ∈ fields, Written reg options o [] members f)
    (awaits : ∀ f ∈ fields, Awaits reg options o r f) :
    ∃ s, toFields reg reg.resolver options members fields r = (.ok (), s) ∧
      s.type = o.type ∧ s.Instance c ∧ (∀ f ∈ fields, o.MatchesAt reg s f.path) ∧
      o.Nearer reg r s := by
  induction fields generalizing r with
  | nil =>
    refine ⟨r, ?_, same, inside, ?_, .refl o r⟩
    · rw [toFields]
    · intro f member
      cases member
  | cons f rest ih =>
    obtain ⟨owned, linked, carried⟩ := each f List.mem_cons_self
    have waits := awaits f List.mem_cons_self
    obtain ⟨changed, first, type, kept, here, near⟩ : ∃ changed,
        toField reg reg.resolver options members f r = .ok changed ∧ changed.type = o.type ∧
        changed.Instance c ∧ o.MatchesAt reg changed f.path ∧ o.Nearer reg r changed := by
      cases written f List.mem_cons_self with
      | member read stays tree found =>
        exact restored_member setting smaller typed inside same owned linked read stays waits
          (carried _ read) tree found
      | omitted read short missing =>
        have absent := waits.resolve_left (by rw [short]; decide)
        exact restored_absent typed inside same owned linked read ((absent _ read).1 rfl) missing
    obtain ⟨s, others, type, kept, there, still⟩ := ih kept type
      (fun g later => each g (List.mem_cons_of_mem _ later))
      (fun g later => written g (List.mem_cons_of_mem _ later))
      (fun g later => (awaits g (List.mem_cons_of_mem _ later)).nearer near (type.trans same.symm))
    refine ⟨s, ?_, type, kept, ?_, near.trans still⟩
    · rw [toFields, first]
      exact others
    · intro g member
      rcases List.mem_cons.mp member with rfl | later
      · exact still.alike g.path here
      · exact there g later

/-- In the tree of a record every field is written, and the tag is there if one was asked for. -/
private theorem ofRecord_ok (setting : Setting c reg options)
    (ok : ofRecord reg options tagged o = .ok j) :
    ∃ d members, reg.byType? o.type = some d ∧ j = .object members ∧
      (tagged → members.lookup options.typeKey = some (.string d.name)) ∧
      ∀ f ∈ d.fields, Written reg options o [] members f := by
  obtain ⟨d, members, found, rfl, written⟩ := ofRecord_eq_ok ok
  have member := (Registry.byType_mem found).1
  have distinct := (setting.registry.described d member).distinct
  have fresh : ∀ f ∈ d.fields, List.lookup f.name
      (if tagged then [(options.typeKey, Json.string d.name)] else []) = none := by
    intro f here
    split
    · exact lookup_cons_ne (setting.key d member f here) _ _
    · rfl
  obtain ⟨each, others⟩ := ofFields_written distinct written
  refine ⟨d, members, found, rfl, fun tag => ?_, fun f here => ?_⟩
  · rw [others options.typeKey (setting.key d member), if_pos tag]
    exact List.lookup_cons_self
  · cases each f here with
    | member read kept tree there => exact .member read kept tree there
    | omitted read short still => exact .omitted read short (still.trans (fresh f here))

/-- Every record of a registered type is recovered from its tree. -/
theorem recovered (setting : Setting c reg options) (o : Record) (typed : o.Instance c) :
    Recovers c reg options o := by
  induction size : sizeOf o using Nat.strongRecOn generalizing o with
  | ind _ ih =>
    subst size
    intro tagged j carried ok
    obtain ⟨d, members, found, rfl, tag, written⟩ := ofRecord_ok setting ok
    obtain ⟨member, same⟩ := Registry.byType_mem found
    have sound := setting.registry.described d member
    refine ⟨d, members, found, rfl, tag, fun target type inside ready => ?_⟩
    obtain ⟨r, read, kind, kept, each, near⟩ := restored_fields setting
      (fun inner small inside => ih (sizeOf inner) small inner inside rfl) typed inside type
      (fun f here => ⟨(sound.owned f here).trans same, sound.linked f here, carried d found f here⟩)
      written (fun f here => awaits_fields ready found here)
    have described : reg.byType? target.type = some d := by rw [type, found]
    exact ⟨r, toRecord_ok described read, kept,
      Value.matches_object.mpr ⟨kind.symm, d, found, each⟩, near⟩

end ObjectMapping.Json
