import ObjectMapping.Proofs.Enumeration.Text
import ObjectMapping.Proofs.Json.RoundTrip
import ObjectMapping.Proofs.Json.Visits
import ObjectMapping.Proofs.Registry.Admissible

/-! When a record can be written: exactly if its type is registered and every value that writing
comes to can be written. The records in fields and lists of a fixed type are no obstacle, because
their types are registered together with the types that hold them. -/
namespace ObjectMapping.Json

/-- The outcome names the field, but a broken rule stays the same. -/
private theorem usageKind_inField (e : Error) : (e.inField name).usageKind? = e.usageKind? := by
  cases e with
  | data kind message field => cases field <;> rfl
  | _ => rfl

section

variable {reg : Registry} {options : JsonOptions} {context : Context} {r : Record}
variable {fields : List Field} {placed members : List (String × Json)} {items : List Value}

private theorem unwritable_of_ofScalar (reg : Registry) (failed : ofScalar context s = .error e) :
    e.usageKind? = none ∧ ¬Writable reg context (.scalar s) := by
  have number : ∀ x, ofDouble x = .error e → e.usageKind? = none ∧ ¬x.isFinite := by
    intro x failed
    unfold ofDouble at failed
    split at failed
    · cases failed
    · rename_i endless
      obtain rfl := Except.error.inj failed
      exact ⟨rfl, endless⟩
  cases s with
  | float x =>
    obtain ⟨kind, endless⟩ := number _ failed
    exact ⟨kind, fun finite => endless (x.isFinite_widen finite)⟩
  | double x => exact number x failed
  | enum n =>
    rw [ofScalar] at failed
    split at failed
    · rename_i e described
      cases text : e.text n with
      | ok t =>
        rw [text] at failed
        cases failed
      | error cause =>
        have unknown : ¬e.contains n := by
          intro contained
          obtain ⟨t, written⟩ := Enumeration.text_ok contained
          cases text.symm.trans written
        rw [Enumeration.text_unknown unknown] at failed
        obtain rfl := Except.error.inj failed
        exact ⟨rfl, fun contained => unknown (contained e described)⟩
    · cases failed
  | _ => cases failed

private theorem writable_of_ofScalar (ok : ofScalar context s = .ok j) :
    Writable reg context (.scalar s) := by
  cases s with
  | float x => exact x.isFinite_of_widen (ofDouble_ok ok).1
  | double x => exact (ofDouble_ok ok).1
  | enum n =>
    intro e described
    rw [ofScalar, described] at ok
    obtain ⟨t, written, -⟩ := except_map_eq_ok.mp ok
    by_contra unknown
    rw [Enumeration.text_unknown unknown] at written
    cases written
  | _ => trivial

/-- The first field that cannot be read or written ends the walk. -/
private theorem ofFields_error (failed : ofFields reg options r placed fields = .error e) :
    ∃ f ∈ fields, f.get r = .error e ∨
      ∃ v cause, f.get r = .ok v ∧ ofValue reg options (.ofField f) v = .error cause ∧
        e.usageKind? = cause.usageKind? := by
  induction fields generalizing placed with
  | nil =>
    rw [ofFields] at failed
    cases failed
  | cons f rest ih =>
    rw [ofFields] at failed
    split at failed
    · rename_i unread
      exact ⟨f, List.mem_cons_self, .inl (Except.error.inj failed ▸ unread)⟩
    rename_i v read
    have later : ∀ placed, ofFields reg options r placed rest = .error e →
        ∃ g ∈ f :: rest, g.get r = .error e ∨ ∃ v cause, g.get r = .ok v ∧
          ofValue reg options (.ofField g) v = .error cause ∧
            e.usageKind? = cause.usageKind? := by
      intro placed failed
      obtain ⟨g, member, reason⟩ := ih failed
      exact ⟨g, List.mem_cons_of_mem f member, reason⟩
    split at failed
    · exact later _ failed
    split at failed
    · rename_i refused
      obtain ⟨cause, written, named⟩ := inField_eq_error.mp refused
      obtain rfl := named.trans (Except.error.inj failed)
      exact ⟨f, List.mem_cons_self, .inr ⟨v, cause, read, written, usageKind_inField cause⟩⟩
    · exact later _ failed

private theorem ofItems_error (failed : ofItems reg options context items = .error e) :
    ∃ v ∈ items, ofValue reg options context v = .error e := by
  induction items with
  | nil =>
    rw [ofItems] at failed
    cases failed
  | cons first rest ih =>
    rw [ofItems] at failed
    rcases bind_eq_error.mp failed with here | ⟨j, -, failed⟩
    · exact ⟨first, List.mem_cons_self, here⟩
    · rcases bind_eq_error.mp failed with others | ⟨trees, -, written⟩
      · obtain ⟨v, member, refused⟩ := ih others
        exact ⟨v, List.mem_cons_of_mem first member, refused⟩
      · cases written

/-- What has been written could be written. -/
private theorem writable_of_ofValue {v : Value} (ok : ofValue reg options context v = .ok j) :
    Writable reg context v := by
  cases v with
  | null => trivial
  | scalar s =>
    rw [ofValue] at ok
    exact writable_of_ofScalar ok
  | object r =>
    intro variant
    rw [ofValue] at ok
    obtain ⟨d, members, found, -⟩ := ofRecord_eq_ok ok
    exact ⟨d, found⟩
  | array items =>
    intro element listed
    obtain ⟨place, trees, described, -⟩ := ofValue_array_eq_ok ok
    exact Context.single_of_elements listed described

end

/-- What writing rests upon: sound descriptors and no type that is referred to but not known. -/
private structure Complete (c : Catalogue) (reg : Registry) : Prop where
  registry : reg.Sound c
  closed : ∀ d ∈ reg.objects, ∀ type, d.Refers type → ∃ e, reg.byType? type = some e

/-- The types that slots of the shape refer to are registered. -/
private structure Known (reg : Registry) (s : Shape) : Prop where
  record : ∀ type, s.recordType? = some type → ∃ d, reg.byType? type = some d
  element : ∀ element type, s.element? = some element → element.recordType? = some type →
    ∃ d, reg.byType? type = some d

/-- The place shows what a slot of known types holds. -/
private def Stands (c : Catalogue) (reg : Registry) (context : Context) (v : Value) : Prop :=
  ∃ s x, context.Describes s ∧ Datum.Holds c s x ∧ context.present x.toValue = v ∧ Known reg s

variable {c : Catalogue} {reg : Registry} {options : JsonOptions} {context : Context}
variable {o r : Record} {f : Field} {v : Value}

private theorem get_of_instance (complete : Complete c reg) (typed : r.Instance c)
    (found : reg.byType? r.type = some d) (member : f ∈ d.fields) :
    ∃ x : Datum, f.get r = .ok (f.present x.toValue) ∧ x.Holds c f.shape := by
  obtain ⟨known, same⟩ := Registry.byType_mem found
  have sound := complete.registry.described d known
  obtain ⟨owned, x, here, holds⟩ := sound.content member typed same.symm
  exact ⟨x, Field.get_eq owned here, holds⟩

private theorem stands_of_reads (complete : Complete c reg) (typed : r.Instance c)
    (reads : Reads reg r f v) : Stands c reg (.ofField f) v := by
  obtain ⟨d, found, member, read⟩ := reads
  obtain ⟨known, -⟩ := Registry.byType_mem found
  obtain ⟨x, shown, holds⟩ := get_of_instance complete typed found member
  obtain rfl := Except.ok.inj (shown.symm.trans read)
  have linked := (complete.registry.described d known).linked f member
  refine ⟨f.shape, x, .ofField linked, holds, Context.present_ofField f _, ?_, ?_⟩
  · intro type embeds
    exact complete.closed d known type (.nested member (Shape.recordType_eq_some.mp embeds))
  · intro element type lists embeds
    exact complete.closed d known type
      (.element member (Shape.element_eq_some.mp lists) (Shape.recordType_eq_some.mp embeds))

/-- A place shows records and lists as they are. -/
private theorem toValue_of_present {v w : Value} (shown : context.present v = w)
    (other : ∀ n, w ≠ .enum n) (number : ∀ n, w ≠ .uint32 n) : v = w := by
  unfold Context.present at shown
  split at shown
  · split at shown
    · exact absurd shown.symm (other _)
    · exact absurd shown.symm (number _)
  · exact shown

/-- Where a record stands, it is of a known type unless records of any type may stand there. -/
private theorem Stands.object (stands : Stands c reg context (.object r)) :
    r.Instance c ∧ (context.type ≠ .variant → ∃ d, reg.byType? r.type = some d) := by
  obtain ⟨s, x, describes, holds, shown, known⟩ := stands
  have reads := toValue_of_present shown nofun nofun
  obtain ⟨inside, embedded | variant⟩ := Shape.holds_object holds reads
  · exact ⟨inside, fun _ => known.record r.type embedded⟩
  · exact ⟨inside, fun other => absurd (describes.type variant nofun) other⟩

private theorem Stands.array {items : List Value} (stands : Stands c reg context (.array items)) :
    ∃ element, context.element = some element ∧ ∀ place, context.elements = .ok place →
      ∀ v ∈ items, Stands c reg place v := by
  obtain ⟨s, x, describes, holds, shown, known⟩ := stands
  have reads := toValue_of_present shown nofun nofun
  obtain ⟨element, ds, lists, rfl, each⟩ := Shape.holds_array holds reads
  have listed := describes.element.trans lists
  refine ⟨element, listed, fun place described v member => ?_⟩
  obtain ⟨inside, type, -⟩ := Context.elements_ok listed described
  obtain ⟨d, within, rfl⟩ := Datum.mem_toValues.mp member
  refine ⟨element, d, inside, each d within, Context.present_eq (each d within) type, ?_, ?_⟩
  · exact fun type embeds => known.element element type lists embeds
  · intro deeper type nested embeds
    -- Lists of lists are refused, so that the elements are none.
    rw [Shape.element_of_single (Context.single_of_elements listed described)] at nested
    cases nested

/-- Whatever writing a record comes to stands in a described place. -/
private theorem Visits.stands (complete : Complete c reg) (typed : o.Instance c)
    (visits : Visits reg o context v) : Stands c reg context v := by
  induction visits with
  | field reads => exact stands_of_reads complete typed reads
  | nested above reads ih => exact stands_of_reads complete ih.object.1 reads
  | element above described member ih =>
    obtain ⟨element, -, each⟩ := ih.array
    exact each _ described _ member

/-- A record is not written because its type is unknown or because a field of it is not. -/
private theorem ofRecord_error (complete : Complete c reg) (typed : r.Instance c)
    (failed : ofRecord reg options tagged r = .error e) :
    reg.byType? r.type = none ∨ ∃ f v cause, Reads reg r f v ∧
      ofValue reg options (.ofField f) v = .error cause ∧ e.usageKind? = cause.usageKind? := by
  cases found : reg.byType? r.type with
  | none => exact .inl rfl
  | some d =>
    right
    rw [ofRecord, Registry.descriptorFor_eq.mpr found] at failed
    rcases bind_eq_error.mp failed with missing | ⟨_, described, failed⟩
    · cases missing
    obtain rfl := Except.ok.inj described
    rcases bind_eq_error.mp failed with unwritten | ⟨members, -, written⟩
    · obtain ⟨f, member, unread | ⟨v, cause, read, refused, kind⟩⟩ := ofFields_error unwritten
      · obtain ⟨x, shown, -⟩ := get_of_instance complete typed found member
        cases unread.symm.trans shown
      · exact ⟨f, v, cause, ⟨d, found, member, read⟩, refused, kind⟩
    · cases written

/-- Writing the record comes to a value that cannot be written, which is a record if the error says
that a type is not registered. -/
private def Obstructed (reg : Registry) (o : Record) (e : Error) : Prop :=
  ∃ context v, Visits reg o context v ∧ ¬Writable reg context v ∧
    (e.usageKind? = some .unregisteredType → ∃ r, v = .object r)

/-- A value is not written because of one that cannot be. -/
private theorem obstructed (complete : Complete c reg) (typed : o.Instance c)
    (visits : Visits reg o context v) (failed : ofValue reg options context v = .error e) :
    Obstructed reg o e := by
  induction context, v using writing_induction reg generalizing e with
  | null =>
    rw [ofValue] at failed
    cases failed
  | scalar context s =>
    rw [ofValue] at failed
    obtain ⟨kind, refused⟩ := unwritable_of_ofScalar reg failed
    exact ⟨context, _, visits, refused, fun same => by cases kind.symm.trans same⟩
  | object context r ih =>
    obtain ⟨inside, fixed⟩ := (visits.stands complete typed).object
    rw [ofValue] at failed
    rcases ofRecord_error complete inside failed with unknown | ⟨f, w, cause, reads, refused, kind⟩
    · refine ⟨context, _, visits, fun writable => ?_, fun _ => ⟨r, rfl⟩⟩
      obtain ⟨d, found⟩ : ∃ d, reg.byType? r.type = some d := by
        by_cases variant : context.type = .variant
        · exact writable variant
        · exact fixed variant
      cases unknown.symm.trans found
    · obtain ⟨place, w, below, unwritable, record⟩ := ih f w reads (.nested visits reads) refused
      exact ⟨place, w, below, unwritable, fun same => record (kind ▸ same)⟩
  | array context items ih =>
    obtain ⟨element, listed, each⟩ := (visits.stands complete typed).array
    rw [ofValue] at failed
    rcases bind_eq_error.mp failed with nested | ⟨place, described, failed⟩
    · obtain ⟨list, kind⟩ := Context.elements_eq_error listed nested
      exact ⟨context, _, visits, fun writable => writable element listed list,
        fun same => by cases kind.symm.trans same⟩
    · rcases bind_eq_error.mp failed with unwritten | ⟨trees, -, written⟩
      · obtain ⟨w, member, refused⟩ := ofItems_error unwritten
        exact ih place described w member (.element visits described member) refused
      · cases written

/-- A record is written exactly if its type is registered and everything that writing it comes to
can be written. No record in a place for records of one type is of an unknown type; if a type is
found to be unknown, it is that of the record itself or of one in a place for records of any type. -/
theorem encode_iff {o : Record} (built : ∀ d ∈ objects, d.Built c)
    (accepted : Registry.build objects enums = .ok reg) (options : JsonOptions)
    (typed : o.Instance c) :
    ((∃ j, encode reg options o = .ok j) ↔
      (∃ d, reg.byType? o.type = some d) ∧
        ∀ context v, Visits reg o context v → Writable reg context v) ∧
    (∀ context r, Visits reg o context (.object r) → context.type ≠ .variant →
      ∃ d, reg.byType? r.type = some d) ∧
    ∀ e, encode reg options o = .error e → e.usageKind? = some .unregisteredType →
      reg.byType? o.type = none ∨ ∃ context r, Visits reg o context (.object r) ∧
        context.type = .variant ∧ reg.byType? r.type = none := by
  have complete : Complete c reg := ⟨Registry.sound_of_build built accepted,
    fun d member type refers => Registry.closed_of_build accepted member refers⟩
  have failing : ∀ e, encode reg options o = .error e →
      reg.byType? o.type = none ∨ Obstructed reg o e := by
    intro e failed
    rcases ofRecord_error complete typed failed with unknown | ⟨f, v, cause, reads, refused, kind⟩
    · exact .inl unknown
    · obtain ⟨place, w, visits, unwritable, record⟩ :=
        obstructed complete typed (.field reads) refused
      exact .inr ⟨place, w, visits, unwritable, fun same => record (kind ▸ same)⟩
  refine ⟨⟨?_, ?_⟩, ?_, ?_⟩
  · rintro ⟨j, ok⟩
    obtain ⟨d, members, found, -⟩ := ofRecord_eq_ok ok
    refine ⟨⟨d, found⟩, fun context v visits => ?_⟩
    obtain ⟨tree, written⟩ := ofValue_of_visits ok visits
    exact writable_of_ofValue written
  · rintro ⟨⟨d, found⟩, each⟩
    cases outcome : encode reg options o with
    | ok j => exact ⟨j, rfl⟩
    | error e =>
      rcases failing e outcome with unknown | ⟨context, v, visits, unwritable, -⟩
      · cases found.symm.trans unknown
      · exact absurd (each context v visits) unwritable
  · exact fun context r visits => (visits.stands complete typed).object.2
  · intro e failed kind
    rcases failing e failed with unknown | ⟨context, v, visits, unwritable, record⟩
    · exact .inl unknown
    · obtain ⟨r, rfl⟩ := record kind
      obtain ⟨variant, unknown⟩ := Classical.not_imp.mp unwritable
      exact .inr ⟨context, r, visits, variant, Option.eq_none_iff_forall_ne_some.mpr
        fun d found => unknown ⟨d, found⟩⟩

open Fish in
/-- The pike is written, so that there is nothing in it or in the fish inside that cannot be. A fish
with a flag of no name is not written. -/
theorem encode_iff_pike :
    (∀ context v, Visits (registry legibleFins) pike context v →
      Writable (registry legibleFins) context v) ∧
    ¬∃ j, encode (registry legibleFins) .default (fish 8 .vacant) = .ok j := by
  have built := built_descriptor (rfl : (draft legibleFins).build = _)
  have accepted : Registry.build [descriptor legibleFins] [] = .ok (registry legibleFins) := rfl
  have whole : pike.Instance catalogue := instance_fish (.occupied (instance_fish .vacant))
  have encoded : encode (registry legibleFins) .default pike = .ok pikeTree := by cbv
  refine ⟨((encode_iff built accepted .default whole).1.mp ⟨_, encoded⟩).2, fun ok => ?_⟩
  have typed : (fish 8 .vacant).Instance catalogue := instance_fish .vacant
  have each := ((encode_iff built accepted .default typed).1.mp ok).2
  have reads : Reads (registry legibleFins) (fish 8 .vacant) (finsField legibleFins) (.enum 8) :=
    ⟨descriptor legibleFins, rfl, List.mem_cons_self, rfl⟩
  have contained : legibleFins.contains 8 := each _ _ (.field reads) legibleFins rfl
  exact absurd contained (by decide)

end ObjectMapping.Json
