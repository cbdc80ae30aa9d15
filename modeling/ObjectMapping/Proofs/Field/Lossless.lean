import ObjectMapping.Field.Lossless
import ObjectMapping.Proofs.Field.Access

/-! Reading a field and writing the value back always succeeds. It changes nothing if nothing in the
field is set to something absent, which some shapes exclude and some do not. -/
namespace ObjectMapping

namespace Datum

mutual

/-- Settling cannot be read. -/
theorem toValue_settle : (d : Datum) → d.settle.toValue = d.toValue
  | .present d => by
    rw [settle]
    split
    · rename_i nothing
      exact (Value.eq_null_of_isNull nothing).symm
    · exact toValue_settle d
  | .list items => congrArg Value.array (toValues_settleItems items)
  | .scalar _ | .record _ | .vacant | .occupied _ | .unset => rfl

theorem toValues_settleItems : (items : List Datum) →
    toValues (settleItems items) = toValues items
  | [] => rfl
  | d :: rest => by
    rw [settleItems, toValues, toValues, toValue_settle d, toValues_settleItems rest]

end

mutual

/-- What is clear is settled. -/
theorem settle_eq_iff : (d : Datum) → (d.settle = d ↔ d.Clear)
  | .present d => by
    rw [settle]
    constructor
    · intro same
      split at same
      · cases same
      · rename_i something
        refine .present (by simpa using something) ((settle_eq_iff d).mp ?_)
        exact Datum.present.inj same
    · rintro (_ | _ | _ | _ | _ | ⟨something, inside⟩)
      rw [if_neg (by simp [something]), (settle_eq_iff d).mpr inside]
  | .list items => by
    rw [settle]
    constructor
    · intro same
      exact .list ((settleItems_eq_iff items).mp (Datum.list.inj same))
    · rintro ⟨⟩
      rw [(settleItems_eq_iff items).mpr ‹_›]
  | .scalar s => iff_of_true rfl (.scalar s)
  | .record r => iff_of_true rfl (.record r)
  | .vacant => iff_of_true rfl .vacant
  | .occupied r => iff_of_true rfl (.occupied r)
  | .unset => iff_of_true rfl .unset

theorem settleItems_eq_iff : (items : List Datum) →
    (settleItems items = items ↔ ∀ d ∈ items, d.Clear)
  | [] => iff_of_true rfl nofun
  | d :: rest => by
    rw [settleItems, List.cons_eq_cons, List.forall_mem_cons, settle_eq_iff d,
      settleItems_eq_iff rest]

end

end Datum

namespace Shape

variable {c : Catalogue} {s : Shape} {d : Datum}

private theorem mapM_settle {items : List Datum}
    (each : ∀ d ∈ items, s.ofValue d.toValue = .ok d.settle) :
    (Datum.toValues items).mapM s.ofValue = .ok (Datum.settleItems items) := by
  induction items with
  | nil => rfl
  | cons d rest ih =>
    obtain ⟨first, each⟩ := List.forall_mem_cons.mp each
    exact mapM_cons_eq_ok.mpr ⟨_, _, first, ih each, rfl⟩

/-- What a slot holds is read as a value that the slot takes, and is settled by that. -/
theorem ofValue_settle (holds : d.Holds c s) : s.ofValue d.toValue = .ok d.settle := by
  induction s generalizing d with
  | plain p =>
    cases holds with
    | plain same => exact ofValue_stored same
  | enum e =>
    cases holds with
    | enum named => exact if_pos named
  | record type =>
    cases holds with
    | record same => exact if_pos same
  | variant => cases holds <;> rfl
  | nullable inner ih =>
    cases holds with
    | unset => rfl
    | @present _ d inside =>
      rw [Datum.toValue, Datum.settle]
      cases nothing : d.toValue.isNull with
      | true =>
        rw [Value.eq_null_of_isNull nothing]
        rfl
      | false =>
        rw [ofValue_nullable nothing, ih inside]
        rfl
  | list element ih =>
    cases holds with
    | @list _ items each =>
      have stored := mapM_settle fun d member => ih (each d member)
      exact except_map_eq_ok.mpr ⟨_, stored, rfl⟩

theorem something_of_holds (holds : d.Holds c s) (something : ¬s.Blank) : d.toValue.isNull = false := by
  cases holds with
  | vacant | occupied => exact absurd .variant something
  | unset | present => exact absurd (.nullable _) something
  | plain | enum | record | list => rfl

/-- Slots of an unambiguous shape hold nothing that is set to something absent. -/
theorem Unambiguous.clear (unambiguous : s.Unambiguous) (holds : d.Holds c s) : d.Clear := by
  induction unambiguous generalizing d with
  | plain | enum =>
    cases holds
    exact .scalar _
  | record =>
    cases holds
    exact .record _
  | variant =>
    cases holds with
    | vacant => exact .vacant
    | occupied => exact .occupied _
  | nullable something _ ih =>
    cases holds with
    | unset => exact .unset
    | present inside => exact .present (something_of_holds inside something) (ih inside)
  | list _ ih =>
    cases holds with
    | list each => exact .list fun d member => ih (each d member)

/-- A slot of any other shape may hold something that is not clear. -/
theorem exists_unclear (c : Catalogue) (ambiguous : ¬s.Unambiguous) :
    ∃ d : Datum, d.Holds c s ∧ ¬d.Clear := by
  induction s with
  | plain p => exact absurd (.plain p) ambiguous
  | enum e => exact absurd (.enum e) ambiguous
  | record type => exact absurd (.record type) ambiguous
  | variant => exact absurd .variant ambiguous
  | nullable inner ih =>
    by_cases blank : inner.Blank
    · -- The inner slot can be empty, and the outer one be set to that.
      obtain ⟨d, holds, nothing⟩ : ∃ d : Datum, d.Holds c inner ∧ d.toValue = .null := by
        cases blank with
        | variant => exact ⟨.vacant, .vacant, rfl⟩
        | nullable => exact ⟨.unset, .unset, rfl⟩
      refine ⟨.present d, .present holds, ?_⟩
      rintro (_ | _ | _ | _ | _ | ⟨something, -⟩)
      rw [nothing] at something
      cases something
    · have deeper : ¬inner.Unambiguous := fun inside => ambiguous (.nullable blank inside)
      obtain ⟨d, holds, unclear⟩ := ih deeper
      refine ⟨.present d, .present holds, ?_⟩
      rintro (_ | _ | _ | _ | _ | ⟨-, inside⟩)
      exact unclear inside
  | list element ih =>
    have deeper : ¬element.Unambiguous := fun each => ambiguous (.list each)
    obtain ⟨d, holds, unclear⟩ := ih deeper
    refine ⟨.list [d], .list fun e member => List.mem_singleton.mp member ▸ holds, ?_⟩
    rintro ⟨⟩
    exact unclear (‹∀ e ∈ [d], e.Clear› d List.mem_cons_self)

end Shape

namespace Field

variable {c : Catalogue} {f : Field} {r : Record} {x : Datum}

/-- A field takes back the value that it is read as, which settles its content. -/
theorem set_read (linked : f.Linked c) (owned : r.type = f.owner) (found : r.get? f.path = some x)
    (holds : x.Holds c f.shape) :
    ∃ changed, f.set r (f.present x.toValue) = .ok changed ∧
      changed.get? f.path = some x.settle ∧ (changed = r ↔ x.Clear) := by
  have fits : f.shape.ofValue (f.present x.toValue) = .ok x.settle := by
    have stored := ofValue_present f (Shape.ofValue_settle holds)
    rwa [Datum.toValue_settle] at stored
  obtain ⟨changed, ok⟩ := (set_iff linked owned found).mpr (Shape.ofValue_iff.mp ⟨_, fits⟩)
  obtain ⟨-, content, stored, set⟩ := set_eq_ok ok
  obtain rfl := Except.ok.inj (fits.symm.trans stored)
  have there := Record.get_of_set set
  refine ⟨changed, ok, there, Iff.trans ⟨fun same => ?_, fun same => ?_⟩ (Datum.settle_eq_iff x)⟩
  · rw [same] at there
    exact (Option.some.inj (found.symm.trans there)).symm
  · rw [same, Record.set_same found] at set
    exact (Option.some.inj set).symm

/-- Whatever has the shape of a field stands there in some instance. -/
theorem exists_instance {d : Descriptor} (types : c.Sound) (sound : d.Sound c) (member : f ∈ d.fields)
    (holds : x.Holds c f.shape) :
    ∃ r : Record, r.Instance c ∧ r.type = d.type ∧ r.get? f.path = some x := by
  obtain ⟨fresh, typed⟩ := sound.initial types
  have leads := (sound.linked f member).leads
  rw [sound.owned f member, ← fresh] at leads
  obtain ⟨r, set, inside, kept⟩ := Record.set_of_leads typed leads holds
  exact ⟨r, inside, kept.trans fresh, Record.get_of_set set⟩

/-- In every record that has it, a field takes back the value that it is read as. This unsets what
is set to something absent, at any depth, and leaves the rest of the record as it is. No record is
changed if and only if the shape of the field is unambiguous. -/
theorem set_get_iff {d : Descriptor} (types : c.Sound) (built : d.Built c) (member : f ∈ d.fields) :
    (∀ r : Record, r.Instance c → r.type = d.type →
      ∃ x v changed, r.get? f.path = some x ∧ f.get r = .ok v ∧ f.set r v = .ok changed ∧
        changed.get? f.path = some x.settle ∧ r.AlikeBut f.path changed ∧ f.get changed = .ok v ∧
        (changed = r ↔ x.Clear)) ∧
      ((∀ r : Record, r.Instance c → r.type = d.type →
        ∃ v, f.get r = .ok v ∧ f.set r v = .ok r) ↔ f.shape.Unambiguous) := by
  have sound := built.sound
  have back : ∀ r : Record, r.Instance c → r.type = d.type →
      ∃ x changed, x.Holds c f.shape ∧ r.get? f.path = some x ∧
        f.get r = .ok (f.present x.toValue) ∧ f.set r (f.present x.toValue) = .ok changed ∧
        changed.get? f.path = some x.settle ∧ (changed = r ↔ x.Clear) := by
    intro r typed same
    obtain ⟨owned, x, found, holds⟩ := sound.content member typed same
    obtain ⟨changed, ok, there, kept⟩ := set_read (sound.linked f member) owned found holds
    exact ⟨x, changed, holds, found, get_eq owned found, ok, there, kept⟩
  constructor
  · intro r typed same
    obtain ⟨x, changed, -, found, read, ok, there, kept⟩ := back r typed same
    obtain ⟨owned, content, -, set⟩ := set_eq_ok ok
    have again := get_eq ((Record.set_type set).trans owned) there
    rw [Datum.toValue_settle] at again
    exact ⟨x, _, changed, found, read, ok, there, Record.alikeBut_of_set set, again, kept⟩
  · constructor
    · intro lossless
      refine Classical.byContradiction fun ambiguous => ?_
      obtain ⟨unclear, holds, not⟩ := Shape.exists_unclear c ambiguous
      obtain ⟨r, typed, same, there⟩ := exists_instance types sound member holds
      obtain ⟨v, read, unchanged⟩ := lossless r typed same
      obtain ⟨x, changed, -, found, again, ok, -, clear⟩ := back r typed same
      obtain rfl := Option.some.inj (there.symm.trans found)
      obtain rfl := Except.ok.inj (read.symm.trans again)
      exact not (clear.mp (Except.ok.inj (ok.symm.trans unchanged)))
    · intro unambiguous r typed same
      obtain ⟨x, changed, holds, -, read, ok, -, kept⟩ := back r typed same
      obtain rfl := kept.mpr (unambiguous.clear holds)
      exact ⟨_, read, ok⟩

namespace Kennel

def owner : Slot := ⟨"owner", .nullable (.plain .string), 0, 32⟩
def guest : Slot := ⟨"guest", .nullable .variant, 32, 24⟩
def stays : Slot := ⟨"stays", .list (.list (.nullable (.nullable (.plain .int32)))), 56, 24⟩

/-- A kennel without an owner, with this guest and these stays. -/
def kennel (guest stay : Datum) : Record :=
  .mk "Kennel" [("owner", .unset), ("guest", guest), ("stays", .list [.list [stay]])]

def recordType : RecordType := ⟨"Kennel", [owner, guest, stays], 80, kennel .unset .unset⟩

def catalogue : Catalogue := [recordType]

def ownerField : Field := Field.ofSlot catalogue "Kennel" owner "owner"
def guestField : Field := Field.ofSlot catalogue "Kennel" guest "guest"
def staysField : Field := Field.ofSlot catalogue "Kennel" stays "stays"

def descriptor : Descriptor :=
  ⟨"Kennel", "Kennel", "Kennel", none, [ownerField, guestField, staysField], 0, kennel .unset .unset⟩

theorem instance_kennel (first : g.Holds catalogue (.nullable .variant))
    (second : s.Holds catalogue (.nullable (.nullable (.plain .int32)))) :
    (kennel g s).Instance catalogue := by
  have found : catalogue.type? "Kennel" = some recordType := rfl
  refine .of_slots found fun slot member => ?_
  simp only [recordType, List.mem_cons, List.not_mem_nil, or_false] at member
  rcases member with rfl | rfl | rfl
  · exact ⟨_, rfl, .unset⟩
  · exact ⟨_, rfl, first⟩
  · refine ⟨_, rfl, .list fun row member => ?_⟩
    obtain rfl := List.mem_singleton.mp member
    exact .list fun d member => List.mem_singleton.mp member ▸ second

theorem catalogue_sound : catalogue.Sound := by
  intro name t found
  obtain rfl : t = recordType := List.mem_singleton.mp (List.mem_of_find?_eq_some found)
  have named : recordType.name = name := by simpa using List.find?_some found
  exact ⟨named, instance_kennel .unset .unset⟩

theorem built_descriptor : descriptor.Built catalogue := by
  have known : catalogue.type? recordType.name = some recordType := rfl
  have hasOwner : recordType.slot? owner.name = some owner := rfl
  have hasGuest : recordType.slot? guest.name = some guest := rfl
  have hasStays : recordType.slot? stays.name = some stays := rfl
  have first : ownerField.Declared catalogue := .slot known hasOwner 0 "owner"
  have second : guestField.Declared catalogue := .slot known hasGuest 32 "guest"
  have third : staysField.Declared catalogue := .slot known hasStays 56 "stays"
  have two := ((Descriptor.Draft.Formed.draft known "Kennel").field first).field second
  exact .build (two.field third) rfl

end Kennel

open Kennel in
/-- The owner of a kennel is kept whatever it is, its guest is not. -/
theorem set_get_kennel :
    (∀ r : Record, r.Instance catalogue → r.type = "Kennel" →
      ∃ v, ownerField.get r = .ok v ∧ ownerField.set r v = .ok r) ∧
    ¬∀ r : Record, r.Instance catalogue → r.type = "Kennel" →
      ∃ v, guestField.get r = .ok v ∧ guestField.set r v = .ok r := by
  have first := set_get_iff catalogue_sound built_descriptor (f := ownerField)
    (by simp [descriptor])
  have second := set_get_iff catalogue_sound built_descriptor (f := guestField)
    (by simp [descriptor])
  refine ⟨first.2.mpr (.nullable nofun (.plain _)), fun kept => ?_⟩
  rcases second.2.mp kept with _ | _ | _ | _ | ⟨something, -⟩
  exact something .variant

open Kennel in
/-- A guest that is set to nothing is unset afterwards, and so is a stay that is set to an unset
one. -/
theorem set_get_lost :
    descriptor.Built catalogue ∧ guestField ∈ descriptor.fields ∧ staysField ∈ descriptor.fields ∧
      (kennel (.present .vacant) (.present .unset)).Instance catalogue ∧
      guestField.get (kennel (.present .vacant) (.present .unset)) = .ok .null ∧
      guestField.set (kennel (.present .vacant) (.present .unset)) .null =
        .ok (kennel .unset (.present .unset)) ∧
      staysField.get (kennel (.present .vacant) (.present .unset)) =
        .ok (.array [.array [.null]]) ∧
      staysField.set (kennel (.present .vacant) (.present .unset)) (.array [.array [.null]]) =
        .ok (kennel (.present .vacant) .unset) ∧
      kennel (.present .vacant) (.present .unset) ≠ kennel .unset (.present .unset) ∧
      kennel (.present .vacant) (.present .unset) ≠ kennel (.present .vacant) .unset := by
  have typed := instance_kennel (.present .vacant) (.present .unset)
  refine ⟨built_descriptor, by simp [descriptor], by simp [descriptor], typed, rfl, rfl, rfl, rfl,
    ?_, ?_⟩ <;> simp [kennel]

end Field

end ObjectMapping
