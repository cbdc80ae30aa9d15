import ObjectMapping.Proofs.Json.Matching

/-! Nulls that need not be written. What the decoder puts in place of a field agrees with the
original, and agreement implies the nulls again; so a record that is read step by step never
loses what made its nulls implied. -/
namespace ObjectMapping

variable {reg : Registry} {f : Field} {o r s : Record} {v w : Value}

/-- For fields that are null or hold a nested object, being related in the slot is being
related in what is read from it. -/
theorem Record.relatedAt_iff_get {R : Value → Value → Prop} (strict : ∀ w, R .null w → w = .null)
    (shown : v = .null ∨ f.type = .object) (read : f.get o = .ok v) (owned : r.type = f.owner) :
    o.RelatedAt R r f.path ↔ ∃ w, f.get r = .ok w ∧ R v w := by
  obtain ⟨_, x, here, presented⟩ := Field.get_eq_ok.mp read
  -- Numbers that are shown as values of an enumeration are neither null nor objects.
  have same : ∀ u, (v = .null → f.present u = .null) → f.present u = u := by
    intro u null
    rcases shown with rfl | object
    · rw [null rfl, Field.present_eq_null.mp (null rfl)]
    · exact Field.present_of_ne_enum (object ▸ by decide) u
  rw [same x.toValue fun null => presented.trans null] at presented
  constructor
  · rintro ⟨a, y, left, there, related⟩
    obtain rfl := Option.some.inj (here.symm.trans left)
    rw [presented] at related
    have shown := same y.toValue fun null => Field.present_eq_null.mpr (strict _ (null ▸ related))
    exact ⟨y.toValue, shown ▸ Field.get_eq owned there, related⟩
  · rintro ⟨_, readThere, related⟩
    obtain ⟨_, y, there, rfl⟩ := Field.get_eq_ok.mp readThere
    rw [same y.toValue fun null => strict _ (null ▸ related)] at related
    exact ⟨x, y, here, there, presented ▸ related⟩

theorem Value.Matches.eq_null (agree : Value.null.Matches reg w) : w = .null := by
  cases agree
  rfl

namespace Value.NullsImplied

theorem eq_null (implied : Value.null.NullsImplied reg w) : w = .null := by
  cases implied
  rfl

/-- What lies in the place counts as far as objects are read into it. -/
theorem held_congr (implied : v.NullsImplied reg w) (null : v = .null → w' = .null)
    (same : ∀ r d, v = .object r → reg.byType? r.type = some d →
      w'.recordOr d.initial = w.recordOr d.initial) : v.NullsImplied reg w' := by
  cases implied with
  | null =>
    rw [null rfl]
    exact .null
  | scalar => exact .scalar _ _
  | array each => exact .array each _
  | object found value inPlace reads nulls nested each =>
    have target := same _ _ rfl found
    exact .object found value inPlace reads (fun f member null => target ▸ nulls f member null)
      (fun f member some object => target ▸ nested f member some object) each

end Value.NullsImplied

theorem Field.NullWhenAbsent.mono (absent : f.NullWhenAbsent r)
    (stays : f.get r = .ok .null → f.get s = .ok .null) : f.NullWhenAbsent s := by
  unfold NullWhenAbsent at absent ⊢
  split at absent
  · exact absent
  · exact stays absent
  · exact absent

/-- What a field holds in one record implies the nulls as what it holds in another one did, if
that is so of the places. -/
theorem Value.NullsImplied.get_of_step (shown : v = .null ∨ f.type = .object)
    (read : f.get o = .ok v) (there : f.get r = .ok w) (implied : v.NullsImplied reg w)
    (type : s.type = r.type)
    (step : o.RelatedAt (NullsImplied reg) r f.path → o.RelatedAt (NullsImplied reg) s f.path) :
    ∃ w, f.get s = .ok w ∧ v.NullsImplied reg w := by
  have owned := (Field.get_eq_ok.mp there).1
  have before :=
    (Record.relatedAt_iff_get (fun _ => eq_null) shown read owned).mpr ⟨w, there, implied⟩
  exact (Record.relatedAt_iff_get (fun _ => eq_null) shown read (type.trans owned)).mp (step before)

theorem Value.NullsImplied.null_of_step (read : f.get o = .ok .null) (there : f.get r = .ok .null)
    (type : s.type = r.type)
    (step : o.RelatedAt (NullsImplied reg) r f.path → o.RelatedAt (NullsImplied reg) s f.path) :
    f.get s = .ok .null := by
  obtain ⟨w, found, implied⟩ := get_of_step (.inl rfl) read there .null type step
  rwa [implied.eq_null] at found

/-- The nulls of a record are implied if they are field by field. -/
theorem Value.NullsImplied.of_fields {d : Descriptor} {held : Value}
    (found : reg.byType? o.type = some d)
    (each : ∀ f ∈ d.fields, ∃ v, f.get o = .ok v ∧
      (v = .null → f.NullWhenAbsent (held.recordOr d.initial)) ∧
      (v ≠ .null → f.type = .object →
        ∃ w, f.get (held.recordOr d.initial) = .ok w ∧ v.NullsImplied reg w) ∧
      (v ≠ .null → f.type ≠ .object → v.NullsImplied reg .null)) :
    (Value.object o).NullsImplied reg held := by
  -- What a field reads, or nothing in particular where it reads nothing.
  let shown (r : Record) (f : Field) : Value := (f.get r).toOption.getD .null
  have shown_eq (r : Record) (f : Field) (v : Value) (read : f.get r = .ok v) : shown r f = v := by
    simp only [shown, read]
    rfl
  refine .object found (shown o) (shown (held.recordOr d.initial)) ?_ ?_ ?_ ?_
  · intro f member
    obtain ⟨v, read, _⟩ := each f member
    rwa [shown_eq o f v read]
  · intro f member null
    obtain ⟨v, read, absent, _⟩ := each f member
    exact absent ((shown_eq o f v read).symm.trans null)
  · intro f member something object
    obtain ⟨v, read, _, nested, _⟩ := each f member
    rw [shown_eq o f v read] at something
    obtain ⟨w, there, _⟩ := nested something object
    rwa [shown_eq _ f w there]
  · intro f member something
    obtain ⟨v, read, _, nested, others⟩ := each f member
    rw [shown_eq o f v read] at something ⊢
    split
    · rename_i object
      obtain ⟨w, there, implied⟩ := nested something object
      rwa [shown_eq _ f w there]
    · rename_i other
      exact others something other

/-- The nulls of a record stay implied if they do in each place. -/
theorem Record.placewise_nullsImplied : Record.Placewise (Value.NullsImplied reg) := by
  intro inner held new implied type step
  cases implied with
  | object found value inPlace reads nulls nested each =>
    refine .of_fields found fun f member => ⟨value f, reads f member, ?_, ?_, ?_⟩
    · intro null
      refine (nulls f member null).mono fun there => ?_
      exact Value.NullsImplied.null_of_step (null ▸ reads f member) there type (step f.path)
    · intro something object
      have implied := each f member something
      rw [if_pos object] at implied
      exact implied.get_of_step (.inr object) (reads f member) (nested f member something object)
        type (step f.path)
    · intro something other
      have implied := each f member something
      rwa [if_neg other] at implied

/-- What agrees with a value implies its nulls as well as what was in the place before. -/
theorem Value.NullsImplied.of_matches (implied : v.NullsImplied reg held)
    (agree : v.Matches reg w) : v.NullsImplied reg w := by
  induction implied generalizing w with
  | null =>
    rw [agree.eq_null]
    exact .null
  | scalar => exact .scalar _ _
  | array each => exact .array each _
  | @object r _ d found value inPlace reads nulls nested each ih =>
    obtain ⟨s, rfl⟩ : ∃ s, w = .object s := by
      cases agree
      exact ⟨_, rfl⟩
    obtain ⟨type, d', found', there⟩ := Value.matches_object.mp agree
    obtain rfl := Option.some.inj (found.symm.trans found')
    have finds : ∀ f ∈ d.fields, value f = .null ∨ f.type = .object →
        ∃ w, f.get s = .ok w ∧ (value f).Matches reg w := by
      intro f member shown
      have owned := (Field.get_eq_ok.mp (reads f member)).1
      exact (Record.relatedAt_iff_get (fun _ => Value.Matches.eq_null) shown (reads f member)
        (type.symm.trans owned)).mp (there f member)
    refine .of_fields found fun f member => ⟨value f, reads f member, ?_, ?_, ?_⟩
    · intro null
      refine (nulls f member null).mono fun _ => ?_
      obtain ⟨w, read, agree⟩ := finds f member (.inl null)
      rw [null] at agree
      rwa [agree.eq_null] at read
    · intro something object
      obtain ⟨w, read, agree⟩ := finds f member (.inr object)
      exact ⟨w, read, ih f member something agree⟩
    · intro something other
      have implied := each f member something
      rwa [if_neg other] at implied

namespace Record

/-- Where `r` agrees with the original or implies its nulls, `s` does so too. -/
structure Nearer (reg : Registry) (o r s : Record) : Prop where
  alike : ∀ q, o.MatchesAt reg r q → o.MatchesAt reg s q
  implied : ∀ q, o.RelatedAt (Value.NullsImplied reg) r q → o.RelatedAt (Value.NullsImplied reg) s q

namespace Nearer

theorem refl (o r : Record) : Nearer reg o r r :=
  ⟨fun _ before => before, fun _ before => before⟩

theorem trans (first : Nearer reg o r s) (second : Nearer reg o s t) : Nearer reg o r t :=
  ⟨fun q before => second.alike q (first.alike q before),
    fun q before => second.implied q (first.implied q before)⟩

/-- Putting what agrees with the original into one of its places brings a record nearer to it. -/
theorem set {x y : Datum} (here : o.get? path = some x) (set : r.set? y path = some s)
    (agree : x.toValue.Matches reg y.toValue)
    (keeps : ∀ inner held, x = .record inner → r.get? path = some (.record held) →
      ∃ new, y = .record new ∧ Nearer reg inner held new) : Nearer reg o r s := by
  refine ⟨fun q before => before.set here set agree ?_, fun q before => ?_⟩
  · intro inner held record found
    obtain ⟨new, same, near⟩ := keeps inner held record found
    exact ⟨new, same, near.alike⟩
  · refine before.set placewise_nullsImplied here set (fun _ _ was => was.of_matches agree) ?_
    intro inner held record found
    obtain ⟨new, same, near⟩ := keeps inner held record found
    exact ⟨new, same, near.implied⟩

end Nearer

end Record

end ObjectMapping
