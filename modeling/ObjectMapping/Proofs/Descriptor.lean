import ObjectMapping.Proofs.Except
import ObjectMapping.Proofs.Typing

/-! What is true of every finished descriptor: its fields lie on slots of its type, they
have names of their own, and nothing in them is nullable twice. -/
namespace ObjectMapping

namespace Field

/-- The field lies on a slot of its owner and its tag goes with the shape of the slot. -/
structure Linked (c : Catalogue) (f : Field) : Prop where
  leads : c.Leads f.owner f.path f.shape
  typed : f.type = f.shape.type ∨ f.type = .enum ∧ f.shape.type = .uint32

theorem Declared.linked {c : Catalogue} {f : Field} (declared : f.Declared c) : f.Linked c := by
  induction declared with
  | slot found has offset name =>
    exact ⟨.slot found has, .inl rfl⟩
  | withDefault _ _ ih => exact ⟨ih.leads, ih.typed⟩
  | @withEnumeration f declared e ih =>
    unfold Field.withEnumeration
    split
    · rename_i numbers
      refine ⟨ih.leads, .inr ⟨rfl, ?_⟩⟩
      rcases ih.typed with same | ⟨enum, _⟩
      · exact same ▸ numbers
      · exact absurd (enum.symm.trans numbers) (by decide)
    · exact ⟨ih.leads, ih.typed⟩
  | mandatoriness _ _ ih => exact ⟨ih.leads, ih.typed⟩
  | primaryKey _ _ ih => exact ⟨ih.leads, ih.typed⟩
  | autoIncrement _ _ ih => exact ⟨ih.leads, ih.typed⟩

/-- The slot of a column field fits into a column. -/
theorem Linked.column {c : Catalogue} {f : Field} (linked : f.Linked c) (column : f.isColumn) :
    f.shape.type.isColumn := by
  rcases linked.typed with type | ⟨_, number⟩
  · exact type ▸ column
  · rw [number]
    rfl

end Field

/-- A path that goes on leads through a record. -/
theorem Catalogue.Leads.record_of_longer {c : Catalogue} {rest : List String}
    (leads : c.Leads type path shape) (further : c.Leads type (path ++ rest) other)
    (longer : rest ≠ []) : ∃ inner, shape = .record inner := by
  induction leads with
  | slot found has =>
    cases further with
    | slot => exact absurd rfl longer
    | through again hasAgain embeds =>
      obtain rfl := Option.some.inj (found.symm.trans again)
      obtain rfl := Option.some.inj (has.symm.trans hasAgain)
      exact ⟨_, embeds⟩
  | through found has embeds below ih =>
    generalize whole : _ ++ rest = longest at further
    cases further with
    | slot => simp [Record.leads_ne_nil below] at whole
    | through again hasAgain embedsAgain further =>
      obtain ⟨rfl, rfl⟩ := List.cons.inj whole
      obtain rfl := Option.some.inj (found.symm.trans again)
      obtain rfl := Option.some.inj (has.symm.trans hasAgain)
      obtain rfl := Shape.record.inj (embeds.symm.trans embedsAgain)
      exact ih further

namespace Descriptor

/-- The descriptor describes a declared type by fields of that type. -/
structure Sound (c : Catalogue) (d : Descriptor) : Prop where
  declared : ∃ t, c.type? d.type = some t ∧ d.initial = t.initial
  owned : ∀ f ∈ d.fields, f.owner = d.type
  linked : ∀ f ∈ d.fields, f.Linked c
  flat : ∀ f ∈ d.fields, f.shape.nullableDepth ≤ 1 ∧
    ∀ e, f.shape.element? = some e → e.nullableDepth ≤ 1
  distinct : (d.fields.map (·.name)).Nodup

/-- New records of a described type are instances of it. -/
theorem Sound.initial {c : Catalogue} {d : Descriptor} (sound : d.Sound c) (types : c.Sound) :
    d.initial.type = d.type ∧ d.initial.Instance c := by
  obtain ⟨t, found, same⟩ := sound.declared
  exact same ▸ types d.type t found

/-- An instance of the described type has every field, with data of its shape. -/
theorem Sound.content {c : Catalogue} {d : Descriptor} {f : Field} {r : Record} (sound : d.Sound c)
    (member : f ∈ d.fields) (typed : r.Instance c) (same : r.type = d.type) :
    r.type = f.owner ∧ ∃ x, r.get? f.path = some x ∧ x.Holds c f.shape := by
  have owned : r.type = f.owner := same.trans (sound.owned f member).symm
  exact ⟨owned, Record.get_of_leads typed (owned ▸ (sound.linked f member).leads)⟩

/-- A field that lies inside another one lies inside an embedded record. -/
theorem Sound.record_of_prefix {c : Catalogue} {d : Descriptor} {f g : Field} (sound : d.Sound c)
    (member : f ∈ d.fields) (other : g ∈ d.fields) (apart : f.path ≠ g.path)
    (inside : f.path <+: g.path) : ∃ inner, f.shape = .record inner := by
  obtain ⟨rest, whole⟩ := inside
  have leads := (sound.linked f member).leads
  have further := (sound.linked g other).leads
  rw [sound.owned f member] at leads
  rw [sound.owned g other, ← whole] at further
  have longer : rest ≠ [] := by
    rintro rfl
    exact apart (by simpa using whole)
  exact leads.record_of_longer further longer

/-- No field lies inside a column. -/
theorem Sound.not_inside {c : Catalogue} {d : Descriptor} {f g : Field} (sound : d.Sound c)
    (member : f ∈ d.columns) (other : g ∈ d.fields) (apart : f.path ≠ g.path) :
    ¬f.path <+: g.path := by
  intro inside
  obtain ⟨listed, column⟩ := List.mem_filter.mp member
  obtain ⟨inner, record⟩ := sound.record_of_prefix listed other apart inside
  have single := (sound.linked f listed).column column
  rw [record] at single
  cases single

/-- No column lies inside another one. -/
theorem Sound.not_prefix {c : Catalogue} {d : Descriptor} {f g : Field} (sound : d.Sound c)
    (member : f ∈ d.columns) (other : g ∈ d.columns) (apart : f.path ≠ g.path) :
    ¬f.path <+: g.path :=
  sound.not_inside member (List.mem_filter.mp other).1 apart

namespace Draft

theorem complaint_none {b : Draft} {f : Field} (quiet : b.complaint? f = none) :
    f.shape.nullableDepth ≤ 1 ∧ ∀ e, f.shape.element? = some e → e.nullableDepth ≤ 1 := by
  unfold complaint? at quiet
  split at quiet
  · cases quiet
  split at quiet
  · cases quiet
  split at quiet
  · cases quiet
  rename_i single
  split at quiet
  · cases quiet
  rename_i elements
  refine ⟨Nat.le_of_not_lt single, fun e found => Nat.le_of_not_lt fun twice => elements ?_⟩
  rw [found]
  exact decide_eq_true twice

/-- What the checks have compared a default with. -/
theorem complaint_default {b : Draft} {f : Field} (quiet : b.complaint? f = none)
    (given : f.explicitDefault = some v) :
    suits f v.type? ∧ ∀ n e, v = .enum n → f.enumeration = some e → e.contains n := by
  unfold complaint? at quiet
  split at quiet
  · cases quiet
  split at quiet
  · cases quiet
  split at quiet
  · cases quiet
  split at quiet
  · cases quiet
  rw [given] at quiet
  simp only at quiet
  split at quiet
  · cases quiet
  rename_i suitable
  refine ⟨by simpa using suitable, ?_⟩
  rintro n e rfl described
  rw [described] at quiet
  simp only at quiet
  split at quiet
  · assumption
  · cases quiet

/-- What the checks of the fields have found when they pass. -/
theorem checkFields_ok {b : Draft} {fields : List Field} (ok : b.checkFields seen fields = .ok ()) :
    (∀ f ∈ fields, f.owner = b.type.name ∧ b.complaint? f = none ∧ f.name ∉ seen) ∧
      (fields.map (·.name)).Nodup := by
  induction fields generalizing seen with
  | nil => simp
  | cons f rest ih =>
    rw [checkFields] at ok
    split at ok
    · cases ok
    rename_i owned
    split at ok
    · cases ok
    rename_i quiet
    split at ok
    · cases ok
    rename_i fresh
    obtain ⟨each, distinct⟩ := ih ok
    refine ⟨?_, ?_⟩
    · intro g member
      rcases List.mem_cons.mp member with rfl | later
      · exact ⟨Decidable.not_not.mp owned, quiet, by simpa using fresh⟩
      · obtain ⟨owner, silent, new⟩ := each g later
        exact ⟨owner, silent, fun old => new (List.mem_cons_of_mem _ old)⟩
    · rw [List.map_cons, List.nodup_cons]
      refine ⟨?_, distinct⟩
      intro again
      obtain ⟨g, later, same⟩ := List.mem_map.mp again
      exact (each g later).2.2 (same ▸ List.mem_cons_self)

theorem build_ok {b : Draft} (ok : b.build = .ok d) :
    b.checkFields [] b.fields = .ok () ∧ d.type = b.type.name ∧ d.fields = b.fields ∧
      d.initial = b.type.initial := by
  unfold build at ok
  obtain ⟨_, _, ok⟩ := bind_eq_ok.mp ok
  obtain ⟨_, checked, ok⟩ := bind_eq_ok.mp ok
  obtain rfl := Except.ok.inj ok
  exact ⟨checked, rfl, rfl, rfl⟩

end Draft

/-- Inheriting embeds the fields of a finished descriptor. -/
theorem Draft.extend_ok {b : Draft} {d : Descriptor} (ok : b.extend d base = .ok extended) :
    extended.type = b.type ∧ extended.fields = d.fields.map fun f => f.inherit b.type.name base := by
  simp only [Draft.extend] at ok
  split at ok
  · cases ok
  split at ok
  · cases ok
  obtain rfl := Except.ok.inj ok
  exact ⟨rfl, rfl⟩

/-- What the parts of a draft are like. -/
def Draft.Linked (c : Catalogue) (b : Draft) : Prop :=
  c.type? b.type.name = some b.type ∧ ∀ f ∈ b.fields, f.Linked c

mutual

theorem Draft.Formed.linked {c : Catalogue} {b : Draft} : Draft.Formed c b → Draft.Linked c b
  | .draft found name => ⟨found, fun f member => by cases member⟩
  | .table formed table => formed.linked
  | .extend formed super has embeds ok => by
    obtain ⟨found, _⟩ := formed.linked
    have sound := super.sound
    obtain ⟨type, fields⟩ := Draft.extend_ok ok
    refine ⟨type ▸ found, fun f member => ?_⟩
    rw [fields] at member
    obtain ⟨g, inherited, rfl⟩ := List.mem_map.mp member
    have linked := sound.linked g inherited
    refine ⟨?_, linked.typed⟩
    have below := linked.leads
    rw [sound.owned g inherited] at below
    exact .through found has embeds below
  | .field formed declared => by
    obtain ⟨found, linked⟩ := formed.linked
    refine ⟨found, fun f member => ?_⟩
    rcases List.mem_append.mp member with before | new
    · exact linked f before
    · obtain rfl := List.mem_singleton.mp new
      exact declared.linked

/-- A finished descriptor describes a declared type. -/
theorem Built.sound {c : Catalogue} {d : Descriptor} : Built c d → d.Sound c
  | .build formed ok => by
    obtain ⟨found, linked⟩ := formed.linked
    obtain ⟨checked, type, fields, initial⟩ := Draft.build_ok ok
    obtain ⟨each, distinct⟩ := Draft.checkFields_ok checked
    refine ⟨⟨_, type ▸ found, initial⟩, ?_, ?_, ?_, fields ▸ distinct⟩
    · intro f member
      rw [type]
      exact (each f (fields ▸ member)).1
    · intro f member
      exact linked f (fields ▸ member)
    · intro f member
      exact Draft.complaint_none (each f (fields ▸ member)).2.1

end

/-- The checks have found nothing wrong with a field of a finished descriptor. -/
theorem Built.quiet {c : Catalogue} {d : Descriptor} (built : d.Built c) (member : f ∈ d.fields) :
    ∃ b : Draft, b.complaint? f = none := by
  cases built with
  | @build _ b formed ok =>
    obtain ⟨checked, -, fields, -⟩ := Draft.build_ok ok
    exact ⟨b, ((Draft.checkFields_ok checked).1 f (fields ▸ member)).2.1⟩

mutual

private theorem Draft.Formed.each {c : Catalogue} {P : Field → Prop}
    (declared : ∀ f, f.Declared c → P f)
    (inherits : ∀ f owner base, P f → P (f.inherit owner base)) {b : Draft} :
    Draft.Formed c b → ∀ f ∈ b.fields, P f
  | .draft found name => nofun
  | .table formed table => by
    have before := formed.each declared inherits
    exact before
  | .extend formed super has embeds ok => by
    intro f member
    rw [(Draft.extend_ok ok).2] at member
    obtain ⟨g, inherited, rfl⟩ := List.mem_map.mp member
    exact inherits g _ _ (super.each declared inherits g inherited)
  | .field formed given => by
    intro f member
    rcases List.mem_append.mp member with before | new
    · exact formed.each declared inherits f before
    · obtain rfl := List.mem_singleton.mp new
      exact declared f given

/-- What is true of declared fields, and still of inherited ones, is true of every field. -/
theorem Built.each {c : Catalogue} {P : Field → Prop} (declared : ∀ f, f.Declared c → P f)
    (inherits : ∀ f owner base, P f → P (f.inherit owner base)) {d : Descriptor} :
    Built c d → ∀ f ∈ d.fields, P f
  | .build formed ok => by
    rw [(Draft.build_ok ok).2.2.1]
    exact formed.each declared inherits

end

end Descriptor

end ObjectMapping
