import ObjectMapping.Json.Encode
import ObjectMapping.Proofs.Except
import ObjectMapping.Proofs.Lookup
import ObjectMapping.Proofs.Registry

/-! The members of an encoded record: each described field has its own unless it is null and
left out, and the tag that names the type is no field's. -/
namespace ObjectMapping

namespace Json

theorem lookup_insert_same (key : String) (value : Json) (members : List (String × Json)) :
    (insert key value members).lookup key = some value := by
  induction members with
  | nil => exact List.lookup_cons_self
  | cons member rest ih =>
    obtain ⟨k, v⟩ := member
    unfold insert
    split
    · exact List.lookup_cons_self
    split
    · exact List.lookup_cons_self
    · rename_i differ
      rw [lookup_cons_ne differ, ih]

theorem lookup_insert_other {key other : String} (differ : other ≠ key) (value : Json)
    (members : List (String × Json)) :
    (insert key value members).lookup other = members.lookup other := by
  induction members with
  | nil => exact lookup_cons_ne differ value []
  | cons member rest ih =>
    obtain ⟨k, v⟩ := member
    unfold insert
    split
    · exact lookup_cons_ne differ value _
    split
    · rename_i same
      subst same
      rw [lookup_cons_ne differ, lookup_cons_ne differ]
    · rw [List.lookup_cons, List.lookup_cons, ih]

variable {reg : Registry} {options : JsonOptions} {r : Record} {fields : List Field}
variable {placed members : List (String × Json)}

/-- A field is read and, unless it is left out, written among the members. -/
theorem ofFields_cons (f : Field) (rest : List Field) :
    ofFields reg options r placed (f :: rest) = (do
      let v ← f.get r
      if v.isNull && !options.emitNulls then ofFields reg options r placed rest
      else
        let j ← inField f.name (ofValue reg options (.ofField f) v)
        ofFields reg options r (insert f.name j placed) rest) := by
  rw [ofFields]
  split
  · rename_i e unread
    rw [unread]
    rfl
  · rename_i v read
    refine Eq.trans ?_ (congrArg (· >>= _) read).symm
    change _ = if v.isNull && !options.emitNulls then _ else _
    split
    · rfl
    · cases inField f.name (ofValue reg options (.ofField f) v) <;> rfl

/-- How a field of the record is written among the members that are added to those placed before. -/
inductive Written (reg : Registry) (options : JsonOptions) (r : Record)
    (placed members : List (String × Json)) (f : Field) : Prop where
  | member {v : Value} {j : Json} (read : f.get r = .ok v) (kept : options.emitNulls ∨ v ≠ .null)
      (tree : ofValue reg options (.ofField f) v = .ok j) (found : members.lookup f.name = some j)
  | omitted (read : f.get r = .ok .null) (short : options.emitNulls = false)
      (still : members.lookup f.name = placed.lookup f.name)

/-- A field is found among the members unless its value is a null that is left out. -/
theorem Written.found {v : Value} (written : Written reg options r placed members f)
    (read : f.get r = .ok v) (kept : options.emitNulls ∨ v ≠ .null) :
    ∃ j, ofValue reg options (.ofField f) v = .ok j ∧ members.lookup f.name = some j := by
  cases written with
  | member again _ tree found =>
    obtain rfl := Except.ok.inj (read.symm.trans again)
    exact ⟨_, tree, found⟩
  | omitted again short _ =>
    rcases kept with nulls | something
    · cases nulls.symm.trans short
    · exact absurd (Except.ok.inj (read.symm.trans again)) something

/-- Without nulls, a field without a value leaves its place to what was there before. -/
theorem Written.passed (written : Written reg options r placed members f)
    (read : f.get r = .ok .null) (short : options.emitNulls = false) :
    members.lookup f.name = placed.lookup f.name := by
  cases written with
  | member again kept _ _ =>
    obtain rfl := Except.ok.inj (read.symm.trans again)
    rcases kept with nulls | something
    · cases nulls.symm.trans short
    · exact absurd rfl something
  | omitted _ _ still => exact still

/-- Every field is written under its name, and all other members are those from before. -/
theorem ofFields_written (distinct : (fields.map (·.name)).Nodup)
    (ok : ofFields reg options r placed fields = .ok members) :
    (∀ f ∈ fields, Written reg options r placed members f) ∧
      ∀ key, (∀ f ∈ fields, f.name ≠ key) → members.lookup key = placed.lookup key := by
  induction fields generalizing placed with
  | nil =>
    rw [ofFields] at ok
    obtain rfl := Except.ok.inj ok
    refine ⟨?_, fun _ _ => rfl⟩
    intro f member
    cases member
  | cons f rest ih =>
    rw [List.map_cons, List.nodup_cons] at distinct
    have apart : ∀ g ∈ rest, g.name ≠ f.name := fun g later same =>
      distinct.1 (same ▸ List.mem_map_of_mem later)
    rw [ofFields] at ok
    split at ok
    · cases ok
    rename_i v read
    split at ok
    · rename_i dropped
      obtain ⟨null, short⟩ := Bool.and_eq_true_iff.mp dropped
      obtain ⟨each, others⟩ := ih distinct.2 ok
      refine ⟨fun g member => ?_, fun key none =>
        others key fun g later => none g (List.mem_cons_of_mem _ later)⟩
      rcases List.mem_cons.mp member with rfl | later
      · exact .omitted (Value.eq_null_of_isNull null ▸ read) (by simpa using short)
          (others g.name apart)
      · exact each g later
    · rename_i stays
      split at ok
      · cases ok
      rename_i j written
      obtain ⟨each, others⟩ := ih distinct.2 ok
      have found := (others f.name apart).trans (lookup_insert_same f.name j placed)
      have kept : options.emitNulls ∨ v ≠ .null := by
        cases nulls : options.emitNulls with
        | true => exact .inl rfl
        | false => exact .inr fun null => stays (by rw [null, nulls]; rfl)
      refine ⟨fun g member => ?_, fun key none => ?_⟩
      · rcases List.mem_cons.mp member with rfl | later
        · exact .member read kept (inField_eq_ok.mp written) found
        · cases each g later with
          | member read kept tree found => exact .member read kept tree found
          | omitted read short still =>
            exact .omitted read short (still.trans (lookup_insert_other (apart g later) j placed))
      · have first : key ≠ f.name := fun same => none f List.mem_cons_self same.symm
        rw [others key fun g later => none g (List.mem_cons_of_mem _ later)]
        exact lookup_insert_other first j placed

/-- The tree of a record has its described fields as members, and the tag if one is asked for. -/
theorem ofRecord_eq_ok {j : Json} (ok : ofRecord reg options tagged r = .ok j) :
    ∃ d members, reg.byType? r.type = some d ∧ j = .object members ∧
      ofFields reg options r (if tagged then [(options.typeKey, .string d.name)] else []) d.fields =
        .ok members := by
  rw [ofRecord] at ok
  obtain ⟨d, described, ok⟩ := bind_eq_ok.mp ok
  obtain ⟨members, written, ok⟩ := bind_eq_ok.mp ok
  exact ⟨d, members, Registry.descriptorFor_eq.mp described, (Except.ok.inj ok).symm, written⟩

end Json

end ObjectMapping
