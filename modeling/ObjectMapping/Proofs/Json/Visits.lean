import ObjectMapping.Json.Visits
import ObjectMapping.Proofs.Json.Members

/-! Writing a record goes down to the values in it: whatever it comes to is written by itself, and
every value is reached from smaller ones. -/
namespace ObjectMapping.Json

section

variable {reg : Registry} {r : Record} {f : Field} {v : Value} {items : List Value}

theorem Reads.sizeOf_lt (reads : Reads reg r f v) : sizeOf v < sizeOf (Value.object r) := by
  obtain ⟨_, _, _, read⟩ := reads
  have inner := Field.sizeOf_get_lt read
  simp only [Value.object.sizeOf_spec]
  omega

/-- What is true of a value if it is true of the values that writing it comes to next is true of
every value. -/
@[elab_as_elim]
theorem writing_induction (reg : Registry) {motive : Context → Value → Prop}
    (null : ∀ context, motive context .null) (scalar : ∀ context s, motive context (.scalar s))
    (object : ∀ context r, (∀ f w, Reads reg r f w → motive (.ofField f) w) →
      motive context (.object r))
    (array : ∀ context items,
      (∀ place, context.elements = .ok place → ∀ w ∈ items, motive place w) →
      motive context (.array items))
    (context : Context) (v : Value) : motive context v := by
  induction size : sizeOf v using Nat.strongRecOn generalizing context v with
  | ind n ih =>
    subst size
    cases v with
    | null => exact null context
    | scalar s => exact scalar context s
    | object r => exact object context r fun f w reads => ih _ reads.sizeOf_lt _ w rfl
    | array items =>
      refine array context items fun place _ w member => ?_
      have smaller : sizeOf w < sizeOf (Value.array items) := by
        have inner := List.sizeOf_lt_of_mem member
        simp only [Value.array.sizeOf_spec]
        omega
      exact ih _ smaller place w rfl

end

variable {reg : Registry} {options : JsonOptions} {context : Context} {r : Record} {f : Field}
variable {fields : List Field} {placed members : List (String × Json)} {items : List Value}
variable {v : Value} {j : Json}

/-- The tree of a list has the trees of its elements. -/
theorem ofValue_array_eq_ok (ok : ofValue reg options context (.array items) = .ok j) :
    ∃ place trees, context.elements = .ok place ∧ ofItems reg options place items = .ok trees ∧
      j = .array trees := by
  rw [ofValue] at ok
  obtain ⟨place, described, ok⟩ := bind_eq_ok.mp ok
  obtain ⟨trees, each, ok⟩ := bind_eq_ok.mp ok
  exact ⟨place, trees, described, each, (Except.ok.inj ok).symm⟩

/-- The members of a record can be written if all of its fields can be. -/
theorem ofFields_ok (ok : ofFields reg options r placed fields = .ok members) :
    ∀ f ∈ fields, ∀ v, f.get r = .ok v → ∃ j, ofValue reg options (.ofField f) v = .ok j := by
  induction fields generalizing placed with
  | nil => nofun
  | cons f rest ih =>
    intro g member v read
    rw [ofFields] at ok
    split at ok
    · cases ok
    rename_i w shown
    split at ok
    · rename_i dropped
      rcases List.mem_cons.mp member with rfl | later
      · obtain rfl := Except.ok.inj (shown.symm.trans read)
        obtain rfl := Value.eq_null_of_isNull (Bool.and_eq_true_iff.mp dropped).1
        exact ⟨.null, by rw [ofValue]⟩
      · exact ih ok g later v read
    · split at ok
      · cases ok
      rename_i j written
      rcases List.mem_cons.mp member with rfl | later
      · obtain rfl := Except.ok.inj (shown.symm.trans read)
        exact ⟨j, inField_eq_ok.mp written⟩
      · exact ih ok g later v read

theorem ofItems_ok (ok : ofItems reg options context items = .ok trees) :
    ∀ v ∈ items, ∃ j, ofValue reg options context v = .ok j := by
  induction items generalizing trees with
  | nil => exact List.forall_mem_nil _
  | cons first rest ih =>
    rw [ofItems] at ok
    obtain ⟨j, here, ok⟩ := bind_eq_ok.mp ok
    obtain ⟨others, later, -⟩ := bind_eq_ok.mp ok
    exact List.forall_mem_cons.mpr ⟨⟨j, here⟩, ih later⟩

/-- A record is written together with all that its fields hold. -/
theorem ofValue_of_reads (ok : ofRecord reg options tagged r = .ok j)
    (reads : Reads reg r f v) : ∃ tree, ofValue reg options (.ofField f) v = .ok tree := by
  obtain ⟨d, members, found, -, written⟩ := ofRecord_eq_ok ok
  obtain ⟨other, known, member, read⟩ := reads
  obtain rfl := Option.some.inj (found.symm.trans known)
  exact ofFields_ok written f member v read

/-- A record is written together with all that writing it comes to. -/
theorem ofValue_of_visits {o : Record} (ok : encode reg options o = .ok j)
    (visits : Visits reg o context v) : ∃ tree, ofValue reg options context v = .ok tree := by
  induction visits with
  | field reads => exact ofValue_of_reads ok reads
  | nested above reads ih =>
    obtain ⟨tree, inside⟩ := ih
    rw [ofValue] at inside
    exact ofValue_of_reads inside reads
  | element above described member ih =>
    obtain ⟨tree, inside⟩ := ih
    obtain ⟨place, trees, again, each, -⟩ := ofValue_array_eq_ok inside
    obtain rfl := Except.ok.inj (described.symm.trans again)
    exact ofItems_ok each _ member

end ObjectMapping.Json
