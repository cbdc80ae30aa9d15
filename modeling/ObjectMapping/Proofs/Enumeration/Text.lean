import ObjectMapping.Proofs.Enumeration

/-! What the texts of an enumeration say. Every contained value has a text, and of the flag values
those are given back by it that are unions of members; every text that is read stands for such a
value. A flag value may be contained without being one, because a member of several bits brings
each of them in. -/
namespace ObjectMapping.Enumeration

variable {e : Enumeration} {value : UInt32} {name : String}

theorem contains_of_nameOf (found : e.nameOf? value = some name) : e.contains value := by
  cases kind : e.kind with
  | simple => simp only [Enumeration.contains, kind, found, Option.isSome_some]
  | bitset => exact (isUnion_of_nameOf found).contains kind

theorem text_ok (contained : e.contains value) : ∃ t, e.text value = .ok t := by
  unfold Enumeration.text
  split
  · exact ⟨_, rfl⟩
  · rename_i unnamed kind
    simp only [Enumeration.contains, kind, unnamed, Option.isSome_none] at contained
    cases contained
  · have checked : e.check value = .ok value := if_pos contained
    rw [checked]
    exact ⟨_, rfl⟩

theorem text_unknown (unknown : ¬e.contains value) :
    e.text value = .error (e.unknownValue value) := by
  unfold Enumeration.text
  split
  · rename_i found
    exact absurd (contains_of_nameOf found) unknown
  · rfl
  · have failed : e.check value = .error (e.unknownValue value) := if_neg unknown
    rw [failed]
    rfl

/-- A value that is contained is written, and read back from what is written exactly if it is an
alternative or a union of members. Any other value is refused by name. -/
theorem read_text_iff (legible : e.Legible) (value : UInt32) :
    (e.contains value → ∃ t, e.text value = .ok t ∧
      (e.read t = .ok value ↔ (e.kind = .bitset → e.IsUnion value))) ∧
    (¬e.contains value → ∃ failure, e.text value = .error failure ∧
      failure.dataKind? = some (.unknownEnumValue value)) := by
  constructor
  · intro contained
    obtain ⟨t, written⟩ := text_ok contained
    refine ⟨t, written, fun read kind => ?_, fun whole => read_text legible whole written⟩
    have members := read_text_members legible kind written
    exact isUnion_iff.mpr (Except.ok.inj (members.symm.trans read))
  · intro unknown
    exact ⟨_, text_unknown unknown, rfl⟩

/-- Two flags, the second of which has two bits. -/
def modes : Enumeration := ⟨"Mode", .bitset, 0, [("Read", 1), ("Sync", 6)]⟩

theorem legible_modes : modes.Legible := ⟨by decide, by decide, by decide, by decide⟩

theorem read_text_modes :
    modes.Legible ∧ modes.contains 7 ∧ modes.IsUnion 7 ∧
      (∃ t, modes.text 7 = .ok t ∧ modes.read t = .ok 7) ∧
      ¬modes.contains 8 ∧ ∃ failure, modes.text 8 = .error failure ∧
        failure.dataKind? = some (.unknownEnumValue 8) := by
  have contained : modes.contains 7 := by decide
  have outside : ¬modes.contains 8 := by decide
  have whole : modes.IsUnion 7 := ⟨modes.values, List.Subset.refl _, rfl⟩
  obtain ⟨t, written, back⟩ := (read_text_iff legible_modes 7).1 contained
  exact ⟨legible_modes, contained, whole, ⟨t, written, back.mpr fun _ => whole⟩, outside,
    (read_text_iff legible_modes 8).2 outside⟩

/-- Half of the second flag is contained, but its bit is lost in the text. -/
theorem halfFlag_lost :
    modes.Legible ∧ (∀ entry ∈ modes.values, entry.1 ≠ "") ∧ modes.contains 3 ∧
      modes.text 3 = .ok "Read" ∧ modes.read "Read" = .ok 1 ∧
      ¬∃ t, modes.text 3 = .ok t ∧ modes.read t = .ok 3 := by
  have written : modes.text 3 = .ok "Read" := rfl
  have back : modes.read "Read" = .ok 1 := rfl
  refine ⟨legible_modes, by decide, by decide, written, back, ?_⟩
  rintro ⟨t, same, read⟩
  obtain rfl := Except.ok.inj (same.symm.trans written)
  cases read.symm.trans back

/-- Names are all known exactly if they are the names of members. -/
private theorem known_iff {names : List String} :
    (∀ name ∈ names, ∃ entry ∈ e.values, entry.1 = name) ↔
      ∃ members, members ⊆ e.values ∧ members.map (·.1) = names := by
  constructor
  · intro known
    induction names with
    | nil => exact ⟨[], List.nil_subset _, rfl⟩
    | cons name names ih =>
      obtain ⟨first, others⟩ := List.forall_mem_cons.mp known
      obtain ⟨entry, listed, rfl⟩ := first
      obtain ⟨members, among, rfl⟩ := ih others
      exact ⟨entry :: members, List.cons_subset.mpr ⟨listed, among⟩, rfl⟩
  · rintro ⟨members, among, rfl⟩ name member
    obtain ⟨entry, listed, rfl⟩ := List.mem_map.mp member
    exact ⟨entry, among listed, rfl⟩

/-- A text is read exactly if all names in it are known, and then as the union of what they name.
That value is contained, and it is read again from its own text. -/
theorem read_stable (legible : e.Legible) (kind : e.kind = .bitset) (t : String) :
    ((∃ value, e.read t = .ok value) ↔ ∀ name ∈ namesIn t, ∃ entry ∈ e.values, entry.1 = name) ∧
    ∀ value, e.read t = .ok value →
      (∃ members, members ⊆ e.values ∧ members.map (·.1) = namesIn t ∧ union members = value) ∧
      e.contains value ∧ ∃ s, e.text value = .ok s ∧ e.read s = .ok value := by
  constructor
  · rw [known_iff]
    constructor
    · rintro ⟨value, read⟩
      obtain ⟨members, among, names, -⟩ := (read_eq_ok legible kind).mp read
      exact ⟨members, among, names⟩
    · rintro ⟨members, among, names⟩
      exact ⟨union members, (read_eq_ok legible kind).mpr ⟨members, among, names, rfl⟩⟩
  · intro value read
    obtain ⟨members, among, names, sum⟩ := (read_eq_ok legible kind).mp read
    have whole : e.IsUnion value := ⟨members, among, sum⟩
    have contained := whole.contains kind
    obtain ⟨s, written⟩ := text_ok contained
    exact ⟨⟨members, among, names, sum⟩, contained, s, written,
      read_text legible (fun _ => whole) written⟩

theorem read_stable_modes :
    modes.Legible ∧ modes.kind = .bitset ∧ namesIn "Sync | Read" = ["Sync", "Read"] ∧
      modes.read "Sync | Read" = .ok 7 ∧ modes.contains 7 ∧
      ∃ s, modes.text 7 = .ok s ∧ modes.read s = .ok 7 := by
  have read : modes.read "Sync | Read" = .ok 7 := rfl
  obtain ⟨-, contained, stable⟩ := (read_stable legible_modes rfl "Sync | Read").2 7 read
  exact ⟨legible_modes, rfl, by decide +kernel, read, contained, stable⟩

end ObjectMapping.Enumeration
