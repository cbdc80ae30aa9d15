/-! Looking things up in lists by a key. -/
namespace ObjectMapping

theorem lookup_cons_ne [BEq κ] [LawfulBEq κ] {key k : κ} (other : key ≠ k) (a : α)
    (rest : List (κ × α)) : ((k, a) :: rest).lookup key = rest.lookup key := by
  have differ : (key == k) = false := by simpa using other
  rw [List.lookup_cons, differ]

/-- Where no two items have the same key, an item is the first one with its key. -/
theorem find_distinct [BEq κ] [LawfulBEq κ] {key : α → κ} {entries : List α}
    (distinct : entries.Pairwise fun a b => key a ≠ key b) (member : a ∈ entries) :
    entries.find? (fun b => key b == key a) = some a := by
  induction entries with
  | nil => cases member
  | cons first rest ih =>
    obtain ⟨apart, distinct⟩ := List.pairwise_cons.mp distinct
    rcases List.mem_cons.mp member with rfl | later
    · simp
    · have other : (key first == key a) = false := by simpa using apart a later
      rw [List.find?_cons_of_neg (by simp [other]), ih distinct later]

/-- What is looked for in two lists of the same items is the same, where no two items fit. -/
theorem find_congr {p : α → Bool} {entries other : List α} (same : ∀ a, a ∈ entries ↔ a ∈ other)
    (unique : ∀ a ∈ entries, ∀ b ∈ entries, p a → p b → a = b) :
    entries.find? p = other.find? p := by
  cases found : entries.find? p with
  | none =>
    have missed := List.find?_eq_none.mp found
    exact (List.find?_eq_none.mpr fun a member => missed a ((same a).mpr member)).symm
  | some a =>
    have member := List.mem_of_find?_eq_some found
    have fits := List.find?_some found
    obtain ⟨b, again⟩ := Option.isSome_iff_exists.mp
      (List.find?_isSome.mpr ⟨a, (same a).mp member, fits⟩)
    have known := (same b).mpr (List.mem_of_find?_eq_some again)
    rw [again, unique a member b known fits (List.find?_some again)]

end ObjectMapping
