import Mathlib.Data.String.Basic
import ObjectMapping.Json.Encode
import ObjectMapping.Proofs.Json.Members

/-! The order of members. A tree that is written has the members of each object in the order of
their keys, so that it is determined by what its keys lead to. -/
namespace ObjectMapping.Json

/-- The members stand in the order of their keys, each key once. -/
def Ordered (members : List (String × Json)) : Prop :=
  members.Pairwise fun a b => a.1 < b.1

variable {members others placed : List (String × Json)} {key : String} {j : Json}

theorem mem_insert {entry : String × Json} (member : entry ∈ insert key j members) :
    entry = (key, j) ∨ entry ∈ members := by
  induction members with
  | nil => exact .inl (List.mem_singleton.mp member)
  | cons first rest ih =>
    obtain ⟨k, old⟩ := first
    unfold insert at member
    split at member
    · exact List.mem_cons.mp member
    split at member
    · exact (List.mem_cons.mp member).imp_right (List.mem_cons_of_mem _)
    · rcases List.mem_cons.mp member with rfl | later
      · exact .inr List.mem_cons_self
      · exact (ih later).imp_right (List.mem_cons_of_mem _)

/-- A member is added in its place. -/
theorem Ordered.insert (ordered : Ordered members) : Ordered (insert key j members) := by
  induction members with
  | nil => exact List.pairwise_singleton _ _
  | cons first rest ih =>
    obtain ⟨k, old⟩ := first
    obtain ⟨below, ordered⟩ := List.pairwise_cons.mp ordered
    unfold Json.insert
    split
    · rename_i before
      refine List.pairwise_cons.mpr ⟨fun entry member => ?_, List.pairwise_cons.mpr ⟨below, ordered⟩⟩
      rcases List.mem_cons.mp member with rfl | later
      · exact before
      · exact lt_trans before (below entry later)
    split
    · rename_i same
      exact List.pairwise_cons.mpr ⟨same ▸ below, ordered⟩
    · rename_i notBefore other
      have after : k < key := lt_of_le_of_ne (not_lt.mp notBefore) (Ne.symm other)
      refine List.pairwise_cons.mpr ⟨fun entry member => ?_, ih ordered⟩
      rcases mem_insert member with rfl | later
      · exact after
      · exact below entry later

/-- What stands before all members is not among them. -/
theorem lookup_before (before : ∀ entry ∈ members, key < entry.1) : members.lookup key = none := by
  induction members with
  | nil => rfl
  | cons first rest ih =>
    obtain ⟨k, old⟩ := first
    obtain ⟨first, later⟩ := List.forall_mem_cons.mp before
    rw [lookup_cons_ne first.ne, ih later]

/-- Members in order are determined by what their keys lead to. -/
theorem Ordered.ext (ordered : Ordered members) (also : Ordered others)
    (same : ∀ key, members.lookup key = others.lookup key) : members = others := by
  induction members generalizing others with
  | nil =>
    cases others with
    | nil => rfl
    | cons first rest =>
      have found := same first.1
      rw [List.lookup_cons_self] at found
      cases found
  | cons first rest ih =>
    obtain ⟨k, old⟩ := first
    cases others with
    | nil =>
      have found := same k
      rw [List.lookup_cons_self] at found
      cases found
    | cons second remaining =>
      obtain ⟨m, new⟩ := second
      obtain ⟨below, ordered⟩ := List.pairwise_cons.mp ordered
      obtain ⟨under, remain⟩ := List.pairwise_cons.mp also
      -- The first key of either list is the least of all.
      obtain rfl : k = m := by
        rcases lt_trichotomy k m with less | equal | more
        · have found := same k
          rw [List.lookup_cons_self, lookup_cons_ne less.ne,
            lookup_before fun entry member => lt_trans less (under entry member)] at found
          cases found
        · exact equal
        · have found := same m
          rw [List.lookup_cons_self, lookup_cons_ne more.ne,
            lookup_before fun entry member => lt_trans more (below entry member)] at found
          cases found
      have value := same k
      rw [List.lookup_cons_self, List.lookup_cons_self] at value
      obtain rfl := Option.some.inj value
      refine congrArg ((k, old) :: ·) (ih ordered remain fun key => ?_)
      by_cases here : key = k
      · rw [here, lookup_before below, lookup_before under]
      · have found := same key
        rwa [lookup_cons_ne here, lookup_cons_ne here] at found

variable {reg : Registry} {options : JsonOptions} {r : Record} {fields : List Field}

/-- Fields are written among the members in order. -/
theorem Ordered.ofFields (ordered : Ordered placed)
    (ok : ofFields reg options r placed fields = .ok members) : Ordered members := by
  induction fields generalizing placed with
  | nil =>
    rw [Json.ofFields] at ok
    exact Except.ok.inj ok ▸ ordered
  | cons f rest ih =>
    rw [Json.ofFields] at ok
    split at ok
    · cases ok
    split at ok
    · exact ih ordered ok
    · split at ok
      · cases ok
      · exact ih ordered.insert ok

end ObjectMapping.Json
