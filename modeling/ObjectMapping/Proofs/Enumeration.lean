import ObjectMapping.Enumeration
import ObjectMapping.Proofs.Except
import ObjectMapping.Proofs.Lookup

/-! The text of an enumeration value stands for that value. A text is read as the union of the
members that it names, and in the text of a flag value these have every bit that any members in
the value have: they make up all of it if any members do. -/
namespace ObjectMapping.Enumeration

variable {e : Enumeration} {value bits rest : UInt32} {name : String}

/-- Whether a bit is set. -/
private def hasBit (value : UInt32) (i : Nat) : Bool := value.toBitVec.getLsbD i

private theorem hasBit_ext (same : ∀ i, hasBit value i = hasBit bits i) : value = bits := by
  apply UInt32.toBitVec_inj.mp
  exact BitVec.eq_of_getLsbD_eq fun i _ => same i

@[simp] private theorem hasBit_or (i : Nat) :
    hasBit (value ||| bits) i = (hasBit value i || hasBit bits i) := by
  simp [hasBit]

@[simp] private theorem hasBit_and (i : Nat) :
    hasBit (value &&& bits) i = (hasBit value i && hasBit bits i) := by
  simp [hasBit]

@[simp] private theorem hasBit_zero (i : Nat) : hasBit 0 i = false := by
  simp [hasBit]

private theorem hasBit_without (i : Nat) :
    hasBit (value &&& ~~~bits) i = (hasBit value i && !hasBit bits i) := by
  by_cases low : i < 32
  · simp [hasBit, low]
  · have high : value.toBitVec.getLsbD i = false := BitVec.getLsbD_of_ge _ _ (Nat.le_of_not_lt low)
    simp [hasBit, high]

private theorem hasBit_union (members : List (String × UInt32)) (i : Nat) :
    hasBit (union members) i = members.any fun entry => hasBit entry.2 i := by
  have folded : ∀ start, hasBit (members.foldl (fun bits entry => bits ||| entry.2) start) i =
      (hasBit start i || members.any fun entry => hasBit entry.2 i) := by
    induction members with
    | nil => simp
    | cons entry rest ih =>
      intro start
      rw [List.foldl_cons, ih, hasBit_or, List.any_cons, Bool.or_assoc]
  rw [union, folded, hasBit_zero, Bool.false_or]

private theorem within_iff : value &&& bits = bits ↔ ∀ i, hasBit bits i → hasBit value i := by
  constructor
  · intro same i set
    rw [← same, hasBit_and, Bool.and_eq_true] at set
    exact set.1
  · intro within
    refine hasBit_ext fun i => ?_
    rw [hasBit_and]
    cases set : hasBit bits i with
    | false => rw [Bool.and_false]
    | true => rw [within i set, Bool.and_true]

/-- The members whose names make up the text of a union. -/
private def chosen (value : UInt32) :
    (remaining : UInt32) → List (String × UInt32) → List (String × UInt32)
  | _, [] => []
  | remaining, (name, bits) :: rest =>
    if bits != 0 && value &&& bits == bits && remaining &&& bits != 0 then
      (name, bits) :: chosen value (remaining &&& ~~~bits) rest
    else chosen value remaining rest

private theorem memberNames_eq (value remaining : UInt32) (entries : List (String × UInt32)) :
    memberNames value remaining entries = (chosen value remaining entries).map (·.1) := by
  induction entries generalizing remaining with
  | nil => rfl
  | cons entry rest ih =>
    obtain ⟨name, bits⟩ := entry
    unfold memberNames chosen
    split
    · rw [List.map_cons, ih]
    · exact ih remaining

/-- Every chosen member lies in the value and is not empty. -/
private theorem chosen_mem {remaining : UInt32} {entries : List (String × UInt32)}
    (member : entry ∈ chosen value remaining entries) :
    entry ∈ entries ∧ entry.2 ≠ 0 ∧ value &&& entry.2 = entry.2 := by
  induction entries generalizing remaining with
  | nil => cases member
  | cons first rest ih =>
    obtain ⟨name, bits⟩ := first
    unfold chosen at member
    split at member
    · rename_i fits
      simp only [Bool.and_eq_true, bne_iff_ne, beq_iff_eq] at fits
      rcases List.mem_cons.mp member with rfl | later
      · exact ⟨List.mem_cons_self, fits.1.1, fits.1.2⟩
      · obtain ⟨old, rest⟩ := ih later
        exact ⟨List.mem_cons_of_mem _ old, rest⟩
    · obtain ⟨old, rest⟩ := ih member
      exact ⟨List.mem_cons_of_mem _ old, rest⟩

/-- Every bit of a member that lies in the value is a bit of some chosen member, unless
it was not asked for. -/
private theorem chosen_covers {entry : String × UInt32} (i : Nat) {remaining : UInt32}
    {entries : List (String × UInt32)} (asked : hasBit remaining i) (member : entry ∈ entries)
    (within : value &&& entry.2 = entry.2) (set : hasBit entry.2 i) :
    (chosen value remaining entries).any fun other => hasBit other.2 i := by
  induction entries generalizing remaining with
  | nil => cases member
  | cons first rest ih =>
    obtain ⟨name, bits⟩ := first
    unfold chosen
    by_cases here : hasBit bits i
    · split
      · simp [here]
      · rename_i passed
        rcases List.mem_cons.mp member with rfl | later
        · refine absurd ?_ passed
          have some : bits ≠ 0 := by
            rintro rfl
            simp at here
          have shared : remaining &&& bits ≠ 0 := by
            intro none
            have bit : hasBit (remaining &&& bits) i = (hasBit remaining i && hasBit bits i) :=
              hasBit_and i
            rw [none, asked, here] at bit
            simp at bit
          simp [some, shared, within]
        · exact ih asked later
    · have later : entry ∈ rest := by
        rcases List.mem_cons.mp member with rfl | later
        · exact absurd set here
        · exact later
      split
      · have still : hasBit (remaining &&& ~~~bits) i := by
          rw [hasBit_without]
          simp [asked, here]
        rw [List.any_cons, ih still later, Bool.or_true]
      · exact ih asked later

theorem mem_membersIn {entry : String × UInt32} :
    entry ∈ e.membersIn value ↔ entry ∈ e.values ∧ value &&& entry.2 = entry.2 := by
  rw [membersIn, List.mem_filter, beq_iff_eq]

/-- The chosen members have every bit that any members in the value have. -/
private theorem union_chosen (e : Enumeration) (value : UInt32) :
    union (chosen value value e.values) = union (e.membersIn value) := by
  refine hasBit_ext fun i => ?_
  rw [hasBit_union, hasBit_union, Bool.eq_iff_iff]
  constructor
  · intro set
    obtain ⟨entry, member, bit⟩ := List.any_eq_true.mp set
    obtain ⟨listed, -, inside⟩ := chosen_mem member
    exact List.any_eq_true.mpr ⟨entry, mem_membersIn.mpr ⟨listed, inside⟩, bit⟩
  · intro set
    obtain ⟨entry, member, bit⟩ := List.any_eq_true.mp set
    obtain ⟨listed, inside⟩ := mem_membersIn.mp member
    exact chosen_covers i (within_iff.mp inside i bit) listed inside bit

/-- A union of members is the union of all members that lie in it. -/
theorem isUnion_iff : e.IsUnion value ↔ union (e.membersIn value) = value := by
  constructor
  · rintro ⟨members, among, rfl⟩
    refine hasBit_ext fun i => ?_
    rw [Bool.eq_iff_iff]
    constructor
    · intro set
      rw [hasBit_union, List.any_eq_true] at set
      obtain ⟨entry, member, bit⟩ := set
      exact within_iff.mp (mem_membersIn.mp member).2 i bit
    · intro set
      rw [hasBit_union, List.any_eq_true] at set ⊢
      obtain ⟨entry, member, bit⟩ := set
      refine ⟨entry, mem_membersIn.mpr ⟨among member, within_iff.mpr fun j bit => ?_⟩, bit⟩
      rw [hasBit_union, List.any_eq_true]
      exact ⟨entry, member, bit⟩
  · intro whole
    exact ⟨e.membersIn value, fun entry member => (mem_membersIn.mp member).1, whole⟩

theorem nameOf_mem (found : e.nameOf? value = some name) : (name, value) ∈ e.values := by
  unfold nameOf? at found
  obtain ⟨⟨n, v⟩, first, rfl⟩ := Option.map_eq_some_iff.mp found
  have same : v = value := by simpa using List.find?_some first
  exact same ▸ List.mem_of_find?_eq_some first

theorem valueOf_mem (found : e.valueOf? name = some value) : (name, value) ∈ e.values := by
  unfold valueOf? at found
  obtain ⟨⟨n, v⟩, first, rfl⟩ := Option.map_eq_some_iff.mp found
  have same : n = name := by simpa using List.find?_some first
  exact same ▸ List.mem_of_find?_eq_some first

/-- A name stands for its value. -/
theorem Legible.valueOf (legible : e.Legible) (member : (name, value) ∈ e.values) :
    e.valueOf? name = some value := by
  have first := find_distinct (List.pairwise_map.mp legible.distinct) member
  rw [valueOf?, first]
  rfl

/-- A value with a name is the union of the member of that name alone. -/
theorem isUnion_of_nameOf (found : e.nameOf? value = some name) : e.IsUnion value := by
  refine ⟨[(name, value)], ?_, UInt32.zero_or⟩
  exact List.cons_subset.mpr ⟨nameOf_mem found, List.nil_subset _⟩

/-- A union of members has no bit that none of the members has. -/
theorem IsUnion.contains (whole : e.IsUnion value) (kind : e.kind = .bitset) : e.contains value := by
  obtain ⟨members, among, rfl⟩ := whole
  have none : union members &&& ~~~e.allBits = 0 := by
    refine hasBit_ext fun i => ?_
    rw [hasBit_without, hasBit_zero, Bool.and_eq_false_iff, Bool.not_eq_false']
    cases set : hasBit (union members) i with
    | false => exact .inl rfl
    | true =>
      rw [hasBit_union, List.any_eq_true] at set
      obtain ⟨entry, member, bit⟩ := set
      have all : hasBit e.allBits i = e.values.any fun entry => hasBit entry.2 i :=
        hasBit_union e.values i
      rw [all]
      exact .inr (List.any_eq_true.mpr ⟨entry, among member, bit⟩)
  rw [Enumeration.contains, kind]
  exact beq_iff_eq.mpr none

/-- The pieces between the bars are those of the list as it is split in general. -/
private theorem splitBars_eq (text : List Char) : splitBars text = text.splitOn '|' := by
  induction text with
  | nil => rfl
  | cons c text ih =>
    obtain ⟨piece, pieces, same⟩ := List.exists_cons_of_ne_nil (List.splitOn_ne_nil '|' text)
    rw [List.splitOn, List.splitOnP_cons_eq_if_modifyHead, ← List.splitOn]
    by_cases bar : c = '|'
    · subst bar
      rw [splitBars, ih]
      rfl
    · rw [splitBars, ih, same, if_neg (by simpa using bar)]
      · rfl
      · exact bar

/-- The step that reading the text of a union takes for each name. -/
private def addName (e : Enumeration) (bits : UInt32) (piece : List Char) : Except Error UInt32 :=
  let name := trimBlanks (String.ofList piece)
  match e.valueOf? name with
  | some value => .ok (bits ||| value)
  | none => .error (e.unknownName name)

private theorem addName_eq_ok (legible : e.Legible) {piece : List Char} {next : UInt32} :
    e.addName bits piece = .ok next ↔
      ∃ entry ∈ e.values, entry.1 = trimBlanks (String.ofList piece) ∧ bits ||| entry.2 = next := by
  rw [addName]
  constructor
  · intro ok
    split at ok
    · rename_i value found
      exact ⟨_, valueOf_mem found, rfl, Except.ok.inj ok⟩
    · cases ok
  · rintro ⟨entry, listed, named, rfl⟩
    rw [← named, legible.valueOf listed]

/-- Names are read one after the other, each of them as the member that it names. -/
private theorem addNames_eq_ok (legible : e.Legible) {pieces : List (List Char)} :
    pieces.foldlM e.addName bits = .ok value ↔
      ∃ members, members ⊆ e.values ∧
        members.map (·.1) = pieces.map (fun piece => trimBlanks (String.ofList piece)) ∧
        members.foldl (fun bits entry => bits ||| entry.2) bits = value := by
  induction pieces generalizing bits with
  | nil =>
    constructor
    · intro ok
      exact ⟨[], List.nil_subset _, rfl, Except.ok.inj ok⟩
    · rintro ⟨members, -, names, rfl⟩
      obtain rfl := List.map_eq_nil_iff.mp names
      rfl
  | cons piece pieces ih =>
    rw [List.foldlM_cons]
    constructor
    · intro ok
      obtain ⟨next, first, others⟩ := bind_eq_ok.mp ok
      obtain ⟨entry, listed, named, rfl⟩ := (addName_eq_ok legible).mp first
      obtain ⟨members, among, names, rfl⟩ := ih.mp others
      refine ⟨entry :: members, List.cons_subset.mpr ⟨listed, among⟩, ?_, rfl⟩
      rw [List.map_cons, List.map_cons, named, names]
    · rintro ⟨_, among, names, rfl⟩
      obtain ⟨entry, members, rfl, named, names⟩ := List.map_eq_cons_iff.mp names
      obtain ⟨listed, among⟩ := List.cons_subset.mp among
      refine bind_eq_ok.mpr ⟨bits ||| entry.2, ?_, ih.mpr ⟨members, among, names, rfl⟩⟩
      exact (addName_eq_ok legible).mpr ⟨entry, listed, named, rfl⟩

/-- A text is read as the union of the members that it names. -/
theorem read_eq_ok (legible : e.Legible) (kind : e.kind = .bitset) {text : String} :
    e.read text = .ok value ↔ ∃ members, members ⊆ e.values ∧
      members.map (·.1) = namesIn text ∧ union members = value := by
  have step : e.read text = if text.isEmpty then .ok 0
      else (splitBars text.toList).foldlM e.addName 0 := by
    rw [read, kind]
    rfl
  rw [step, namesIn]
  split
  · constructor
    · intro ok
      exact ⟨[], List.nil_subset _, rfl, Except.ok.inj ok⟩
    · rintro ⟨members, -, names, rfl⟩
      obtain rfl := List.map_eq_nil_iff.mp names
      rfl
  · rw [splitBars_eq]
    exact addNames_eq_ok legible

/-- Names joined by bars are the names that the text lists, unless it is empty but for the empty
name. -/
private theorem namesIn_intercalate {names : List String} (some : names ≠ [""])
    (plain : ∀ name ∈ names, '|' ∉ name.toList ∧ trimBlanks name = name) :
    namesIn ("|".intercalate names) = names := by
  by_cases empty : names = []
  · subst empty
    rfl
  have pieces : ("|".intercalate names).toList.splitOn '|' = names.map String.toList := by
    rw [String.toList_intercalate]
    refine List.splitOn_intercalate '|' ?_ (by simpa using empty)
    intro piece member
    obtain ⟨name, listed, rfl⟩ := List.mem_map.mp member
    exact (plain name listed).1
  rw [namesIn]
  split
  · rename_i bare
    rw [String.isEmpty_iff.mp bare] at pieces
    obtain ⟨name, rfl, nothing⟩ := List.map_eq_singleton_iff.mp pieces.symm
    exact absurd (congrArg (fun name => [name]) (String.toList_eq_nil_iff.mp nothing)) some
  · rw [pieces, List.map_map]
    refine (List.map_congr_left fun name listed => ?_).trans (List.map_id names)
    simp only [Function.comp, String.ofList_toList, (plain name listed).2, id]

private theorem check_ok {checked : UInt32} (ok : e.check value = .ok checked) : checked = value := by
  unfold check at ok
  split at ok
  · exact (Except.ok.inj ok).symm
  · cases ok

/-- The names of members joined by bars are read as the union of the members. -/
private theorem read_names (legible : e.Legible) (kind : e.kind = .bitset)
    {members : List (String × UInt32)} (among : members ⊆ e.values)
    (some : members.map (·.1) ≠ [""]) :
    e.read ("|".intercalate (members.map (·.1))) = .ok (union members) := by
  refine (read_eq_ok legible kind).mpr ⟨members, among, ?_, rfl⟩
  refine (namesIn_intercalate some fun name member => ?_).symm
  obtain ⟨entry, listed, rfl⟩ := List.mem_map.mp member
  exact ⟨legible.noBars entry (among listed), legible.trimmed entry (among listed)⟩

/-- The name of a value is read as that value. -/
private theorem read_name (legible : e.Legible) (found : e.nameOf? value = some name) :
    e.read name = .ok value := by
  have member := nameOf_mem found
  cases kind : e.kind with
  | simple => simp only [read, kind, legible.valueOf member]
  | bitset =>
    by_cases empty : name = ""
    · subst empty
      obtain rfl : value = 0 := legible.nonempty kind _ member rfl
      exact (read_eq_ok legible kind).mpr ⟨[], List.nil_subset _, rfl, rfl⟩
    · have among : [(name, value)] ⊆ e.values := List.cons_subset.mpr ⟨member, List.nil_subset _⟩
      have read := read_names legible kind among (by simpa using empty)
      rwa [List.map_singleton, String.intercalate_singleton, union, List.foldl_cons,
        UInt32.zero_or] at read

/-- The text of a flag value is read as the union of the members in it. -/
theorem read_text_members {t : String} (legible : e.Legible) (kind : e.kind = .bitset)
    (ok : e.text value = .ok t) : e.read t = .ok (union (e.membersIn value)) := by
  unfold Enumeration.text at ok
  split at ok
  · rename_i found
    obtain rfl := Except.ok.inj ok
    rw [isUnion_iff.mp (isUnion_of_nameOf found)]
    exact read_name legible found
  · rename_i simple
    cases simple.symm.trans kind
  · obtain ⟨checked, same, ok⟩ := bind_eq_ok.mp ok
    obtain rfl := Except.ok.inj ok
    obtain rfl := check_ok same
    rw [memberNames_eq, ← union_chosen]
    refine read_names legible kind (fun entry member => (chosen_mem member).1) fun bare => ?_
    obtain ⟨entry, others, same, name, -⟩ := List.map_eq_cons_iff.mp bare
    have member : entry ∈ chosen checked checked e.values := same ▸ List.mem_cons_self
    obtain ⟨listed, flag, -⟩ := chosen_mem member
    exact flag (legible.nonempty kind entry listed name)

/-- The text of a value is read as that value, if its name or the names of its members can
be told apart in it. -/
theorem read_text {t : String} (legible : e.Legible) (whole : e.kind = .bitset → e.IsUnion value)
    (ok : e.text value = .ok t) : e.read t = .ok value := by
  cases kind : e.kind with
  | simple =>
    unfold Enumeration.text at ok
    split at ok
    · rename_i found
      obtain rfl := Except.ok.inj ok
      exact read_name legible found
    · cases ok
    · rename_i bitset
      cases bitset.symm.trans kind
  | bitset =>
    rw [read_text_members legible kind ok, isUnion_iff.mp (whole kind)]

end ObjectMapping.Enumeration
