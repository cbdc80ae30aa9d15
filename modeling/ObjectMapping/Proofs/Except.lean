import ObjectMapping.Error

/-! Results of steps that may fail. -/
namespace ObjectMapping

theorem bind_eq_ok {x : Except ε α} {f : α → Except ε β} :
    (x >>= f) = .ok b ↔ ∃ a, x = .ok a ∧ f a = .ok b := by
  cases x with
  | error e => exact ⟨fun same => (by cases same), fun ⟨_, same, _⟩ => (by cases same)⟩
  | ok a => exact ⟨fun same => ⟨a, rfl, same⟩, fun ⟨_, here, same⟩ => Except.ok.inj here ▸ same⟩

theorem except_map_eq_ok {x : Except ε α} {f : α → β} : x.map f = .ok b ↔ ∃ a, x = .ok a ∧ f a = b := by
  cases x with
  | error e => exact ⟨fun same => (by cases same), fun ⟨_, same, _⟩ => (by cases same)⟩
  | ok a =>
    exact ⟨fun same => ⟨a, rfl, Except.ok.inj same⟩, fun ⟨_, here, same⟩ =>
      Except.ok.inj here ▸ congrArg Except.ok same⟩

/-- Two steps fail where the first of them to fail does. -/
theorem bind_eq_error {x : Except ε α} {f : α → Except ε β} :
    (x >>= f) = .error e ↔ x = .error e ∨ ∃ a, x = .ok a ∧ f a = .error e := by
  cases x with
  | error cause =>
    exact ⟨fun same => .inl (congrArg Except.error (Except.error.inj same)), fun failed =>
      failed.elim (fun same => congrArg Except.error (Except.error.inj same)) nofun⟩
  | ok a =>
    refine ⟨fun failed => .inr ⟨a, rfl, failed⟩, ?_⟩
    rintro (failed | ⟨_, ⟨⟩, failed⟩)
    · cases failed
    · exact failed

theorem except_map_eq_error {x : Except ε α} {f : α → β} : x.map f = .error e ↔ x = .error e := by
  cases x with
  | error cause =>
    exact ⟨fun same => congrArg Except.error (Except.error.inj same), fun same =>
      congrArg Except.error (Except.error.inj same)⟩
  | ok a => exact ⟨nofun, nofun⟩

theorem mapM_cons_eq_ok {f : α → Except ε β} {xs : List α} :
    (x :: xs).mapM f = .ok ys ↔ ∃ z zs, f x = .ok z ∧ xs.mapM f = .ok zs ∧ ys = z :: zs := by
  rw [List.mapM_cons, bind_eq_ok]
  constructor
  · rintro ⟨z, first, ok⟩
    obtain ⟨zs, others, ok⟩ := bind_eq_ok.mp ok
    exact ⟨z, zs, first, others, (Except.ok.inj ok).symm⟩
  · rintro ⟨z, zs, first, others, rfl⟩
    exact ⟨z, first, bind_eq_ok.mpr ⟨zs, others, rfl⟩⟩

/-- A step for each element succeeds if it does so for every one of them. -/
theorem exists_mapM_ok {f : α → Except ε β} {xs : List α} :
    (∃ ys, xs.mapM f = .ok ys) ↔ ∀ x ∈ xs, ∃ y, f x = .ok y := by
  induction xs with
  | nil => exact ⟨fun _ => List.forall_mem_nil _, fun _ => ⟨[], rfl⟩⟩
  | cons x xs ih =>
    rw [List.forall_mem_cons, ← ih]
    constructor
    · rintro ⟨ys, ok⟩
      obtain ⟨y, rest, first, others, -⟩ := mapM_cons_eq_ok.mp ok
      exact ⟨⟨y, first⟩, rest, others⟩
    · rintro ⟨⟨y, first⟩, rest, others⟩
      exact ⟨_, mapM_cons_eq_ok.mpr ⟨y, rest, first, others, rfl⟩⟩

/-- A step for each element fails where it fails for the first time. -/
theorem mapM_eq_error {f : α → Except ε β} {xs : List α} :
    xs.mapM f = .error e ↔ ∃ before x after, xs = before ++ x :: after ∧
      (∀ y ∈ before, ∃ b, f y = .ok b) ∧ f x = .error e := by
  induction xs with
  | nil =>
    refine ⟨nofun, ?_⟩
    rintro ⟨before, x, after, split, -⟩
    exact absurd split.symm (List.append_ne_nil_of_right_ne_nil _ (List.cons_ne_nil x after))
  | cons head xs ih =>
    rw [List.mapM_cons, bind_eq_error]
    constructor
    · rintro (first | ⟨b, passed, failed⟩)
      · exact ⟨[], head, xs, rfl, List.forall_mem_nil _, first⟩
      · rcases bind_eq_error.mp failed with later | ⟨_, -, failed⟩
        · obtain ⟨before, x, after, rfl, earlier, fails⟩ := ih.mp later
          exact ⟨head :: before, x, after, rfl, List.forall_mem_cons.mpr ⟨⟨b, passed⟩, earlier⟩, fails⟩
        · cases failed
    · rintro ⟨before, x, after, split, earlier, fails⟩
      cases before with
      | nil =>
        obtain ⟨rfl, rfl⟩ := List.cons.inj split
        exact .inl fails
      | cons y before =>
        obtain ⟨rfl, rfl⟩ := List.cons.inj split
        obtain ⟨⟨b, passed⟩, earlier⟩ := List.forall_mem_cons.mp earlier
        exact .inr ⟨b, passed, bind_eq_error.mpr
          (.inl (ih.mpr ⟨before, x, after, rfl, earlier, fails⟩))⟩

/-- Every result of a list comes from one of its elements. -/
theorem exists_of_mapM_ok {f : α → Except ε β} {xs : List α} (ok : xs.mapM f = .ok ys)
    (member : y ∈ ys) : ∃ x ∈ xs, f x = .ok y := by
  induction xs generalizing ys with
  | nil =>
    obtain rfl := Except.ok.inj ok
    cases member
  | cons x xs ih =>
    obtain ⟨z, zs, first, others, rfl⟩ := mapM_cons_eq_ok.mp ok
    rcases List.mem_cons.mp member with rfl | later
    · exact ⟨x, List.mem_cons_self, first⟩
    · obtain ⟨w, among, same⟩ := ih others later
      exact ⟨w, List.mem_cons_of_mem x among, same⟩

@[simp] theorem inField_eq_ok {field : String} {result : Except Error α} :
    inField field result = .ok a ↔ result = .ok a := by
  cases result with
  | error e => exact ⟨fun same => (by cases same), fun same => (by cases same)⟩
  | ok b => rfl

theorem inField_eq_error {field : String} {result : Except Error α} :
    inField field result = .error e ↔ ∃ cause, result = .error cause ∧ cause.inField field = e := by
  cases result with
  | error cause =>
    exact ⟨fun same => ⟨cause, rfl, Except.error.inj same⟩, fun ⟨_, here, same⟩ =>
      Except.error.inj here ▸ congrArg Except.error same⟩
  | ok a => exact ⟨nofun, nofun⟩

end ObjectMapping
