import ObjectMapping.Sqlite.Cell
import ObjectMapping.Proofs.DateTime
import ObjectMapping.Proofs.Json.Scalar
import ObjectMapping.Proofs.Row

/-! What the database takes as a parameter it gives back. A scalar is widened into a storage class
and narrowed again when it is read; only the text of a date-time may say less than the date-time. -/
namespace ObjectMapping.Sqlite.Cell

variable {s : Scalar} {cell : Cell} {columns : List String} {cells : List Cell} {index : Nat}

/-- What stands for a whole number is stored as that number. -/
theorem integer_ofScalar (ok : ofScalar s = .ok cell) (stands : s.toInt? = some k) :
    ∃ n, cell = .integer n ∧ n.toInt = k := by
  have natural : ∀ n : UInt64, n.toNat < 0x8000000000000000 → n.toInt64.toInt = n.toNat := by
    intro n small
    have half : 2 * n.toBitVec.toNat < 2 ^ 64 := by
      rw [UInt64.toNat] at small
      omega
    exact BitVec.toInt_eq_toNat_of_lt half
  have narrow : ∀ n : UInt32, n.toUInt64.toInt64.toInt = n.toNat := by
    intro n
    have small := n.toNat_lt
    rw [natural _ (by rw [UInt32.toNat_toUInt64]; omega), UInt32.toNat_toUInt64]
  cases s with
  | bool b =>
    obtain rfl := Except.ok.inj ok
    obtain rfl := Option.some.inj stands
    exact ⟨_, rfl, by cases b <;> rfl⟩
  | int32 n =>
    obtain rfl := Except.ok.inj ok
    obtain rfl := Option.some.inj stands
    exact ⟨_, rfl, n.toInt_toInt64⟩
  | int64 n =>
    obtain rfl := Except.ok.inj ok
    exact ⟨_, rfl, Option.some.inj stands⟩
  | uint32 n | enum n =>
    obtain rfl := Except.ok.inj ok
    obtain rfl := Option.some.inj stands
    exact ⟨_, rfl, narrow n⟩
  | uint64 n =>
    rw [ofScalar] at ok
    split at ok
    · rename_i small
      obtain rfl := Except.ok.inj ok
      obtain rfl := Option.some.inj stands
      exact ⟨_, rfl, natural n small⟩
    · cases ok
  | float | double | string | dateTime => cases stands

/-- A stored number is read as what stands for it in the type that is asked for. -/
theorem toFixed_integer {n : Int64} (stands : s.toInt? = some n.toInt) :
    toFixed s.type (.integer n) = .ok (.scalar s) := by
  have read : s.type.isInteger ∨ s.type = .enum →
      (Value.int64 n).coerceInteger s.type = .ok (.scalar s) := by
    intro integral
    have wanted : (s.type.isInteger || s.type == .enum) = true := by simpa using integral
    have same : (Value.int64 n).toInt? = some n.toInt := rfl
    simp only [Value.coerceInteger, same, wanted, if_true]
    exact Value.ofInteger_toInt stands integral
  cases s with
  | bool b =>
    have number := Option.some.inj stands
    have some : (n != 0) = b := by
      cases b with
      | false =>
        obtain rfl : n = 0 := Int64.toInt_inj.mp number.symm
        rfl
      | true =>
        obtain rfl : n = 1 := Int64.toInt_inj.mp number.symm
        rfl
    exact congrArg (fun b => Except.ok (Value.bool b)) some
  | int32 | int64 | uint32 | uint64 => exact read (.inl rfl)
  | enum => exact read (.inr rfl)
  | float | double | string | dateTime => cases stands

theorem toText_text (text : String) :
    toText (Utf8.bytes text).length (.text text) = .ok (Utf8.bytes text) := by
  simp only [toText, textBytes, if_true]

theorem toTime_text (t : DateTime) (positive : 0 ≤ t.year.toInt) (small : t.year.toInt ≤ 9999) :
    toTime (.text t.text) = .ok t.toReported := by
  simp only [toTime, t.readParts_text positive small, t.ofNat_year positive]
  rfl

theorem year_of_toTime {t : DateTime} (ok : toTime (.text t.text) = .ok reported) :
    0 ≤ t.year.toInt ∧ t.year.toInt ≤ 9999 := by
  rw [toTime] at ok
  split at ok
  · rename_i read
    exact t.year_of_readParts read
  · cases ok

theorem inColumn_ok (there : cells[index]? = some cell) : inColumn cells index = .ok cell := by
  rw [inColumn, there]

/-- A stored scalar that is no floating number is given back in the way of its type, unless it is
a date-time of another year. -/
theorem yields_stored (ok : ofScalar s = .ok cell) (plain : s.type.isFloating = false)
    (years : ∀ t, s = .dateTime t → 0 ≤ t.year.toInt ∧ t.year.toInt ≤ 9999)
    (there : cells[index]? = some cell.stored) :
    (row columns cells).Yields index (.scalar s) := by
  have found := inColumn_ok there
  have number : ∀ k, s.toInt? = some k → (row columns cells).isNull index = .ok false ∧
      ∀ type, (Value.scalar s).type? = some type →
        (row columns cells).fixed index type = .ok (.scalar s) := by
    intro k stands
    obtain ⟨n, rfl, rfl⟩ := integer_ofScalar ok stands
    refine ⟨by simp only [row, found]; rfl, ?_⟩
    rintro type ⟨⟩
    simp only [row, found]
    exact toFixed_integer stands
  cases s with
  | bool | int32 | uint32 | int64 | uint64 | enum => exact number _ rfl
  | float | double => cases plain
  | string text =>
    obtain rfl := Except.ok.inj ok
    refine ⟨?_, ?_, ?_⟩
    · simp only [row, found]
      rfl
    · simp only [row, found]
      rfl
    · simp only [row, found, stored, Except.bind, toText_text]
  | dateTime t =>
    obtain rfl := Except.ok.inj ok
    refine ⟨?_, ?_⟩
    · simp only [row, found]
      rfl
    · simp only [row, found, stored, Except.bind]
      exact toTime_text t (years t rfl).1 (years t rfl).2

/-- What the database accepts as a parameter of a column type that is not floating is read back by
a field of that type, unless it is a date-time; and of the date-times exactly those are whose year
has four digits and no sign. -/
theorem readField_ofValue {v : Value} {f : Field} (typed : v.type? = some f.type)
    (plain : f.type.isFloating = false) (ok : ofValue v = .ok cell)
    (there : cells[index]? = some cell.stored) :
    (row columns cells).readField index f = .ok v ↔
      ∀ t, v = .dateTime t → 0 ≤ t.year.toInt ∧ t.year.toInt ≤ 9999 := by
  obtain ⟨s, rfl⟩ : ∃ s, v = .scalar s := by
    cases v with
    | scalar s => exact ⟨s, rfl⟩
    | null => cases typed
    | object | array => cases ok
  have type : s.type = f.type := Option.some.inj typed
  constructor
  · rintro read t ⟨⟩
    obtain rfl := Except.ok.inj ok
    obtain ⟨null, asked, read⟩ := bind_eq_ok.mp read
    have found := inColumn_ok there
    simp only [row, found, stored] at asked
    obtain rfl := Except.ok.inj asked
    have read := inField_eq_ok.mp read
    rw [← type] at read
    obtain ⟨reported, fetched, -⟩ := bind_eq_ok.mp read
    simp only [row, found, stored, Except.bind] at fetched
    exact year_of_toTime fetched
  · intro years
    refine Row.readField_ok (yields_stored ok (type ▸ plain) ?_ there) (.inr ⟨s, rfl, type⟩)
    rintro t rfl
    exact years t rfl

def birthField : Field := Field.ofSlot [] "Person" ⟨"birth", .plain .dateTime, 0, 16⟩ "birth"

/-- The last date-time that is given back. -/
theorem readField_lastSecond :
    ∃ t, DateTime.make 9999 .december 31 23 59 59 = .ok t ∧
      ofValue (.dateTime t) = .ok (.text "9999-12-31 23:59:59") ∧
      (row ["birth"] [.text "9999-12-31 23:59:59"]).readField 0 birthField = .ok (.dateTime t) := by
  obtain ⟨t, made⟩ : ∃ t, DateTime.make 9999 .december 31 23 59 59 = .ok t := ⟨_, rfl⟩
  have ok : ofValue (.dateTime t) = .ok (.text "9999-12-31 23:59:59") := by
    cases made
    decide +kernel
  refine ⟨t, made, ok, (readField_ofValue rfl rfl ok rfl).mpr ?_⟩
  rintro _ ⟨⟩
  cases made
  decide

/-- A date-time of the eleventh millennium is accepted, and what is stored for it is refused. -/
theorem readField_tenMillennia :
    ∃ t, DateTime.make 10000 .january 1 0 0 0 = .ok t ∧
      ofValue (.dateTime t) = .ok (.text "10000-01-01 00:00:00") ∧
      (row ["birth"] [.text "10000-01-01 00:00:00"]).readField 0 birthField ≠ .ok (.dateTime t) := by
  refine ⟨_, rfl, by decide +kernel, fun read => ?_⟩
  have refused : (row ["birth"] [.text "10000-01-01 00:00:00"]).readField 0 birthField =
      .error _ := rfl
  cases refused.symm.trans read

end ObjectMapping.Sqlite.Cell
