import ObjectMapping.Proofs.DateTime.Order
import ObjectMapping.Proofs.Sqlite.Cell

/-! Points in time in the database. They are stored as canonical texts, whose bytes are in the
order of time, and read from texts and from seconds alike; a month that is reported is numbered
from one whichever way it has come. -/
namespace ObjectMapping.Sqlite.Cell

/-- Date-times with years of four digits are in the order of their seconds and of the bytes of
their texts, so that sorting what is stored for them is sorting them. -/
theorem stored_chronological :
    (∀ a b : DateTime, (0 ≤ a.year.toInt ∧ a.year.toInt ≤ 9999) →
      (0 ≤ b.year.toInt ∧ b.year.toInt ≤ 9999) →
      (DateTime.compare a b = .lt ↔ a.toUnix < b.toUnix) ∧
      (DateTime.compare a b = .lt ↔ Utf8.bytes a.text < Utf8.bytes b.text)) ∧
    ∀ times : List DateTime, (∀ t ∈ times, 0 ≤ t.year.toInt ∧ t.year.toInt ≤ 9999) →
      ((times.mergeSort fun a b => (DateTime.compare a b).isLE).map fun t =>
        ofValue (.dateTime t)) =
      ((times.map DateTime.text).mergeSort fun s t => Utf8.bytes s ≤ Utf8.bytes t).map fun s =>
        .ok (.text s) := by
  constructor
  · intro a b years years'
    exact ⟨a.compare_eq_lt_iff_toUnix b, a.compare_eq_lt_iff_bytes b years years'⟩
  · intro times years
    rw [← DateTime.map_text_mergeSort years, List.map_map]
    rfl

theorem stored_chronological_millennium :
    ∃ a b, DateTime.make 999 .december 31 23 59 59 = .ok a ∧
      DateTime.make 1000 .january 1 0 0 0 = .ok b ∧
      (0 ≤ a.year.toInt ∧ a.year.toInt ≤ 9999) ∧ (0 ≤ b.year.toInt ∧ b.year.toInt ≤ 9999) ∧
      DateTime.compare a b = .lt ∧ Utf8.bytes a.text < Utf8.bytes b.text ∧
      ([b, a].mergeSort fun a b => (DateTime.compare a b).isLE).map (fun t =>
        ofValue (.dateTime t)) =
      (["1000-01-01 00:00:00", "0999-12-31 23:59:59"].mergeSort fun s t =>
        Utf8.bytes s ≤ Utf8.bytes t).map fun s => .ok (.text s) := by
  obtain ⟨a, made⟩ : ∃ a, DateTime.make 999 .december 31 23 59 59 = .ok a := ⟨_, rfl⟩
  obtain ⟨b, made'⟩ : ∃ b, DateTime.make 1000 .january 1 0 0 0 = .ok b := ⟨_, rfl⟩
  refine ⟨a, b, made, made', ?_⟩
  have written : a.text = "0999-12-31 23:59:59" := by
    cases made
    decide +kernel
  have written' : b.text = "1000-01-01 00:00:00" := by
    cases made'
    decide +kernel
  have years : 0 ≤ a.year.toInt ∧ a.year.toInt ≤ 9999 := by
    cases made
    decide
  have years' : 0 ≤ b.year.toInt ∧ b.year.toInt ≤ 9999 := by
    cases made'
    decide
  have before : DateTime.compare a b = .lt := by
    cases made
    cases made'
    decide
  have sorted := stored_chronological.2 [b, a] fun t member => by
    rcases List.mem_pair.mp member with rfl | rfl
    · exact years'
    · exact years
  rw [List.map_cons, List.map_singleton, written, written'] at sorted
  exact ⟨years, years', before, (stored_chronological.1 a b years years').2.mp before, sorted⟩

variable {reported : Except Error ReportedTime} {direct : Except Error DateTime}

theorem SameTime.ok (fetched : reported = .ok t.toReported) (given : direct = .ok t) :
    SameTime reported direct := by
  have taken : reported >>= DateTime.ofReported = .ok t := by
    rw [fetched]
    exact t.ofReported_toReported
  refine ⟨fun u => ?_, fun u also => ?_, fun e failed => ?_⟩
  · rw [taken, given]
  · obtain rfl := Except.ok.inj (given.symm.trans also)
    exact fetched
  · rcases failed with failed | failed
    · cases taken.symm.trans failed
    · cases given.symm.trans failed

theorem SameTime.error (failed : reported >>= DateTime.ofReported = .error (.malformed message))
    (refused : direct = .error (.malformed message')) : SameTime reported direct := by
  refine ⟨fun t => ?_, fun t given => ?_, fun e also => ?_⟩
  · rw [failed, refused]
    exact iff_of_false nofun nofun
  · cases refused.symm.trans given
  · rcases also with also | also
    · cases failed.symm.trans also
      rfl
    · cases refused.symm.trans also
      rfl

/-- A text that does not stand for a date-time is refused when it is fetched or after that. -/
theorem toTime_malformed (refused : DateTime.parse s = .error e) :
    ∃ message, toTime (.text s) >>= DateTime.ofReported = .error (.malformed message) := by
  unfold DateTime.parse at refused
  split at refused
  · rename_i year month day hour minute second read
    have fetched : toTime (.text s) =
        .ok ⟨Int32.ofNat year, month, day, hour, minute, second⟩ := by rw [toTime, read]
    rw [fetched]
    split at refused
    · rename_i named number
      have taken : DateTime.ofReported ⟨Int32.ofNat year, month, day, hour, minute, second⟩ =
          DateTime.make (Int32.ofNat year) named day hour minute second := by
        simp only [DateTime.ofReported, number]
      rcases DateTime.make_cases (Int32.ofNat year) named day hour minute second with
        ⟨t, made, -⟩ | ⟨message, failed⟩
      · cases made.symm.trans refused
      · exact ⟨message, taken.trans failed⟩
    · rename_i unnumbered
      have failed : DateTime.ofReported ⟨Int32.ofNat year, month, day, hour, minute, second⟩ =
          .error (.malformed s!"backend month {month} out of range") := by
        simp only [DateTime.ofReported, unnumbered]
      exact ⟨_, failed⟩
  · rename_i unread
    have failed : toTime (.text s) =
        .error (.malformed s!"'{s}' is not a date-time of the form YYYY-MM-DD HH:MM:SS") := by
      rw [toTime]
      split
      · rename_i read
        exact absurd read (unread _ _ _ _ _ _)
      · rfl
    rw [failed]
    exact ⟨_, rfl⟩

theorem toTime_sameTime (s : String) : SameTime (toTime (.text s)) (DateTime.parse s) := by
  rcases DateTime.parse_cases s with ⟨t, read, positive, small, rfl⟩ | ⟨message, refused⟩
  · exact .ok (toTime_text t positive small) read
  · obtain ⟨_, failed⟩ := toTime_malformed refused
    exact .error failed refused

theorem toTime_integer_sameTime (n : Int64) :
    SameTime (toTime (.integer n)) (DateTime.ofUnix n.toInt) := by
  rcases DateTime.ofUnix_outcome n.toInt with ⟨t, found⟩ | ⟨message, refused⟩
  · exact .ok (by rw [toTime, found]; rfl) found
  · exact .error (by rw [toTime, refused]; rfl) refused

/-- Whatever else stands in the row, a text is taken over as the date-time that is read from it,
and seconds as the date-time that lies on them. -/
theorem time_sameTime (columns : List String) (before after : List Cell) :
    (∀ s : String, SameTime ((row columns (before ++ .text s :: after)).time before.length)
      (DateTime.parse s)) ∧
    ∀ n : Int64, SameTime ((row columns (before ++ .integer n :: after)).time before.length)
      (DateTime.ofUnix n.toInt) := by
  have fetched : ∀ cell,
      (row columns (before ++ cell :: after)).time before.length = toTime cell := by
    intro cell
    have there : (before ++ cell :: after)[before.length]? = some cell := by
      rw [List.getElem?_append_right (Nat.le_refl _), Nat.sub_self, List.getElem?_cons_zero]
    simp only [row, inColumn_ok there]
    rfl
  constructor
  · intro s
    rw [fetched]
    exact toTime_sameTime s
  · intro n
    rw [fetched]
    exact toTime_integer_sameTime n

end ObjectMapping.Sqlite.Cell
