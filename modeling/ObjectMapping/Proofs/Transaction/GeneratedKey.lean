import ObjectMapping.Proofs.Action
import ObjectMapping.Proofs.Integer
import ObjectMapping.Proofs.Json.Matching
import ObjectMapping.Transaction.GeneratedKey
import ObjectMapping.Transaction.Scripted

/-! An insertion keeps what it has sent and fills in the key that it has left to the backend,
if the key that the backend is asked for is the one that was left to it. -/
namespace ObjectMapping.Insert

variable {σ ι : Type} {tx next : Transaction σ ι} {c : Connector σ ι} {i : Insert}
  {f key : Field} {v : Value} {d : Descriptor} {r after : Record} {id : Int64}

/-- What is left to the backend stands for no number but zero. -/
theorem eq_zero_of_left (left : leftToBackend f v) (stands : v.toInt? = some n) : n = 0 := by
  obtain ⟨-, nothing⟩ := Bool.and_eq_true_iff.mp left
  rcases Bool.or_eq_true_iff.mp nothing with null | zero
  · cases v with
    | null => cases stands
    | _ => cases null
  · exact Value.toInt_zero ((Value.toInt_of_equal zero).symm.trans stands)

theorem mem_currentValues (ok : i.currentValues = .ok values) :
    (f, v) ∈ values ↔ f ∈ i.target.descriptor.columns ∧ f.get i.target.record = .ok v := by
  rw [currentValues] at ok
  generalize i.target.descriptor.columns = fields at ok ⊢
  induction fields generalizing values with
  | nil =>
    obtain rfl := Except.ok.inj ok
    simp
  | cons g fields ih =>
    obtain ⟨pair, rest, paired, others, rfl⟩ := mapM_cons_eq_ok.mp ok
    obtain ⟨w, value, same⟩ := bind_eq_ok.mp paired
    obtain rfl := Except.ok.inj same
    rw [List.mem_cons, List.mem_cons, ih others, or_and_right, Prod.mk.injEq]
    refine or_congr_left (and_congr_right ?_)
    rintro rfl
    rw [value, Except.ok.injEq, eq_comm]

theorem mem_leftKeys : f ∈ i.leftKeys ↔ f ∈ i.target.descriptor.columns ∧ f.primaryKey ∧
    ∃ v, f.get i.target.record = .ok v ∧ leftToBackend f v := by
  rw [leftKeys, List.mem_filter, Bool.and_eq_true_iff, leaves]
  cases f.get i.target.record with
  | error => simp
  | ok v => simp

/-- The key is asked for when there is a field that waits for it. -/
theorem generatesKey_iff (ok : i.currentValues = .ok values) :
    generatesKey values ↔ ∃ f, f ∈ i.leftKeys := by
  rw [generatesKey, List.any_eq_true]
  constructor
  · rintro ⟨⟨f, v⟩, member, left⟩
    obtain ⟨left, key⟩ := Bool.and_eq_true_iff.mp left
    obtain ⟨column, read⟩ := (mem_currentValues ok).mp member
    exact ⟨f, mem_leftKeys.mpr ⟨column, key, v, read, left⟩⟩
  · rintro ⟨f, member⟩
    obtain ⟨column, key, v, read, left⟩ := mem_leftKeys.mp member
    exact ⟨(f, v), (mem_currentValues ok).mpr ⟨column, read⟩, Bool.and_eq_true_iff.mpr ⟨left, key⟩⟩

/-- A key that could be read is written into the first field flagged as key. -/
theorem readGeneratedKey_ok
    (ok : (Transaction.readGeneratedKey c h d).perform (tx, r) = (.ok found, next, after)) :
    d.primaryKey? = none ∨
      ∃ key s t id v, d.primaryKey? = some key ∧ (Transaction.lookup h).perform tx = (.ok s, t) ∧
        ((Transaction.onConnection (.lastInsertId h s.sql) (c.lastInsertId s.statement)).perform
          t).1 = .ok id ∧
        (Value.int64 id).coerceInteger key.type = .ok v ∧ key.set r v = .ok after := by
  rw [Transaction.readGeneratedKey] at ok
  cases flagged : d.primaryKey? with
  | none => exact .inl rfl
  | some key =>
    rw [flagged] at ok
    obtain ⟨s, ⟨t, r'⟩, look, ok⟩ := Action.perform_bind_eq_ok.mp ok
    obtain ⟨found, kept⟩ := Action.perform_onFirst_eq_ok.mp look
    obtain rfl : r = r' := kept
    split at ok
    · cases ok
    obtain ⟨id, ⟨u, r'⟩, ask, ok⟩ := Action.perform_bind_eq_ok.mp ok
    obtain ⟨reported, kept⟩ := Action.perform_onFirst_eq_ok.mp ask
    obtain rfl : r = r' := kept
    obtain ⟨v, _, convert, ok⟩ := Action.perform_bind_eq_ok.mp ok
    obtain ⟨fits, rfl⟩ := Action.perform_ofExcept_eq_ok.mp convert
    obtain ⟨_, ⟨_, r'⟩, write, ok⟩ := Action.perform_bind_eq_ok.mp ok
    obtain ⟨set, -⟩ := Action.perform_update_eq_ok.mp write
    obtain rfl : r' = after := congrArg (fun p => p.2.2) ok
    exact .inr ⟨key, s, t, id, v, rfl, found, congrArg Prod.fst reported, inField_eq_ok.mp fits, set⟩

/-- The record of an insertion that succeeded differs only if a key waits for a value, and then
by what the connection reports, in the first field flagged as key. -/
theorem exec_ok (ok : (Insert.exec c d).perform (tx, r) = (.ok affected, next, after)) :
    (∀ f, f ∉ leftKeys ⟨⟨r, d⟩⟩) ∧ after = r ∨
      (∃ f, f ∈ leftKeys ⟨⟨r, d⟩⟩) ∧
        ∃ key id v, d.primaryKey? = some key ∧ ((reportedKey ⟨⟨r, d⟩⟩ c).perform tx).1 = .ok id ∧
          (Value.int64 id).coerceInteger key.type = .ok v ∧ key.set r v = .ok after := by
  rw [exec, Action.perform_bind, Action.perform_get] at ok
  obtain ⟨values, _, read, ok⟩ := Action.perform_bind_eq_ok.mp ok
  obtain ⟨current, rfl⟩ := Action.perform_ofExcept_eq_ok.mp read
  obtain ⟨s, _, build, ok⟩ := Action.perform_bind_eq_ok.mp ok
  obtain ⟨bound, rfl⟩ := Action.perform_ofExcept_eq_ok.mp build
  obtain ⟨h, ⟨t, r'⟩, create, ok⟩ := Action.perform_bind_eq_ok.mp ok
  obtain ⟨opened, kept⟩ := Action.perform_onFirst_eq_ok.mp create
  obtain rfl : r = r' := kept
  rw [Action.perform_andFinally] at ok
  obtain ⟨done, last⟩ := Prod.mk.inj ok
  generalize ended : Action.perform _ (t, r) = p at done last
  obtain ⟨result, u, r'⟩ := p
  obtain rfl : result = .ok affected := done
  obtain rfl : r' = after := congrArg Prod.snd last
  obtain ⟨_, ⟨u, r''⟩, run, ended⟩ := Action.perform_bind_eq_ok.mp ended
  obtain ⟨ran, kept⟩ := Action.perform_onFirst_eq_ok.mp run
  obtain rfl : r = r'' := kept
  split at ended
  · rename_i generated
    have waiting := (generatesKey_iff current).mp generated
    obtain ⟨_, ⟨_, r''⟩, readKey, ended⟩ := Action.perform_bind_eq_ok.mp ended
    obtain rfl : r'' = r' := congrArg (fun p => p.2.2) ended
    rcases readGeneratedKey_ok readKey with none | ⟨key, _, _, id, v, flagged, found, reported, fits, set⟩
    · obtain ⟨f, member⟩ := waiting
      obtain ⟨column, key, -⟩ := mem_leftKeys.mp member
      exact absurd key (List.find?_eq_none.mp none f (List.mem_filter.mp column).1)
    · refine .inr ⟨waiting, key, id, v, flagged, ?_, fits, set⟩
      simp only [reportedKey, Action.perform_bind, Action.perform_ofExcept, bound, opened, ran, found,
        reported]
  · rename_i plain
    refine .inl ⟨fun f member => plain ((generatesKey_iff current).mpr ⟨f, member⟩), ?_⟩
    exact (congrArg (fun p => p.2.2) ended).symm

/-- Of the columns, those at the place of the key read the number, and the others what they read
before. -/
structure Filled (d : Descriptor) (key : Field) (n : Int) (r after : Record) : Prop where
  others : ∀ f ∈ d.columns, f.path ≠ key.path → f.get after = f.get r
  number : ∀ f ∈ d.columns, f.path = key.path → ∃ w, f.get after = .ok w ∧ w.toInt? = some n

theorem filled_of_set {catalogue : Catalogue} (sound : d.Sound catalogue) (column : key ∈ d.columns)
    (set : key.set r v = .ok after) (stands : v.toInt? = some n) : Filled d key n r after := by
  obtain ⟨owned, x, fits, placed⟩ := Field.set_eq_ok set
  constructor
  · intro f member apart
    have kept := Record.get_of_set_apart placed (sound.not_prefix column member apart.symm)
      (sound.not_prefix member column apart)
    rw [Field.get, Field.get, Record.set_type placed, kept]
  · intro f member same
    have owner : after.type = f.owner := by
      rw [Record.set_type placed, owned, sound.owned f (List.mem_filter.mp member).1,
        sound.owned key (List.mem_filter.mp column).1]
    have found : after.get? f.path = some x := same ▸ Record.get_of_set placed
    exact ⟨_, Field.get_eq owner found, (f.toInt_present _).trans (Shape.toInt_of_ofValue fits stands)⟩

/-- Two fields of one place read the same number. -/
theorem toInt_eq_of_path {g : Field} (same : f.path = g.path) (here : f.get r = .ok v)
    (there : g.get r = .ok w) : v.toInt? = w.toInt? := by
  obtain ⟨-, x, found, rfl⟩ := Field.get_eq_ok.mp here
  obtain ⟨-, y, again, rfl⟩ := Field.get_eq_ok.mp there
  obtain rfl : x = y := Option.some.inj (found.symm.trans (same ▸ again))
  rw [Field.toInt_present, Field.toInt_present]

theorem mem_boundFields (member : f ∈ i.boundFields) :
    f ∈ i.target.descriptor.columns ∧ ∃ v, f.get i.target.record = .ok v := by
  obtain ⟨column, sends⟩ := List.mem_filter.mp member
  refine ⟨column, ?_⟩
  unfold Insert.sends at sends
  split at sends
  · exact ⟨_, by assumption⟩
  · cases sends

theorem Filled.settled (filled : Filled d key id.toInt r after) (flagged : d.primaryKey? = some key)
    (waits : f ∈ leftKeys ⟨⟨r, d⟩⟩) (found : KeyFound ⟨⟨r, d⟩⟩) :
    Settled ⟨⟨r, d⟩⟩ (.ok id) after := by
  constructor
  · -- The key that is written waits for its value, so nothing that is sent lies there.
    intro g bound
    obtain ⟨⟨_, first, here⟩, alone⟩ := found f waits
    obtain rfl := Option.some.inj (flagged.symm.trans first)
    obtain ⟨column, v, read⟩ := mem_boundFields bound
    exact ⟨v, read, (filled.others g column (here ▸ alone g bound)).trans read⟩
  · intro g left
    obtain ⟨⟨_, first, here⟩, -⟩ := found g left
    obtain rfl := Option.some.inj (flagged.symm.trans first)
    obtain ⟨w, read, stands⟩ := filled.number g (mem_leftKeys.mp left).1 here.symm
    exact ⟨id, w, rfl, read, stands⟩

/-- A number that is not zero tells what was written from what waited for it. -/
theorem Filled.keyFound (filled : Filled d key id.toInt r after) (flagged : d.primaryKey? = some key)
    (nonzero : id ≠ 0) (settled : Settled ⟨⟨r, d⟩⟩ (.ok id) after) : KeyFound ⟨⟨r, d⟩⟩ := by
  intro f member
  obtain ⟨column, -, v, read, left⟩ := mem_leftKeys.mp member
  have unknown : ∀ w, f.get r = .ok w → w.toInt? ≠ some id.toInt := by
    intro w again stands
    obtain rfl := Except.ok.inj (read.symm.trans again)
    refine nonzero (Int64.toInt_inj.mp ?_)
    rw [eq_zero_of_left left stands]
    rfl
  obtain ⟨_, w, ⟨⟩, got, stands⟩ := settled.generated f member
  have here : f.path = key.path := by
    refine Decidable.not_not.mp fun apart => ?_
    exact unknown w ((filled.others f column apart).symm.trans got) stands
  refine ⟨⟨key, flagged, here.symm⟩, fun g bound overlaps => ?_⟩
  obtain ⟨u, before, kept⟩ := settled.sent g bound
  obtain ⟨w, wrote, stands⟩ := filled.number g (mem_boundFields bound).1 (overlaps.trans here)
  obtain rfl := Except.ok.inj (kept.symm.trans wrote)
  exact unknown v read ((toInt_eq_of_path overlaps.symm read before).trans stands)

/-- An insertion that succeeded keeps what it has sent and fills in what it has left to the
backend if the key that waits for a value is the first field flagged as key; and it does so in no
other case, unless the connection reports zero, which such a key may hold already. -/
theorem exec_settled {catalogue : Catalogue} {d : Descriptor} {r after : Record}
    (built : d.Built catalogue)
    (ok : (Insert.exec c d).perform (tx, r) = (.ok affected, next, after)) :
    (KeyFound ⟨⟨r, d⟩⟩ → Settled ⟨⟨r, d⟩⟩ ((reportedKey ⟨⟨r, d⟩⟩ c).perform tx).1 after) ∧
      (((reportedKey ⟨⟨r, d⟩⟩ c).perform tx).1 ≠ .ok 0 →
        Settled ⟨⟨r, d⟩⟩ ((reportedKey ⟨⟨r, d⟩⟩ c).perform tx).1 after → KeyFound ⟨⟨r, d⟩⟩) := by
  rcases exec_ok ok with ⟨none, rfl⟩ | ⟨⟨waiting, waits⟩, key, id, v, flagged, reported, fits, set⟩
  · refine ⟨fun _ => ⟨fun f member => ?_, fun f member => absurd member (none f)⟩,
      fun _ _ f member => absurd member (none f)⟩
    obtain ⟨-, v, read⟩ := mem_boundFields member
    exact ⟨v, read, read⟩
  · obtain ⟨number, -, column⟩ := Value.coerceInteger_ok fits
    have listed : key ∈ d.columns :=
      List.mem_filter.mpr ⟨List.mem_of_find?_eq_some flagged, column⟩
    have filled := filled_of_set built.sound listed set number
    rw [reported]
    refine ⟨filled.settled flagged waits, fun nonzero => filled.keyFound flagged ?_⟩
    rintro rfl
    exact nonzero rfl

namespace Seats

def hall : Slot := ⟨"hall", .plain .uint64, 0, 8⟩

def number : Slot := ⟨"number", .plain .uint64, 8, 8⟩

def seat (hall number : UInt64) : Record :=
  .mk "Seat" [("hall", .scalar (.uint64 hall)), ("number", .scalar (.uint64 number))]

def recordType : RecordType := ⟨"Seat", [hall, number], 16, seat 0 0⟩

def catalogue : Catalogue := [recordType]

/-- The hall of a seat, which may be part of the key. -/
def hallField (keyed : Bool) : Field :=
  { Field.ofSlot catalogue "Seat" hall "hall" with primaryKey := keyed }

/-- The number of a seat, which is up to the backend and always part of the key. -/
def numberField : Field :=
  { Field.ofSlot catalogue "Seat" number "number" with primaryKey := true, autoIncrement := true }

def descriptor (keyed : Bool) : Descriptor :=
  ⟨"Seat", "Seat", "Seat", none, [hallField keyed, numberField], 0, seat 0 0⟩

theorem built_descriptor (keyed : Bool) : (descriptor keyed).Built catalogue := by
  have known : catalogue.type? recordType.name = some recordType := rfl
  have hasHall : recordType.slot? hall.name = some hall := rfl
  have hasNumber : recordType.slot? number.name = some number := rfl
  have first : (hallField keyed).Declared catalogue :=
    .primaryKey (.slot known hasHall 0 "hall") keyed
  have second : numberField.Declared catalogue :=
    .autoIncrement (.primaryKey (.slot known hasNumber 8 "number") true) true
  have formed := ((Descriptor.Draft.Formed.draft known "Seat").field first).field second
  exact .build formed (by cases keyed <;> rfl)

/-- A connection that reports 42 for every insertion. -/
def connector : Connector Scripted.Script Scripted.Statement := Scripted.connector .sqlite

def script : Scripted.Script := ⟨[], [], 1, 42, []⟩

/-- A seat in the fifth hall that has no number yet. -/
def insertion (keyed : Bool) : Insert := ⟨⟨seat 5 0, descriptor keyed⟩⟩

/-- The number that the connection reports for it. -/
def reported (keyed : Bool) : Except Error Int64 :=
  (((insertion keyed).reportedKey connector).perform (Transaction.new script)).1

/-- Insert it. -/
def run (keyed : Bool) :=
  (Insert.exec connector (descriptor keyed)).perform (Transaction.new script, seat 5 0)

theorem instance_seat (hall number : UInt64) : (seat hall number).Instance catalogue := by
  have found : catalogue.type? "Seat" = some recordType := rfl
  refine .of_slots found fun slot member => ?_
  simp only [recordType, List.mem_cons, List.not_mem_nil, or_false] at member
  rcases member with rfl | rfl
  · exact ⟨_, rfl, .plain rfl⟩
  · exact ⟨_, rfl, .plain rfl⟩

theorem keyFound : (insertion false).KeyFound := by
  intro f member
  obtain rfl : f = numberField := List.mem_singleton.mp member
  refine ⟨⟨numberField, rfl, rfl⟩, fun g bound => ?_⟩
  obtain rfl : g = hallField false := List.mem_singleton.mp bound
  decide

end Seats

open Seats in
theorem exec_settled_seat :
    (run false).1 = .ok 1 ∧ reported false = .ok 42 ∧ (run false).2.2 = seat 5 42 ∧
      (insertion false).KeyFound ∧ (insertion false).Settled (reported false) (run false).2.2 := by
  have ok : run false = (.ok 1, (run false).2.1, (run false).2.2) := rfl
  exact ⟨rfl, rfl, rfl, keyFound, (exec_settled (built_descriptor false) ok).1 keyFound⟩

open Seats in
/-- Where the hall is part of the key, the number that is up to the backend stays zero, and the
hall that was sent is lost. -/
theorem exec_overwrites_key :
    (descriptor true).Built catalogue ∧ (seat 5 0).Instance catalogue ∧
      (run true).1 = .ok 1 ∧ reported true = .ok 42 ∧ (run true).2.2 = seat 42 0 ∧
      ¬(insertion true).Settled (reported true) (run true).2.2 := by
  refine ⟨built_descriptor true, instance_seat 5 0, rfl, rfl, rfl, fun settled => ?_⟩
  obtain ⟨v, before, after⟩ := settled.sent (hallField true) List.mem_cons_self
  obtain rfl : Value.uint64 5 = v := Except.ok.inj before
  cases after

end ObjectMapping.Insert
