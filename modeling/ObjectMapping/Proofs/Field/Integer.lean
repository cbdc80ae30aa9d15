import ObjectMapping.Field.Integer
import ObjectMapping.Proofs.Field.Default
import ObjectMapping.Proofs.Integer
import ObjectMapping.Proofs.Json.Scalar
import ObjectMapping.Proofs.Sqlite.Cell
import ObjectMapping.Proofs.Transaction.GeneratedKey
import ObjectMapping.Proofs.Transaction.Moves

/-! Whole numbers are converted exactly or not at all, and so a field of an integral type receives
the same number whether it comes from a tree, from a cell or as a generated key. -/
namespace ObjectMapping

namespace Value

variable {t : FieldType} {n : Int} {s : Scalar} {v w : Value}

/-- A type that holds whole numbers is one of the integral ones. -/
theorem integral_of_spans (spans : t.Spans n) : t.isInteger ∨ t = .enum := by
  cases t with
  | int32 | uint32 | int64 | uint64 => exact .inl rfl
  | enum => exact .inr rfl
  | _ => exact spans.elim

/-- A whole number becomes a scalar of a type that holds it, and of no other type. -/
theorem scalarOfInt_iff : (∃ s, scalarOfInt? t n = some s) ↔ t.Spans n := by
  unfold scalarOfInt? FieldType.Spans
  cases t <;> simp

theorem type_of_scalarOfInt (held : scalarOfInt? t n = some s) : s.type = t := by
  unfold scalarOfInt? at held
  split at held
  case h_6 => cases held
  all_goals
    obtain ⟨-, same⟩ := Option.ite_none_right_eq_some.mp held
    exact Option.some.inj same ▸ rfl

theorem ofInteger_eq_ok :
    ofInteger t n = .ok w ↔ ∃ s, scalarOfInt? t n = some s ∧ w = .scalar s := by
  unfold ofInteger
  cases scalarOfInt? t n with
  | none => simp
  | some s => simp [eq_comm]

/-- What a whole number becomes in a type that holds it. -/
theorem exists_ofInteger (spans : t.Spans n) :
    ∃ s, ofInteger t n = .ok (.scalar s) ∧ s.type = t ∧ s.toInt? = some n := by
  obtain ⟨s, held⟩ := scalarOfInt_iff.mpr spans
  exact ⟨s, ofInteger_eq_ok.mpr ⟨s, held, rfl⟩, type_of_scalarOfInt held, toInt_of_scalarOfInt held⟩

theorem spans_of_ofInteger (ok : ofInteger t n = .ok w) : t.Spans n := by
  obtain ⟨s, held, -⟩ := ofInteger_eq_ok.mp ok
  exact scalarOfInt_iff.mp ⟨s, held⟩

theorem coerceInteger_eq_ok :
    v.coerceInteger t = .ok w ↔ ∃ n, v.toInt? = some n ∧ ofInteger t n = .ok w := by
  unfold coerceInteger
  cases v.toInt? with
  | none => simp
  | some n =>
    simp only [Option.some.injEq, exists_eq_left']
    split
    · rfl
    · rename_i other
      refine ⟨nofun, fun ok => absurd (integral_of_spans (spans_of_ofInteger ok)) ?_⟩
      simpa using other

/-- A value is converted into a type if it stands for a number that the type holds. -/
theorem coerceInteger_iff :
    (∃ w, v.coerceInteger t = .ok w) ↔ ∃ n, v.toInt? = some n ∧ t.Spans n := by
  constructor
  · rintro ⟨w, ok⟩
    obtain ⟨n, stands, held⟩ := coerceInteger_eq_ok.mp ok
    exact ⟨n, stands, spans_of_ofInteger held⟩
  · rintro ⟨n, stands, spans⟩
    obtain ⟨s, held, -⟩ := exists_ofInteger spans
    exact ⟨_, coerceInteger_eq_ok.mpr ⟨n, stands, held⟩⟩

/-- Converted back into the type that it had, an integral value is what it was. -/
theorem coerceInteger_back (ok : v.coerceInteger t = .ok w) (typed : v.type? = some own)
    (integral : own.isInteger ∨ own = .enum) : w.coerceInteger own = .ok v := by
  obtain ⟨same, stands, -⟩ := coerceInteger_ok ok
  obtain ⟨n, number⟩ := Option.isSome_iff_exists.mp stands
  refine coerceInteger_eq_ok.mpr ⟨n, same.trans number, ?_⟩
  cases v with
  | scalar s =>
    obtain rfl := Option.some.inj typed
    exact ofInteger_toInt number integral
  | null | object | array => cases number

end Value

namespace Field

variable {c : Catalogue} {f : Field} {r : Record} {n : Int}

/-- The slot of an integral field takes the scalars of the type of the field, and stores them as
they are. -/
theorem ofValue_integer {s : Shape} {a : Scalar} (integer : a.type.isInteger)
    (typed : s.type = a.type) : ∃ d, s.ofValue (.scalar a) = .ok d ∧ d.toValue = .scalar a := by
  induction s with
  | plain p => exact ⟨_, Shape.ofValue_stored typed.symm, rfl⟩
  | nullable inner ih =>
    obtain ⟨d, stored, shown⟩ := ih typed
    exact ⟨.present d, by rw [Shape.ofValue_nullable rfl, stored]; rfl, shown⟩
  | enum | record | variant | list =>
    rw [← typed] at integer
    cases integer

/-- A field of an integral type receives what is converted into that type and then written. -/
theorem receives_of_written (linked : f.Linked c) (typed : r.Instance c) (owned : r.type = f.owner)
    (integer : f.type.isInteger) {written : Except Error Record}
    (route : ∀ changed, written = .ok changed ↔
      ∃ v, Value.ofInteger f.type n = .ok v ∧ f.set r v = .ok changed) : f.Receives n written := by
  have plain : f.type ≠ .enum := by
    intro enum
    rw [enum] at integer
    cases integer
  have slot : f.shape.type = f.type :=
    linked.typed.elim Eq.symm fun numbers => absurd numbers.1 plain
  obtain ⟨old, found, -⟩ := Record.get_of_leads typed (owned ▸ linked.leads)
  refine ⟨⟨?_, fun spans => ?_⟩, fun changed ok => ?_⟩
  · rintro ⟨changed, ok⟩
    obtain ⟨v, held, -⟩ := (route changed).mp ok
    exact Value.spans_of_ofInteger held
  · obtain ⟨a, held, tag, -⟩ := Value.exists_ofInteger spans
    obtain ⟨d, fits, -⟩ := ofValue_integer (tag ▸ integer) (slot.trans tag.symm)
    obtain ⟨changed, set⟩ := (set_iff linked owned found).mpr (Shape.ofValue_iff.mp ⟨d, fits⟩)
    exact ⟨changed, (route changed).mpr ⟨_, held, set⟩⟩
  · obtain ⟨v, held, set⟩ := (route changed).mp ok
    obtain ⟨a, again, tag, stands⟩ := Value.exists_ofInteger (Value.spans_of_ofInteger held)
    obtain rfl := Except.ok.inj (held.symm.trans again)
    obtain ⟨d, stored, read⟩ := get_of_set set
    obtain ⟨d', fits, shown⟩ := ofValue_integer (tag ▸ integer) (slot.trans tag.symm)
    obtain rfl := Except.ok.inj (stored.symm.trans fits)
    rw [shown, present_of_ne_enum plain] at read
    exact ⟨a, read, tag, stands⟩

section

variable {reg : Registry} {resolve : Resolver} {options : JsonOptions}
  {members : List (String × Json)}

/-- A column is read alike whatever the field holds. -/
theorem toField_column {j : Json} (column : f.type.isColumn)
    (found : members.lookup f.name = some j) (something : j.isNull = false) :
    Json.toField reg resolve options members f r = .ok changed ↔
      ∃ v, Json.toPlain (.ofField f) j = .ok v ∧ f.set r v = .ok changed := by
  have nothing : Json.heldValue f r = .ok none := by
    refine if_neg fun object => ?_
    rw [object] at column
    cases column
  have place : (Json.Context.ofField f).type.isColumn := column
  rw [Json.toField_found found, nothing]
  simp only [Json.toValue_plain something place, bind_eq_ok, Except.ok.injEq, exists_eq_left',
    inField_eq_ok]

theorem isColumn_of_isInteger (integer : f.type.isInteger) : f.type.isColumn := by
  cases type : f.type <;> rw [type] at integer <;> first | rfl | cases integer

theorem receives_member (linked : f.Linked c) (typed : r.Instance c) (owned : r.type = f.owner)
    (integer : f.type.isInteger) (found : members.lookup f.name = some (.integer n)) :
    f.Receives n (Json.toField reg resolve options members f r) := by
  have place : (Json.Context.ofField f).type = f.type := rfl
  refine receives_of_written linked typed owned integer fun changed => ?_
  rw [toField_column (isColumn_of_isInteger integer) found rfl, Json.toPlain_integer place integer]

/-- A number that is held as a floating one is refused, even where it is whole. -/
theorem toField_double (integer : f.type.isInteger)
    (found : members.lookup f.name = some (.double x)) :
    Json.toField reg resolve options members f r ≠ .ok changed := by
  rw [Ne, toField_column (isColumn_of_isInteger integer) found rfl]
  rintro ⟨v, ok, -⟩
  have type : (Json.Context.ofField f).type = f.type := rfl
  unfold Json.toPlain at ok
  rw [type] at ok
  cases kind : f.type with
  | int32 | int64 | uint32 | uint64 =>
    rw [kind] at ok
    cases ok
  | _ =>
    rw [kind] at integer
    cases integer

end

theorem receives_cell {columns : List String} {cells : List Sqlite.Cell} {k : Int64}
    (linked : f.Linked c) (typed : r.Instance c) (owned : r.type = f.owner)
    (integer : f.type.isInteger) (there : cells[index]? = some (.integer k)) :
    f.Receives k.toInt ((Sqlite.Cell.row columns cells).bindColumn index f r) := by
  refine receives_of_written linked typed owned integer fun changed => ?_
  have present : (Sqlite.Cell.row columns cells).isNull index = .ok false := by
    simp only [Sqlite.Cell.row, Sqlite.Cell.inColumn_ok there]
    rfl
  have read :
      (Sqlite.Cell.row columns cells).readAs index f.type = Value.ofInteger f.type k.toInt := by
    have found := Sqlite.Cell.inColumn_ok there
    cases kind : f.type with
    | int32 | int64 | uint32 | uint64 =>
      simp only [Row.readAs, Sqlite.Cell.row, found]
      rfl
    | _ =>
      rw [kind] at integer
      cases integer
  simp only [Row.bindColumn, Row.readField, present, read, bind_eq_ok, Except.ok.injEq,
    exists_eq_left', Bool.false_eq_true, if_false, inField_eq_ok]

section

variable {σ ι : Type} {connector : Connector σ ι} {tx : Transaction σ ι} {d : Descriptor}
  {h : Handle}

/-- What the connection reports for an executed statement becomes the key. -/
theorem readGeneratedKey_iff {s : OpenStatement ι} {id : Int64} (flagged : d.primaryKey? = some f)
    (there : tx.statements.lookup h = some s)
    (executed : StatementState.executed.rank ≤ s.state.rank)
    (reported : ((connector.lastInsertId s.statement).perform tx.connection).1 = .ok id) :
    (∃ b u, (Transaction.readGeneratedKey connector h d).perform (tx, r) = (.ok b, u, changed)) ↔
      ∃ v, (Value.int64 id).coerceInteger f.type = .ok v ∧ f.set r v = .ok changed := by
  have found := Transaction.perform_lookup_some there
  constructor
  · rintro ⟨b, u, ran⟩
    rcases Insert.readGeneratedKey_ok ran with none | ⟨key, s', t, n, v, first, look, answer, fits, set⟩
    · cases none.symm.trans flagged
    · obtain rfl := Option.some.inj (first.symm.trans flagged)
      obtain ⟨same, rfl⟩ := Prod.mk.inj (look.symm.trans found)
      obtain rfl := Except.ok.inj same
      obtain rfl := Except.ok.inj (answer.symm.trans reported)
      exact ⟨v, fits, set⟩
  · rintro ⟨v, fits, set⟩
    generalize asked : (Transaction.onConnection (.lastInsertId h s.sql)
      (connector.lastInsertId s.statement)).perform tx = p
    obtain ⟨result, u⟩ := p
    obtain rfl : result = .ok id := (congrArg Prod.fst asked).symm.trans reported
    have write : (Action.update fun r => f.set r v).onSecond.perform (u, r) = (.ok (), u, changed) :=
      Action.perform_update_eq_ok.mpr ⟨set, rfl⟩
    refine ⟨true, u, ?_⟩
    simp only [Transaction.readGeneratedKey, flagged, Action.perform_bind, Action.perform_onFirst,
      found, Nat.not_lt.mpr executed, if_false, asked, Action.perform_ofExcept,
      inField_eq_ok.mpr fits, write]
    rfl

theorem receives_generatedKey {s : OpenStatement ι} {id : Int64} (linked : f.Linked c)
    (typed : r.Instance c) (owned : r.type = f.owner) (integer : f.type.isInteger)
    (flagged : d.primaryKey? = some f) (there : tx.statements.lookup h = some s)
    (executed : StatementState.executed.rank ≤ s.state.rank)
    (reported : ((connector.lastInsertId s.statement).perform tx.connection).1 = .ok id) :
    f.Receives id.toInt (((Transaction.readGeneratedKey connector h d).perform (tx, r)).1.map fun _ =>
      ((Transaction.readGeneratedKey connector h d).perform (tx, r)).2.2) := by
  refine receives_of_written linked typed owned integer fun changed => ?_
  have fits : (Value.int64 id).coerceInteger f.type = Value.ofInteger f.type id.toInt :=
    if_pos (by rw [integer]; rfl)
  rw [← fits, ← readGeneratedKey_iff flagged there executed reported]
  generalize (Transaction.readGeneratedKey connector h d).perform (tx, r) = p
  obtain ⟨result, u, after⟩ := p
  rw [except_map_eq_ok]
  constructor
  · rintro ⟨b, rfl, rfl⟩
    exact ⟨b, u, rfl⟩
  · rintro ⟨b, _, ⟨⟩⟩
    exact ⟨b, rfl, rfl⟩

end

end Field

/-- Whole numbers are converted exactly or not at all. A field of an integral type therefore receives
a number of a tree if the number is held as a whole one and lies in the range of the field, an
integer cell if it lies there, and so a key that the backend made up. -/
theorem conversion_exact :
    (∀ (v : Value) (t : FieldType), v.ConvertsExactly t) ∧
      ∀ {c : Catalogue} {d : Descriptor} {f : Field} {r : Record}, d.Built c → f ∈ d.fields →
        f.type.isInteger → r.Instance c → r.type = d.type →
        (∀ reg resolve options members,
          (∀ n, members.lookup f.name = some (.integer n) →
            f.Receives n (Json.toField reg resolve options members f r)) ∧
          ∀ x changed, members.lookup f.name = some (.double x) →
            Json.toField reg resolve options members f r ≠ .ok changed) ∧
        (∀ columns cells index (k : Int64), cells[index]? = some (.integer k) →
          f.Receives k.toInt ((Sqlite.Cell.row columns cells).bindColumn index f r)) ∧
        ∀ {σ ι : Type} (connector : Connector σ ι) (tx : Transaction σ ι) (h : Handle)
          (s : OpenStatement ι) (id : Int64), d.primaryKey? = some f →
          tx.statements.lookup h = some s →
          StatementState.executed.rank ≤ s.state.rank →
          ((connector.lastInsertId s.statement).perform tx.connection).1 = .ok id →
          f.Receives id.toInt
            (((Transaction.readGeneratedKey connector h d).perform (tx, r)).1.map fun _ =>
              ((Transaction.readGeneratedKey connector h d).perform (tx, r)).2.2) := by
  refine ⟨fun v t => ⟨Value.coerceInteger_iff, fun w ok => ⟨?_, (Value.coerceInteger_ok ok).1⟩,
    fun w own ok typed integral => Value.coerceInteger_back ok typed integral⟩, ?_⟩
  · obtain ⟨n, -, held⟩ := Value.coerceInteger_eq_ok.mp ok
    obtain ⟨s, number, rfl⟩ := Value.ofInteger_eq_ok.mp held
    exact congrArg some (Value.type_of_scalarOfInt number)
  · intro c d f r built member integer typed same
    have linked := built.sound.linked f member
    have owned : r.type = f.owner := same.trans (built.sound.owned f member).symm
    exact ⟨fun reg resolve options members =>
        ⟨fun n found => Field.receives_member linked typed owned integer found,
          fun x changed found => Field.toField_double integer found⟩,
      fun columns cells index k there => Field.receives_cell linked typed owned integer there,
      fun connector tx h s id flagged there executed reported =>
        Field.receives_generatedKey linked typed owned integer flagged there executed reported⟩

namespace Insert.Seats

/-- The insertion of a seat has run, and its statement is still open. -/
def inserted : Transaction Scripted.Script Scripted.Statement :=
  { (Transaction.new script : Transaction Scripted.Script Scripted.Statement) with
    statements := [(⟨1, .insert⟩, ⟨"INSERT", .executed, [], ⟨[], []⟩⟩)] }

end Insert.Seats

open Insert.Seats in
/-- The number of a seat may be `2 ^ 63`, as a tree has it, and not negative, as a cell may have
it; and the 42 of the connection arrives as 42. -/
theorem conversion_exact_seat :
    let members := [("number", Json.integer (2 ^ 63))]
    let keyed := (Transaction.readGeneratedKey connector ⟨1, .insert⟩ (descriptor false)).perform
      (inserted, seat 5 0)
    (Value.int64 (-1)).ConvertsExactly .uint64 ∧
      (∃ r, Json.toField ⟨[], []⟩ (fun _ => none) ⟨"@type", true, false⟩ members numberField
        (seat 5 0) = .ok r) ∧
      (¬∃ r, (Sqlite.Cell.row ["number"] [.integer (-1)]).bindColumn 0 numberField
        (seat 5 0) = .ok r) ∧
      numberField.Receives 42 (keyed.1.map fun _ => keyed.2.2) := by
  have member : numberField ∈ (descriptor false).fields := .tail _ (.head _)
  obtain ⟨tree, cell, key⟩ :=
    conversion_exact.2 (built_descriptor false) member rfl (instance_seat 5 0) rfl
  refine ⟨conversion_exact.1 _ _, ?_, fun accepted => ?_,
    key connector _ _ _ 42 rfl rfl (le_refl _) rfl⟩
  · exact ((tree ⟨[], []⟩ (fun _ => none) ⟨"@type", true, false⟩ _).1 (2 ^ 63) rfl).accepted.mpr
      ⟨by decide, by decide⟩
  · exact absurd ((cell ["number"] [.integer (-1)] 0 (-1) rfl).accepted.mp accepted).1 (by decide)

end ObjectMapping
