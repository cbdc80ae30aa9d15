import ObjectMapping.Transaction.Run

/-! What a cursor has before it: the rows that its statement will yield, and the records that come
of binding them one after the other. -/
namespace ObjectMapping

variable {σ ι : Type}

namespace Row

/-- The record with the row bound onto it, or as much of the row as could be bound. -/
def onto (d : Descriptor) (r : Record) (row : Row) : Record :=
  ((row.bind d).perform ⟨r, []⟩).2.record

/-- How the binding of the row onto the record ends. -/
def outcome (d : Descriptor) (r : Record) (row : Row) : Except Error Unit :=
  ((row.bind d).perform ⟨r, []⟩).1

/-- The record with the rows bound onto it, one after the other. -/
def boundOnto (d : Descriptor) (r : Record) (rows : List Row) : Record := rows.foldl (onto d) r

/-- The row carries a column whose field lies on the given slot. -/
def Carries (d : Descriptor) (row : Row) (path : List String) : Prop :=
  ∃ name ∈ row.columns, ∃ f, d.fieldFolded? name = some f ∧ f.path = path

/-- The binding of the row onto the record ends at a column that fails: those before it are bound,
which gives the last record, and that one cannot be bound onto the record. -/
def StopsAt (d : Descriptor) (r : Record) (row : Row) (e : Error) (last : Record) : Prop :=
  ∃ before name after f notices, row.columns = before ++ name :: after ∧
    (row.bindColumns d 0 before).perform ⟨r, []⟩ = (.ok (), ⟨last, notices⟩) ∧
    d.fieldFolded? name = some f ∧ row.bindColumn before.length f last = .error e

end Row

namespace Connector

variable (c : Connector σ ι)

/-- Asked again and again, the statement yields the rows and then reports that there are no more. -/
inductive Yields : σ × ι → List Row → Prop where
  | exhausted (none : c.fetch.perform p = (.ok none, q)) : Yields p []
  | row (some : c.fetch.perform p = (.ok (some row), q)) (others : Yields q rows) :
      Yields p (row :: rows)

/-- What is left to do before the first fetch succeeds. -/
inductive Readies (params : List Value) : StatementState → σ × ι → σ × ι → Prop where
  | created (prepared : c.prepare.perform p = (.ok (), q))
      (executed : (c.execute params).perform q = (.ok affected, t)) : Readies params .created p t
  | prepared (executed : (c.execute params).perform p = (.ok affected, q)) :
      Readies params .prepared p q
  | executed : Readies params .executed p p

end Connector

namespace Transaction

/-- The connection and one of the open statements hold the given states. -/
structure Holds (tx : Transaction σ ι) (h : Handle) (state : StatementState) (params : List Value)
    (held : σ × ι) : Prop where
  connection : tx.connection = held.1
  statement : ∃ sql, tx.statements.lookup h = some ⟨sql, state, params, held.2⟩

/-- The rows that an open statement will yield, which has to be prepared and executed first if that
has not happened yet. A statement that is done yields nothing. -/
inductive Pending (c : Connector σ ι) (tx : Transaction σ ι) (h : Handle) : List Row → Prop where
  | waiting (holds : tx.Holds h state params p) (ready : c.Readies params state p q)
      (yields : c.Yields q rows) : Pending c tx h rows
  | done (holds : tx.Holds h .done params p) : Pending c tx h []

end Transaction

namespace Cursor

/-- What is left by as many calls for the next row, whatever became of each. -/
def advanced (k : Cursor) (c : Connector σ ι) :
    Nat → Transaction σ ι × Record → Transaction σ ι × Record
  | 0, p => p
  | m + 1, p => ((k.fetchNext c).perform (k.advanced c m p)).2

/-- All rows but the first ones are delivered in order. If each of them can be bound, there is a
record for each, in which it and all rows before it are bound; and otherwise the error is that of
the first one that cannot be bound, of which the columns before the failing one stay bound. -/
structure Delivers (d : Descriptor) (r : Record) (rows : List Row) (first : Nat)
    (result : Except Error (List Record)) (last : Record) : Prop where
  every : (∀ i row, first ≤ i → rows[i]? = some row →
      row.outcome d (Row.boundOnto d r (rows.take i)) = .ok ()) →
    result = .ok ((List.range (rows.length - first)).map fun i =>
      Row.boundOnto d r (rows.take (first + i + 1))) ∧ last = Row.boundOnto d r rows
  failure : ∀ j row e, first ≤ j → rows[j]? = some row →
    (∀ i earlier, first ≤ i → i < j → rows[i]? = some earlier →
      earlier.outcome d (Row.boundOnto d r (rows.take i)) = .ok ()) →
    row.outcome d (Row.boundOnto d r (rows.take j)) = .error e →
    result = .error e ∧ last = Row.boundOnto d r (rows.take (j + 1)) ∧
      row.StopsAt d (Row.boundOnto d r (rows.take j)) e last

end Cursor

end ObjectMapping
