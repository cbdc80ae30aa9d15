import ObjectMapping.Sqlite.Engine

/-! A small engine that connections can be run against, for want of a real one: it keeps one table
of unique whole numbers and has the transactions of a database. What its texts mean is up to the
caller. The results about connections are about every engine, and none about this one. -/
namespace ObjectMapping.Sqlite

/-- The table, what it was when the open transaction began, and the number that was
inserted last, which no rollback takes back. -/
structure Database where
  rows : List Int64
  saved : Option (List Int64)
  lastId : Int64

namespace Database

def empty : Database := ⟨[], none, 0⟩

/-- Whether no transaction is open. -/
def autocommit (db : Database) : Bool := db.saved.isNone

/-- A number put in its place in ascending order. -/
def place (n : Int64) : List Int64 → List Int64
  | [] => [n]
  | m :: rest => if n < m then n :: m :: rest else m :: place n rest

/-- Open a transaction, keep its changes or take them back. Transactions do not nest. -/
def control (sql : String) (db : Database) : Except String Unit × Database :=
  match sql, db.saved with
  | "BEGIN", none => (.ok (), { db with saved := some db.rows })
  | "COMMIT", some _ => (.ok (), { db with saved := none })
  | "ROLLBACK", some rows => (.ok (), { db with rows := rows, saved := none })
  | _, _ => (.error "the transaction state does not allow it", db)

end Database

/-- Where a column of a query of constants takes its cell from. -/
inductive Source where
  | parameter
  | constant (c : Cell)

/-- What the text of a statement asks for. -/
inductive Command where
  /-- One row of constants and parameters, under the given names. -/
  | select (columns : List (String × Source))
  /-- Insert the number given as parameter. -/
  | insert
  /-- Delete the numbers that are not less than the parameter. -/
  | delete
  /-- The numbers in ascending order. -/
  | list

namespace Command

/-- The names of the columns of the result. -/
def columns : Command → List String
  | select columns => columns.map (·.1)
  | list => ["n"]
  | insert | delete => []

/-- The cells of a row, from its sources and the parameters in order. -/
def fill : List Source → List Cell → List Cell
  | [], _ => []
  | .constant c :: rest, cells => c :: fill rest cells
  | .parameter :: rest, [] => .null :: fill rest []
  | .parameter :: rest, c :: cells => c :: fill rest cells

/-- The rows that the command yields. -/
def query (command : Command) (cells : List Cell) (db : Database) : List (List Cell) :=
  match command with
  | select columns => [fill (columns.map (·.2)) cells]
  | list => db.rows.map fun n => [.integer n]
  | insert | delete => []

/-- Run the command with bound parameters: the number of affected rows, and the database
afterwards. -/
def run (command : Command) (cells : List Cell) (db : Database) :
    Except String Nat × Database :=
  match command, cells with
  | insert, .integer n :: _ =>
    if db.rows.contains n then (.error "the number is there already", db)
    else (.ok 1, { db with rows := Database.place n db.rows, lastId := n })
  | delete, .integer n :: _ =>
    let (gone, kept) := db.rows.partition fun m => n ≤ m
    (.ok gone.length, { db with rows := kept })
  | select _, _ | list, _ => (.ok 0, db)
  | _, _ => (.error "the parameter is not a number", db)

end Command

/-- The engine for which texts ask for what `meaning` says about them. -/
def engine (meaning : String → Command) : Engine Database where
  batch := Database.control
  prepare sql _ := .ok ⟨(meaning sql).columns, fun _ => none⟩
  run sql cells db := (meaning sql).run (cells.map Cell.stored) db
  query sql cells db := (⟨(meaning sql).query (cells.map Cell.stored) db, none⟩, db)
  lastId := Database.lastId

def connector (meaning : String → Command) : Connector Database Statement :=
  (engine meaning).connector

end ObjectMapping.Sqlite
