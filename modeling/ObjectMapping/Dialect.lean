import ObjectMapping.Value
import ObjectMapping.Decimal

/-! The lexical differences between the SQL dialects: placeholders, quoting,
literals, type names and the shape of pagination. -/
namespace ObjectMapping

/-- An SQL dialect. -/
inductive Dialect where
  | postgres
  | sqlite
  | mysql
  | mssql
  deriving DecidableEq

/-- The text with every occurrence of a character written twice. -/
def doubled (c : Char) (text : String) : String :=
  String.ofList (text.toList.flatMap fun d => if d = c then [c, c] else [d])

namespace Dialect

instance : Inhabited Dialect := ⟨postgres⟩

/-- Every dialect, in alphabetical order of the configuration names. -/
def all : List Dialect := [mssql, mysql, postgres, sqlite]

/-- The name of the dialect in configuration files. -/
def configName : Dialect → String
  | postgres => "postgres"
  | sqlite => "sqlite"
  | mysql => "mysql"
  | mssql => "mssql"

/-- The name of the dialect for display. -/
def displayName : Dialect → String
  | postgres => "Postgres"
  | sqlite => "Sqlite"
  | mysql => "Mysql"
  | mssql => "Mssql"

/-- The dialect with the given configuration name. -/
def ofConfigName? (name : String) : Option Dialect := all.find? (·.configName == name)

/-- The placeholder of a parameter counted from one. -/
def placeholder (d : Dialect) (index : Nat) : String :=
  match d with
  | postgres => s!"${index}"
  | sqlite => s!"?{index}"
  | mysql => "?"
  | mssql => s!"@p{index}"

/-- A name in the quotes of the dialect; a closing quote inside is doubled. -/
def quoteIdentifier (d : Dialect) (name : String) : String :=
  match d with
  | postgres | sqlite => "\"" ++ doubled '"' name ++ "\""
  | mysql => "\x60" ++ doubled '\x60' name ++ "\x60"
  | mssql => "[" ++ doubled ']' name ++ "]"

/-- A column name qualified by its table, both quoted. -/
def qualified (d : Dialect) (table column : String) : String :=
  d.quoteIdentifier table ++ "." ++ d.quoteIdentifier column

/-- A text as a string literal. -/
def quoteString (d : Dialect) (text : String) : String :=
  let escaped := doubled '\'' text
  match d with
  | mysql => "'" ++ doubled '\\' escaped ++ "'"
  | mssql => "N'" ++ escaped ++ "'"
  | postgres | sqlite => "'" ++ escaped ++ "'"

/-- A finite number as a literal. -/
def floatLiteral (x : Double) : Except Error String :=
  if x.isFinite then .ok x.plainText
  else .error (.malformed s!"{x.plainText} has no SQL literal form")

/-- A date-time as a literal. -/
def dateTimeLiteral (d : Dialect) (t : DateTime) : String :=
  let quoted := "'" ++ t.text ++ "'"
  match d with
  | sqlite => quoted
  | postgres | mysql => "TIMESTAMP " ++ quoted
  | mssql => "CONVERT(DATETIME2, " ++ quoted ++ ", 120)"

/-- A truth value as a literal. -/
def boolLiteral (d : Dialect) (b : Bool) : String :=
  match d with
  | postgres | mysql => if b then "TRUE" else "FALSE"
  | sqlite | mssql => if b then "1" else "0"

/-- A scalar as a literal. -/
def scalarLiteral (d : Dialect) : Scalar → Except Error String
  | .bool b => .ok (d.boolLiteral b)
  | .int32 n => .ok (toString n.toInt)
  | .uint32 n => .ok (toString n.toNat)
  | .int64 n => .ok (toString n.toInt)
  | .uint64 n => .ok (toString n.toNat)
  | .float x => floatLiteral x.widen
  | .double x => floatLiteral x
  | .string s => .ok (d.quoteString s)
  | .enum n => .ok (toString n.toNat)
  | .dateTime t => .ok (d.dateTimeLiteral t)

/-- A value as a literal in the text of a statement. -/
def literal (d : Dialect) : Value → Except Error String
  | .null => .ok "NULL"
  | .scalar s => d.scalarLiteral s
  | .object _ =>
    .error (.ofData (.unsupportedType .object) "object values have no SQL literal form")
  | .array _ =>
    .error (.ofData (.unsupportedType .array) "array values have no SQL literal form")

/-- The type that `CAST` converts to for a column type. -/
def castType (d : Dialect) (type : FieldType) : Except Error String :=
  match d, type with
  | _, .object | _, .array | _, .variant =>
    .error (.ofData (.unsupportedType type) s!"cannot cast to {type.name}")
  | sqlite, .bool | sqlite, .int32 | sqlite, .uint32 | sqlite, .int64 | sqlite, .uint64
  | sqlite, .enum => .ok "INTEGER"
  | sqlite, .float | sqlite, .double => .ok "REAL"
  | sqlite, .string | sqlite, .dateTime => .ok "TEXT"
  | postgres, .bool => .ok "BOOLEAN"
  | postgres, .int32 => .ok "INTEGER"
  | postgres, .uint32 | postgres, .int64 | postgres, .enum => .ok "BIGINT"
  | postgres, .uint64 => .ok "NUMERIC(20)"
  | postgres, .float => .ok "REAL"
  | postgres, .double => .ok "DOUBLE PRECISION"
  | postgres, .string => .ok "TEXT"
  | postgres, .dateTime => .ok "TIMESTAMP"
  | mysql, .bool | mysql, .int32 | mysql, .int64 => .ok "SIGNED"
  | mysql, .uint32 | mysql, .uint64 | mysql, .enum => .ok "UNSIGNED"
  | mysql, .float => .ok "FLOAT"
  | mysql, .double => .ok "DOUBLE"
  | mysql, .string => .ok "CHAR"
  | mysql, .dateTime => .ok "DATETIME"
  | mssql, .bool => .ok "BIT"
  | mssql, .int32 => .ok "INT"
  | mssql, .uint32 | mssql, .int64 | mssql, .enum => .ok "BIGINT"
  | mssql, .uint64 => .ok "DECIMAL(20, 0)"
  | mssql, .float => .ok "REAL"
  | mssql, .double => .ok "FLOAT"
  | mssql, .string => .ok "NVARCHAR(MAX)"
  | mssql, .dateTime => .ok "DATETIME2"

/-- The spelling of a function: upper case, with one name of its own in one dialect. -/
def functionName (d : Dialect) (name : String) : String :=
  let upper := String.ofList (name.toList.map Char.toUpper)
  if d = mssql ∧ upper = "LENGTH" then "LEN" else upper

/-- The end of a query that asks for part of its rows, with its leading space.
`ordered` tells whether the query has an `ORDER BY` of its own. -/
def pagination (d : Dialect) (limit offset : Option Nat) (ordered : Bool) : String :=
  match d with
  | postgres =>
    (match limit with | some n => s!" LIMIT {n}" | none => "") ++
      (match offset with | some n => s!" OFFSET {n}" | none => "")
  | sqlite | mysql =>
    let unbounded := if d = sqlite then "-1" else "18446744073709551615"
    match limit, offset with
    | some limit, some offset => s!" LIMIT {limit} OFFSET {offset}"
    | some limit, none => s!" LIMIT {limit}"
    | none, some offset => s!" LIMIT {unbounded} OFFSET {offset}"
    | none, none => ""
  | mssql =>
    if limit.isNone && offset.isNone then ""
    else
      (if ordered then "" else " ORDER BY (SELECT NULL)") ++
        s!" OFFSET {offset.getD 0} ROWS" ++
        (match limit with | some n => s!" FETCH NEXT {n} ROWS ONLY" | none => "")

/-- The statement that inserts a row of defaults into a table, given quoted. -/
def insertDefaults (d : Dialect) (table : String) : String :=
  match d with
  | mysql => s!"INSERT INTO {table} () VALUES ()"
  | _ => s!"INSERT INTO {table} DEFAULT VALUES"

end Dialect

end ObjectMapping
