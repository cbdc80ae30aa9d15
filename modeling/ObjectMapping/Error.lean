import ObjectMapping.FieldType

/-! Every way in which an operation can fail. An error belongs to one of five
families, and its kind says which rule was broken; the message is for people.
Two attributes are filled in on the way out: the field that was being processed
(the innermost one wins) and the statement text that the backend refused. -/
namespace ObjectMapping

/-- A rule of a protocol or an interface that the caller broke. -/
inductive UsageKind where
  | notPrepared
  | alreadyPrepared
  | alreadyExecuted
  | statementDone
  | unknownStatement
  | mixedJoins
  | emptyUpdate
  | unsetNullable
  | transactionActive
  | noActiveTransaction
  | objectMismatch
  | unregisteredType
  | missingPrimaryKey
  deriving DecidableEq

/-- The step at which the backend failed. -/
inductive BackendKind where
  | connect
  | transaction
  | prepare
  | execute
  | fetch
  deriving DecidableEq

/-- Why a value could not be converted, bound or decoded. -/
inductive DataKind where
  /-- The value does not have the shape that the expected type asks for. -/
  | typeMismatch (expected : FieldType)
  | unknownEnumValue (value : UInt32)
  | unknownEnumName (name : String)
  /-- A polymorphic value whose type is missing (empty name) or cannot be created. -/
  | unknownType (name : String)
  | unsupportedNesting
  | unsupportedType (type : FieldType)
  | integrityError
  | formatError
  | missingField
  deriving DecidableEq

/-- What makes a description of types inconsistent. -/
inductive MetadataKind where
  | duplicateType
  | duplicateField
  | duplicateEnum
  | invalidName
  | unknownReference
  | nestedNullable
  | layout
  | defaultMismatch
  | superMismatch
  deriving DecidableEq

/-- A failed operation. -/
inductive Error where
  | usage (kind : UsageKind) (message : String)
  /-- The backend refused; the statement text is known once a statement is involved. -/
  | backend (kind : BackendKind) (message : String) (sql : Option String)
  /-- A value did not fit; the field is known once a field is involved. -/
  | data (kind : DataKind) (message : String) (field : Option String)
  | metadata (kind : MetadataKind) (message : String)
  | config (message : String)
  deriving DecidableEq

namespace UsageKind

/-- The name of the kind in messages. -/
def name : UsageKind → String
  | notPrepared => "NotPrepared"
  | alreadyPrepared => "AlreadyPrepared"
  | alreadyExecuted => "AlreadyExecuted"
  | statementDone => "StatementDone"
  | unknownStatement => "UnknownStatement"
  | mixedJoins => "MixedJoins"
  | emptyUpdate => "EmptyUpdate"
  | unsetNullable => "UnsetNullable"
  | transactionActive => "TransactionActive"
  | noActiveTransaction => "NoActiveTransaction"
  | objectMismatch => "ObjectMismatch"
  | unregisteredType => "UnregisteredType"
  | missingPrimaryKey => "MissingPrimaryKey"

/-- Every kind, in the order of declaration. -/
def all : List UsageKind :=
  [notPrepared, alreadyPrepared, alreadyExecuted, statementDone, unknownStatement, mixedJoins,
    emptyUpdate, unsetNullable, transactionActive, noActiveTransaction, objectMismatch,
    unregisteredType, missingPrimaryKey]

end UsageKind

namespace BackendKind

/-- The name of the kind in messages. -/
def name : BackendKind → String
  | connect => "Connect"
  | transaction => "Transaction"
  | prepare => "Prepare"
  | execute => "Execute"
  | fetch => "Fetch"

/-- Every kind, in the order of declaration. -/
def all : List BackendKind := [connect, transaction, prepare, execute, fetch]

end BackendKind

namespace DataKind

/-- The name of the kind, followed by what it says about the value, if it does. -/
def name : DataKind → String
  | typeMismatch expected => s!"TypeMismatch({expected.name})"
  | unknownEnumValue value => s!"UnknownEnumValue({value.toNat})"
  | unknownEnumName name => s!"UnknownEnumName({name})"
  | unknownType name => s!"UnknownType({name})"
  | unsupportedNesting => "UnsupportedNesting"
  | unsupportedType type => s!"UnsupportedType({type.name})"
  | integrityError => "IntegrityError"
  | formatError => "FormatError"
  | missingField => "MissingField"

end DataKind

namespace MetadataKind

/-- The name of the kind in messages. -/
def name : MetadataKind → String
  | duplicateType => "DuplicateType"
  | duplicateField => "DuplicateField"
  | duplicateEnum => "DuplicateEnum"
  | invalidName => "InvalidName"
  | unknownReference => "UnknownReference"
  | nestedNullable => "NestedNullable"
  | layout => "Layout"
  | defaultMismatch => "DefaultMismatch"
  | superMismatch => "SuperMismatch"

/-- Every kind, in the order of declaration. -/
def all : List MetadataKind :=
  [duplicateType, duplicateField, duplicateEnum, invalidName, unknownReference, nestedNullable,
    layout, defaultMismatch, superMismatch]

end MetadataKind

namespace Error

/-- A data error outside any field. -/
def ofData (kind : DataKind) (message : String) : Error := .data kind message none

/-- A backend error that no statement text is attached to. -/
def ofBackend (kind : BackendKind) (message : String) : Error := .backend kind message none

/-- Text or a number that is not of the required form. -/
def malformed (message : String) : Error := ofData .formatError message

/-- Name the field in which a data error arose, unless one is named already. -/
def inField (field : String) : Error → Error
  | .data kind message none => .data kind message (some field)
  | other => other

/-- Attach the statement text to a backend error. -/
def withSql (sql : String) : Error → Error
  | .backend kind message _ => .backend kind message (some sql)
  | other => other

/-- The kind of a usage error. -/
def usageKind? : Error → Option UsageKind
  | .usage kind _ => some kind
  | _ => none

/-- The kind of a backend error. -/
def backendKind? : Error → Option BackendKind
  | .backend kind _ _ => some kind
  | _ => none

/-- The kind of a data error. -/
def dataKind? : Error → Option DataKind
  | .data kind _ _ => some kind
  | _ => none

/-- The kind of a metadata error. -/
def metadataKind? : Error → Option MetadataKind
  | .metadata kind _ => some kind
  | _ => none

/-- The family and the kind of the error as one word. -/
def code : Error → String
  | .usage kind _ => "Usage:" ++ kind.name
  | .backend kind _ _ => "Backend:" ++ kind.name
  | .data kind _ _ => "Data:" ++ kind.name
  | .metadata kind _ => "Metadata:" ++ kind.name
  | .config _ => "Config"

/-- The error as one line of text, its family first. -/
def text : Error → String
  | .usage kind message => s!"Usage error: {kind.name}: {message}"
  | .backend kind message none => s!"Backend error: {kind.name} failed: {message}"
  | .backend kind message (some sql) =>
    s!"Backend error: {kind.name} failed: {message} (SQL: {sql})"
  | .data _ message none => s!"Data error: {message}"
  | .data _ message (some field) => s!"Data error: field '{field}': {message}"
  | .metadata kind message => s!"Metadata error: {kind.name}: {message}"
  | .config message => s!"Configuration error: {message}"

end Error

/-- Name the field in which a result failed. -/
def inField (field : String) (result : Except Error α) : Except Error α :=
  result.mapError (Error.inField field)

/-- Attach the statement text that a result failed on. -/
def withSql (sql : String) (result : Except Error α) : Except Error α :=
  result.mapError (Error.withSql sql)

end ObjectMapping
