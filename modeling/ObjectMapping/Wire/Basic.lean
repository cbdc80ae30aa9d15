import ObjectMapping.Error
import ObjectMapping.Json.Access

/-! The parts that all trees on the wire are made of: names, whole numbers, and
errors by their kind. -/
namespace ObjectMapping.Wire

/-- What there is, or `null` for nothing. -/
def orNull (write : α → Json) (a : Option α) : Json := (a.map write).getD .null

/-- Texts as an array. -/
def ofTexts (texts : List String) : Json := .array (texts.map .string)

/-- Whole numbers as an array. -/
def ofWhole (numbers : List Int) : Json := .array (numbers.map .integer)

/-- The one of several things that a tree names. -/
def named (what : String) (name : α → String) (all : List α) (j : Json) : Except Error α :=
  match all.find? (name · == j.text) with
  | some a => .ok a
  | none => .error (.malformed s!"'{j.text}' names no {what}")

/-- A field type by its name. -/
def readType : Json → Except Error FieldType := named "type" FieldType.name FieldType.all

/-- A failure by its kind and its text. -/
def ofError (e : Error) : Json := .object [("error", .string e.code), ("message", .string e.text)]

/-- The kind of a data error by its name and what it says about the value. -/
def readDataKind (j payload : Json) : Except Error DataKind :=
  match j.text with
  | "TypeMismatch" => (readType payload).map .typeMismatch
  | "UnknownEnumValue" => .ok (.unknownEnumValue (.ofNat payload.count))
  | "UnknownEnumName" => .ok (.unknownEnumName payload.text)
  | "UnknownType" => .ok (.unknownType payload.text)
  | "UnsupportedType" => (readType payload).map .unsupportedType
  | _ =>
    let plain : List DataKind := [.unsupportedNesting, .integrityError, .formatError, .missingField]
    named "kind of error" DataKind.name plain j

/-- An error by its family, its kind and its message. -/
def readError (j : Json) : Except Error Error := do
  let kind := j.get "kind"
  let message := (j.get "message").text
  match (j.get "family").text with
  | "usage" => return .usage (← named "kind of error" UsageKind.name UsageKind.all kind) message
  | "backend" =>
    return .ofBackend (← named "kind of error" BackendKind.name BackendKind.all kind) message
  | "data" => return .ofData (← readDataKind kind (j.get "payload")) message
  | "metadata" =>
    return .metadata (← named "kind of error" MetadataKind.name MetadataKind.all kind) message
  | "config" => return .config message
  | other => throw (.malformed s!"'{other}' names no family of errors")

end ObjectMapping.Wire
