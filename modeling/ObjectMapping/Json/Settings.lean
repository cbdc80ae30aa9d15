import ObjectMapping.Json.Reader

/-! Settings read from text. Settings are written as an object, or as an array that
gives the first of them in order. What is not mentioned keeps its default; unknown
and repeated settings are refused. -/
namespace ObjectMapping

namespace Settings

/-- The settings that a tree mentions, by name; `names` is their order in an array. -/
def mentioned (names : List String) : Json → Option (List (String × Json))
  | .object members =>
    let keys := members.map (·.1)
    if keys.all names.contains && keys.eraseDups.length == keys.length then some members else none
  | .array items => if items.length ≤ names.length then some (names.zip items) else none
  | _ => none

/-- A setting of the wanted kind, or its default when it is not mentioned. -/
def get (settings : List (String × Json)) (name : String) (default : α) (read : Json → Option α) :
    Option α :=
  match settings.lookup name with
  | none => some default
  | some j => read j

def asBool : Json → Option Bool
  | .bool b => some b
  | _ => none

def asString : Json → Option String
  | .string s => some s
  | _ => none

/-- A whole number within 64 bits. -/
def asWord : Json → Option Nat
  | .integer n => if 0 ≤ n then some n.toNat else none
  | _ => none

/-- A text, or `null` for none. -/
def asOptionalString : Json → Option (Option String)
  | .null => some none
  | .string s => some (some s)
  | _ => none

/-- One of several named choices, written as its name or as an object that has the
name as its only key, with `null`. -/
def asChoice (ofName? : String → Option α) : Json → Option α
  | .string name => ofName? name
  | .object [(name, .null)] => ofName? name
  | _ => none

/-- Settings of the given names read from text. -/
def read (what : String) (names : List String) (text : String)
    (build : List (String × Json) → Option α) : Except Error α :=
  match (Json.readWritten text).bind (mentioned names) |>.bind build with
  | some settings => .ok settings
  | none => .error (.config s!"invalid {what}")

end Settings

/-- How objects are written as trees. -/
structure JsonOptions where
  /-- The key under which a polymorphic object names its type. -/
  typeKey : String
  /-- Whether members are written for values that are null. -/
  emitNulls : Bool
  /-- Whether text is indented. -/
  pretty : Bool
  deriving DecidableEq

namespace JsonOptions

def default : JsonOptions := ⟨"@type", true, false⟩

instance : Inhabited JsonOptions := ⟨default⟩

/-- Options as mentioned in settings. -/
def ofSettings (settings : List (String × Json)) : Option JsonOptions := do
  let typeKey ← Settings.get settings "type_key" default.typeKey Settings.asString
  let emitNulls ← Settings.get settings "emit_nulls" default.emitNulls Settings.asBool
  let pretty ← Settings.get settings "pretty" default.pretty Settings.asBool
  return ⟨typeKey, emitNulls, pretty⟩

/-- Options read from text. -/
def read (text : String) : Except Error JsonOptions :=
  Settings.read "JSON options" ["type_key", "emit_nulls", "pretty"] text ofSettings

end JsonOptions

end ObjectMapping
