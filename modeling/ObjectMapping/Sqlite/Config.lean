import ObjectMapping.Json.Settings

/-! The configuration of a database connection. -/
namespace ObjectMapping.Sqlite

/-- How a database is opened. Without a path it is private and in memory. -/
structure Config where
  path : Option String
  readOnly : Bool
  /-- Whether a missing file is created. -/
  create : Bool
  /-- How long a locked database is retried, in milliseconds within 64 bits. -/
  busyTimeout : Nat
  foreignKeys : Bool
  deriving DecidableEq

namespace Config

def default : Config := ⟨none, false, true, 5000, true⟩

instance : Inhabited Config := ⟨default⟩

/-- The configuration of a database in a file. -/
def file (path : String) : Config := { default with path := some path }

/-- Whether the database is in memory. -/
def isMemory (c : Config) : Bool := c.path.isNone

/-- The configuration with a retry time, cut to what 64 bits of milliseconds hold. -/
def withBusyMicros (c : Config) (micros : Nat) : Config :=
  { c with busyTimeout := min (micros / 1000) 0xFFFFFFFFFFFFFFFF }

/-- A configuration read from text. -/
def read (text : String) : Except Error Config :=
  Settings.read "SQLite configuration"
    ["path", "read_only", "create", "busy_timeout_ms", "foreign_keys"] text fun s => do
      let path ← Settings.get s "path" default.path Settings.asOptionalString
      let readOnly ← Settings.get s "read_only" default.readOnly Settings.asBool
      let create ← Settings.get s "create" default.create Settings.asBool
      let busyTimeout ← Settings.get s "busy_timeout_ms" default.busyTimeout Settings.asWord
      let foreignKeys ← Settings.get s "foreign_keys" default.foreignKeys Settings.asBool
      return ⟨path, readOnly, create, busyTimeout, foreignKeys⟩

end Config

end ObjectMapping.Sqlite
