import Typeahead.Disk.Access

/-!
Everything that can go wrong outside the line itself, as causes. The wording of a failure is given
in one place.
-/
namespace Typeahead

/-! ## Causes -/

/-- What is wrong with the settings. -/
inductive SettingsError where
  /-- A file that was asked for by name is missing. -/
  | fileNotFound (path : Text)
  | invalidFormat (detail : Text)
  | invalidValue (field value : Text)
  | generic (message : Text)
  deriving DecidableEq, Repr

/-- Why a source has no candidates to give. -/
inductive SourceError where
  | unavailable (source reason : Text)
  | panicked (source : Text)
  | failed (source reason : Text)
  deriving DecidableEq, Repr

/-- A failure of any kind. -/
inductive Failure where
  | settings (e : SettingsError)
  | source (e : SourceError)
  | io (reason : Text)
  | generic (message : Text)
  deriving DecidableEq, Repr

/-! ## Wording -/

namespace SettingsError

def message : SettingsError → Text
  | fileNotFound path => "Config file not found: ".toList ++ path
  | invalidFormat detail => "Invalid config format: ".toList ++ detail
  | invalidValue field value =>
    "Invalid value '".toList ++ value ++ "' for field '".toList ++ field ++ "'".toList
  | generic message => message

end SettingsError

namespace SourceError

def message : SourceError → Text
  | unavailable source reason => source ++ ": source unavailable: ".toList ++ reason
  | panicked source => source ++ ": panicked".toList
  | failed source reason => source ++ ": ".toList ++ reason

/-- Name of the source that failed. -/
def name : SourceError → Text
  | unavailable source _ => source
  | panicked source => source
  | failed source _ => source

end SourceError

namespace Failure

def message : Failure → Text
  | settings e => "Configuration error: ".toList ++ e.message
  | source e => "Completion error: ".toList ++ e.message
  | io reason => "I/O error: ".toList ++ reason
  | generic message => message

/-- The failure of an access to the directory tree. -/
def ofDisk (e : DiskError) : Failure := io e.message.toList

end Failure

end Typeahead
