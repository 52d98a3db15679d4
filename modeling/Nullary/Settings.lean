import Nullary.Envelope

/-!
# Settings

The settings of the service: the file they were read from, whether the log is verbose, whether it is
written as JSON, and the codec section.  `Settings.check` builds them from named values; other names
than these are refused.
-/

namespace Nullary

/-- The settings of the service. -/
structure Settings where
  path : Option FilePath
  verbose : Bool
  logJson : Bool
  codec : Section
  deriving DecidableEq

namespace Settings

open Check

/-- The name of the record in messages. -/
def name : String := "ValobjSettings"

/-- The names of the settings in their order. -/
def fieldNames : List String := ["config_path", "verbose", "log_json", "codec"]

/-- The settings where nothing is set. -/
def default : Settings := ⟨none, false, false, ⟨false⟩⟩

/-- The names that are no settings are issues, in the order in which they were given. -/
def surplus (given : Fields Value) : List Issue :=
  (given.filter fun e => !fieldNames.contains e.1).map fun e =>
    ⟨.extraForbidden, [.name e.1], e.2⟩

/-- All names known. -/
def known (given : Fields Value) : Checked Unit :=
  match surplus given with
  | [] => .ok ()
  | issues => .error issues

/-- Builds settings from named values; all issues are found, those of unknown names last. -/
def check (given : Fields Value) : Except Rejection Settings :=
  let path := optional [] given "config_path" none fun p v => atPlace p path? v
  let verbose := optional [] given "verbose" false fun p v => atPlace p truth v
  let logJson := optional [] given "log_json" false fun p v => atPlace p truth v
  let codec := optional [] given "codec" ⟨false⟩ Section.ofValue
  match both (both (both path verbose) (both logJson codec)) (known given) with
  | .ok (((path, verbose), (logJson, codec)), _) => .ok ⟨path, verbose, logJson, codec⟩
  | .error issues => .error ⟨name, issues⟩

end Settings

end Nullary
