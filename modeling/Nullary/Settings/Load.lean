import Nullary.ArgumentError
import Nullary.Settings.Discovery
import Nullary.Settings.Options
import Nullary.Toml.File

/-!
# Loading settings

`Settings.load` selects a settings file and builds settings from what the caller gives, from
variables and from that file.  The path of the file is among the values of the caller, so that no
lower layer can name another one.
-/

namespace Nullary

/-- Why settings were not loaded. -/
inductive LoadError
  | arguments (e : ArgumentError)
  | selection (e : Discovery.Failure)
  | file (e : Toml.FileError)
  | environment (e : Layer.EnvironmentError)
  | rejected (r : Rejection)

/-- What a caller asks for: a file, a folder to search from, and values for settings. -/
structure LoadCall where
  file : Value
  start : Value
  overrides : Fields Value

namespace LoadCall

/-- The call of a loader with named arguments; two of them are no settings. -/
def ofGiven (loader : String) (given : Fields Value) : Except ArgumentError LoadCall :=
  match ArgumentError.repeated? loader ["cls"] given.keys with
  | some e => .error e
  | none =>
    .ok ⟨(given.get? "config_path").getD .null, (given.get? "start").getD .null,
      (given.erase "config_path").erase "start"⟩

end LoadCall

namespace Settings

/-- The function that loads settings. -/
def loaderName : String := "ValobjSettings.load"

/-- The document of a settings file that may have been removed since it was selected. -/
def documentAt (w : World) (p : FilePath) : Except LoadError Toml.Table :=
  match w.isFile p with
  | .error e => .error (.file (.unreadable p e))
  | .ok false => .ok []
  | .ok true => (w.readToml p).mapError .file

/-- The document of the selected file; without a file it is empty. -/
def document (w : World) : Option FilePath → Except LoadError Toml.Table
  | none => .ok []
  | some p => documentAt w p

/-- The document for settings from given values, of which one name is taken. -/
def documentFor (w : World) (slot : Option FilePath) (given : Fields Value) :
    Except LoadError Toml.Table :=
  match ArgumentError.repeated? "BaseSettings.__init__" ["__pydantic_self__"] given.keys with
  | some e => .error (.arguments e)
  | none => document w slot

/-- Settings from the three layers; options among the given values say how variables are named. -/
def ofLayers (env : Environment) (document : Toml.Table) (given : Fields Value) :
    Except LoadError Settings :=
  match Layer.ofEnvironment (environmentFor env given) with
  | .error e => .error (.environment e)
  | .ok environment =>
    (check (Layer.merged document.toFields environment
      (Layer.ofCaller (withoutOptions given)))).mapError .rejected

/-- Settings from a selected file, from variables and from given values. -/
def build (w : World) (slot : Option FilePath) (given : Fields Value) : Except LoadError Settings :=
  match documentFor w slot given with
  | .error e => .error e
  | .ok d => ofLayers w.environment d given

/-- A path as a value, null for none. -/
def optionalPath : Option FilePath → Value
  | some p => .path p
  | none => .null

/-- The values of a call for whose file a path was found. -/
def given (found : Option FilePath) (overrides : Fields Value) : Fields Value :=
  ("config_path", optionalPath found) :: overrides

/-- The settings for a call. -/
def load (w : World) (call : LoadCall) : Except LoadError Settings :=
  match Discovery.select w call.file call.start with
  | .error e => .error (.selection e)
  | .ok found => build w found (given found call.overrides)

/-- The settings that a loader gives for named arguments. -/
def loadBy (loader : String) (w : World) (given : Fields Value) : Except LoadError Settings :=
  match LoadCall.ofGiven loader given with
  | .error e => .error (.arguments e)
  | .ok call => load w call

end Settings

end Nullary
