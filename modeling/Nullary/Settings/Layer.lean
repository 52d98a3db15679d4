import Nullary.Envelope.Document
import Nullary.Json.Reader
import Nullary.Settings
import Nullary.Text.LowerCase
import Nullary.Toml
import Nullary.Value.Merge
import Nullary.World

/-!
# Layers of settings

Settings come in three layers: values given by the caller, variables, and the settings file.  Each
layer is a record of named values; `Layer.merged` puts the upper ones on the lower ones.

Variables are recognised without regard to case.  The codec section is a JSON text in a variable of
its own, with single entries in further variables whose names lead into the section.
-/

namespace Nullary.Layer

/-- The variable of the codec section holds no JSON text, or one of too many levels. -/
inductive EnvironmentError
  | malformed
  | tooDeep (c : Json.Container)
  deriving DecidableEq

namespace EnvironmentError

/-- The name of what nests. -/
def containerName : Json.Container → String
  | .array => "array"
  | .object => "object"

/-- The sentence of the error. -/
def message : EnvironmentError → String
  | malformed => "error parsing value for field \"codec\" from source \"EnvSettingsSource\""
  | tooDeep c =>
    "maximum recursion depth exceeded while decoding a JSON " ++ containerName c
      ++ " from a unicode string"

end EnvironmentError

/-- The beginning of the names of all variables. -/
def stem : String := "valobj_"

/-- The variable of the codec section, and the beginning of the names of those for its entries. -/
def codecVariable : String := "valobj_codec"

/-- Variables by their names without case; of equal names the last one counts. -/
def folded (env : Environment) : Environment :=
  Fields.ofList (env.map fun e => (LowerCase.text e.1, e.2))

/-- The pieces of a text between separators of two underscores. -/
def pieces : List Char → List (List Char)
  | [] => [[]]
  | '_' :: '_' :: r => [] :: pieces r
  | c :: r =>
    match pieces r with
    | [] => [[c]]
    | p :: ps => (c :: p) :: ps

/-- The names that lead to the entry that a variable sets, if it sets one. -/
def entryNames? (variableName : String) : Option (List String) :=
  let mark := codecVariable.toList ++ ['_', '_']
  if mark.isPrefixOf variableName.toList then
    some ((pieces (variableName.toList.drop mark.length)).map String.ofList)
  else
    none

/-- Sets an entry below nested names.  A text on the way there keeps its place. -/
def setEntry (s : String) : List String → List (Value × Value) → List (Value × Value)
  | [], es => es
  | [k], es => Value.insertEntry (.text k) (.text s) es
  | k :: ks, es =>
    match Value.lookup? (.text k) es with
    | none => Value.insertEntry (.text k) (.mapping .dict (setEntry s ks [])) es
    | some (.mapping _ fs) => Value.insertEntry (.text k) (.mapping .dict (setEntry s ks fs)) es
    | some _ => es

/-- The codec entries that variables set one by one. -/
def entries (env : Environment) : List (Value × Value) :=
  env.foldl
    (fun es e =>
      match entryNames? e.1 with
      | some names => setEntry e.2 names es
      | none => es) []

/-- A name of an entry that differs from a field of the section in case only is that field. -/
def recognized (k : Value) : Value :=
  match k with
  | .text s => if LowerCase.text s = "strict" then .text "strict" else k
  | k => k

/-- A section with its fields recognised; of two entries for one field the last one counts. -/
def recognizeFields (es : List (Value × Value)) : Value :=
  Value.mappingOf .dict (es.map fun e => (recognized e.1, e.2))

/-- The codec section that variables give, if they do. -/
def codec? (env : Environment) : Except EnvironmentError (Option Value) :=
  let single := entries env
  match env.get? codecVariable with
  | none => .ok (if single.isEmpty then none else some (recognizeFields single))
  | some s =>
    match (Json.read s).map Json.toValue with
    | .error .malformed => .error .malformed
    | .error (.tooDeep c) => .error (.tooDeep c)
    | .ok .null => .ok none
    | .ok (.mapping _ es) => .ok (some (recognizeFields (Value.mergeEntries es single)))
    | .ok v => .ok (some v)

/-- The layer of the variables. -/
def ofEnvironment (env : Environment) : Except EnvironmentError (Fields Value) :=
  let env := folded env
  let plain := ["config_path", "verbose", "log_json"].filterMap fun k =>
    (env.get? (stem ++ k)).map fun s => (k, Value.text s)
  (codec? env).map fun codec => plain ++ (codec.map fun v => ("codec", v)).toList

/-- The layer of the values that a caller gives: the settings in their order, then the rest. -/
def ofCaller (given : Fields Value) : Fields Value :=
  (Settings.fieldNames.filterMap fun k => (given.get? k).map fun v => (k, v))
    ++ given.filter fun e => !Settings.fieldNames.contains e.1

/-- The three layers in one; the names of the lower ones come first. -/
def merged (document environment caller : Fields Value) : Fields Value :=
  document.merge (environment.merge caller)

end Nullary.Layer
