import Nullary.Settings.Layer

/-!
# Options among the values of a caller

Who makes settings can give options beside the settings, under names of their own.  An option says
how sources are read, and is no setting itself.  An option that is null counts as not given.

Of the options only the beginning of the names of variables is described here; the others (files of
variables, the case of letters, the marks between names, the command line) are passed over, whatever
they are.
-/

namespace Nullary.Settings

/-- The names of the options. -/
def optionNames : List String :=
  ["_case_sensitive", "_nested_model_default_partial_update", "_env_prefix", "_env_prefix_target",
    "_env_file", "_env_file_encoding", "_env_ignore_empty", "_env_nested_delimiter",
    "_env_nested_max_split", "_env_parse_none_str", "_env_parse_enums", "_cli_prog_name",
    "_cli_parse_args", "_cli_settings_source", "_cli_parse_none_str", "_cli_hide_none_type",
    "_cli_avoid_json", "_cli_enforce_required", "_cli_use_class_docs_for_groups",
    "_cli_exit_on_error", "_cli_prefix", "_cli_flag_prefix_char", "_cli_implicit_flags",
    "_cli_ignore_unknown_args", "_cli_kebab_case", "_cli_shortcuts", "_secrets_dir",
    "_build_sources"]

/-- The values of a caller that are no options. -/
def withoutOptions (given : Fields Value) : Fields Value :=
  given.filter fun e => !optionNames.contains e.1

/-- The beginning of the names of variables that a caller asks for. -/
def beginning? (given : Fields Value) : Option String :=
  match given.get? "_env_prefix" with
  | some (.text s) => some s
  | _ => none

/--
The usual name of a variable that is read under another one: its own beginning gives way to the
usual one.  Without regard to case, as all names of variables.
-/
def usualName? (beginning name : String) : Option String :=
  let folded := (LowerCase.text name).toList
  let mark := (LowerCase.text (beginning ++ "codec")).toList ++ ['_', '_']
  if mark.isPrefixOf folded then
    some (Layer.codecVariable ++ "__" ++ String.ofList (folded.drop mark.length))
  else
    (fieldNames.find? fun k => (LowerCase.text (beginning ++ k)).toList == folded).map
      (Layer.stem ++ ·)

/-- The variables that a call reads, under their usual names. -/
def environmentFor (env : Environment) (given : Fields Value) : Environment :=
  match beginning? given with
  | none => env
  | some b => env.filterMap fun e => (usualName? b e.1).map fun name => (name, e.2)

end Nullary.Settings
