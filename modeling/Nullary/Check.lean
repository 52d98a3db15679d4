import Nullary.Text.Utf8
import Nullary.Value.Display
import Nullary.Value.Equality

/-!
# Checking input

A record is built from named values that are checked one by one.  What is wrong with one of them is
an `Issue`: its kind, where it is, and the value found there.  A `Rejection` lists all issues of one
record.  The checks are lenient: `Check.truth` takes the numbers 0 and 1 and a dozen words for truth
values, `Check.text` takes bytes for texts.
-/

namespace Nullary

/-- What is wrong with a value, or with the place where it stands. -/
inductive IssueKind
  | missing
  | extraForbidden
  | frozen
  | boolType
  | boolParsing
  | textType
  | textEncoding
  | mappingType
  | listType
  | recordType (model : String)
  | pathType
  deriving DecidableEq

namespace IssueKind

/-- The identifier of a kind. -/
def code : IssueKind → String
  | missing => "missing"
  | extraForbidden => "extra_forbidden"
  | frozen => "frozen_instance"
  | boolType => "bool_type"
  | boolParsing => "bool_parsing"
  | textType => "string_type"
  | textEncoding => "string_unicode"
  | mappingType => "dict_type"
  | listType => "list_type"
  | recordType _ => "model_type"
  | pathType => "path_type"

/-- The sentence that explains a kind. -/
def message : IssueKind → String
  | missing => "Field required"
  | extraForbidden => "Extra inputs are not permitted"
  | frozen => "Instance is frozen"
  | boolType => "Input should be a valid boolean"
  | boolParsing => "Input should be a valid boolean, unable to interpret input"
  | textType => "Input should be a valid string"
  | textEncoding => "Input should be a valid string, unable to parse raw data as a unicode string"
  | mappingType => "Input should be a valid dictionary"
  | listType => "Input should be a valid list"
  | recordType model => "Input should be a valid dictionary or instance of " ++ model
  | pathType => "Input is not a valid path for <class 'pathlib.Path'>"

end IssueKind

/-- A step on the way to a part of the input. -/
inductive Place
  | name (s : String)
  | index (n : Int)
  deriving DecidableEq

/-- A value that a record is not built from, and the way to it. -/
structure Issue where
  kind : IssueKind
  place : List Place
  input : Value

/-- Why a record of the named model was not built. -/
structure Rejection where
  model : String
  issues : List Issue

namespace Rejection

/-- The headline of a rejection. -/
def message (r : Rejection) : String :=
  let n := r.issues.length
  toString n ++ (if n = 1 then " validation error for " else " validation errors for ") ++ r.model

/-- A record cannot be changed once it is built. -/
def frozen (model name : String) (input : Value) : Rejection :=
  ⟨model, [⟨.frozen, [.name name], input⟩]⟩

end Rejection

namespace Check

/-- Words for what is false; case does not matter. -/
def falseWords : List String := ["0", "off", "f", "false", "n", "no"]

/-- Words for what is true; case does not matter. -/
def trueWords : List String := ["1", "on", "t", "true", "y", "yes"]

/-- The truth value a word stands for. -/
def word? (s : String) : Option Bool :=
  let w := String.ofList (s.toList.map Char.toLower)
  if falseWords.contains w then some false
  else if trueWords.contains w then some true
  else none

/-- The truth value of zero or one. -/
def bit? (n : Int) : Option Bool :=
  if n = 0 then some false else if n = 1 then some true else none

/-- A result that may be missing; without one the value has an issue. -/
def ofOption {α : Type} (k : IssueKind) : Option α → Except IssueKind α
  | some a => .ok a
  | none => .error k

/-- The first power of two that does not fit sixty-four bits with sign. -/
def wordEnd : Int := 0x8000000000000000

/-- Whether an integer fits sixty-four bits with sign. -/
def isWord (n : Int) : Bool :=
  -wordEnd ≤ n && n < wordEnd

/-- A value as a truth value. -/
def truth : Value → Except IssueKind Bool
  | .bool b => .ok b
  | .text s => ofOption .boolParsing (word? s)
  | .bytes bs =>
    match Utf8.decode bs with
    | .ok cs => ofOption .boolParsing (word? (String.ofList cs))
    | .error _ => .error .boolParsing
  | .int n => if isWord n then ofOption .boolParsing (bit? n) else .error .boolType
  | .float x =>
    match x.toInt? with
    | some n =>
      if -wordEnd < n ∧ n < wordEnd then ofOption .boolParsing (bit? n) else .error .boolType
    | none => .error .boolType
  | _ => .error .boolType

/-- A value as a text. -/
def text : Value → Except IssueKind String
  | .text s => .ok s
  | .bytes bs =>
    match Utf8.decode bs with
    | .ok cs => .ok (String.ofList cs)
    | .error _ => .error .textEncoding
  | _ => .error .textType

/-- A value as a path, or none for null. -/
def path? : Value → Except IssueKind (Option FilePath)
  | .null => .ok none
  | .path p => .ok (some p)
  | .text s => .ok (some (FilePath.ofString s))
  | _ => .error .pathType

/-- The literal of a value, or a remark that it has none. -/
def shown (v : Value) : String :=
  match v.literal with
  | .ok s => s
  | .error _ => "<unprintable " ++ v.kindName ++ " object>"

/--
The step to the entry of a key.  Texts stand for themselves, and so do truth values and integers of
sixty-four bits as numbers; every other key is shown as it stands inside other values.
-/
def keyPlace : Value → Place
  | .text s => .name s
  | .bool b => .index (if b then 1 else 0)
  | .int n => if isWord n then .index n else .name (shown (.int n))
  | k => .name (shown k)

/-- Results of a check: a value, or issues. -/
abbrev Checked (α : Type) := Except (List Issue) α

/-- Runs a check on the value found at a place. -/
def atPlace {α : Type} (p : List Place) (check : Value → Except IssueKind α) (v : Value) :
    Checked α :=
  match check v with
  | .ok a => .ok a
  | .error k => .error [⟨k, p, v⟩]

/-- Both results, or the issues of both. -/
def both {α β : Type} : Checked α → Checked β → Checked (α × β)
  | .ok a, .ok b => .ok (a, b)
  | .ok _, .error e => .error e
  | .error e, .ok _ => .error e
  | .error e, .error e' => .error (e ++ e')

/-- The keys of a mapping checked as texts; of keys that become equal the last value counts. -/
def entryFields (p : List Place) : List (Value × Value) → Checked (Fields Value)
  | [] => .ok []
  | (k, v) :: es =>
    match both (atPlace (p ++ [keyPlace k, .name "[key]"]) text k) (entryFields p es) with
    | .ok (k, f) => .ok ((k, v) :: f)
    | .error e => .error e

/-- A value as a record of any values. -/
def fields (p : List Place) (v : Value) : Checked (Fields Value) :=
  match v.entries? with
  | some es => (entryFields p es).map Fields.ofList
  | none => .error [⟨.mappingType, p, v⟩]

/-- Elements checked as texts, the first of them at index `i`. -/
def textElements (p : List Place) : (i : Nat) → List Value → Checked (List String)
  | _, [] => .ok []
  | i, x :: xs =>
    match both (atPlace (p ++ [.index i]) text x) (textElements p (i + 1) xs) with
    | .ok (s, ss) => .ok (s :: ss)
    | .error e => .error e

/-- A value that has elements as a list of texts. -/
def texts (p : List Place) (v : Value) : Checked (List String) :=
  match v.elements? with
  | some xs => textElements p 0 xs
  | none => .error [⟨.listType, p, v⟩]

/-- A field that has to be there. -/
def required {α : Type} (p : List Place) (whole : Value) (given : Fields Value) (name : String)
    (check : List Place → Value → Checked α) : Checked α :=
  match given.get? name with
  | some v => check (p ++ [.name name]) v
  | none => .error [⟨.missing, p ++ [.name name], whole⟩]

/-- A field with a default. -/
def optional {α : Type} (p : List Place) (given : Fields Value) (name : String) (default : α)
    (check : List Place → Value → Checked α) : Checked α :=
  match given.get? name with
  | some v => check (p ++ [.name name]) v
  | none => .ok default

end Check

end Nullary
