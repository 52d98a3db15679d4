import Nullary.Value.Misuse
import Nullary.World

/-!
# Finding the settings file

The settings file is the one that a variable names, or the nearest one of its name in a folder and
the folders above it.  `Discovery.find` looks for it, `Discovery.select` lets a caller name a file.
-/

namespace Nullary.Discovery

/-- The name of a settings file. -/
def fileName : String := "valobj.toml"

/-- The variable that names a settings file. -/
def variableName : String := "VALOBJ_CONFIG"

/-- Why no settings file is looked for any further. -/
inductive Failure
  | unresolved (e : World.ResolveError)
  | unreadable (p : FilePath) (e : PathError)
  | notPath (kind : String)
  /-- The start of the search is no path. -/
  | noStart (m : Misuse)
  deriving DecidableEq

namespace Failure

/-- The sentence of a failure. -/
def message : Failure → String
  | unresolved (.loop p) => "Symlink loop from " ++ Quoted.quote p.toString
  | unresolved .zeroCharacter => PathError.zeroCharacter.cause
  | unreadable p e => e.message p
  | notPath kind =>
    if kind = "bytes" then
      "argument should be a str object or an os.PathLike object returning str, "
        ++ "not <class 'bytes'>"
    else
      "expected str, bytes or os.PathLike object, not " ++ kind
  | noStart m => m.message

end Failure

/-- The path itself if it leads to a file. -/
def ifFile (w : World) (p : FilePath) : Except Failure (Option FilePath) :=
  match w.isFile p with
  | .ok true => .ok (some p)
  | .ok false => .ok none
  | .error e => .error (.unreadable p e)

/-- A location and the ones above it, from the bottom up. -/
def ancestors (l : Location) : List Location :=
  (List.range (l.length + 1)).reverse.map l.take

/-- The first of some folders that holds a settings file decides. -/
def firstIn (w : World) (top : Anchor) : List Location → Except Failure (Option FilePath)
  | [] => .ok none
  | l :: ls =>
    match ifFile w (FilePath.child ⟨top, l⟩ fileName) with
    | .ok none => firstIn w top ls
    | r => r

/-- The file that the variable names, if it is set to some text. -/
def named? (w : World) : Option FilePath :=
  match w.environment.get? variableName with
  | some s => if s = "" then none else some (FilePath.ofString s)
  | none => none

/-- Where a search starts: at a path, or at the working folder if a value counts as absent. -/
def startOf (start : Value) : Except Failure FilePath :=
  if start.truthy then
    match start with
    | .path p => .ok p
    | v => .error (.noStart (v.lacking "resolve"))
  else
    .ok ⟨.here, []⟩

/-- The settings file in the folder of a path or in one above it. -/
def search (w : World) (p : FilePath) : Except Failure (Option FilePath) :=
  match w.resolve p with
  | .ok r => firstIn w r.anchor (ancestors r.parts)
  | .error e => .error (.unresolved e)

/--
The settings file for work in a folder, the working folder if none is given.  A named file that is
missing means that there is none; the folders are not searched then, nor is `start` looked at.
-/
def find (w : World) (start : Value) : Except Failure (Option FilePath) :=
  match named? w with
  | some p => ifFile w p
  | none => (startOf start).bind (search w)

/-- A value as a path. -/
def pathOf : Value → Except Failure FilePath
  | .text s => .ok (FilePath.ofString s)
  | .path p => .ok p
  | v => .error (.notPath v.kindName)

/-- The settings file for a call: the given one if it is there, else the one that is found. -/
def select (w : World) (given start : Value) : Except Failure (Option FilePath) :=
  if given.truthy then
    match pathOf given with
    | .ok p => ifFile w p
    | .error e => .error e
  else
    find w start

end Nullary.Discovery
