import Nullary.Fields
import Nullary.FileTree

/-!
# What a program finds around it

A `World` is a tree of files, the folder in which the program works, and an environment of
variables.  Paths are looked up from the working folder.  Files and folders have no permissions.
-/

namespace Nullary

/-- Variables in the order in which they were first set. -/
abbrev Environment := Fields String

/-- Files, a folder to work in, and variables. -/
structure World where
  tree : FileTree
  here : Location
  environment : Environment

namespace World

/-- The place where a path starts. -/
def start (w : World) (p : FilePath) : Location :=
  if p.isAbsolute then [] else w.here

/-- The path from the top that a path comes to, where links stand for what they lead to. -/
def settle (w : World) (p : FilePath) : FilePath :=
  w.tree.settle w.here p

/-- What a path leads to. -/
def find (w : World) (p : FilePath) : Except PathError Node :=
  if p.hasNul then .error .zeroCharacter
  else if FileTree.pathLimit < p.toString.utf8ByteSize then .error .nameTooLong
  else (w.tree.walk FileTree.linkLimit (w.start p) p.parts).map Prod.snd

/--
Whether a path leads to a file.  Of the reasons why it may lead nowhere only a name that is too long
for any file is an error.  A folder that may not be searched would be another one, but a `World` has
no permissions: everything in it may be read.
-/
def isFile (w : World) (p : FilePath) : Except PathError Bool :=
  match w.find p with
  | .ok (.file _) => .ok true
  | .error .nameTooLong => .error .nameTooLong
  | _ => .ok false

/-- The bytes of the file that a path leads to. -/
def read (w : World) (p : FilePath) : Except PathError (List UInt8) :=
  match w.find p with
  | .ok (.file bytes) => .ok bytes
  | .ok _ => .error .isFolder
  | .error e => .error e

/-- Why a path has no absolute form. -/
inductive ResolveError
  | loop (p : FilePath)
  | zeroCharacter
  deriving DecidableEq

/--
The absolute form of a path: links and double dots are replaced by what they stand for, and names
that lead nowhere stay.
-/
def resolve (w : World) (p : FilePath) : Except ResolveError FilePath :=
  if p.hasNul then
    .error .zeroCharacter
  else
    let r := w.settle p
    match w.find r with
    | .error .linkLoop => .error (.loop r)
    | _ => .ok r

/-- Writes a file where a path leads, and makes the folders on the way. -/
def write (w : World) (p : FilePath) (bytes : List UInt8) : World :=
  { w with tree := w.tree.place (w.settle p).parts (.file bytes) }

/-- Removes what a path names, a link rather than what it leads to. -/
def remove (w : World) (p : FilePath) : World :=
  match p.parts.getLast? with
  | some name =>
    let folder := w.settle { p with parts := p.parts.dropLast }
    { w with tree := w.tree.remove (folder.parts ++ [name]) }
  | none => w

/-- Why a variable cannot be set. -/
inductive VariableError
  | zeroCharacter
  | badName
  | noName
  deriving DecidableEq

namespace VariableError

/-- The sentence of an error. -/
def message : VariableError → String
  | zeroCharacter => PathError.zeroCharacter.cause
  | badName => "illegal environment variable name"
  | noName => "[Errno 22] Invalid argument"

/-- What keeps a variable from being set, if anything does. -/
def of? (name value : String) : Option VariableError :=
  if name.toList.contains '\x00' || value.toList.contains '\x00' then some .zeroCharacter
  else if name.toList.contains '=' then some .badName
  else if name = "" then some .noName
  else none

end VariableError

/-- Sets variables in order, up to the first that cannot be set. -/
def setAll (w : World) : List (String × String) → World × Option VariableError
  | [] => (w, none)
  | (name, value) :: es =>
    match VariableError.of? name value with
    | some e => (w, some e)
    | none => setAll { w with environment := w.environment.insert name value } es

/-- Sets variables in order, then unsets some. -/
def setVariables (w : World) (set : List (String × String)) (unset : List String) :
    World × Option VariableError :=
  match w.setAll set with
  | (w, none) =>
    ({ w with environment := unset.foldl (fun vs name => vs.erase name) w.environment }, none)
  | r => r

end World

end Nullary
