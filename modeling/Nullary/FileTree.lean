import Nullary.FilePath
import Nullary.Text.Quoted

/-!
# Trees of files

A tree holds folders, files and links at locations, which are lists of names from the top down.
`FileTree.walk` follows names and links to a node, or says why there is none.  `FileTree.expand`
replaces links by what they stand for as far as it can, also on a way that leads nowhere.
-/

namespace Nullary

/-- The names that lead from the top of a tree to a place in it. -/
abbrev Location := List String

/-- What stands at a location. -/
inductive Node
  | folder
  | file (bytes : List UInt8)
  | link (target : String)
  deriving DecidableEq

/-- The nodes of a tree by location; the top itself is always a folder. -/
abbrev FileTree := List (Location × Node)

/-- Why a path leads to no file. -/
inductive PathError
  | notFound
  | notFolder
  | isFolder
  | nameTooLong
  | linkLoop
  | zeroCharacter
  deriving DecidableEq

namespace PathError

/-- The sentence of an error, with its number where the system gives it one. -/
def cause : PathError → String
  | notFound => "[Errno 2] No such file or directory"
  | notFolder => "[Errno 20] Not a directory"
  | isFolder => "[Errno 21] Is a directory"
  | nameTooLong => "[Errno 36] File name too long"
  | linkLoop => "[Errno 40] Too many levels of symbolic links"
  | zeroCharacter => "embedded null byte"

/-- The sentence of an error and the path it is about. -/
def message (e : PathError) (p : FilePath) : String :=
  match e with
  | zeroCharacter => zeroCharacter.cause
  | e => e.cause ++ ": " ++ Quoted.quote p.toString

end PathError

namespace FileTree

/-- The most bytes that a name may have. -/
def nameLimit : Nat := 255

/-- The most bytes that the text of a path may have. -/
def pathLimit : Nat := 4095

/-- The most links that are followed on one way. -/
def linkLimit : Nat := 40

/-- The node at a location. -/
def node? (t : FileTree) (l : Location) : Option Node :=
  if l = [] then some .folder else (t.find? fun e => e.1 == l).map Prod.snd

/-- Puts a node at a location, in place of the one that is there. -/
def put (l : Location) (n : Node) (t : FileTree) : FileTree :=
  if (t.node? l).isSome then t.map fun e => if e.1 = l then (l, n) else e else t ++ [(l, n)]

/-- Makes the folders that lead to a location and the one at it, where nothing is there. -/
def makeFolders (l : Location) (t : FileTree) : FileTree :=
  (List.range l.length).foldl
    (fun t i =>
      let p := l.take (i + 1)
      if (t.node? p).isSome then t else t.put p .folder) t

/-- Puts a node at a location and makes the folders that lead to it. -/
def place (l : Location) (n : Node) (t : FileTree) : FileTree :=
  (makeFolders l.dropLast t).put l n

/-- Removes what is at a location and below it. -/
def remove (l : Location) (t : FileTree) : FileTree :=
  t.filter fun e => !l.isPrefixOf e.1

/-- The pieces of the text of a link between its slashes. -/
def linkPieces (target : String) : List String :=
  (FilePath.splitChars '/' target.toList).map String.ofList

/-- The names of the text of a link; a slash at its end asks for a folder, as a dot does. -/
def linkNames (target : String) : List String :=
  let pieces := linkPieces target
  let names := pieces.filter (· != "")
  if pieces.getLast? = some "" then names ++ ["."] else names

/-- Whether the names of a link lead down from the top rather than from the folder of the link. -/
def isFromTop (target : String) : Bool :=
  target.toList.head? = some '/'

/-- Whether a name is longer than any file's. -/
def isLong (name : String) : Bool :=
  nameLimit < name.utf8ByteSize

/-- Follows names and links, of which at most `links` are left to follow. -/
def walk (t : FileTree) (links : Nat) (dir : Location) (names : List String) :
    Except PathError (Location × Node) :=
  match t.node? dir, names with
  | none, _ => .error .notFound
  | some n, [] => .ok (dir, n)
  | some .folder, name :: rest =>
    if name = "." then walk t links dir rest
    else if name = ".." then walk t links dir.dropLast rest
    else if isLong name then .error .nameTooLong
    else
      match t.node? (dir ++ [name]) with
      | none => .error .notFound
      | some (.link target) =>
        match links with
        | 0 => .error .linkLoop
        | links + 1 =>
          walk t links (if isFromTop target then [] else dir) (linkNames target ++ rest)
      | some _ => walk t links (dir ++ [name]) rest
  | some _, _ :: _ => .error .notFolder
  termination_by (links, names.length)

/--
A way as it is spelled: down from the top, or some folders up from a working folder and then down.
One place can be spelled in several ways.
-/
structure Way where
  fromTop : Bool
  ups : Nat
  names : List String
  deriving DecidableEq

namespace Way

/-- The beginning of a way. -/
def start (fromTop : Bool) : Way := ⟨fromTop, 0, []⟩

/-- The place that a way leads to from a working folder. -/
def location (here : Location) (w : Way) : Location :=
  if w.fromTop then w.names else here.take (here.length - w.ups) ++ w.names

/-- One folder up; there is none above the top. -/
def up (here : Location) (w : Way) : Way :=
  if w.names ≠ [] then { w with names := w.names.dropLast }
  else if w.fromTop then w
  else { w with ups := min (w.ups + 1) here.length }

/-- One name further. -/
def down (name : String) (w : Way) : Way :=
  { w with names := w.names ++ [name] }

/-- The path of a way, with a double dot for every folder up. -/
def path (w : Way) : FilePath :=
  if w.fromTop then ⟨.root, w.names⟩ else ⟨.here, List.replicate w.ups ".." ++ w.names⟩

/-- All spellings of a place. -/
def spellings (here l : Location) : List Way :=
  ⟨true, 0, l⟩ :: (List.range (here.length + 1)).filterMap fun u =>
    let base := here.take (here.length - u)
    if base.isPrefixOf l then some ⟨false, u, l.drop base.length⟩ else none

end Way

/--
A way that was expanded to its end, or the path on which it came back to a link it had begun with,
with all that was left of it.
-/
inductive Expansion
  | done (w : Way)
  | circular (p : FilePath)
  deriving DecidableEq

theorem length_erase_lt {α : Type} [BEq α] [LawfulBEq α] {a : α} {l : List α} (h : a ∈ l) :
    (l.erase a).length < l.length := by
  have := List.length_pos_of_mem h
  rw [List.length_erase_of_mem h]
  omega

/--
Replaces links by what they stand for.  The way goes on with pieces of a text between slashes, of
which some may be empty; names that lead nowhere stay as they are.  None of the spellings in `fresh`
of links has been begun yet; a link that is met again, spelled as before, on the way that it stands
for ends the expansion.  What is left is a text then, so that an empty piece at its beginning leads
to the top.
-/
def expand (t : FileTree) (here : Location) (fresh : List Way) (w : Way) (pieces : List String) :
    Expansion :=
  match pieces with
  | [] => .done w
  | name :: rest =>
    if name = "" ∨ name = "." then expand t here fresh w rest
    else if name = ".." then expand t here fresh (w.up here) rest
    else
      let v := w.down name
      match t.node? (v.location here) with
      | some (.link target) =>
        if h : v ∈ fresh then
          have : (fresh.erase v).length < fresh.length := length_erase_lt h
          let base := if isFromTop target then Way.start true else w
          match expand t here (fresh.erase v) base (linkPieces target) with
          | .done w' => expand t here fresh w' rest
          | .circular p => .circular (p.join ("/".intercalate rest))
        else
          .circular (v.path.join ("/".intercalate rest))
      | _ => expand t here fresh v rest
  termination_by (fresh.length, pieces.length)

/-- The spellings of all links of a tree. -/
def linkSpellings (t : FileTree) (here : Location) : List Way :=
  t.flatMap fun e =>
    match e.2 with
    | .link _ => Way.spellings here e.1
    | _ => []

/-- Drops single dots, and double dots together with the name before them. -/
def normalize (names : List String) : Location :=
  names.foldl
    (fun l name => if name = "." then l else if name = ".." then l.dropLast else l ++ [name]) []

/-- The path from the top that a path comes to, where links stand for what they lead to. -/
def settle (t : FileTree) (here : Location) (p : FilePath) : FilePath :=
  match expand t here (t.linkSpellings here) (Way.start p.isAbsolute) p.parts with
  | .done w => ⟨.root, w.location here⟩
  | .circular q =>
    if q.isAbsolute then { q with parts := normalize q.parts }
    else ⟨.root, normalize (here ++ q.parts)⟩

end FileTree

end Nullary
