/-!
# Paths

A path is where it starts and the names on the way.  Empty names and single dots are dropped when a
path is read; double dots are kept, since what they lead to depends on links.
-/

namespace Nullary

/-- Where a path starts: at the working directory, at the root, or at the doubled root. -/
inductive Anchor
  | here
  | root
  | doubled
  deriving DecidableEq

/-- Where a path starts, and the names that follow. -/
structure FilePath where
  anchor : Anchor
  parts : List String
  deriving DecidableEq

namespace FilePath

/-- Splits a text at the character `sep`. -/
def splitChars (sep : Char) : List Char → List (List Char)
  | [] => [[]]
  | c :: r =>
    if c = sep then
      [] :: splitChars sep r
    else
      match splitChars sep r with
      | [] => [[c]]
      | p :: ps => (c :: p) :: ps

/-- Three and more slashes at the start count as one, exactly two are an anchor of their own. -/
def anchorOf : List Char → Anchor
  | '/' :: '/' :: '/' :: _ => .root
  | '/' :: '/' :: _ => .doubled
  | '/' :: _ => .root
  | _ => .here

/-- The path of a text. -/
def ofString (s : String) : FilePath :=
  let names := (splitChars '/' s.toList).map String.ofList
  ⟨anchorOf s.toList, names.filter fun n => n != "" && n != "."⟩

/-- The text of a start. -/
def anchorText : Anchor → String
  | .here => ""
  | .root => "/"
  | .doubled => "//"

/-- The text of a path; the empty relative path is a dot. -/
def toString (p : FilePath) : String :=
  if p.anchor = .here ∧ p.parts = [] then "."
  else anchorText p.anchor ++ "/".intercalate p.parts

/-- The path of a name below `p`. -/
def child (p : FilePath) (name : String) : FilePath :=
  { p with parts := p.parts ++ [name] }

/-- The path that a text leads to from `p`; a text that starts at the top does so from anywhere. -/
def join (p : FilePath) (s : String) : FilePath :=
  let q := ofString s
  if q.anchor = .here then { p with parts := p.parts ++ q.parts } else q

/-- The last name of a path; a path without names has none. -/
def name (p : FilePath) : String :=
  p.parts.getLast?.getD ""

/-- Whether a path starts at the top, whatever folder one is in. -/
def isAbsolute (p : FilePath) : Bool :=
  p.anchor != .here

/-- No file has a name with a zero character in it. -/
def hasNul (p : FilePath) : Bool :=
  p.parts.any fun n => n.toList.contains '\x00'

end FilePath

end Nullary
