import Nullary.Toml.Reader
import Nullary.Text.Utf8
import Nullary.World

/-!
# TOML files

A file is read as UTF-8 text with any of the three line ends, and the text as a TOML document.
-/

namespace Nullary

namespace Toml

/-- Why a file holds no document. -/
inductive FileError
  | unreadable (p : FilePath) (e : PathError)
  | encoding (e : Utf8.Failure)
  | invalid (p : FilePath) (e : Failure)

namespace FileError

/-- The sentence of an error; without a place in the file, its name is not told either. -/
def message : FileError → String
  | unreadable p e => e.message p
  | encoding e => e.message
  | invalid p (.wrong spot cause) =>
    "Invalid TOML in " ++ p.toString ++ ": " ++ (Failure.wrong spot cause).message
  | invalid _ e => e.message

end FileError

/-- The text of a file; every line end is read as a line feed. -/
def textOf (bytes : List UInt8) : Except Utf8.Failure String :=
  (Utf8.decode bytes).map fun cs => String.ofList (Newline.normalize cs)

/-- The document in the bytes of the file at `p`. -/
def ofBytes (p : FilePath) (bytes : List UInt8) : Except FileError Table :=
  match textOf bytes with
  | .error e => .error (.encoding e)
  | .ok s => (parse s).mapError (.invalid p)

end Toml

/-- The document in the file that a path leads to. -/
def World.readToml (w : World) (p : FilePath) : Except Toml.FileError Toml.Table :=
  match w.read p with
  | .error e => .error (.unreadable p e)
  | .ok bytes => Toml.ofBytes p bytes

end Nullary
