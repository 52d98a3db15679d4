import Nullary.Settings.Discovery
import Nullary.Toml.File

/-!
# Files that are there

A path that reads as some bytes leads to a file (`World.read_eq_ok_iff`), so that whatever asks
for a file at a path before reading it takes this one.  The shortest such path is that of a
settings file at the top (`World.read_topFile`).
-/

namespace Nullary

namespace World

variable {w : World} {p : FilePath} {bytes : List UInt8}

theorem read_eq_ok_iff : w.read p = .ok bytes ↔ w.find p = .ok (.file bytes) := by
  unfold read
  constructor
  · intro h
    split at h
    · next bs hf =>
      rw [hf, Except.ok.inj h]
    · cases h
    · cases h
  · intro h
    rw [h]

theorem isFile_of_read (h : w.read p = .ok bytes) : w.isFile p = .ok true := by
  rw [read_eq_ok_iff] at h
  simp [isFile, h]

theorem readToml_of_read (h : w.read p = .ok bytes) : w.readToml p = Toml.ofBytes p bytes := by
  simp [readToml, h]

/-- A path that holds a document leads to a file. -/
theorem isFile_of_readToml {d : Toml.Table} (h : w.readToml p = .ok d) : w.isFile p = .ok true := by
  unfold readToml at h
  split at h
  · cases h
  next bytes hr => exact isFile_of_read hr

/-! ### Looking paths up -/

/-- A path without zero characters that is not too long is looked up name by name. -/
theorem find_eq_walk (hnul : p.hasNul = false)
    (hshort : p.toString.utf8ByteSize ≤ FileTree.pathLimit) :
    w.find p = (w.tree.walk FileTree.linkLimit (w.start p) p.parts).map Prod.snd := by
  rw [find, hnul, if_neg Bool.false_ne_true, if_neg (Nat.not_lt.mpr hshort)]

/-- A path that does not run in a circle is resolved to where it settles. -/
theorem resolve_of_find (hnul : p.hasNul = false) (hloop : w.find (w.settle p) ≠ .error .linkLoop) :
    w.resolve p = .ok (w.settle p) := by
  rw [resolve, hnul, if_neg Bool.false_ne_true]
  dsimp only
  split
  · next h => exact absurd h hloop
  · rfl

/-- At the top the working folder is the top. -/
theorem resolve_here (t : FileTree) (env : Environment) :
    resolve ⟨t, [], env⟩ ⟨.here, []⟩ = .ok ⟨.root, []⟩ := by
  have hsettle : settle ⟨t, [], env⟩ ⟨.here, []⟩ = ⟨.root, []⟩ := by
    simp [settle, FileTree.settle, FileTree.expand, FilePath.isAbsolute, FileTree.Way.start,
      FileTree.Way.location]
  have htop : find ⟨t, [], env⟩ ⟨.root, []⟩ = .ok .folder := by
    have hnode : t.node? [] = some .folder := if_pos rfl
    have hwalk : t.walk FileTree.linkLimit [] [] = .ok ([], .folder) := by
      simp [FileTree.walk, hnode]
    rw [find_eq_walk (by decide) (by decide)]
    exact congrArg (Except.map Prod.snd) hwalk
  rw [resolve_of_find (by decide) (by simp [hsettle, htop]), hsettle]

/-! ### A settings file at the top -/

/-- The path of a settings file at the top. -/
def topFile : FilePath := ⟨.root, [Discovery.fileName]⟩

theorem find_topFile : w.find topFile =
    (w.tree.walk FileTree.linkLimit [] [Discovery.fileName]).map Prod.snd :=
  find_eq_walk (by decide) (by decide)

theorem walk_topFile : w.tree.walk FileTree.linkLimit [] [Discovery.fileName] =
    match w.tree.node? [Discovery.fileName] with
    | none => .error .notFound
    | some (.link target) => w.tree.walk (FileTree.linkLimit - 1) [] (FileTree.linkNames target)
    | some n => .ok ([Discovery.fileName], n) := by
  have hlong : FileTree.isLong Discovery.fileName = false := by decide
  have hdot : Discovery.fileName ≠ "." ∧ Discovery.fileName ≠ ".." := by decide
  have htop : w.tree.node? [] = some .folder := if_pos rfl
  cases h : w.tree.node? [Discovery.fileName] with
  | none => simp [FileTree.walk, htop, hdot, hlong, h]
  | some n =>
    cases n with
    | link target =>
      simp [FileTree.walk, htop, hdot, hlong, h, FileTree.linkLimit]
    | _ => simp [FileTree.walk, htop, hdot, hlong, h]

theorem read_topFile (h : w.tree.node? [Discovery.fileName] = some (.file bytes)) :
    w.read topFile = .ok bytes := by
  rw [read_eq_ok_iff, find_topFile, walk_topFile, h]
  rfl

theorem isFile_topFile_of_none (h : w.tree.node? [Discovery.fileName] = none) :
    w.isFile topFile = .ok false := by
  rw [isFile, find_topFile, walk_topFile, h]
  rfl

/-- A world without files and variables. -/
def empty : World := ⟨[], [], []⟩

/-- A settings file of the given text at the top, and variables. -/
def withFile (text : String) (env : Environment) : World :=
  ⟨[([Discovery.fileName], .file text.toUTF8.toList)], [], env⟩

theorem read_withFile (text : String) (env : Environment) :
    (withFile text env).read topFile = .ok text.toUTF8.toList :=
  read_topFile rfl

theorem readToml_withFile {text : String} {env : Environment} {d : Toml.Table}
    (h : Toml.ofBytes topFile text.toUTF8.toList = .ok d) :
    (withFile text env).readToml topFile = .ok d := by
  rw [readToml_of_read (read_withFile text env), h]

end World

end Nullary
