import Mathlib.Data.List.Induction
import Nullary.Proofs.World

/-!
# The nearest settings file

A search looks for a settings file in the folder where it starts, and then in the parent of that
folder, until it comes to a folder that is its own parent (`Discovery.Climbs`).  It comes to an end
from everywhere, with one answer (`Discovery.climbs_iff`), which is the file in the lowest of these
folders that holds one (`Discovery.firstIn_ancestors_iff`).  A name that is longer than that of any
file is an error where it is met, and not a missing file.
Main statement: `Discovery.find_nearest`.
-/

namespace Nullary

namespace FilePath

/-- The path of the folder that a path stands in; the top stands in itself. -/
def parent (p : FilePath) : FilePath :=
  { p with parts := p.parts.dropLast }

theorem parent_top (top : Anchor) : parent ⟨top, []⟩ = ⟨top, []⟩ := rfl

theorem parent_concat (top : Anchor) (l : Location) (name : String) :
    parent ⟨top, l ++ [name]⟩ = ⟨top, l⟩ := by
  simp [parent]

theorem parent_concat_ne (top : Anchor) (l : Location) (name : String) :
    parent ⟨top, l ++ [name]⟩ ≠ ⟨top, l ++ [name]⟩ := by
  rw [parent_concat]
  intro h
  have hlength := congrArg (fun p : FilePath => p.parts.length) h
  simp at hlength

theorem splitChars_of_not_mem {sep : Char} {cs : List Char} (h : sep ∉ cs) :
    splitChars sep cs = [cs] := by
  induction cs with
  | nil => rfl
  | cons c cs ih =>
    obtain ⟨hc, hcs⟩ := not_or.mp (mt List.mem_cons.mpr h)
    rw [splitChars, if_neg (Ne.symm hc), ih hcs]

end FilePath

namespace Discovery

variable {w : World} {p q r : FilePath} {top : Anchor} {l : Location}
  {a b : Except Failure (Option FilePath)}

/-! ### Looking a path up -/

/--
What comes of looking a path up, links followed: it leads to a file, it leads to none, or there is
a name on the way that is longer than that of any file.
-/
inductive LookUp (w : World) (p : FilePath) : Except Failure (Option FilePath) → Prop
  | file {bytes : List UInt8} (h : w.find p = .ok (.file bytes)) : LookUp w p (.ok (some p))
  | missing (hfile : ∀ bytes, w.find p ≠ .ok (.file bytes))
      (hlong : w.find p ≠ .error .nameTooLong) : LookUp w p (.ok none)
  | long (h : w.find p = .error .nameTooLong) : LookUp w p (.error (.unreadable p .nameTooLong))

theorem lookUp_ifFile (w : World) (p : FilePath) : LookUp w p (ifFile w p) := by
  unfold ifFile World.isFile
  cases h : w.find p with
  | ok n =>
    cases n with
    | file bytes => exact .file h
    | _ => exact .missing (by simp [h]) (by simp [h])
  | error e =>
    cases e with
    | nameTooLong => exact .long h
    | _ => exact .missing (by simp [h]) (by simp [h])

theorem LookUp.eq (ha : LookUp w p a) (hb : LookUp w p b) : a = b := by
  cases ha with
  | file h =>
    cases hb with
    | file _ => rfl
    | missing hfile _ => exact absurd h (hfile _)
    | long h' => cases h.symm.trans h'
  | missing hfile hlong =>
    cases hb with
    | file h => exact absurd h (hfile _)
    | missing _ _ => rfl
    | long h => exact absurd h hlong
  | long h =>
    cases hb with
    | file h' => cases h.symm.trans h'
    | missing _ hlong => exact absurd h hlong
    | long _ => rfl

theorem ifFile_eq_iff : ifFile w p = a ↔ LookUp w p a :=
  ⟨fun h => h ▸ lookUp_ifFile w p, fun h => (lookUp_ifFile w p).eq h⟩

theorem lookUp_some_iff : LookUp w p (.ok (some q)) ↔
    q = p ∧ ∃ bytes, w.find q = .ok (.file bytes) := by
  constructor
  · intro h
    cases h with
    | file h => exact ⟨rfl, _, h⟩
  · rintro ⟨rfl, bytes, h⟩
    exact .file h

theorem lookUp_error_iff {e : Failure} : LookUp w p (.error e) ↔
    e = .unreadable p .nameTooLong ∧ w.find p = .error .nameTooLong := by
  constructor
  · intro h
    cases h with
    | long h => exact ⟨rfl, h⟩
  · rintro ⟨rfl, h⟩
    exact .long h

/-! ### One folder after another -/

/--
What a search from a folder upwards comes to.  It goes on with the parent as long as it finds no
file, and stops at the folder that is its own parent.
-/
inductive Climbs (w : World) : FilePath → Except Failure (Option FilePath) → Prop
  | ends {p : FilePath} {a : Except Failure (Option FilePath)}
      (h : LookUp w (p.child fileName) a) (ha : a ≠ .ok none) : Climbs w p a
  | atTop {p : FilePath} (h : LookUp w (p.child fileName) (.ok none)) (hp : p.parent = p) :
      Climbs w p (.ok none)
  | goesOn {p : FilePath} {a : Except Failure (Option FilePath)}
      (h : LookUp w (p.child fileName) (.ok none)) (hp : p.parent ≠ p) (hup : Climbs w p.parent a) :
      Climbs w p a

theorem Climbs.eq (ha : Climbs w p a) (hb : Climbs w p b) : a = b := by
  induction ha with
  | ends h hne =>
    cases hb with
    | ends h' _ => exact h.eq h'
    | atTop h' _ => exact h.eq h'
    | goesOn h' _ _ => exact absurd (h.eq h') hne
  | atTop h hp =>
    cases hb with
    | ends h' hne => exact absurd (h'.eq h) hne
    | atTop _ _ => rfl
    | goesOn _ hp' _ => exact absurd hp hp'
  | goesOn h hp _ ih =>
    cases hb with
    | ends h' hne => exact absurd (h'.eq h) hne
    | atTop _ hp' => exact absurd hp' hp
    | goesOn _ _ hup' => exact ih hup'

theorem ancestors_nil : ancestors [] = [[]] := rfl

theorem ancestors_concat (l : Location) (name : String) :
    ancestors (l ++ [name]) = (l ++ [name]) :: ancestors l := by
  have hrange : List.range ((l ++ [name]).length + 1) =
      List.range (l.length + 1) ++ [l.length + 1] := by
    rw [List.length_append, List.length_singleton, List.range_succ]
  rw [ancestors, hrange, List.reverse_append, List.reverse_singleton, List.singleton_append,
    List.map_cons, ancestors]
  refine congrArg₂ _ (List.take_of_length_le (by simp)) (List.map_congr_left ?_)
  intro i hi
  have hle : i ≤ l.length := by
    rw [List.mem_reverse, List.mem_range] at hi
    omega
  exact List.take_append_of_le_length hle

theorem firstIn_cons (w : World) (top : Anchor) (l : Location) (ls : List Location) :
    firstIn w top (l :: ls) =
      if ifFile w (FilePath.child ⟨top, l⟩ fileName) = .ok none then firstIn w top ls
      else ifFile w (FilePath.child ⟨top, l⟩ fileName) := by
  rw [firstIn]
  split
  · next h => rw [if_pos h]
  · next h => rw [if_neg h]

/-- The search comes to an end from every folder. -/
theorem climbs_firstIn (w : World) (top : Anchor) (l : Location) :
    Climbs w ⟨top, l⟩ (firstIn w top (ancestors l)) := by
  induction l using List.reverseRecOn with
  | nil =>
    rw [ancestors_nil, firstIn_cons]
    split
    · next h => exact .atTop (ifFile_eq_iff.mp h) (FilePath.parent_top top)
    · next h => exact .ends (lookUp_ifFile _ _) h
  | append_singleton l name ih =>
    rw [ancestors_concat, firstIn_cons]
    split
    · next h =>
      refine .goesOn (ifFile_eq_iff.mp h) (FilePath.parent_concat_ne top l name) ?_
      rw [FilePath.parent_concat]
      exact ih
    · next h => exact .ends (lookUp_ifFile _ _) h

theorem climbs_iff : Climbs w p a ↔ firstIn w p.anchor (ancestors p.parts) = a :=
  ⟨fun h => (climbs_firstIn w p.anchor p.parts).eq h, fun h => h ▸ climbs_firstIn w _ _⟩

/-! ### The lowest folder with a file -/

/-- No folder on the way from `l` down to `bottom` holds a settings file, `l` itself apart. -/
def NoneBelow (w : World) (top : Anchor) (bottom l : Location) : Prop :=
  ∀ l', l <+: l' → l' ≠ l → l' <+: bottom → LookUp w (FilePath.child ⟨top, l'⟩ fileName) (.ok none)

theorem noneBelow_self (w : World) (top : Anchor) (l : Location) : NoneBelow w top l l := by
  intro l' hl hne hl'
  exact absurd (hl'.eq_of_length_le hl.length_le) hne

theorem noneBelow_concat {bottom : Location} {name : String} (hl : l <+: bottom) :
    NoneBelow w top (bottom ++ [name]) l ↔
      LookUp w (FilePath.child ⟨top, bottom ++ [name]⟩ fileName) (.ok none) ∧
        NoneBelow w top bottom l := by
  constructor
  · intro h
    refine ⟨h _ (hl.trans (List.prefix_append _ _)) ?_ List.prefix_rfl, ?_⟩
    · rintro rfl
      have hlength := hl.length_le
      rw [List.length_append, List.length_singleton] at hlength
      omega
    · intro l' hll' hne hl'
      exact h l' hll' hne (hl'.trans (List.prefix_append _ _))
  · rintro ⟨hbottom, h⟩ l' hll' hne hl'
    obtain rfl | hl' := List.prefix_concat_iff.mp hl'
    · exact hbottom
    · exact h l' hll' hne hl'

/-- What ends a search before the top is what the lowest folder holds that holds something. -/
theorem firstIn_ancestors_iff {bottom : Location} (ha : a ≠ .ok none) :
    firstIn w top (ancestors bottom) = a ↔
      ∃ l, l <+: bottom ∧ LookUp w (FilePath.child ⟨top, l⟩ fileName) a ∧
        NoneBelow w top bottom l := by
  induction bottom using List.reverseRecOn with
  | nil =>
    rw [ancestors_nil, firstIn_cons]
    constructor
    · intro h
      refine ⟨[], List.prefix_rfl, ?_, noneBelow_self w top []⟩
      split at h
      · exact absurd h.symm ha
      · exact ifFile_eq_iff.mp h
    · rintro ⟨l, hl, hlook, -⟩
      obtain rfl := List.prefix_nil.mp hl
      rw [← ifFile_eq_iff] at hlook
      rw [hlook, if_neg ha]
  | append_singleton bottom name ih =>
    rw [ancestors_concat, firstIn_cons]
    constructor
    · intro h
      split at h
      · next hnone =>
        obtain ⟨l, hl, hlook, hbelow⟩ := ih.mp h
        exact ⟨l, hl.trans (List.prefix_append _ _), hlook,
          (noneBelow_concat hl).mpr ⟨ifFile_eq_iff.mp hnone, hbelow⟩⟩
      · exact ⟨_, List.prefix_rfl, ifFile_eq_iff.mp h, noneBelow_self w top _⟩
    · rintro ⟨l, hl, hlook, hbelow⟩
      obtain rfl | hl := List.prefix_concat_iff.mp hl
      · rw [← ifFile_eq_iff] at hlook
        rw [hlook, if_neg ha]
      · obtain ⟨hnone, hbelow⟩ := (noneBelow_concat hl).mp hbelow
        rw [if_pos (ifFile_eq_iff.mpr hnone)]
        exact ih.mpr ⟨l, hl, hlook, hbelow⟩

/-- A search finds nothing where none of the folders holds anything. -/
theorem firstIn_eq_none_iff {ls : List Location} : firstIn w top ls = .ok none ↔
    ∀ l ∈ ls, LookUp w (FilePath.child ⟨top, l⟩ fileName) (.ok none) := by
  induction ls with
  | nil => simp [firstIn]
  | cons l ls ih =>
    rw [firstIn_cons, List.forall_mem_cons, ← ifFile_eq_iff, ← ih]
    split
    · next h => simp [h]
    · next h => simp [h]

theorem mem_ancestors {bottom : Location} : l ∈ ancestors bottom ↔ l <+: bottom := by
  induction bottom using List.reverseRecOn with
  | nil => simp [ancestors_nil]
  | append_singleton bottom name ih =>
    rw [ancestors_concat, List.mem_cons, ih, List.prefix_concat_iff]

/-! ### The file that is found -/

theorem named?_of_get? {s : String} (h : w.environment.get? variableName = some s) (hs : s ≠ "") :
    named? w = some (FilePath.ofString s) := by
  rw [named?, h]
  exact if_neg hs

theorem named?_eq_none (h : (w.environment.get? variableName).getD "" = "") : named? w = none := by
  unfold named?
  split
  · next s hs =>
    rw [hs] at h
    exact if_pos h
  · rfl

theorem find_of_named {s : String} (h : w.environment.get? variableName = some s) (hs : s ≠ "")
    (start : Value) : find w start = ifFile w (FilePath.ofString s) := by
  rw [find, named?_of_get? h hs]

theorem find_of_resolve {start : Value} (h : (w.environment.get? variableName).getD "" = "")
    (hp : startOf start = .ok p) (hr : w.resolve p = .ok r) :
    find w start = firstIn w r.anchor (ancestors r.parts) := by
  rw [find, named?_eq_none h, hp]
  show search w p = _
  rw [search, hr]

/--
**The nearest settings file.**  Where a variable names a file, only this path is looked up.  Else
the search from where the start resolves to comes to an end; it answers with the file in the lowest
of the folders upwards that holds one, with nothing where none does, and with an error where a name
was too long to look up before a file was found.  It depends on the start only by what this resolves
to.
-/
theorem find_nearest (w : World) (start : Value) :
    (∀ s, w.environment.get? variableName = some s → s ≠ "" →
      LookUp w (FilePath.ofString s) (find w start)) ∧
    ((w.environment.get? variableName).getD "" = "" →
      ∀ p r, startOf start = .ok p → w.resolve p = .ok r →
        (∀ a, Climbs w r a ↔ find w start = a) ∧
        (∀ q, find w start = .ok (some q) ↔
          ∃ l, l <+: r.parts ∧ q = FilePath.child ⟨r.anchor, l⟩ fileName ∧
            (∃ bytes, w.find q = .ok (.file bytes)) ∧ NoneBelow w r.anchor r.parts l) ∧
        (find w start = .ok none ↔
          ∀ l, l <+: r.parts → LookUp w (FilePath.child ⟨r.anchor, l⟩ fileName) (.ok none)) ∧
        (∀ e, find w start = .error e ↔
          ∃ l, l <+: r.parts ∧
            e = .unreadable (FilePath.child ⟨r.anchor, l⟩ fileName) .nameTooLong ∧
            w.find (FilePath.child ⟨r.anchor, l⟩ fileName) = .error .nameTooLong ∧
            NoneBelow w r.anchor r.parts l) ∧
        ∀ start' p', startOf start' = .ok p' → w.resolve p' = .ok r →
          find w start' = find w start) := by
  refine ⟨?_, ?_⟩
  · intro s hvar hs
    rw [find_of_named hvar hs]
    exact lookUp_ifFile w _
  · intro hvar p r hp hr
    have hfind := find_of_resolve hvar hp hr
    refine ⟨?_, ?_, ?_, ?_, ?_⟩
    · intro a
      rw [climbs_iff, hfind]
    · intro q
      rw [hfind, firstIn_ancestors_iff (by simp)]
      simp only [lookUp_some_iff, and_assoc]
    · rw [hfind, firstIn_eq_none_iff]
      simp only [mem_ancestors]
    · intro e
      rw [hfind, firstIn_ancestors_iff (by simp)]
      simp only [lookUp_error_iff, and_assoc]
    · intro start' p' hp' hr'
      rw [hfind, find_of_resolve hvar hp' hr']

/-- At the top of a world without files nothing is found. -/
theorem find_without_files {env : Environment} (h : env.get? variableName = none) :
    find ⟨[], [], env⟩ .null = .ok none := by
  have hvar : (env.get? variableName).getD "" = "" := by rw [h, Option.getD_none]
  rw [find_of_resolve hvar rfl (World.resolve_here [] env), firstIn_eq_none_iff]
  intro l hl
  obtain rfl := List.mem_singleton.mp hl
  have hthere : World.isFile ⟨[], [], env⟩ World.topFile = .ok false :=
    World.isFile_topFile_of_none rfl
  rw [← ifFile_eq_iff]
  show ifFile ⟨[], [], env⟩ World.topFile = _
  rw [ifFile, hthere]

theorem select_without_files {env : Environment} (h : env.get? variableName = none) :
    select ⟨[], [], env⟩ .null .null = .ok none :=
  find_without_files h

/-! ### A folder above a link -/

/-- A settings file at the top, a folder in its place below, and a link to the folder above that. -/
def nestedWorld : World :=
  ⟨[([fileName], .file []), (["a"], .folder), (["a", fileName], .folder), (["l"], .link "a")],
    [], []⟩

theorem settle_nested : nestedWorld.settle ⟨.here, ["l", "x"]⟩ = ⟨.root, ["a", "x"]⟩ := by
  have hpieces : FileTree.linkPieces "a" = ["a"] := by decide
  have hrelative : FileTree.isFromTop "a" = false := by decide
  simp [World.settle, FileTree.settle, FileTree.expand, FilePath.isAbsolute, nestedWorld,
    FileTree.Way.start, FileTree.Way.location, FileTree.Way.down, FileTree.node?, fileName,
    hpieces, hrelative, FileTree.linkSpellings, FileTree.Way.spellings]

theorem find_nested_folder : nestedWorld.find ⟨.root, ["a", fileName]⟩ = .ok .folder := by
  have ha : FileTree.isLong "a" = false := by decide
  have hname : FileTree.isLong "valobj.toml" = false := by decide
  rw [World.find_eq_walk (by decide) (by decide)]
  simp [FileTree.walk, nestedWorld, FileTree.node?, World.start, FilePath.isAbsolute, fileName,
    ha, hname, Except.map]

/-- What is not there is not found, and neither is anything below it. -/
theorem find_nested_missing {l : Location} (hnul : FilePath.hasNul ⟨.root, "a" :: "x" :: l⟩ = false)
    (hshort : (FilePath.toString ⟨.root, "a" :: "x" :: l⟩).utf8ByteSize ≤ FileTree.pathLimit) :
    nestedWorld.find ⟨.root, "a" :: "x" :: l⟩ = .error .notFound := by
  have ha : FileTree.isLong "a" = false := by decide
  have hx : FileTree.isLong "x" = false := by decide
  rw [World.find_eq_walk hnul hshort]
  simp [FileTree.walk, nestedWorld, FileTree.node?, World.start, FilePath.isAbsolute, fileName,
    ha, hx, Except.map]

theorem find_nearest_nested :
    find nestedWorld (.path ⟨.here, ["l", "x"]⟩) = .ok (some World.topFile) := by
  have hresolve : nestedWorld.resolve ⟨.here, ["l", "x"]⟩ = .ok ⟨.root, ["a", "x"]⟩ := by
    have hmissing := find_nested_missing (l := []) (by decide) (by decide)
    rw [World.resolve_of_find (by decide) (by simp [settle_nested, hmissing]), settle_nested]
  obtain ⟨-, hfile, -⟩ := (find_nearest nestedWorld (.path ⟨.here, ["l", "x"]⟩)).2 rfl _ _ rfl
    hresolve
  refine (hfile _).mpr ⟨[], List.nil_prefix, rfl, ⟨[], ?_⟩, ?_⟩
  · exact World.read_eq_ok_iff.mp (World.read_topFile rfl)
  · intro l' _ hne hl'
    have hlow : l' <+: ["a"] ++ ["x"] := hl'
    obtain rfl | hl' := List.prefix_concat_iff.mp hlow
    · have hmissing := find_nested_missing (l := [fileName]) (by decide) (by decide)
      exact .missing (by simp [FilePath.child, hmissing]) (by simp [FilePath.child, hmissing])
    have hhigh : l' <+: [] ++ ["a"] := hl'
    obtain rfl | hl' := List.prefix_concat_iff.mp hhigh
    · exact .missing (by simp [FilePath.child, find_nested_folder])
        (by simp [FilePath.child, find_nested_folder])
    · exact absurd (List.prefix_nil.mp hl') hne

/-! ### Names that are too long -/

/-- A name of one byte more than a name may have. -/
def longName : String :=
  String.ofList (List.replicate (FileTree.nameLimit + 1) 'a')

/-- A settings file at the top that is a link to nowhere. -/
def strandedWorld : World :=
  ⟨[([fileName], .link longName)], [], []⟩

/-- A variable that names a file that cannot be there. -/
def misnamedWorld : World :=
  ⟨[], [], [(variableName, longName)]⟩

theorem isLong_longName : FileTree.isLong longName = true := by decide +kernel

theorem longName_ne : longName ≠ "" ∧ longName ≠ "." ∧ longName ≠ ".." := by decide +kernel

theorem toList_longName : longName.toList = List.replicate (FileTree.nameLimit + 1) 'a' :=
  String.toList_ofList

theorem splitChars_longName :
    (FilePath.splitChars '/' longName.toList).map String.ofList = [longName] := by
  have hslash : '/' ∉ longName.toList := by
    rw [toList_longName]
    exact fun h => absurd (List.eq_of_mem_replicate h) (by decide)
  rw [FilePath.splitChars_of_not_mem hslash, List.map_singleton, String.ofList_toList]

theorem walk_longName (t : FileTree) (links : Nat) :
    t.walk links [] [longName] = .error .nameTooLong := by
  have htop : t.node? [] = some .folder := if_pos rfl
  simp [FileTree.walk, htop, longName_ne, isLong_longName]

theorem find_stranded : strandedWorld.find World.topFile = .error .nameTooLong := by
  have hnames : FileTree.linkNames longName = [longName] := by
    simp [FileTree.linkNames, FileTree.linkPieces, splitChars_longName, longName_ne]
  have hnode : strandedWorld.tree.node? [fileName] = some (.link longName) := rfl
  rw [World.find_topFile, World.walk_topFile, hnode]
  dsimp only
  rw [hnames, walk_longName]
  rfl

theorem ofString_longName : FilePath.ofString longName = ⟨.here, [longName]⟩ := by
  have hanchor : FilePath.anchorOf longName.toList = .here := by
    rw [toList_longName]
    rfl
  simp [FilePath.ofString, hanchor, splitChars_longName, longName_ne]

theorem find_misnamed : misnamedWorld.find ⟨.here, [longName]⟩ = .error .nameTooLong := by
  have hnul : FilePath.hasNul ⟨.here, [longName]⟩ = false := by
    simp [FilePath.hasNul, toList_longName]
  rw [World.find_eq_walk hnul (by decide +kernel)]
  show (FileTree.walk [] FileTree.linkLimit [] [longName]).map Prod.snd = _
  rw [walk_longName]
  rfl

/-- Where a name is too long nothing is found, but the search does not come to this answer. -/
theorem find_longName :
    (startOf .null = .ok ⟨.here, []⟩ ∧ strandedWorld.resolve ⟨.here, []⟩ = .ok ⟨.root, []⟩ ∧
      (∀ l bytes, l <+: ([] : Location) →
        strandedWorld.find (FilePath.child ⟨.root, l⟩ fileName) ≠ .ok (.file bytes)) ∧
      find strandedWorld .null = .error (.unreadable World.topFile .nameTooLong)) ∧
    (∀ bytes, misnamedWorld.find (FilePath.ofString longName) ≠ .ok (.file bytes)) ∧
      find misnamedWorld .null =
        .error (.unreadable (FilePath.ofString longName) .nameTooLong) := by
  have hresolve : strandedWorld.resolve ⟨.here, []⟩ = .ok ⟨.root, []⟩ := World.resolve_here _ _
  have hfind : find strandedWorld .null = firstIn strandedWorld .root (ancestors []) :=
    find_of_resolve rfl rfl hresolve
  refine ⟨⟨rfl, hresolve, ?_, ?_⟩, ?_, ?_⟩
  · intro l bytes hl
    obtain rfl := List.prefix_nil.mp hl
    show strandedWorld.find World.topFile ≠ _
    simp [find_stranded]
  · rw [hfind, firstIn_ancestors_iff (by simp)]
    exact ⟨[], List.prefix_rfl, .long find_stranded, noneBelow_self _ _ _⟩
  · intro bytes
    simp [ofString_longName, find_misnamed]
  · have hvar : misnamedWorld.environment.get? variableName = some longName := rfl
    rw [find_of_named hvar longName_ne.1, ifFile_eq_iff, ofString_longName]
    exact .long find_misnamed

end Discovery

end Nullary
