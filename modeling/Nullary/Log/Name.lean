/-!
# Names of loggers

Loggers form a tree by the dots in their names.  `LoggerName.ancestors` lists the names above a
name, the nearest first; the empty name and `root` both name the top.  Main statement:
`length_of_mem_ancestors`, an ancestor has a shorter name.
-/

namespace Nullary.LoggerName

/-- The name of the logger at the top. -/
def top : String := "root"

/-- Whether a name is one of those of the logger at the top. -/
def isTop (name : String) : Bool :=
  name = "" || name = top

/-- The name that records of a logger carry. -/
def shown (name : String) : String :=
  if name = "" then top else name

/--
The names above a name, read backwards.  The character before a dot belongs to the name above it and
is no dot that separates, so that of several dots in a row every other one counts.
-/
def ancestorsBackwards : List Char → List (List Char)
  | [] => []
  | [_] => []
  | '.' :: c :: r => (c :: r) :: ancestorsBackwards r
  | _ :: c :: r => ancestorsBackwards (c :: r)

/-- The class of a logger; the one at the top has its own. -/
def kind (name : String) : String :=
  if isTop name then "RootLogger" else "Logger"

/-- The names above a name, the nearest first. -/
def ancestors (name : String) : List String :=
  (ancestorsBackwards name.toList.reverse).map fun cs => String.ofList cs.reverse

theorem length_of_mem_ancestorsBackwards {s p : List Char} (h : p ∈ ancestorsBackwards s) :
    p.length < s.length := by
  fun_induction ancestorsBackwards s with
  | case1 => simp at h
  | case2 => simp at h
  | case3 c r ih =>
    rcases List.mem_cons.1 h with rfl | h
    · simp
    · have := ih h
      simp only [List.length_cons]
      omega
  | case4 c r _ _ ih =>
    have := ih h
    simp only [List.length_cons] at this ⊢
    omega

theorem length_of_mem_ancestors {name p : String} (h : p ∈ ancestors name) :
    p.length < name.length := by
  simp only [ancestors, List.mem_map] at h
  obtain ⟨cs, hcs, rfl⟩ := h
  have := length_of_mem_ancestorsBackwards hcs
  simpa [← String.length_toList] using this

end Nullary.LoggerName
