/-!
# Arguments that do not fit

A function is called with arguments by position and by name.  An `ArgumentError` says which of its
parameters got too much or too little.
-/

namespace Nullary

/-- What is wrong with the argument for a parameter. -/
inductive Misfit
  /-- It is given twice. -/
  | repeated
  /-- It is given twice by name. -/
  | repeatedName
  | missing
  /-- There is no such parameter. -/
  | unexpected
  deriving DecidableEq

/-- An argument for a parameter of a function that does not fit. -/
structure ArgumentError where
  function : String
  parameter : String
  misfit : Misfit
  deriving DecidableEq

namespace ArgumentError

/-- What is said about a parameter, before its name. -/
def complaint : Misfit → String
  | .repeated => "got multiple values for argument "
  | .repeatedName => "got multiple values for keyword argument "
  | .missing => "missing 1 required positional argument: "
  | .unexpected => "got an unexpected keyword argument "

/-- The sentence of an error. -/
def message (e : ArgumentError) : String :=
  e.function ++ "() " ++ complaint e.misfit ++ "'" ++ e.parameter ++ "'"

/-- The first of some names that is among the parameters which a function was given already. -/
def repeated? (function : String) (taken names : List String) : Option ArgumentError :=
  (names.find? taken.contains).map fun name => ⟨function, name, .repeated⟩

theorem repeated?_eq_none {function : String} {taken names : List String}
    (h : ∀ k ∈ names, k ∉ taken) : repeated? function taken names = none := by
  have hfind : names.find? taken.contains = none := by simpa using h
  rw [repeated?, hfind, Option.map_none]

theorem repeated?_of_mem {function p : String} {names : List String} (h : p ∈ names) :
    repeated? function [p] names = some ⟨function, p, .repeated⟩ := by
  obtain ⟨name, hname⟩ : ∃ name, names.find? [p].contains = some name :=
    Option.isSome_iff_exists.mp (List.find?_isSome.mpr ⟨p, h, by simp⟩)
  have hsame : name = p := by simpa using List.find?_some hname
  rw [repeated?, hname, hsame, Option.map_some]

end ArgumentError

end Nullary
