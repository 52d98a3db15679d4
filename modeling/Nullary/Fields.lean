/-!
# Ordered fields

A record whose names are texts and whose order is the order in which the names were first put in.
`insert` changes the entry of a name in place or adds one at the end; `get?` looks a name up.
Main statements: `get?_insert` and `keys_insert`.
-/

namespace Nullary

/-- Named values in the order of their first insertion. -/
abbrev Fields (α : Type) := List (String × α)

namespace Fields

variable {α β : Type}

/-- The value of a name. -/
def get? (k : String) : Fields α → Option α
  | [] => none
  | (k', v) :: r => if k' = k then some v else get? k r

/-- Whether a name has a value. -/
def has (k : String) (f : Fields α) : Bool :=
  (get? k f).isSome

/-- Sets the value of a name; a new name goes to the end. -/
def insert (k : String) (v : α) : Fields α → Fields α
  | [] => [(k, v)]
  | (k', v') :: r => if k' = k then (k', v) :: r else (k', v') :: insert k v r

/-- Inserts every entry of `g` into `f`, in order. -/
def insertAll (f g : Fields α) : Fields α :=
  g.foldl (fun acc e => insert e.1 e.2 acc) f

/-- The record of a list of entries; of two entries of one name the later value counts. -/
def ofList (es : List (String × α)) : Fields α :=
  insertAll [] es

/-- Drops the entry of a name. -/
def erase (k : String) (f : Fields α) : Fields α :=
  f.filter fun e => e.1 != k

/-- The names in their order. -/
def keys (f : Fields α) : List String :=
  f.map Prod.fst

/-- Adds the entries of `g` whose names `f` does not have. -/
def fill (f g : Fields α) : Fields α :=
  f ++ g.filter fun e => !has e.1 f

/-- Applies a function to every value. -/
def mapValues (h : α → β) (f : Fields α) : Fields β :=
  f.map fun e => (e.1, h e.2)

theorem get?_insert (k k' : String) (v : α) (f : Fields α) :
    get? k' (insert k v f) = if k = k' then some v else get? k' f := by
  induction f with
  | nil => simp [insert, get?]
  | cons e r ih =>
    obtain ⟨a, w⟩ := e
    by_cases ha : a = k
    · subst ha
      by_cases hk : a = k' <;> simp [insert, get?, hk]
    · by_cases hk : a = k'
      · subst hk
        simp [insert, get?, ha, Ne.symm (Ne.intro ha)]
      · simp [insert, get?, ha, hk, ih]

theorem get?_eq_none_iff {k : String} {f : Fields α} : get? k f = none ↔ k ∉ keys f := by
  induction f with
  | nil => simp [get?, keys]
  | cons e r ih =>
    obtain ⟨a, w⟩ := e
    by_cases ha : a = k
    · simp [get?, keys, ha]
    · have hk : ¬ k = a := fun h => ha h.symm
      simp only [get?, ha, if_false, ih]
      simp [keys, hk]

/-- A new name is the last one; a known name keeps its place. -/
theorem keys_insert (k : String) (v : α) (f : Fields α) :
    keys (insert k v f) = if k ∈ keys f then keys f else keys f ++ [k] := by
  induction f with
  | nil => simp [insert, keys]
  | cons e r ih =>
    obtain ⟨a, w⟩ := e
    by_cases ha : a = k
    · simp [insert, keys, ha]
    · have hk : ¬ k = a := fun h => ha h.symm
      simp only [keys, insert, ha, if_false, List.map_cons, List.mem_cons, hk, false_or] at ih ⊢
      rw [ih]
      by_cases hm : k ∈ r.map Prod.fst <;> simp [hm]

end Fields

end Nullary
