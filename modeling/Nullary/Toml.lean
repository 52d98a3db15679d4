import Nullary.Value

/-!
# TOML documents

A document is a table of named items; an item is a scalar, an array or a table.  `Toml.toValue`
gives the value an item stands for.
-/

namespace Nullary

/-- An item of a document. -/
inductive Toml
  | text (s : String)
  | int (n : Int)
  | float (x : Double)
  | bool (b : Bool)
  | date (d : Date)
  | time (t : Time)
  | dateTime (t : DateTime)
  | array (xs : List Toml)
  | table (es : List (String × Toml))

namespace Toml

instance : Inhabited Toml := ⟨.table []⟩

/-- Named items in the order of the document. -/
abbrev Table := Fields Toml

/-- A dotted key. -/
abbrev Key := List String

mutual

/-- An item of a document as a value. -/
def toValue : Toml → Value
  | text s => .text s
  | int n => .int n
  | float x => .float x
  | bool b => .bool b
  | date d => .date d
  | time t => .time t
  | dateTime t => .dateTime t
  | array xs => .list (toValues xs)
  | table es => .mapping .dict (toEntries es)

/-- The items of an array as values. -/
def toValues : List Toml → List Value
  | [] => []
  | x :: xs => toValue x :: toValues xs

/-- The items of a table as entries of a mapping. -/
def toEntries : List (String × Toml) → List (Value × Value)
  | [] => []
  | (k, v) :: es => (.text k, toValue v) :: toEntries es

end

/-- Arrays and tables, whose contents a key can lead into. -/
def isContainer : Toml → Bool
  | array _ => true
  | table _ => true
  | _ => false

namespace Table

/-- The record of values a table stands for. -/
def toFields (t : Table) : Fields Value :=
  t.map fun e => (e.1, e.2.toValue)

/-- Why nothing can be put under a key. -/
inductive PutError
  | notTable
  | present

/--
Changes the table under a key, making the tables that are missing on the way.  Where the way leads
through an array of tables it goes on in the last of them, if `viaArrays` allows it.
-/
def descend (viaArrays : Bool) (change : Table → Except PutError Table) :
    Key → Table → Except PutError Table
  | [], t => change t
  | k :: ks, t =>
    match t.get? k with
    | none => (descend viaArrays change ks []).map fun u => t.insert k (.table u)
    | some (.table u) => (descend viaArrays change ks u).map fun u => t.insert k (.table u)
    | some (.array xs) =>
      match viaArrays, xs.getLast? with
      | true, some (.table u) =>
        (descend viaArrays change ks u).map fun u =>
          t.insert k (.array (xs.dropLast ++ [.table u]))
      | _, _ => .error .notTable
    | some _ => .error .notTable

/-- Sets an item under a new name. -/
def putNew (k : String) (v : Toml) (t : Table) : Except PutError Table :=
  if t.has k then .error .present else .ok (t.insert k v)

/-- Adds an empty table to an array of tables, which may be new. -/
def append (k : String) (t : Table) : Except PutError Table :=
  match t.get? k with
  | none => .ok (t.insert k (.array [.table []]))
  | some (.array xs) => .ok (t.insert k (.array (xs ++ [.table []])))
  | some _ => .error .notTable

end Table

end Toml

end Nullary
