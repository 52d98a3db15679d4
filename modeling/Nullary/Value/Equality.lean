import Nullary.Value

/-!
# Equality of values

Two values are equal when they say the same: numbers of any class by their worth, sequences of one
class element by element, sets and mappings without regard to order, except that two ordered
mappings also agree in order.  Every value object is equal to every other.  Objects without content
are equal only to themselves, which is decided by who holds them and not here.

`Value.insertEntry` and `Value.insertElement` build mappings and sets by this equality.
-/

namespace Nullary.Value

/-- The numeric worth of a truth value or an integer. -/
def wholeNumber? : Value → Option Int
  | bool b => some (if b then 1 else 0)
  | int n => some n
  | _ => none

/-- Equality of two numbers of the classes truth value, integer, float and complex. -/
def sameNumber : Value → Value → Bool
  | float x, float y => x.same y
  | complex a b, complex c d => a.same c && b.same d
  | complex a b, float y => a.same y && b.isZero
  | float x, complex c d => x.same c && d.isZero
  | complex a b, w =>
    match a.toInt?, wholeNumber? w with
    | some m, some n => m == n && b.isZero
    | _, _ => false
  | v, complex c d =>
    match wholeNumber? v, c.toInt? with
    | some m, some n => m == n && d.isZero
    | _, _ => false
  | float x, w =>
    match x.toInt?, wholeNumber? w with
    | some m, some n => m == n
    | _, _ => false
  | v, float y =>
    match wholeNumber? v, y.toInt? with
    | some m, some n => m == n
    | _, _ => false
  | v, w =>
    match wholeNumber? v, wholeNumber? w with
    | some m, some n => m == n
    | _, _ => false

mutual

/-- Whether two values are equal. -/
def same : Value → Value → Bool
  | null, null => true
  | text s, text t => s == t
  | bytes s, bytes t => s == t
  | date d, date e => d == e
  | time s, time t => s.same t
  | dateTime s, dateTime t => s.same t
  | path p, path q => p == q
  | list xs, list ys => sameList xs ys
  | tuple xs, tuple ys => sameList xs ys
  | set xs, set ys => xs.length == ys.length && allIn xs ys
  | set xs, frozenSet ys => xs.length == ys.length && allIn xs ys
  | frozenSet xs, set ys => xs.length == ys.length && allIn xs ys
  | frozenSet xs, frozenSet ys => xs.length == ys.length && allIn xs ys
  | mapping .ordered es, mapping .ordered fs => sameEntries es fs
  | mapping _ es, mapping _ fs => es.length == fs.length && allEntriesIn es fs
  | blank _, blank _ => true
  | blankClass, blankClass => true
  | ellipsis, ellipsis => true
  | codecSection s, codecSection t => s == t
  | fault c m d, fault c' m' d' =>
    c == c' && m == m' && d.length == d'.length && allFieldsIn d d'
  | v, w => sameNumber v w

/-- Element by element. -/
def sameList : List Value → List Value → Bool
  | [], [] => true
  | x :: xs, y :: ys => same x y && sameList xs ys
  | _, _ => false

/-- Entry by entry. -/
def sameEntries : List (Value × Value) → List (Value × Value) → Bool
  | [], [] => true
  | (k, v) :: es, (k', v') :: fs => same k k' && same v v' && sameEntries es fs
  | _, _ => false

/-- Every element of the first list is equal to one of the second. -/
def allIn : List Value → List Value → Bool
  | [], _ => true
  | x :: xs, ys => ys.any (fun y => same x y) && allIn xs ys

/-- Every entry of the first list has an equal entry in the second. -/
def allEntriesIn : List (Value × Value) → List (Value × Value) → Bool
  | [], _ => true
  | (k, v) :: es, fs =>
    fs.any (fun f => same k f.1 && same v f.2) && allEntriesIn es fs

/-- As `allEntriesIn`, for named values. -/
def allFieldsIn : List (String × Value) → List (String × Value) → Bool
  | [], _ => true
  | (k, v) :: es, fs =>
    fs.any (fun f => k == f.1 && same v f.2) && allFieldsIn es fs

end

/-- Sets the value of a key; an equal key keeps its place and its form. -/
def insertEntry (k v : Value) : List (Value × Value) → List (Value × Value)
  | [] => [(k, v)]
  | (k', v') :: r =>
    if same k' k then (k', v) :: r else (k', v') :: insertEntry k v r

/-- A mapping of a list of entries; of equal keys the first form and the last value count. -/
def mappingOf (kind : MappingKind) (es : List (Value × Value)) : Value :=
  mapping kind (es.foldl (fun acc e => insertEntry e.1 e.2 acc) [])

/-- Adds an element unless an equal one is there. -/
def insertElement (xs : List Value) (x : Value) : List Value :=
  if xs.any (fun y => same y x) then xs else xs ++ [x]

/-- The distinct elements of a list, in order. -/
def distinct (xs : List Value) : List Value :=
  xs.foldl insertElement []

mutual

/-- The name of the class that keeps a value from being a key, if one does. -/
def unhashable? : Value → Option String
  | list _ => some "list"
  | set _ => some "set"
  | mapping kind es => some (className (mapping kind es))
  | fault .. => some "dict"
  | tuple xs => unhashableAny? xs
  | _ => none

/-- The first such name among the classes of some values. -/
def unhashableAny? : List Value → Option String
  | [] => none
  | x :: xs =>
    match unhashable? x with
    | some k => some k
    | none => unhashableAny? xs

end

end Nullary.Value
