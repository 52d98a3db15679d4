import Nullary.Blank

/-!
# Values with identity

A heap holds values in numbered slots.  Two slots are never the same object, except that a few small
values exist only once.  `Heap.equal` compares slots: objects without content are equal only to
themselves, and the elements of a container count as equal to themselves.
-/

namespace Nullary

/-- The values of a heap in the order of their slots. -/
abbrev Heap := List Value

namespace Heap

/-- Values that exist only once, however often they are made. -/
def isShared : Value → Bool
  | .null => true
  | .bool _ => true
  | .int n => -5 ≤ n && n ≤ 256
  | .text s =>
    match s.toList with
    | [] => true
    | [c] => c.toNat < 256
    | _ => false
  | .bytes bs => bs.length ≤ 1
  | .tuple xs => xs.isEmpty
  | .blankClass => true
  | .ellipsis => true
  | _ => false

/-- Whether two values are one shared value. -/
def sharedSame (v w : Value) : Bool :=
  isShared v && isShared w && v.kindName == w.kindName && Value.same v w

/-- Whether a value is equal to itself: all but the numbers that are not numbers. -/
def selfEqual : Value → Bool
  | .float x => x.same x
  | .complex a b => a.same a && b.same b
  | _ => true

/-- The value in a slot. -/
def get? (h : Heap) (i : Nat) : Option Value :=
  h[i]?

/-- Whether two slots hold the same object. -/
def identical (h : Heap) (i j : Nat) : Bool :=
  match get? h i, get? h j with
  | some v, some w => i == j || sharedSame v w
  | _, _ => false

/-- Whether the objects in two slots are equal. -/
def equal (h : Heap) (i j : Nat) : Bool :=
  match get? h i, get? h j with
  | some v, some w => if identical h i j then selfEqual v else Value.same v w
  | _, _ => false

/-- Whether a set takes the objects in two slots for one. -/
def merges (h : Heap) (i j : Nat) : Bool :=
  identical h i j || equal h i j

/-- The slots that stay when a set is built from a list of them. -/
def representatives (h : Heap) (is : List Nat) : List Nat :=
  is.foldl (fun kept i => if kept.any (fun j => merges h j i) then kept else kept ++ [i]) []

/-- A class whose values are in no set. -/
structure Unhashable where
  kind : String
  deriving DecidableEq

/-- The sentence of the error. -/
def Unhashable.message (e : Unhashable) : String :=
  "unhashable type: '" ++ e.kind ++ "'"

/-- The size of the set of the objects in some slots, unless one of them is in no set. -/
def setSize (h : Heap) (is : List Nat) : Except Unhashable Nat :=
  match (is.filterMap (get? h)).findSome? Value.unhashable? with
  | some kind => .error ⟨kind⟩
  | none => .ok (representatives h is).length

/-- A way to make values for a heap. -/
inductive Making
  /-- A value object from named values, which it passes over. -/
  | fresh (given : Fields Value)
  | build
  /-- As many value objects from one builder. -/
  | buildMany (n : Nat)
  | decode (strict : Bool) (data : Value)
  | put (v : Value)

/-- The values that are made, if making them succeeds. -/
def Making.values : Making → Except Blank.DecodeError (List Value)
  | fresh _ => .ok [.blank false]
  | build => .ok [.blank false]
  | buildMany n => .ok (List.replicate n (.blank false))
  | decode strict data => (Blank.decode strict data).map fun v => [v]
  | put v => .ok [v]

/-- Adds the values that are made at the end of a heap. -/
def make (h : Heap) (m : Making) : Except Blank.DecodeError Heap :=
  m.values.map fun vs => h ++ vs

/-- The heap after a step that may fail; a step that fails adds nothing. -/
def afterMaking (h : Heap) (m : Making) : Heap :=
  match h.make m with
  | .ok h' => h'
  | .error _ => h

/-- The slots that a step from one heap to a longer one has filled. -/
def added (h h' : Heap) : List Nat :=
  (List.range h'.length).drop h.length

end Heap

end Nullary
