import Nullary.Value

/-!
# Values in the wrong place

A value may be asked for a member it does not have, called, or gone through element by element,
though its class allows none of this.  A `Misuse` is such an attempt.
-/

namespace Nullary

/-- A use of a value that its class does not allow. -/
inductive Misuse
  | noMember (kind name : String)
  /-- The class of value objects itself was asked for the member. -/
  | noClassMember (name : String)
  | notCallable (kind : String)
  | notIterable (kind : String)
  /-- The class of value objects was called with arguments by position. -/
  | surplus (given : Nat)
  deriving DecidableEq

namespace Misuse

/-- The sentence of a misuse. -/
def message : Misuse → String
  | noMember kind name => "'" ++ kind ++ "' object has no attribute '" ++ name ++ "'"
  | noClassMember name => name
  | notCallable kind => "'" ++ kind ++ "' object is not callable"
  | notIterable kind => "'" ++ kind ++ "' object is not iterable"
  | surplus given =>
    "BaseModel.__init__() takes 1 positional argument but " ++ toString (given + 1) ++ " were given"

/-- Whether a member was asked for, rather than a call or elements. -/
def isMember : Misuse → Bool
  | noMember .. => true
  | noClassMember _ => true
  | _ => false

end Misuse

namespace Value

/-- What comes of asking a value for a member that it does not have. -/
def lacking (name : String) : Value → Misuse
  | blankClass => .noClassMember name
  | v => .noMember v.className name

/-- What comes of calling a value with as many arguments. -/
def called (given : Nat) : Value → Misuse
  | blankClass => .surplus given
  | v => .notCallable v.className

/-- What is met first on going through a value, if there is anything. -/
def first? : Value → Except Misuse (Option Value)
  | text s => .ok (s.toList.head?.map fun c => text (String.ofList [c]))
  | bytes bs => .ok (bs.head?.map fun b => int b.toNat)
  | mapping _ es => .ok (es.head?.map Prod.fst)
  | v =>
    match v.elements? with
    | some xs => .ok xs.head?
    | none => .error (.notIterable v.className)

end Value

end Nullary
