import Nullary.Value.Equality

/-!
# Merging values

Of two values for one thing the upper one counts, unless both are mappings that can be merged: these
are merged key by key.  Keys of the lower mapping come first.
-/

namespace Nullary

/-- The classes of mappings that are merged; the others replace and are replaced as a whole. -/
def MappingKind.merges : MappingKind → Bool
  | .dict => true
  | .ordered => true
  | .proxy => false
  | .custom => false

namespace Value

/-- The value of an equal key. -/
def lookup? (k : Value) (es : List (Value × Value)) : Option Value :=
  (es.find? fun e => same e.1 k).map Prod.snd

mutual

/-- The upper value, merged into the lower one where both are mappings. -/
def merge (lower : Value) : Value → Value
  | mapping kind es =>
    match lower with
    | mapping kind' fs =>
      if kind.merges && kind'.merges then mapping kind' (mergeEntries fs es) else mapping kind es
    | _ => mapping kind es
  | v => v

/-- The entries of a mapping put on those of a lower one, key by key. -/
def mergeEntries (lower : List (Value × Value)) : List (Value × Value) → List (Value × Value)
  | [] => lower
  | (k, v) :: es =>
    let merged :=
      match lookup? k lower with
      | some w => merge w v
      | none => v
    mergeEntries (insertEntry k merged lower) es

end

end Value

namespace Fields

/-- The fields of both records; values of one name are merged. -/
def merge (lower upper : Fields Value) : Fields Value :=
  upper.foldl
    (fun acc e =>
      match acc.get? e.1 with
      | some w => acc.insert e.1 (w.merge e.2)
      | none => acc.insert e.1 e.2) lower

end Fields

end Nullary
