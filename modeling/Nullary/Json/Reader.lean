import Nullary.Json
import Nullary.Number.Decimal
import Nullary.Text.Step

/-!
# Reading JSON

`Json.read` reads a text as one document, with blanks around it allowed.  Besides the standard it
knows the numbers `NaN`, `Infinity` and `-Infinity`.  Of two members with one name the later value
counts; an integer of too many digits is refused, and so are arrays and objects that nest too deep.
-/

namespace Nullary.Json

/-- The characters that may stand between the parts of a document. -/
def isBlank (c : Char) : Bool :=
  c = ' ' || c = '\t' || c = '\n' || c = '\r'

/-- What follows the blanks at the beginning. -/
def skipBlanks (s : List Char) : List Char :=
  s.dropWhile isBlank

theorem length_skipBlanks (s : List Char) : (skipBlanks s).length ≤ s.length :=
  Step.length_dropWhile_le isBlank s

/-- Four hexadecimal digits. -/
def unit? : List Char → Option (Nat × List Char)
  | a :: b :: c :: d :: r =>
    if [a, b, c, d].all (Digits.isDigit 16) then some (Digits.value 16 [a, b, c, d], r) else none
  | _ => none

/-- The character an escape letter stands for. -/
def simpleEscape? (c : Char) : Option Char :=
  if c = '\x22' ∨ c = '\\' ∨ c = '/' then some c
  else if c = 'n' then some '\n'
  else if c = 'r' then some '\r'
  else if c = 't' then some '\t'
  else if c = 'b' then some '\x08'
  else if c = 'f' then some '\x0c'
  else none

/-- The character of a code unit that is no surrogate; surrogates alone stand for none. -/
def unitChar (n : Nat) : Char :=
  if 0xd800 ≤ n ∧ n < 0xe000 then '\ufffd' else Char.ofNat n

/-- The character of a code unit escape, of two for a pair of surrogates. -/
def escapedUnit? (s : List Char) : Option (Char × List Char) :=
  match unit? s with
  | none => none
  | some (high, r) =>
    if 0xd800 ≤ high ∧ high < 0xdc00 then
      match r with
      | '\\' :: 'u' :: r' =>
        match unit? r' with
        | some (low, r'') =>
          if 0xdc00 ≤ low ∧ low < 0xe000 then
            some (Char.ofNat (0x10000 + (high - 0xd800) * 0x400 + (low - 0xdc00)), r'')
          else
            some (unitChar high, r)
        | none => some (unitChar high, r)
      | _ => some (unitChar high, r)
    else
      some (unitChar high, r)

theorem length_unit? {s : List Char} {p : Nat × List Char} (h : unit? s = some p) :
    p.2.length < s.length := by
  match s, h with
  | a :: b :: c :: d :: r, h =>
    simp only [unit?] at h
    split at h
    · injection h with h
      subst h
      simp only [List.length_cons]
      omega
    · simp at h

theorem length_escapedUnit? {s : List Char} {p : Char × List Char} (h : escapedUnit? s = some p) :
    p.2.length < s.length := by
  unfold escapedUnit? at h
  split at h
  · simp at h
  · next high r hr =>
    have h1 := length_unit? hr
    simp only at h1
    split at h
    · split at h
      · next r' =>
        split at h
        · next low r'' hr' =>
          have h2 := length_unit? hr'
          simp only [List.length_cons] at h1 h2
          split at h <;> (injection h with h; subst h; simp only [List.length_cons]; omega)
        · injection h with h
          subst h
          exact h1
      · injection h with h
        subst h
        exact h1
    · injection h with h
      subst h
      exact h1

/-- A text after its opening mark, up to and including the closing one. -/
def textBody? (s : List Char) : Option (Step (List Char) s) :=
  match s with
  | [] => none
  | '\x22' :: r => some ⟨[], r, Nat.lt_succ_self _⟩
  | '\\' :: 'u' :: r =>
    match h : escapedUnit? r with
    | none => none
    | some (c, r') =>
      have h1 : r'.length < r.length := length_escapedUnit? h
      (textBody? r').map fun p =>
        (p.map (c :: ·)).widen (by simp only [List.length_cons]; omega)
  | '\\' :: e :: r =>
    match simpleEscape? e with
    | none => none
    | some c =>
      (textBody? r).map fun p =>
        (p.map (c :: ·)).widen (by simp only [List.length_cons]; omega)
  | c :: r =>
    if c.toNat < 0x20 ∨ c = '\\' then none
    else (textBody? r).map fun p => (p.map (c :: ·)).widen (Nat.le_succ _)
  termination_by s.length

/-- The words of the format and the values they stand for. -/
def words : List (String × Json) := [
  ("null", .null), ("true", .bool true), ("false", .bool false), ("NaN", .float .nan),
  ("Infinity", .float (.infinity false)), ("-Infinity", .float (.infinity true))]

/-- A word of the format. -/
def word? (s : List Char) : Option (Json × List Char) :=
  words.findSome? fun w => (Step.afterWord? w.1 s).map fun r => (w.2, r)

/-- A number; whole numbers stay within the limit of digits. -/
def number? (s : List Char) : Option (Json × List Char) :=
  match Decimal.scan? ⟨false, false⟩ s with
  | none => none
  | some (d, r) =>
    if d.isInteger then
      if d.whole.length ≤ Digits.limit then some (.int d.toInt, r) else none
    else
      some (.float d.toDouble, r)

/-- What can nest. -/
inductive Container
  | array
  | object
  deriving DecidableEq

/-- Why a text is no document: it has not the form of one, or something nests too deep. -/
inductive ReadError
  | malformed
  | tooDeep (c : Container)
  deriving DecidableEq

/-- A result that may be missing, because the text has not the right form. -/
def orMalformed {α : Type} : Option α → Except ReadError α
  | some a => .ok a
  | none => .error .malformed

mutual

/-- A value at the beginning of a text, in which as many levels may nest. -/
def value (levels : Nat) (s : List Char) : Except ReadError (Step Json s) :=
  match s with
  | '\x22' :: r =>
    orMalformed ((textBody? r).map fun p =>
      (p.map fun cs => .text (String.ofList cs)).widen (Nat.le_succ _))
  | '[' :: r =>
    if levels = 0 then
      .error (.tooDeep .array)
    else
      have hr := length_skipBlanks r
      match hs : skipBlanks r with
      | ']' :: r' => .ok ⟨.array [], r', by
          rw [hs] at hr
          simp only [List.length_cons] at hr ⊢
          omega⟩
      | _ =>
        (items (levels - 1) (skipBlanks r)).map fun p =>
          (p.map Json.array).widen (Nat.le_succ_of_le hr)
  | '\x7b' :: r =>
    if levels = 0 then
      .error (.tooDeep .object)
    else
      have hr := length_skipBlanks r
      match hs : skipBlanks r with
      | '\x7d' :: r' => .ok ⟨.object [], r', by
          rw [hs] at hr
          simp only [List.length_cons] at hr ⊢
          omega⟩
      | _ =>
        (members (levels - 1) (skipBlanks r)).map fun p =>
          (p.map fun es => .object (Fields.ofList es)).widen (Nat.le_succ_of_le hr)
  | s => orMalformed (((word? s).or (number? s)).bind (Step.of? s))
  termination_by (s.length, 0)
  decreasing_by
    all_goals
      apply Prod.Lex.left
      simp only [List.length_cons]
      omega

/-- The elements of an array, up to and including the closing bracket. -/
def items (levels : Nat) (s : List Char) : Except ReadError (Step (List Json) s) :=
  match value levels s with
  | .error e => .error e
  | .ok p =>
    have h1 := p.shorter
    have h2 := length_skipBlanks p.rest
    match hs : skipBlanks p.rest with
    | ']' :: r => .ok ⟨[p.value], r, by
        rw [hs] at h2
        simp only [List.length_cons] at h2
        omega⟩
    | ',' :: r =>
      have hlt : (skipBlanks r).length < s.length := by
        have h3 := length_skipBlanks r
        rw [hs] at h2
        simp only [List.length_cons] at h2
        omega
      (items levels (skipBlanks r)).map fun q => (q.map (p.value :: ·)).widen (Nat.le_of_lt hlt)
    | _ => .error .malformed
  termination_by (s.length, 1)
  decreasing_by
    · exact Prod.Lex.right _ (by omega)
    · exact Prod.Lex.left _ _ hlt

/-- The members of an object, up to and including the closing brace. -/
def members (levels : Nat) (s : List Char) : Except ReadError (Step (List (String × Json)) s) :=
  match s with
  | '\x22' :: r =>
    match textBody? r with
    | none => .error .malformed
    | some k =>
      have h1 := k.shorter
      have h2 := length_skipBlanks k.rest
      match hc : skipBlanks k.rest with
      | ':' :: r' =>
        have hlt : (skipBlanks r').length < r.length := by
          have h3 := length_skipBlanks r'
          rw [hc] at h2
          simp only [List.length_cons] at h2
          omega
        match value levels (skipBlanks r') with
        | .error e => .error e
        | .ok p =>
          have h4 := p.shorter
          have h5 := length_skipBlanks p.rest
          let member := (String.ofList k.value, p.value)
          match hs : skipBlanks p.rest with
          | '\x7d' :: r'' => .ok ⟨[member], r'', by
              rw [hs] at h5
              simp only [List.length_cons] at h5 ⊢
              omega⟩
          | ',' :: r'' =>
            have hlt' : (skipBlanks r'').length < r.length := by
              have h6 := length_skipBlanks r''
              rw [hs] at h5
              simp only [List.length_cons] at h5
              omega
            (members levels (skipBlanks r'')).map fun q =>
              (q.map (member :: ·)).widen (Nat.le_succ_of_le (Nat.le_of_lt hlt'))
          | _ => .error .malformed
      | _ => .error .malformed
  | _ => .error .malformed
  termination_by (s.length, 1)
  decreasing_by
    · exact Prod.Lex.left _ _ (Nat.lt_succ_of_lt hlt)
    · exact Prod.Lex.left _ _ (Nat.lt_succ_of_lt hlt')

end

/--
How many arrays and objects may stand one in another: there may be 1000 calls one in another, of
which the callers of the reader take 15.
-/
def levelLimit : Nat := 985

/-- Reads a text as one document. -/
def read (s : String) : Except ReadError Json :=
  match value levelLimit (skipBlanks s.toList) with
  | .error e => .error e
  | .ok p => if (skipBlanks p.rest).isEmpty then .ok p.value else .error .malformed

end Nullary.Json
