import Nullary.Number.Fixed
import Nullary.Value.Display
import Nullary.Value.Merge

/-!
# Message templates

A template is a text with directives, each a percent sign, options and a letter.  `Template.fill?`
puts arguments in their place: one after another, or by name from a mapping.  A template that its
arguments do not fit has no text.
-/

namespace Nullary.Template

/-- Sizes have to be below this. -/
def sizeLimit : Nat := 0x80000000

/-- A number that is written in the directive or taken from the arguments. -/
inductive Size
  | absent
  | number (n : Nat)
  | argument

/-- A directive: how the next argument, or the one of a name, is written. -/
structure Directive where
  name : Option String
  flags : List Char
  width : Size
  precision : Size
  letter : Char

/-- A part of a template. -/
inductive Piece
  | char (c : Char)
  | directive (d : Directive)

/-- Characters that are options of a directive. -/
def isFlag (c : Char) : Bool :=
  c = '-' || c = '+' || c = ' ' || c = '#' || c = '0'

/-- The text up to the parenthesis that closes `depth` open ones, and the text after it. -/
def toClosing (depth : Nat) : List Char → Option (List Char × List Char)
  | [] => none
  | c :: r =>
    if c = ')' ∧ depth = 0 then some ([], r)
    else
      let depth := if c = ')' then depth - 1 else if c = '(' then depth + 1 else depth
      (toClosing depth r).map fun p => (c :: p.1, p.2)

/-- The name between parentheses, if one follows. -/
def scanName? (s : List Char) : Option (Option String × List Char) :=
  match s with
  | '(' :: r => (toClosing 0 r).map fun p => (some (String.ofList p.1), p.2)
  | _ => some (none, s)

/-- A size, if one follows; no digits at all count as `empty`. -/
def scanSize (empty : Size) (s : List Char) : Size × List Char :=
  match s with
  | '*' :: r => (.argument, r)
  | _ =>
    let ds := s.takeWhile Char.isDigit
    (if ds.isEmpty then empty else .number (Digits.value 10 ds), s.dropWhile Char.isDigit)

/-- The size after a point, if there is a point. -/
def scanPrecision (s : List Char) : Size × List Char :=
  match s with
  | '.' :: r => scanSize (.number 0) r
  | _ => (.absent, s)

/-- A letter that says how long a number is has no meaning. -/
def skipLength (s : List Char) : List Char :=
  match s with
  | c :: r => if c = 'h' ∨ c = 'l' ∨ c = 'L' then r else s
  | [] => []

/-- The directive after a percent sign, and the text after it. -/
def scanDirective? (s : List Char) : Option (Directive × List Char) :=
  (scanName? s).bind fun p =>
    let flags := p.2.takeWhile isFlag
    let w := scanSize .absent (p.2.dropWhile isFlag)
    let q := scanPrecision w.2
    match skipLength q.2 with
    | [] => none
    | c :: r => some (⟨p.1, flags, w.1, q.1, c⟩, r)

/-- The piece after a percent sign, and the text after it; a second percent sign is itself. -/
def scanPiece? (s : List Char) : Option (Piece × List Char) :=
  match s with
  | '%' :: r => some (.char '%', r)
  | _ => (scanDirective? s).map fun p => (.directive p.1, p.2)

theorem length_toClosing {depth : Nat} {s : List Char} {p : List Char × List Char}
    (h : toClosing depth s = some p) : p.2.length ≤ s.length := by
  induction s generalizing depth p with
  | nil => simp [toClosing] at h
  | cons c r ih =>
    unfold toClosing at h
    split at h
    · injection h with h
      simp [← h]
    · simp only [Option.map_eq_some_iff] at h
      obtain ⟨q, hq, rfl⟩ := h
      have hle : q.2.length ≤ r.length := ih hq
      exact Nat.le_succ_of_le hle

theorem length_scanName? {s : List Char} {p : Option String × List Char}
    (h : scanName? s = some p) : p.2.length ≤ s.length := by
  unfold scanName? at h
  split at h
  · simp only [Option.map_eq_some_iff] at h
    obtain ⟨q, hq, rfl⟩ := h
    exact Nat.le_succ_of_le (length_toClosing hq)
  · injection h with h
    simp [← h]

theorem length_scanSize (empty : Size) (s : List Char) :
    (scanSize empty s).2.length ≤ s.length := by
  unfold scanSize
  split
  · exact Nat.le_succ _
  · exact (List.dropWhile_sublist _).length_le

theorem length_scanPrecision (s : List Char) : (scanPrecision s).2.length ≤ s.length := by
  unfold scanPrecision
  split
  · exact Nat.le_succ_of_le (length_scanSize _ _)
  · exact Nat.le_refl _

theorem length_skipLength (s : List Char) : (skipLength s).length ≤ s.length := by
  unfold skipLength
  split
  · split
    · exact Nat.le_succ _
    · exact Nat.le_refl _
  · exact Nat.le_refl _

theorem length_scanDirective? {s : List Char} {p : Directive × List Char}
    (h : scanDirective? s = some p) : p.2.length ≤ s.length := by
  simp only [scanDirective?, Option.bind_eq_some_iff] at h
  obtain ⟨n, hn, h⟩ := h
  have h1 := length_scanName? hn
  have h2 : (n.2.dropWhile isFlag).length ≤ n.2.length := (List.dropWhile_sublist _).length_le
  have h3 := length_scanSize .absent (n.2.dropWhile isFlag)
  have h4 := length_scanPrecision (scanSize .absent (n.2.dropWhile isFlag)).2
  have h5 := length_skipLength (scanPrecision (scanSize .absent (n.2.dropWhile isFlag)).2).2
  split at h
  · simp at h
  · next c r hr =>
    injection h with h
    rw [hr, List.length_cons] at h5
    rw [← h]
    simp only
    omega

/-- What follows a piece is no longer than what followed its percent sign. -/
theorem length_scanPiece? {s : List Char} {p : Piece × List Char} (h : scanPiece? s = some p) :
    p.2.length ≤ s.length := by
  unfold scanPiece? at h
  split at h
  · injection h with h
    rw [← h]
    exact Nat.le_succ _
  · simp only [Option.map_eq_some_iff] at h
    obtain ⟨q, hq, rfl⟩ := h
    exact length_scanDirective? hq

/-- The pieces of a template; a directive that is cut off makes it none. -/
def pieces? (s : List Char) : Option (List Piece) :=
  match s with
  | [] => some []
  | c :: r =>
    if c = '%' then
      match h : scanPiece? r with
      | none => none
      | some p =>
        have : p.2.length ≤ r.length := length_scanPiece? h
        (pieces? p.2).map fun ps => p.1 :: ps
    else
      (pieces? r).map fun ps => .char c :: ps
  termination_by s.length
  decreasing_by
    · exact Nat.lt_succ_of_le this
    · exact Nat.lt_succ_self _

/-- What is left of the arguments: values to be taken in turn, or a mapping. -/
inductive Arguments
  | sequence (rest : List Value)
  | named (entries : List (Value × Value)) (next : Option Value)

namespace Arguments

/-- A mapping with entries that is the only argument is used by name. -/
def ofList (args : List Value) : Arguments :=
  match args with
  | [.mapping kind es] =>
    if es.isEmpty then .sequence args else .named es (some (.mapping kind es))
  | _ => .sequence args

/-- The next argument by position, and those after it; a mapping counts as one. -/
def next? : Arguments → Option (Value × Arguments)
  | sequence (v :: r) => some (v, sequence r)
  | sequence [] => none
  | named es (some v) => some (v, named es none)
  | named _ none => none

/-- Makes the value of a name the next one. -/
def select? (name : Option String) (args : Arguments) : Option Arguments :=
  match name, args with
  | none, args => some args
  | some k, named es _ => (Value.lookup? (.text k) es).map fun v => named es (some v)
  | some _, sequence _ => none

/-- Whether no value is left that should have been used. -/
def isUsed : Arguments → Bool
  | sequence rest => rest.isEmpty
  | named .. => true

/-- A size within the limit. -/
def limited? (n : Int) (args : Arguments) : Option (Option Int × Arguments) :=
  if n.natAbs < sizeLimit then some (some n, args) else none

/-- A size, taken from the arguments if the directive says so. -/
def size? (s : Size) (args : Arguments) : Option (Option Int × Arguments) :=
  match s with
  | .absent => some (none, args)
  | .number n => limited? n args
  | .argument =>
    match args.next? with
    | some (.int n, rest) => limited? n rest
    | some (.bool b, rest) => limited? (if b then 1 else 0) rest
    | _ => none

end Arguments

/-- A directive whose sizes are known. -/
structure Slot where
  left : Bool
  plus : Bool
  blank : Bool
  alternate : Bool
  zero : Bool
  width : Nat
  precision : Option Nat
  letter : Char

/-- A negative width sets the value to the left. -/
def slot (d : Directive) (width precision : Option Int) : Slot :=
  let w := width.getD 0
  ⟨d.flags.contains '-' || w < 0, d.flags.contains '+', d.flags.contains ' ',
    d.flags.contains '#', d.flags.contains '0', w.natAbs, precision.map Int.toNat, d.letter⟩

/-- Whether a written base stands before the digits. -/
def Slot.isBased (p : Slot) : Bool :=
  p.alternate && (p.letter = 'x' || p.letter = 'X' || p.letter = 'o')

/-- The sign of a number and the rest of it. -/
def Slot.splitSign (p : Slot) (cs : List Char) : List Char × List Char :=
  match cs with
  | '-' :: r => (['-'], r)
  | '+' :: r => (['+'], r)
  | r => (if p.plus then ['+'] else if p.blank then [' '] else [], r)

/-- A number set into its width; zeros go between sign and digits. -/
def Slot.setNumber (p : Slot) (cs : List Char) : List Char :=
  let s := p.splitSign cs
  let head := s.1 ++ (if p.isBased then s.2.take 2 else [])
  let tail := if p.isBased then s.2.drop 2 else s.2
  if p.left then Digits.padRight p.width ' ' (head ++ tail)
  else if p.zero then head ++ Digits.padLeft (p.width - head.length) '0' tail
  else Digits.padLeft p.width ' ' (head ++ tail)

/-- A text set into its width. -/
def Slot.setText (p : Slot) (cs : List Char) : List Char :=
  if p.left then Digits.padRight p.width ' ' cs else Digits.padLeft p.width ' ' cs

/-- The integer of a number; the fraction of a float is cut off. -/
def truncated? : Value → Option Int
  | .bool b => some (if b then 1 else 0)
  | .int n => some n
  | .float (.finite negative b) =>
    let r := Double.ratio b
    let n : Int := (r.1 / r.2 : Nat)
    some (if negative then -n else n)
  | _ => none

/-- The float of a number. -/
def float? : Value → Option Double
  | .float x => some x
  | .bool b => some (Double.ofRatio false (if b then 1 else 0) 1)
  | .int n =>
    match Double.ofRatio (n < 0) n.natAbs 1 with
    | .infinity _ => none
    | x => some x
  | _ => none

/-- Digits of an integer with as many zeros as the precision asks for. -/
def Slot.integer (p : Slot) (base : List Char) (negative : Bool) (ds : List Char) : List Char :=
  (if negative then ['-'] else []) ++ base ++ Digits.padLeft (p.precision.getD 0) '0' ds

/-- An integer in a base that is a power of two. -/
def Slot.based (p : Slot) (base : Nat) (n : Int) : List Char :=
  p.integer (if p.alternate then ['0', p.letter.toLower] else []) (n < 0)
    (Nat.toDigits base n.natAbs)

/-- Letters of ASCII as capitals. -/
def upper (cs : List Char) : List Char :=
  cs.map Char.toUpper

/-- A float by the letter of its form. -/
def Slot.float (p : Slot) (x : Double) : List Char :=
  let precision := p.precision.getD 6
  let form := p.letter.toLower
  let written :=
    if form = 'e' then Fixed.signed (Fixed.scientific p.alternate precision) x
    else if form = 'g' then Fixed.signed (Fixed.general p.alternate precision) x
    else Fixed.signed (Fixed.positional p.alternate precision) x
  if p.letter.isUpper then upper written else written

/-- A text in which characters that are not ASCII are escaped. -/
def asciiOnly (cs : List Char) : List Char :=
  cs.flatMap fun c => if c.toNat < 0x80 then [c] else Quoted.codePoint c.toNat

/-- The character that a text of one character or a code point stands for. -/
def character? : Value → Option Char
  | .text s =>
    match s.toList with
    | [c] => some c
    | _ => none
  | v =>
    match v with
    | .float _ => none
    | v => (truncated? v).bind fun n =>
        if 0 ≤ n ∧ n.toNat.isValidChar then some (Char.ofNat n.toNat) else none

/-- The form that a letter asks for. -/
inductive Form
  | display
  | literal
  | ascii
  | character
  | decimal
  | based (base : Nat)
  | float

/-- The form that a letter asks for. -/
def form? (letter : Char) : Option Form :=
  match letter with
  | 's' => some .display
  | 'r' => some .literal
  | 'a' => some .ascii
  | 'c' => some .character
  | 'd' | 'i' | 'u' => some .decimal
  | 'o' => some (.based 8)
  | 'x' | 'X' => some (.based 16)
  | 'e' | 'E' | 'f' | 'F' | 'g' | 'G' => some .float
  | _ => none

/-- A text cut to the precision. -/
def Slot.cut (p : Slot) (cs : List Char) : List Char :=
  match p.precision with
  | some n => cs.take n
  | none => cs

/-- The characters of a text, if there is one. -/
def charsOf? (s : Except TooManyDigits String) : Option (List Char) :=
  s.toOption.map String.toList

/-- A value in the place of a directive. -/
def Slot.write? (p : Slot) (v : Value) : Option (List Char) :=
  match form? p.letter with
  | none => none
  | some .display => (charsOf? v.display).map fun cs => p.setText (p.cut cs)
  | some .literal => (charsOf? v.literal).map fun cs => p.setText (p.cut cs)
  | some .ascii => (charsOf? v.literal).map fun cs => p.setText (p.cut (asciiOnly cs))
  | some .character => (character? v).map fun c => p.setText [c]
  | some .decimal =>
    (truncated? v).bind fun n =>
      if Digits.withinLimit n then
        some (p.setNumber (p.integer [] (n < 0) (Digits.decimal n.natAbs)))
      else
        none
  | some (.based base) =>
    match v with
    | .float _ => none
    | v => (truncated? v).map fun n =>
        let cs := p.based base n
        p.setNumber (if p.letter = 'X' then upper cs else cs)
  | some .float => (float? v).map fun x => p.setNumber (p.float x)

/-- A directive with its arguments, and the arguments that are left. -/
def write? (d : Directive) (args : Arguments) : Option (List Char × Arguments) := do
  let args ← args.select? d.name
  let (width, args) ← args.size? d.width
  let (precision, args) ← args.size? d.precision
  let (v, args) ← args.next?
  let cs ← (slot d width precision).write? v
  some (cs, args)

/-- The text of pieces, if the arguments fit and are all used. -/
def fillPieces? : List Piece → Arguments → Option (List Char)
  | [], args => if args.isUsed then some [] else none
  | .char c :: ps, args => (fillPieces? ps args).map (c :: ·)
  | .directive d :: ps, args =>
    (write? d args).bind fun p => (fillPieces? ps p.2).map (p.1 ++ ·)

/-- The text of a template with its arguments; without arguments it is the template itself. -/
def fill? (template : String) (args : List Value) : Option String :=
  if args.isEmpty then
    some template
  else
    (pieces? template.toList).bind fun ps =>
      (fillPieces? ps (.ofList args)).map String.ofList

end Nullary.Template
