import Nullary.Text.Newline
import Nullary.Toml.Scalar

/-!
# Reading TOML

`Toml.parse` reads a text as a document.  Values nest, though not without end; statements are read
one after another into the table of the document.  Beside the table a reader keeps which names are
closed to later statements: tables that were declared or dotted into (`declared`), and inline tables
and arrays, which nothing can be added to at any depth (`frozen`).
-/

namespace Nullary.Toml

/-- Puts an item under a key of an inline table. -/
def putInline (k : Key) (v : Toml) (t : Table) : Except Table.PutError Table :=
  Table.descend false (Table.putNew (k.getLastD "") v) k.dropLast t

/-- Whether a key is one of the frozen ones or leads into one. -/
def isFrozen (frozen : List Key) (k : Key) : Bool :=
  frozen.any fun f => f.isPrefixOf k

/--
The room that a pair has for its value; values that nest deeper than it allows are not read.  There
may be 1000 calls one in another, of which the callers of the reader take 14.
-/
def wholeRoom : Nat := 986

/-- The room that an array takes. -/
def arrayRoom : Nat := 2

/-- The room that an inline table takes. -/
def tableRoom : Nat := 3

mutual

/-- A value of any kind, with room for values inside. -/
def value (room : Nat) (s : List Char) : Except Stop (Step Toml s) :=
  match quoted s with
  | .error e => .error e
  | .ok (some p) => .ok (p.map fun cs => .text (String.ofList cs))
  | .ok none =>
    match s with
    | '[' :: r =>
      if room < arrayRoom then
        .error .tooDeep
      else
        match h : skipFill false r with
        | .error e => .error e
        | .ok (']' :: r') => .ok ⟨.array [], r', by
            have := length_skipFill h
            simp only [List.length_cons] at this ⊢
            omega⟩
        | .ok r' =>
          have hl : r'.length ≤ r.length := length_skipFill h
          (items (room - arrayRoom) r').map fun p =>
            (p.map Toml.array).widen (by simp only [List.length_cons]; omega)
    | '\x7b' :: r =>
      if room < tableRoom then
        .error .tooDeep
      else
        have hl := length_skipBlanks r
        match h : skipBlanks r with
        | '\x7d' :: r' => .ok ⟨.table [], r', by
            rw [h] at hl
            simp only [List.length_cons] at hl ⊢
            omega⟩
        | _ =>
          (members (room - tableRoom) [] [] (skipBlanks r)).map fun p =>
            (p.map Toml.table).widen (by simp only [List.length_cons]; omega)
    | s => scalar s
  termination_by (s.length, 0)
  decreasing_by
    all_goals
      apply Prod.Lex.left
      simp only [List.length_cons]
      omega

/-- The elements of an array, up to and including the closing bracket. -/
def items (room : Nat) (s : List Char) : Except Stop (Step (List Toml) s) :=
  match value room s with
  | .error e => .error e
  | .ok p =>
    have h1 := p.shorter
    match h2 : skipFill false p.rest with
    | .error e => .error e
    | .ok (']' :: r) => .ok ⟨[p.value], r, by
        have := length_skipFill h2
        simp only [List.length_cons] at this
        omega⟩
    | .ok (',' :: r) =>
      match h3 : skipFill false r with
      | .error e => .error e
      | .ok (']' :: r') => .ok ⟨[p.value], r', by
          have := length_skipFill h2
          have := length_skipFill h3
          simp only [List.length_cons] at *
          omega⟩
      | .ok r' =>
        have hlt : r'.length < s.length := by
          have := length_skipFill h2
          have := length_skipFill h3
          simp only [List.length_cons] at *
          omega
        (items room r').map fun q => (q.map (p.value :: ·)).widen (Nat.le_of_lt hlt)
    | .ok r => .error (.wrong r.length .unclosedArray)
  termination_by (s.length, 1)
  decreasing_by
    · exact Prod.Lex.right _ (by omega)
    · exact Prod.Lex.left _ _ hlt

/-- The members of an inline table from the next key on, up to and including the closing brace. -/
def members (room : Nat) (t : Table) (frozen : List Key) (s : List Char) :
    Except Stop (Step Table s) :=
  match key s with
  | .error e => .error e
  | .ok k =>
    have h1 := k.shorter
    match hk : k.rest with
    | '=' :: r =>
      have h2 := length_skipBlanks r
      have hlt : (skipBlanks r).length < s.length := by
        rw [hk] at h1
        simp only [List.length_cons] at h1
        omega
      match value room (skipBlanks r) with
      | .error e => .error e
      | .ok p =>
        have h3 := p.shorter
        have h4 := length_skipBlanks p.rest
        if isFrozen frozen k.value then
          .error (.wrong p.rest.length (.immutable k.value))
        else
          match putInline k.value p.value t with
          | .error .notTable => .error (.wrong p.rest.length .overwritten)
          | .error .present => .error (.wrong p.rest.length (.duplicate (k.value.getLastD "")))
          | .ok t' =>
            match hp : skipBlanks p.rest with
            | '\x7d' :: r' => .ok ⟨t', r', by
                rw [hp] at h4
                simp only [List.length_cons] at h4
                omega⟩
            | ',' :: r' =>
              have h5 := length_skipBlanks r'
              have hlt' : (skipBlanks r').length < s.length := by
                rw [hp] at h4
                simp only [List.length_cons] at h4
                omega
              let frozen' := if p.value.isContainer then k.value :: frozen else frozen
              (members room t' frozen' (skipBlanks r')).map fun q => q.widen (Nat.le_of_lt hlt')
            | r' => .error (.wrong r'.length .unclosedTable)
    | r => .error (.wrong r.length .equals)
  termination_by (s.length, 1)
  decreasing_by
    · exact Prod.Lex.left _ _ hlt
    · exact Prod.Lex.left _ _ hlt'

end

/-- A document as far as it is read. -/
structure Draft where
  table : Table
  /-- The table that key/value pairs go into. -/
  header : Key
  /-- Tables that cannot be declared again. -/
  declared : List Key
  /-- Tables dotted into by pairs; they count as declared from the next header on. -/
  pending : List Key
  /-- Inline tables and arrays. -/
  frozen : List Key

namespace Draft

/-- A document before its first statement. -/
def empty : Draft := ⟨[], [], [], [], []⟩

/-- The tables that pairs have dotted into become declared ones. -/
def settle (d : Draft) : Draft :=
  { d with declared := d.declared ++ d.pending, pending := [] }

/-- The longer and longer beginnings of a key, without the key itself. -/
def properPrefixes (k : Key) : List Key :=
  (List.range (k.length - 1)).map fun i => k.take (i + 1)

/-- Adds a pair below the current header. -/
def addPair (k : Key) (v : Toml) (d : Draft) : Except Cause Draft :=
  let parent := d.header ++ k.dropLast
  let through := (properPrefixes k).map fun p => d.header ++ p
  match through.find? d.declared.contains with
  | some p => .error (.redefined p)
  | none =>
    if isFrozen d.frozen parent then
      .error (.immutable parent)
    else
      match Table.descend true (Table.putNew (k.getLastD "") v) parent d.table with
      | .error _ => .error .overwritten
      | .ok t =>
        let frozen := if v.isContainer then (d.header ++ k) :: d.frozen else d.frozen
        .ok { d with table := t, pending := d.pending ++ through, frozen := frozen }

/-- Declares a table and makes it the current one. -/
def openTable (k : Key) (d : Draft) : Except Cause Draft :=
  if d.declared.contains k ∨ isFrozen d.frozen k then
    .error (.declaredTwice k)
  else
    match Table.descend true .ok k d.table with
    | .error _ => .error .overwritten
    | .ok t => .ok { d with table := t, header := k, declared := d.declared ++ [k] }

/-- Adds a table to an array of tables and makes it the current one; names below are free again. -/
def openElement (k : Key) (d : Draft) : Except Cause Draft :=
  if isFrozen d.frozen k then
    .error (.immutable k)
  else
    match Table.descend true (Table.append (k.getLastD "")) k.dropLast d.table with
    | .error _ => .error .overwritten
    | .ok t =>
      let free := fun (p : Key) => !k.isPrefixOf p
      .ok { d with
        table := t
        header := k
        declared := d.declared.filter free ++ [k]
        frozen := d.frozen.filter free }

end Draft

/-- A pair and what it does to the draft. -/
def pair (d : Draft) (s : List Char) : Except Stop (Step Draft s) :=
  match key s with
  | .error e => .error e
  | .ok k =>
    match hk : k.rest with
    | '=' :: r =>
      match value wholeRoom (skipBlanks r) with
      | .error e => .error e
      | .ok p =>
        match d.addPair k.value p.value with
        | .error c => .error (.wrong p.rest.length c)
        | .ok d' => .ok ⟨d', p.rest, by
            have h1 := k.shorter
            have h2 := length_skipBlanks r
            have h3 := p.shorter
            rw [hk] at h1
            simp only [List.length_cons] at h1
            omega⟩
    | r => .error (.wrong r.length .equals)

/-- The header of a table, after its opening bracket. -/
def tableHeader (d : Draft) (s : List Char) : Except Stop (Step Draft s) :=
  match key (skipBlanks s) with
  | .error e => .error e
  | .ok k =>
    match d.openTable k.value with
    | .error c => .error (.wrong k.rest.length c)
    | .ok d' =>
      match hk : k.rest with
      | ']' :: r => .ok ⟨d', r, by
          have h1 := k.shorter
          have h2 := length_skipBlanks s
          rw [hk] at h1
          simp only [List.length_cons] at h1
          omega⟩
      | r => .error (.wrong r.length .tableEnd)

/-- The header of an element of an array of tables, after its opening brackets. -/
def elementHeader (d : Draft) (s : List Char) : Except Stop (Step Draft s) :=
  match key (skipBlanks s) with
  | .error e => .error e
  | .ok k =>
    match d.openElement k.value with
    | .error c => .error (.wrong k.rest.length c)
    | .ok d' =>
      match hk : k.rest with
      | ']' :: ']' :: r => .ok ⟨d', r, by
          have h1 := k.shorter
          have h2 := length_skipBlanks s
          rw [hk] at h1
          simp only [List.length_cons] at h1
          omega⟩
      | r => .error (.wrong r.length .arrayTableEnd)

/-- One statement, and what it does to the draft. -/
def statement (d : Draft) (s : List Char) : Except Stop (Step Draft s) :=
  match s with
  | '[' :: '[' :: r =>
    (elementHeader d.settle r).map fun p => p.widen (Nat.le_add_right _ 2)
  | '[' :: r => (tableHeader d.settle r).map fun p => p.widen (Nat.le_add_right _ 1)
  | c :: r =>
    if startsKey c then pair d (c :: r) else .error (.wrong (c :: r).length .statement)
  | [] => .error (.wrong 0 .statement)

/-- The next line after the end of the present one, if there is one. -/
def nextLine? (s : List Char) : Except Stop (Option (Step Unit s)) :=
  match h : skipComment (skipBlanks s) with
  | .error e => .error e
  | .ok [] => .ok none
  | .ok (c :: r) =>
    if c = '\n' then
      .ok (some ⟨(), r, by
        have h1 := length_skipBlanks s
        have h2 := length_skipComment h
        simp only [List.length_cons] at h2
        omega⟩)
    else
      .error (.wrong (c :: r).length .lineEnd)

/-- Reads statements, one on a line, until the text ends. -/
def statements (d : Draft) (s : List Char) : Except Stop Draft :=
  match hs : skipBlanks s with
  | [] => .ok d
  | c :: r =>
    have hb : (c :: r).length ≤ s.length := hs ▸ length_skipBlanks s
    if c = '\n' ∨ c = '#' then
      match nextLine? (c :: r) with
      | .error e => .error e
      | .ok none => .ok d
      | .ok (some n) =>
        have : n.rest.length < s.length := Nat.lt_of_lt_of_le n.shorter hb
        statements d n.rest
    else
      match statement d (c :: r) with
      | .error e => .error e
      | .ok p =>
        match nextLine? p.rest with
        | .error e => .error e
        | .ok none => .ok p.value
        | .ok (some n) =>
          have : n.rest.length < s.length :=
            Nat.lt_trans n.shorter (Nat.lt_of_lt_of_le p.shorter hb)
          statements p.value n.rest
  termination_by s.length

/-- Reads a text as a document; pairs of carriage return and line feed are line ends. -/
def parse (s : String) : Except Failure Table :=
  let cs := Newline.joinPairs s.toList
  match statements .empty cs with
  | .ok d => .ok d.table
  | .error e => .error (Failure.ofStop cs e)

end Nullary.Toml
