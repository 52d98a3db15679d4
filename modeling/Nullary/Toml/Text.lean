import Nullary.Text.Step
import Nullary.Toml.Stop

/-!
# Blanks, comments, texts and keys of TOML

The pieces of a TOML document below the level of values.
-/

namespace Nullary.Toml

/-- Control characters; a tab is none of them. -/
def isControl (c : Char) : Bool :=
  (c.toNat < 0x20 && c != '\t') || c.toNat == 0x7f

/-- Control characters other than line feeds. -/
def isControlInLines (c : Char) : Bool :=
  isControl c && c != '\n'

/-- The characters between the parts of a line. -/
def isBlank (c : Char) : Bool :=
  c = ' ' || c = '\t'

/-- The characters between the parts of an array. -/
def isBlankOrNewline (c : Char) : Bool :=
  isBlank c || c = '\n'

/-- What follows the blanks at the beginning. -/
def skipBlanks (s : List Char) : List Char :=
  s.dropWhile isBlank

theorem length_skipBlanks (s : List Char) : (skipBlanks s).length ≤ s.length :=
  Step.length_dropWhile_le isBlank s

/-- Goes to the end of the line; a comment holds no control characters. -/
def toLineEnd : List Char → Except Stop (List Char)
  | [] => .ok []
  | c :: r =>
    if c = '\n' then .ok (c :: r)
    else if isControl c then .error (.wrong (c :: r).length (.invalid c))
    else toLineEnd r

theorem length_toLineEnd {s t : List Char} (h : toLineEnd s = .ok t) : t.length ≤ s.length := by
  induction s with
  | nil => simp_all [toLineEnd]
  | cons c r ih =>
    simp only [toLineEnd] at h
    split at h
    · injection h with h
      simp [← h]
    · split at h
      · simp at h
      · have := ih h
        simp only [List.length_cons]
        omega

/-- Passes over a comment, if one follows. -/
def skipComment (s : List Char) : Except Stop (List Char) :=
  match s with
  | '#' :: r => toLineEnd r
  | _ => .ok s

theorem length_skipComment {s t : List Char} (h : skipComment s = .ok t) :
    t.length ≤ s.length := by
  unfold skipComment at h
  split at h
  · have := length_toLineEnd h
    simp only [List.length_cons]
    omega
  · injection h with h
    simp [h]

/-- Passes over blanks, line ends and comments between the elements of an array. -/
def skipFill (inComment : Bool) : List Char → Except Stop (List Char)
  | [] => .ok []
  | c :: r =>
    if inComment then
      if c = '\n' then skipFill false r
      else if isControl c then .error (.wrong (c :: r).length (.invalid c))
      else skipFill true r
    else if isBlankOrNewline c then skipFill false r
    else if c = '#' then skipFill true r
    else .ok (c :: r)

theorem length_skipFill {b : Bool} {s t : List Char} (h : skipFill b s = .ok t) :
    t.length ≤ s.length := by
  induction s generalizing b with
  | nil => simp_all [skipFill]
  | cons c r ih =>
    simp only [skipFill] at h
    have hlt : ∀ b', skipFill b' r = .ok t → t.length ≤ (c :: r).length := fun b' hb => by
      have hle := ih hb
      simp only [List.length_cons]
      omega
    split at h
    · split at h
      · exact hlt false h
      · split at h
        · simp at h
        · exact hlt true h
    · split at h
      · exact hlt false h
      · split at h
        · exact hlt true h
        · injection h with h
          simp [← h]

/-- The text before the first occurrence of a mark, and the text after it. -/
def splitAt? (mark : List Char) (s : List Char) : Option (List Char × List Char) :=
  if mark.isPrefixOf s then
    some ([], s.drop mark.length)
  else
    match s with
    | [] => none
    | c :: r => (splitAt? mark r).map fun p => (c :: p.1, p.2)

/-- Text up to a mark, as it stands; without the mark the whole rest of the text is at fault. -/
def literalBody (mark : List Char) (bad : Char → Bool) (s : List Char) :
    Except Stop (List Char × List Char) :=
  match splitAt? mark s with
  | none => .error (.wrong 0 (.expected (String.ofList mark)))
  | some (body, after) =>
    match body.dropWhile (fun c => !bad c) with
    | [] => .ok (body, after)
    | c :: r => .error (.wrong (r.length + 1 + mark.length + after.length) (.invalid c))

theorem length_splitAt? {mark s : List Char} {p : List Char × List Char}
    (h : splitAt? mark s = some p) : p.2.length ≤ s.length := by
  induction s generalizing p with
  | nil =>
    unfold splitAt? at h
    split at h
    · injection h with h
      simp [← h]
    · simp at h
  | cons c r ih =>
    unfold splitAt? at h
    split at h
    · injection h with h
      simp only [← h, List.length_drop, List.length_cons]
      omega
    · simp only [Option.map_eq_some_iff] at h
      obtain ⟨q, hq, rfl⟩ := h
      have := ih hq
      simp only [List.length_cons]
      omega

theorem length_literalBody {mark : List Char} {bad : Char → Bool} {s : List Char}
    {p : List Char × List Char} (h : literalBody mark bad s = .ok p) : p.2.length ≤ s.length := by
  unfold literalBody at h
  split at h
  · simp at h
  · next body after hs =>
    have hl := length_splitAt? hs
    split at h
    · injection h with h
      simpa [← h] using hl
    · simp at h

/-- The characters that a backslash and a letter stand for. -/
def simpleEscape? (c : Char) : Option Char :=
  if c = '\x22' ∨ c = '\\' then some c
  else if c = 'b' then some '\x08'
  else if c = 't' then some '\t'
  else if c = 'n' then some '\n'
  else if c = 'f' then some '\x0c'
  else if c = 'r' then some '\r'
  else none

/-- A character by its code point in `width` hexadecimal digits. -/
def codePoint (width : Nat) (s : List Char) : Except Stop (List Char × List Char) :=
  let ds := s.take width
  let r := s.drop width
  if ds.length = width ∧ ds.all (Digits.isDigit 16) then
    let n := Digits.value 16 ds
    if n < 0xd800 ∨ (0xe000 ≤ n ∧ n < 0x110000) then .ok ([Char.ofNat n], r)
    else .error (.wrong r.length .notScalar)
  else
    .error (.wrong s.length .hexValue)

/--
What follows a backslash.  In a text of several lines, a backslash at the end of a line joins it to
the next character that is no blank.
-/
def escape (multiline : Bool) (s : List Char) : Except Stop (List Char × List Char) :=
  match s with
  | [] => .error (.wrong 0 .backslash)
  | c :: r =>
    if multiline ∧ isBlankOrNewline c then
      match skipBlanks (c :: r) with
      | [] => .ok ([], [])
      | d :: t =>
        if d = '\n' then .ok ([], t.dropWhile isBlankOrNewline)
        else .error (.wrong (d :: t).length .backslash)
    else if c = 'u' then codePoint 4 r
    else if c = 'U' then codePoint 8 r
    else
      match simpleEscape? c with
      | some e => .ok ([e], r)
      | none => .error (.wrong r.length .backslash)

theorem length_codePoint {width : Nat} {s : List Char} {p : List Char × List Char}
    (h : codePoint width s = .ok p) : p.2.length ≤ s.length := by
  simp only [codePoint] at h
  split at h
  · split at h
    · injection h with h
      simp only [← h, List.length_drop]
      omega
    · simp at h
  · simp at h

theorem length_escape {multiline : Bool} {s : List Char} {p : List Char × List Char}
    (h : escape multiline s = .ok p) : p.2.length ≤ s.length := by
  unfold escape at h
  split at h
  · simp at h
  · next c r =>
    split at h
    · have hb := length_skipBlanks (c :: r)
      split at h
      · injection h with h
        simp [← h]
      · next d t hd =>
        split at h
        · injection h with h
          have := Step.length_dropWhile_le isBlankOrNewline t
          rw [hd] at hb
          simp only [List.length_cons] at hb ⊢
          simp only [← h]
          omega
        · simp at h
    · split at h
      · have := length_codePoint h
        simp only [List.length_cons]
        omega
      · split at h
        · have := length_codePoint h
          simp only [List.length_cons]
          omega
        · split at h
          · injection h with h
            simp only [← h, List.length_cons]
            omega
          · simp at h

/-- The text after two quotation marks. -/
def afterTwoMarks? : List Char → Option (List Char)
  | '\x22' :: '\x22' :: r => some r
  | _ => none

theorem length_afterTwoMarks? {s t : List Char} (h : afterTwoMarks? s = some t) :
    t.length ≤ s.length := by
  unfold afterTwoMarks? at h
  split at h
  · injection h with h
    simp only [← h, List.length_cons]
    omega
  · simp at h

/-- A text with escapes, after its opening mark, up to and including the closing one. -/
def basicBody (multiline : Bool) (s : List Char) : Except Stop (Step (List Char) s) :=
  match s with
  | [] => .error (.wrong 0 .unterminated)
  | c :: r =>
    if c = '\x22' then
      if multiline then
        match h : afterTwoMarks? r with
        | some r' => .ok ⟨[], r', by
            have := length_afterTwoMarks? h
            simp only [List.length_cons]
            omega⟩
        | none => (basicBody multiline r).map fun p => (p.map (c :: ·)).widen (by simp)
      else
        .ok ⟨[], r, by simp⟩
    else if c = '\\' then
      match h : escape multiline r with
      | .error e => .error e
      | .ok (out, r') =>
        have hl : r'.length ≤ r.length := length_escape h
        (basicBody multiline r').map fun p =>
          (p.map (out ++ ·)).widen (by simp only [List.length_cons]; omega)
    else if (if multiline then isControlInLines c else isControl c) then
      .error (.wrong (c :: r).length (.illegal c))
    else
      (basicBody multiline r).map fun p => (p.map (c :: ·)).widen (by simp)
  termination_by s.length

/-- Up to two more quotation marks right after a text of several lines belong to it. -/
def extraMarks (c : Char) (body s : List Char) : List Char × List Char :=
  match s with
  | a :: b :: r =>
    if a = c ∧ b = c then (body ++ [c, c], r)
    else if a = c then (body ++ [c], b :: r)
    else (body, s)
  | [a] => if a = c then (body ++ [c], []) else (body, s)
  | [] => (body, s)

theorem length_extraMarks (c : Char) (body s : List Char) :
    (extraMarks c body s).2.length ≤ s.length := by
  unfold extraMarks
  repeat' split
  all_goals simp only [List.length_cons, List.length_nil]; omega

/-- A text of several lines does not contain a line end right after its opening mark. -/
def skipFirstNewline (s : List Char) : List Char :=
  match s with
  | '\n' :: r => r
  | _ => s

theorem length_skipFirstNewline (s : List Char) : (skipFirstNewline s).length ≤ s.length := by
  unfold skipFirstNewline
  split <;> simp

/-- A text between apostrophes, after the opening one. -/
def literalText (s : List Char) : Except Stop (List Char × List Char) :=
  literalBody ['\x27'] isControl s

/-- A text between triple apostrophes, after the opening ones. -/
def literalLines (s : List Char) : Except Stop (List Char × List Char) :=
  (literalBody ['\x27', '\x27', '\x27'] isControlInLines (skipFirstNewline s)).map fun p =>
    extraMarks '\x27' p.1 p.2

theorem length_literalLines {s : List Char} {p : List Char × List Char}
    (h : literalLines s = .ok p) : p.2.length ≤ s.length := by
  unfold literalLines at h
  match hb : literalBody ['\x27', '\x27', '\x27'] isControlInLines (skipFirstNewline s) with
  | .error e => simp [hb, Except.map] at h
  | .ok q =>
    rw [hb] at h
    simp only [Except.map, Except.ok.injEq] at h
    have h1 := length_literalBody hb
    have h2 := length_skipFirstNewline s
    have h3 := length_extraMarks '\x27' q.1 q.2
    rw [← h]
    omega

/-- A text in any of the four notations. -/
def quoted (s : List Char) : Except Stop (Option (Step (List Char) s)) :=
  match s with
  | '\x22' :: '\x22' :: '\x22' :: r =>
    (basicBody true (skipFirstNewline r)).map fun p =>
      have h1 := length_skipFirstNewline r
      have h2 := length_extraMarks '\x22' p.value p.rest
      have h3 := p.shorter
      some ⟨(extraMarks '\x22' p.value p.rest).1, (extraMarks '\x22' p.value p.rest).2, by
        simp only [List.length_cons]
        omega⟩
  | '\x22' :: r => (basicBody false r).map fun p => some (p.widen (by simp))
  | '\x27' :: '\x27' :: '\x27' :: r =>
    match h : literalLines r with
    | .error e => .error e
    | .ok p => .ok (some ⟨p.1, p.2, by
        have := length_literalLines h
        simp only [List.length_cons]
        omega⟩)
  | '\x27' :: r =>
    match h : literalText r with
    | .error e => .error e
    | .ok p => .ok (some ⟨p.1, p.2, by
        have := length_literalBody h
        simp only [List.length_cons]
        omega⟩)
  | _ => .ok none

/-- The characters of names that need no quotation marks. -/
def isBare (c : Char) : Bool :=
  c.isAlphanum || c = '-' || c = '_'

/-- Whether a key can begin with a character. -/
def startsKey (c : Char) : Bool :=
  isBare c || c = '\x22' || c = '\x27'

/-- One name of a key: bare, or a text on one line. -/
def keyPart (s : List Char) : Except Stop (Step String s) :=
  match s with
  | [] => .error (.wrong 0 .keyStart)
  | c :: r =>
    if isBare c then
      .ok ⟨String.ofList (c :: r.takeWhile isBare), r.dropWhile isBare, by
        have := Step.length_dropWhile_le isBare r
        simp only [List.length_cons]
        omega⟩
    else if c = '\x27' then
      match h : literalText r with
      | .error e => .error e
      | .ok p => .ok ⟨String.ofList p.1, p.2, by
          have := length_literalBody h
          simp only [List.length_cons]
          omega⟩
    else if c = '\x22' then
      (basicBody false r).map fun p => (p.map String.ofList).widen (by simp)
    else
      .error (.wrong (c :: r).length .keyStart)

/-- A key: names with dots between them, and the blanks after it. -/
def key (s : List Char) : Except Stop (Step Key s) :=
  match keyPart s with
  | .error e => .error e
  | .ok p =>
    have h1 := p.shorter
    have h2 := length_skipBlanks p.rest
    match hr : skipBlanks p.rest with
    | '.' :: r =>
      have h3 := length_skipBlanks r
      have hlt : (skipBlanks r).length < s.length := by
        rw [hr] at h2
        simp only [List.length_cons] at h2
        omega
      (key (skipBlanks r)).map fun q =>
        (q.map (p.value :: ·)).widen (Nat.le_of_lt hlt)
    | r => .ok ⟨[p.value], r, by
        rw [hr] at h2
        omega⟩
  termination_by s.length

end Nullary.Toml
