import Nullary.Number.Digits

/-!
# Strict UTF-8

`Utf8.decode` turns bytes into characters.  Overlong forms, surrogates and code points beyond the
last one are refused.  The failure names the bytes that start a character and fit no well-formed
one: their position, their number, and whether the first byte, a later byte or the end of the input
is at fault.
-/

namespace Nullary.Utf8

/-- What is wrong with bytes that encode nothing. -/
inductive Reason
  | invalidStart
  | invalidContinuation
  | unexpectedEnd
  deriving DecidableEq

/-- Bytes at `start`, `length` of them, that are no beginning of a well-formed character. -/
structure Failure where
  start : Nat
  length : Nat
  first : UInt8
  reason : Reason
  deriving DecidableEq

namespace Reason

/-- A reason in words. -/
def message : Reason → String
  | invalidStart => "invalid start byte"
  | invalidContinuation => "invalid continuation byte"
  | unexpectedEnd => "unexpected end of data"

end Reason

/--
How many bytes follow a first byte, and the range of the second; `none` for a byte that starts no
character.  The narrow ranges exclude overlong forms, surrogates and code points that are too large.
-/
def shape? (b : UInt8) : Option (Nat × UInt8 × UInt8) :=
  if b < 0x80 then some (0, 0, 0)
  else if b < 0xc2 then none
  else if b < 0xe0 then some (1, 0x80, 0xbf)
  else if b = 0xe0 then some (2, 0xa0, 0xbf)
  else if b = 0xed then some (2, 0x80, 0x9f)
  else if b < 0xf0 then some (2, 0x80, 0xbf)
  else if b = 0xf0 then some (3, 0x90, 0xbf)
  else if b < 0xf4 then some (3, 0x80, 0xbf)
  else if b = 0xf4 then some (3, 0x80, 0x8f)
  else none

/-- The bits a first byte of a character of `more + 1` bytes contributes. -/
def leadBits (more : Nat) (b : UInt8) : Nat :=
  match more with
  | 0 => b.toNat
  | 1 => b.toNat % 32
  | 2 => b.toNat % 16
  | _ => b.toNat % 8

/--
Reads the continuation bytes of one character.  `need` bytes are missing, `seen` have been read,
`low` to `high` is the range of the next, `code` are the bits so far.
-/
def continue? (start : Nat) (first : UInt8) :
    (need seen : Nat) → (low high : UInt8) → (code : Nat) → List UInt8 →
      Except Failure (Nat × List UInt8)
  | 0, _, _, _, code, bs => .ok (code, bs)
  | _ + 1, seen, _, _, _, [] => .error ⟨start, seen, first, .unexpectedEnd⟩
  | need + 1, seen, low, high, code, b :: bs =>
    if low ≤ b ∧ b ≤ high then
      continue? start first need (seen + 1) 0x80 0xbf (code * 64 + b.toNat % 64) bs
    else
      .error ⟨start, seen, first, .invalidContinuation⟩

theorem length_continue? {start : Nat} {first : UInt8} {need seen : Nat} {low high : UInt8}
    {code : Nat} {bs : List UInt8} {r : Nat × List UInt8}
    (h : continue? start first need seen low high code bs = .ok r) :
    r.2.length + need = bs.length := by
  induction need generalizing seen low high code bs with
  | zero =>
    simp only [continue?, Except.ok.injEq] at h
    simp [← h]
  | succ need ih =>
    cases bs with
    | nil => simp [continue?] at h
    | cons b bs =>
      simp only [continue?] at h
      split at h
      · have := ih h
        simp only [List.length_cons]
        omega
      · simp at h

/-- Decodes the bytes from position `start` on. -/
def decodeFrom (start : Nat) (bs : List UInt8) : Except Failure (List Char) :=
  match bs with
  | [] => .ok []
  | b :: rest =>
    match shape? b with
    | none => .error ⟨start, 1, b, .invalidStart⟩
    | some (more, low, high) =>
      match _h : continue? start b more 1 low high (leadBits more b) rest with
      | .error e => .error e
      | .ok (code, rest') =>
        match decodeFrom (start + more + 1) rest' with
        | .error e => .error e
        | .ok cs => .ok (Char.ofNat code :: cs)
  termination_by bs.length
  decreasing_by
    have := length_continue? _h
    simp only [List.length_cons] at this ⊢
    omega

/-- The characters that bytes encode. -/
def decode (bs : List UInt8) : Except Failure (List Char) :=
  decodeFrom 0 bs

namespace Failure

/-- Where the failure is and what the reason is, as a reader of the bytes reports it. -/
def message (f : Failure) : String :=
  let place :=
    if f.length = 1 then
      "byte 0x" ++ String.ofList (Digits.hex 2 f.first.toNat) ++ " in position " ++ toString f.start
    else
      "bytes in position " ++ toString f.start ++ "-" ++ toString (f.start + f.length - 1)
  "'utf-8' codec can't decode " ++ place ++ ": " ++ f.reason.message

/-- The same failure as a writer that expected text reports it. -/
def sequenceMessage (f : Failure) : String :=
  match f.reason with
  | .unexpectedEnd => "incomplete utf-8 byte sequence from index " ++ toString f.start
  | _ =>
    "invalid utf-8 sequence of " ++ toString f.length ++ " bytes from index " ++ toString f.start

end Failure

end Nullary.Utf8
