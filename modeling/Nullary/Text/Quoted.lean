import Nullary.Number.Digits
import Nullary.Text.Printable

/-!
# Quoted text

`Quoted.quote` writes a text between quotation marks so that every character of the result is
printable.  The mark is an apostrophe, or a double quote for a text that has apostrophes and no
double quote; the mark and the backslash are preceded by a backslash, line feed, carriage return
and tab have letters of their own, and what is not printable is written as its code point in two,
four or eight hexadecimal digits.
-/

namespace Nullary.Quoted

/-- The mark that is used where nothing speaks against it. -/
def apostrophe : Char := '\x27'
/-- The mark for texts that have apostrophes. -/
def doubleQuote : Char := '\x22'
/-- The character before those that do not stand for themselves. -/
def backslash : Char := '\x5c'

/-- The mark that `quote` puts around a text. -/
def mark (s : List Char) : Char :=
  if s.contains apostrophe && !s.contains doubleQuote then doubleQuote else apostrophe

/-- A code point in hexadecimal, in the shortest of the three widths that holds it. -/
def codePoint (n : Nat) : List Char :=
  if n < 0x100 then backslash :: 'x' :: Digits.hex 2 n
  else if n < 0x10000 then backslash :: 'u' :: Digits.hex 4 n
  else backslash :: 'U' :: Digits.hex 8 n

/-- How a character stands in a text quoted with `m`. -/
def escape (m c : Char) : List Char :=
  if c = m ∨ c = backslash then [backslash, c]
  else if c = '\n' then [backslash, 'n']
  else if c = '\r' then [backslash, 'r']
  else if c = '\t' then [backslash, 't']
  else if Printable.isPrintable c then [c]
  else codePoint c.toNat

/-- The characters of the quoted form. -/
def quoteChars (s : List Char) : List Char :=
  mark s :: (s.flatMap (escape (mark s)) ++ [mark s])

/-- The quoted form of a text. -/
def quote (s : String) : String :=
  String.ofList (quoteChars s.toList)

/-- How a byte stands in quoted bytes: ASCII as in text, the rest in two hexadecimal digits. -/
def escapeByte (m : Char) (b : UInt8) : List Char :=
  let c := Char.ofNat b.toNat
  if 0x20 ≤ b ∧ b < 0x7f ∨ c = '\n' ∨ c = '\r' ∨ c = '\t' then escape m c
  else codePoint b.toNat

/-- The quoted form of a sequence of bytes, marked by a leading `b`. -/
def quoteBytes (bs : List UInt8) : String :=
  let m := mark (bs.map fun b => Char.ofNat b.toNat)
  String.ofList ('b' :: m :: (bs.flatMap (escapeByte m) ++ [m]))

end Nullary.Quoted
