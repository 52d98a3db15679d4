/-!
# Line ends

Text files end their lines with a line feed, a carriage return or both.  `Newline.normalize` turns
every line end into one line feed; `Newline.joinPairs` turns only the pairs.
-/

namespace Nullary.Newline

/-- Every line end becomes a line feed, also a carriage return that stands alone. -/
def normalize : List Char → List Char
  | '\r' :: '\n' :: r => '\n' :: normalize r
  | '\r' :: r => '\n' :: normalize r
  | c :: r => c :: normalize r
  | [] => []

/-- A carriage return followed by a line feed becomes a line feed; nothing else changes. -/
def joinPairs : List Char → List Char
  | '\r' :: '\n' :: r => '\n' :: joinPairs r
  | c :: r => c :: joinPairs r
  | [] => []

end Nullary.Newline
