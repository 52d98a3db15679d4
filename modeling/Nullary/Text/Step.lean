/-!
# Steps of a reader

A reader goes through a text from the left.  Each of its steps answers with what it has read, what
is left, and the fact that less is left than before, so that a reader made of steps comes to an
end.
-/

namespace Nullary

/-- What has been read at the beginning of `s`, and a shorter rest. -/
structure Step (α : Type) (s : List Char) where
  value : α
  rest : List Char
  shorter : rest.length < s.length

namespace Step

/-- A step at the beginning of a later part of a text is one of the whole text. -/
def widen {α : Type} {s t : List Char} (h : t.length ≤ s.length) (p : Step α t) : Step α s :=
  ⟨p.value, p.rest, Nat.lt_of_lt_of_le p.shorter h⟩

/-- A step with something else made of what it has read. -/
def map {α β : Type} {s : List Char} (f : α → β) (p : Step α s) : Step β s :=
  ⟨f p.value, p.rest, p.shorter⟩

/-- A step from what was read and what is left, unless nothing was read. -/
def of? {α : Type} (s : List Char) (p : α × List Char) : Option (Step α s) :=
  if h : p.2.length < s.length then some ⟨p.1, p.2, h⟩ else none

/-- The rest of a text after a word it begins with. -/
def afterWord? (w : String) (s : List Char) : Option (List Char) :=
  if w.toList.isPrefixOf s then some (s.drop w.length) else none

theorem length_dropWhile_le {α : Type} (p : α → Bool) (s : List α) :
    (s.dropWhile p).length ≤ s.length :=
  (List.dropWhile_sublist p).length_le

end Step

end Nullary
