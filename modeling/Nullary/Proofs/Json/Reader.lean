import Nullary.Json.Reader

/-!
# What the JSON reader makes of a text

The reader's steps carry a proof that less is left; `Step.pair` drops it, so that what a step has
read and what it leaves can be named.  One lemma for each form a value can have.
-/

namespace Nullary

/-- What a step has read, and what it leaves. -/
def Step.pair {α : Type} {s : List Char} (p : Step α s) : α × List Char :=
  (p.value, p.rest)

theorem Step.exists_of_map_pair {ε α : Type} {s r : List Char} {v : α}
    {x : Except ε (Step α s)} (h : x.map Step.pair = .ok (v, r)) :
    ∃ hshorter, x = .ok ⟨v, r, hshorter⟩ := by
  cases x with
  | error e => cases h
  | ok p =>
    obtain ⟨rfl, rfl⟩ := Prod.mk.inj (Except.ok.inj h)
    exact ⟨p.shorter, rfl⟩

theorem Step.exists_of_map_pair? {α : Type} {s r : List Char} {v : α} {x : Option (Step α s)}
    (h : x.map Step.pair = some (v, r)) : ∃ hshorter, x = some ⟨v, r, hshorter⟩ := by
  obtain ⟨p, rfl, hpair⟩ := Option.map_eq_some_iff.mp h
  obtain ⟨rfl, rfl⟩ := Prod.mk.inj hpair
  exact ⟨p.shorter, rfl⟩

namespace Json

variable {levels : Nat} {r r₁ r₂ r₃ r₄ r₅ : List Char}

/-! ### Scalars -/

/-- What begins with no mark is a word or a number. -/
theorem value_scalar {c : Char} {j : Json}
    (hc : c ≠ '\x22' ∧ c ≠ '[' ∧ c ≠ '\x7b')
    (h : (word? (c :: r)).or (number? (c :: r)) = some (j, r₁)) (hlt : r₁.length ≤ r.length) :
    (value levels (c :: r)).map Step.pair = .ok (j, r₁) := by
  have hshort : r₁.length < (c :: r).length := Nat.lt_succ_of_le hlt
  have hstep : Step.of? (c :: r) (j, r₁) = some ⟨j, r₁, hshort⟩ := dif_pos hshort
  rw [value]
  · rw [h, Option.bind_some, hstep]
    rfl
  · exact fun _ h => hc.1 (List.cons.inj h).1
  · exact fun _ h => hc.2.1 (List.cons.inj h).1
  · exact fun _ h => hc.2.2 (List.cons.inj h).1

theorem value_text {cs : List Char} (h : (textBody? r).map Step.pair = some (cs, r₁)) :
    (value levels ('\x22' :: r)).map Step.pair = .ok (.text (String.ofList cs), r₁) := by
  obtain ⟨_, hp⟩ := Step.exists_of_map_pair? h
  rw [value, hp]
  rfl

/-! ### Arrays -/

/-- The last element of an array: a value and the closing bracket. -/
theorem items_last {s : List Char} {v : Json} (hv : (value levels s).map Step.pair = .ok (v, r₁))
    (hs : skipBlanks r₁ = ']' :: r₂) : (items levels s).map Step.pair = .ok ([v], r₂) := by
  obtain ⟨_, hp⟩ := Step.exists_of_map_pair hv
  rw [items, hp]
  dsimp only
  split
  · next r' hr' =>
    obtain ⟨-, rfl⟩ := List.cons.inj (hs.symm.trans hr')
    rfl
  · next r' hr' => cases hs.symm.trans hr'
  · next h _ => exact absurd hs (h _)

/-- An element of an array with more to come: a value and a comma. -/
theorem items_more {s : List Char} {v : Json} {vs : List Json}
    (hv : (value levels s).map Step.pair = .ok (v, r₁)) (hs : skipBlanks r₁ = ',' :: r₂)
    (hvs : (items levels (skipBlanks r₂)).map Step.pair = .ok (vs, r₃)) :
    (items levels s).map Step.pair = .ok (v :: vs, r₃) := by
  obtain ⟨_, hp⟩ := Step.exists_of_map_pair hv
  obtain ⟨_, hq⟩ := Step.exists_of_map_pair hvs
  rw [items, hp]
  dsimp only
  split
  · next r' hr' => cases hs.symm.trans hr'
  · next r' hr' =>
    obtain ⟨-, rfl⟩ := List.cons.inj (hs.symm.trans hr')
    rw [hq]
    rfl
  · next h => exact absurd hs (h _)

theorem value_array_nil (hl : levels ≠ 0) (hr : skipBlanks r = ']' :: r₁) :
    (value levels ('[' :: r)).map Step.pair = .ok (.array [], r₁) := by
  rw [value, if_neg hl]
  dsimp only
  split
  · next r' hr' =>
    obtain ⟨-, rfl⟩ := List.cons.inj (hr.symm.trans hr')
    rfl
  · next h => exact absurd hr (h _)

/-- An array with elements is read where there is a level left for it. -/
theorem value_array {xs : List Json} (hl : levels ≠ 0) (hr : ∀ r', skipBlanks r ≠ ']' :: r')
    (h : (items (levels - 1) (skipBlanks r)).map Step.pair = .ok (xs, r₁)) :
    (value levels ('[' :: r)).map Step.pair = .ok (.array xs, r₁) := by
  obtain ⟨_, hm⟩ := Step.exists_of_map_pair h
  rw [value, if_neg hl]
  dsimp only
  split
  · next r' hr' => exact absurd hr' (hr r')
  · rw [hm]
    rfl

/-! ### Objects -/

/-- The last member of an object: a name, a colon, a value and the closing brace. -/
theorem members_last {k : List Char} {v : Json}
    (hk : (textBody? r).map Step.pair = some (k, r₁)) (hc : skipBlanks r₁ = ':' :: r₂)
    (hv : (value levels (skipBlanks r₂)).map Step.pair = .ok (v, r₃))
    (hs : skipBlanks r₃ = '\x7d' :: r₄) :
    (members levels ('\x22' :: r)).map Step.pair = .ok ([(String.ofList k, v)], r₄) := by
  obtain ⟨_, hp⟩ := Step.exists_of_map_pair? hk
  obtain ⟨_, hq⟩ := Step.exists_of_map_pair hv
  rw [members, hp]
  dsimp only
  split
  · next r' hr' =>
    obtain ⟨-, rfl⟩ := List.cons.inj (hc.symm.trans hr')
    rw [hq]
    dsimp only
    split
    · next r'' hr'' =>
      obtain ⟨-, rfl⟩ := List.cons.inj (hs.symm.trans hr'')
      rfl
    · next r'' hr'' => cases hs.symm.trans hr''
    · next h _ => exact absurd hs (h _)
  · next h => exact absurd hc (h _)

/-- A member of an object with more to come: a name, a colon, a value and a comma. -/
theorem members_more {k : List Char} {v : Json} {es : List (String × Json)}
    (hk : (textBody? r).map Step.pair = some (k, r₁)) (hc : skipBlanks r₁ = ':' :: r₂)
    (hv : (value levels (skipBlanks r₂)).map Step.pair = .ok (v, r₃))
    (hs : skipBlanks r₃ = ',' :: r₄)
    (hes : (members levels (skipBlanks r₄)).map Step.pair = .ok (es, r₅)) :
    (members levels ('\x22' :: r)).map Step.pair = .ok ((String.ofList k, v) :: es, r₅) := by
  obtain ⟨_, hp⟩ := Step.exists_of_map_pair? hk
  obtain ⟨_, hq⟩ := Step.exists_of_map_pair hv
  obtain ⟨_, hm⟩ := Step.exists_of_map_pair hes
  rw [members, hp]
  dsimp only
  split
  · next r' hr' =>
    obtain ⟨-, rfl⟩ := List.cons.inj (hc.symm.trans hr')
    rw [hq]
    dsimp only
    split
    · next r'' hr'' => cases hs.symm.trans hr''
    · next r'' hr'' =>
      obtain ⟨-, rfl⟩ := List.cons.inj (hs.symm.trans hr'')
      rw [hm]
      rfl
    · next h => exact absurd hs (h _)
  · next h => exact absurd hc (h _)

theorem value_object_nil (hl : levels ≠ 0) (hr : skipBlanks r = '\x7d' :: r₁) :
    (value levels ('\x7b' :: r)).map Step.pair = .ok (.object [], r₁) := by
  rw [value, if_neg hl]
  dsimp only
  split
  · next r' hr' =>
    obtain ⟨-, rfl⟩ := List.cons.inj (hr.symm.trans hr')
    rfl
  · next h => exact absurd hr (h _)

/-- An object with members is read where there is a level left for it. -/
theorem value_object {es : List (String × Json)} (hl : levels ≠ 0)
    (hr : ∀ r', skipBlanks r ≠ '\x7d' :: r')
    (h : (members (levels - 1) (skipBlanks r)).map Step.pair = .ok (es, r₁)) :
    (value levels ('\x7b' :: r)).map Step.pair = .ok (.object (Fields.ofList es), r₁) := by
  obtain ⟨_, hm⟩ := Step.exists_of_map_pair h
  rw [value, if_neg hl]
  dsimp only
  split
  · next r' hr' => exact absurd hr' (hr r')
  · rw [hm]
    rfl

/-! ### What is not read -/

variable {err : ReadError}

/-- What begins with no mark and is neither a word nor a number is nothing. -/
theorem value_scalar_error {c : Char} (hc : c ≠ '\x22' ∧ c ≠ '[' ∧ c ≠ '\x7b')
    (h : (word? (c :: r)).or (number? (c :: r)) = none) :
    value levels (c :: r) = .error .malformed := by
  rw [value]
  · rw [h]
    rfl
  · exact fun _ h => hc.1 (List.cons.inj h).1
  · exact fun _ h => hc.2.1 (List.cons.inj h).1
  · exact fun _ h => hc.2.2 (List.cons.inj h).1

theorem items_error {s : List Char} (h : value levels s = .error err) :
    items levels s = .error err := by
  rw [items, h]

theorem items_more_error {s : List Char} {v : Json}
    (hv : (value levels s).map Step.pair = .ok (v, r₁)) (hs : skipBlanks r₁ = ',' :: r₂)
    (h : items levels (skipBlanks r₂) = .error err) : items levels s = .error err := by
  obtain ⟨_, hp⟩ := Step.exists_of_map_pair hv
  rw [items, hp]
  dsimp only
  split
  · next r' hr' => cases hs.symm.trans hr'
  · next r' hr' =>
    obtain ⟨-, rfl⟩ := List.cons.inj (hs.symm.trans hr')
    rw [h]
    rfl
  · next h' => exact absurd hs (h' _)

theorem value_array_error (hl : levels ≠ 0) (hr : ∀ r', skipBlanks r ≠ ']' :: r')
    (h : items (levels - 1) (skipBlanks r) = .error err) :
    value levels ('[' :: r) = .error err := by
  rw [value, if_neg hl]
  dsimp only
  split
  · next r' hr' => exact absurd hr' (hr r')
  · rw [h]
    rfl

theorem members_error {k : List Char} (hk : (textBody? r).map Step.pair = some (k, r₁))
    (hc : skipBlanks r₁ = ':' :: r₂) (h : value levels (skipBlanks r₂) = .error err) :
    members levels ('\x22' :: r) = .error err := by
  obtain ⟨_, hp⟩ := Step.exists_of_map_pair? hk
  rw [members, hp]
  dsimp only
  split
  · next r' hr' =>
    obtain ⟨-, rfl⟩ := List.cons.inj (hc.symm.trans hr')
    rw [h]
  · next h' => exact absurd hc (h' _)

theorem members_more_error {k : List Char} {v : Json}
    (hk : (textBody? r).map Step.pair = some (k, r₁)) (hc : skipBlanks r₁ = ':' :: r₂)
    (hv : (value levels (skipBlanks r₂)).map Step.pair = .ok (v, r₃))
    (hs : skipBlanks r₃ = ',' :: r₄) (h : members levels (skipBlanks r₄) = .error err) :
    members levels ('\x22' :: r) = .error err := by
  obtain ⟨_, hp⟩ := Step.exists_of_map_pair? hk
  obtain ⟨_, hq⟩ := Step.exists_of_map_pair hv
  rw [members, hp]
  dsimp only
  split
  · next r' hr' =>
    obtain ⟨-, rfl⟩ := List.cons.inj (hc.symm.trans hr')
    rw [hq]
    dsimp only
    split
    · next r'' hr'' => cases hs.symm.trans hr''
    · next r'' hr'' =>
      obtain ⟨-, rfl⟩ := List.cons.inj (hs.symm.trans hr'')
      rw [h]
      rfl
    · next h' => exact absurd hs (h' _)
  · next h' => exact absurd hc (h' _)

theorem value_object_error (hl : levels ≠ 0) (hr : ∀ r', skipBlanks r ≠ '\x7d' :: r')
    (h : members (levels - 1) (skipBlanks r) = .error err) :
    value levels ('\x7b' :: r) = .error err := by
  rw [value, if_neg hl]
  dsimp only
  split
  · next r' hr' => exact absurd hr' (hr r')
  · rw [h]
    rfl

/-! ### Whole texts -/

/-- Reads a text as one document in which as many levels may nest. -/
def readWithin (levels : Nat) (s : String) : Except ReadError Json :=
  match value levels (skipBlanks s.toList) with
  | .error e => .error e
  | .ok p => if (skipBlanks p.rest).isEmpty then .ok p.value else .error .malformed

theorem read_eq_readWithin (s : String) : read s = readWithin levelLimit s := rfl

/-- A text is read as a document that fills it but for blanks. -/
theorem readWithin_eq_ok {s : String} {v : Json}
    (h : (value levels (skipBlanks s.toList)).map Step.pair = .ok (v, r))
    (hr : skipBlanks r = []) : readWithin levels s = .ok v := by
  obtain ⟨_, hp⟩ := Step.exists_of_map_pair h
  simp [readWithin, hp, hr]

theorem readWithin_eq_error {s : String} (h : value levels (skipBlanks s.toList) = .error err) :
    readWithin levels s = .error err := by
  rw [readWithin, h]

theorem read_eq_ok {s : String} {v : Json}
    (h : (value levelLimit (skipBlanks s.toList)).map Step.pair = .ok (v, r))
    (hr : skipBlanks r = []) : read s = .ok v :=
  (read_eq_readWithin s).trans (readWithin_eq_ok h hr)

theorem value_nil : value levels [] = .error .malformed := by
  have hnothing : (word? []).or (number? []) = none := by decide
  rw [value, hnothing]
  · rfl
  · exact fun _ h => by cases h
  · exact fun _ h => by cases h
  · exact fun _ h => by cases h

/-- A text without anything is no document. -/
theorem read_empty : read "" = .error .malformed := by
  have hblank : skipBlanks "".toList = [] := rfl
  rw [read_eq_readWithin]
  exact readWithin_eq_error (hblank ▸ value_nil)

/-! ### Arrays in arrays -/

/-- An empty array inside as many others. -/
def nested : Nat → Json
  | 0 => .array []
  | n + 1 => .array [nested n]

/-- The text of such an array, before some other text. -/
def brackets : Nat → List Char → List Char
  | 0, r => '[' :: ']' :: r
  | n + 1, r => '[' :: brackets n (']' :: r)

theorem exists_brackets_eq_cons (n : Nat) (r : List Char) : ∃ r', brackets n r = '[' :: r' := by
  cases n with
  | zero => exact ⟨_, rfl⟩
  | succ n => exact ⟨_, rfl⟩

theorem skipBlanks_brackets (n : Nat) (r : List Char) :
    skipBlanks (brackets n r) = brackets n r := by
  obtain ⟨r', h⟩ := exists_brackets_eq_cons n r
  rw [h]
  rfl

theorem value_brackets {n : Nat} (h : n < levels) :
    (value levels (brackets n r)).map Step.pair = .ok (nested n, r) := by
  induction n generalizing levels r with
  | zero => exact value_array_nil (by omega) rfl
  | succ n ih =>
    refine value_array (by omega) ?_ ?_
    · intro r'
      obtain ⟨r'', hr⟩ := exists_brackets_eq_cons n (']' :: r)
      rw [skipBlanks_brackets, hr]
      simp
    · rw [skipBlanks_brackets]
      exact items_last (ih (by omega)) rfl

/-- Arrays that nest deeper than there are levels are not read. -/
theorem value_brackets_of_le {n : Nat} (h : levels ≤ n) :
    value levels (brackets n r) = .error (.tooDeep .array) := by
  induction levels generalizing n r with
  | zero =>
    obtain ⟨r', hr⟩ := exists_brackets_eq_cons n r
    rw [hr, value, if_pos rfl]
  | succ levels ih =>
    cases n with
    | zero => omega
    | succ n =>
      have hvalue : value levels (brackets n (']' :: r)) = .error (.tooDeep .array) :=
        ih (by omega)
      refine value_array_error (Nat.succ_ne_zero levels) (fun r' hr' => ?_) ?_
      · obtain ⟨r'', hr⟩ := exists_brackets_eq_cons n (']' :: r)
        rw [skipBlanks_brackets, hr] at hr'
        cases hr'
      · rw [skipBlanks_brackets]
        exact items_error hvalue

/-- A text of nested arrays is one to a reader with levels enough. -/
theorem readWithin_brackets {n : Nat} (h : n < levels) :
    readWithin levels (String.ofList (brackets n [])) = .ok (nested n) := by
  refine readWithin_eq_ok (r := []) ?_ rfl
  rw [String.toList_ofList, skipBlanks_brackets]
  exact value_brackets h

theorem read_brackets {n : Nat} (h : n < levelLimit) :
    read (String.ofList (brackets n [])) = .ok (nested n) :=
  (read_eq_readWithin _).trans (readWithin_brackets h)

theorem read_brackets_of_le {n : Nat} (h : levelLimit ≤ n) :
    read (String.ofList (brackets n [])) = .error (.tooDeep .array) := by
  rw [read_eq_readWithin]
  refine readWithin_eq_error ?_
  rw [String.toList_ofList, skipBlanks_brackets]
  exact value_brackets_of_le h

end Json

end Nullary
