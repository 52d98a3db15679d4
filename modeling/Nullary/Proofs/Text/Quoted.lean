import Mathlib.Data.List.Basic
import Nullary.Proofs.Number.Digits
import Nullary.Value.Display

/-!
# What quoted texts say

Every character of a quoted text is printable (`Quoted.shown_quoteChars`).  The first
character of a text can be told from its quoted form, whatever follows (`Quoted.next?_escape`), so
that a quoted text ends where it seems to end and stands for one text only
(`Quoted.quoteChars_append_inj`).  The same holds of the literal of a list of texts:
`Value.listLiteral_injective`.
-/

namespace Nullary

namespace Digits

/-! ### Hexadecimal numerals of any width -/

theorem length_hex {width n : Nat} (h : n < 16 ^ (width + 1)) :
    (hex (width + 1) n).length = width + 1 := by
  induction width generalizing n with
  | zero =>
    rw [hex_one (by omega)]
    rfl
  | succ width ih =>
    have hquot : n / 16 < 16 ^ (width + 1) := by
      rw [Nat.pow_succ] at h
      omega
    rw [hex_succ, List.length_append, ih hquot]
    rfl

theorem value_hex {width n : Nat} (h : n < 16 ^ (width + 1)) :
    value 16 (hex (width + 1) n) = n := by
  induction width generalizing n with
  | zero =>
    have hn : n < 16 := by omega
    rw [hex_one hn]
    simp [value, digit?_digitChar hn]
  | succ width ih =>
    have hquot : n / 16 < 16 ^ (width + 1) := by
      rw [Nat.pow_succ] at h
      omega
    have hlast : n % 16 < 16 := Nat.mod_lt n (by decide)
    have hvalue := ih hquot
    rw [value] at hvalue
    rw [hex_succ, value, List.foldl_append, hvalue]
    simp only [List.foldl_cons, List.foldl_nil, digit?_digitChar hlast, Option.getD_some]
    omega

theorem exists_digitChar_of_mem_hex {width n : Nat} {c : Char} (h : n < 16 ^ (width + 1))
    (hc : c ∈ hex (width + 1) n) : ∃ d < 16, c = Nat.digitChar d := by
  induction width generalizing n with
  | zero =>
    have hn : n < 16 := by omega
    rw [hex_one hn, List.mem_singleton] at hc
    exact ⟨n, hn, hc⟩
  | succ width ih =>
    have hquot : n / 16 < 16 ^ (width + 1) := by
      rw [Nat.pow_succ] at h
      omega
    rw [hex_succ, List.mem_append, List.mem_singleton] at hc
    rcases hc with hc | hc
    · exact ih hquot hc
    · exact ⟨n % 16, Nat.mod_lt n (by decide), hc⟩

end Digits

/-! ### Printable characters -/

namespace Printable

/-- From the space to the tilde all characters are printable. -/
theorem isPrintable_of_ascii {c : Char} (hlow : 0x20 ≤ c.toNat) (hhigh : c.toNat < 0x7f) :
    isPrintable c = true := by
  have hout : ∀ r ∈ exceptions, r.2 < 0x20 ∨ 0x7f ≤ r.1 := by decide +kernel
  rw [isPrintable, Bool.not_eq_true', List.any_eq_false]
  intro r hr hc
  rw [Bool.and_eq_true, decide_eq_true_iff, decide_eq_true_iff] at hc
  rcases hout r hr with h | h
  · omega
  · omega

theorem isPrintable_digitChar {d : Nat} (h : d < 16) : isPrintable (Nat.digitChar d) = true := by
  have hrange : ∀ d < 16, 0x20 ≤ (Nat.digitChar d).toNat ∧ (Nat.digitChar d).toNat < 0x7f := by
    decide
  exact isPrintable_of_ascii (hrange d h).1 (hrange d h).2

/-- Whether a text can be printed as it is. -/
def Shown (s : List Char) : Prop := ∀ c ∈ s, isPrintable c = true

variable {s t : List Char} {c : Char}

theorem shown_append : Shown (s ++ t) ↔ Shown s ∧ Shown t := List.forall_mem_append

theorem shown_cons : Shown (c :: s) ↔ isPrintable c = true ∧ Shown s := List.forall_mem_cons

theorem shown_nil : Shown [] := List.forall_mem_nil _

/-- Texts of ASCII alone are told by their code points. -/
theorem shown_of_ascii (h : (s.all fun c => 0x20 ≤ c.toNat && c.toNat < 0x7f) = true) :
    Shown s := by
  intro c hc
  have hrange := List.all_eq_true.mp h c hc
  rw [Bool.and_eq_true, decide_eq_true_iff, decide_eq_true_iff] at hrange
  exact isPrintable_of_ascii hrange.1 hrange.2

end Printable

namespace Quoted

open Printable

variable {m c : Char} {s s' r r' : List Char}

/-- The two marks that texts are put between. -/
def IsMark (m : Char) : Prop := m = apostrophe ∨ m = doubleQuote

theorem isMark_mark (s : List Char) : IsMark (mark s) := by
  unfold mark
  split
  · exact Or.inr rfl
  · exact Or.inl rfl

theorem IsMark.ne_backslash (h : IsMark m) : m ≠ backslash := by
  rcases h with rfl | rfl
  · decide
  · decide

theorem toNat_lt (c : Char) : c.toNat < 0x110000 := by
  have hvalid := c.valid
  simp only [UInt32.isValidChar, Nat.isValidChar] at hvalid
  simp only [Char.toNat]
  omega

/-! ### Quoted texts are printable -/

theorem shown_backslash_cons {letter : Char} (hlow : 0x20 ≤ letter.toNat)
    (hhigh : letter.toNat < 0x7f) (hs : Shown s) : Shown (backslash :: letter :: s) :=
  shown_cons.mpr ⟨isPrintable_of_ascii (by decide) (by decide),
    shown_cons.mpr ⟨isPrintable_of_ascii hlow hhigh, hs⟩⟩

theorem shown_codePoint (c : Char) : Shown (codePoint c.toNat) := by
  have hdigits {width : Nat} (h : c.toNat < 16 ^ (width + 1)) :
      Shown (Digits.hex (width + 1) c.toNat) := by
    intro d hd
    obtain ⟨n, hn, rfl⟩ := Digits.exists_digitChar_of_mem_hex h hd
    exact isPrintable_digitChar hn
  unfold codePoint
  split_ifs with h2 h4
  · exact shown_backslash_cons (by decide) (by decide) (hdigits h2)
  · exact shown_backslash_cons (by decide) (by decide) (hdigits h4)
  · have h8 := toNat_lt c
    exact shown_backslash_cons (by decide) (by decide) (hdigits (by omega))

theorem shown_escape (hm : IsMark m) (c : Char) : Shown (escape m c) := by
  unfold escape
  split_ifs with hself hn hr ht hc
  · rcases hself with rfl | rfl
    · rcases hm with rfl | rfl
      · exact shown_of_ascii rfl
      · exact shown_of_ascii rfl
    · exact shown_of_ascii rfl
  · exact shown_of_ascii rfl
  · exact shown_of_ascii rfl
  · exact shown_of_ascii rfl
  · exact shown_cons.mpr ⟨hc, shown_nil⟩
  · exact shown_codePoint c

theorem shown_quoteChars (s : List Char) : Shown (quoteChars s) := by
  have hm := isMark_mark s
  have hmark : isPrintable (mark s) = true := by
    rcases hm with h | h
    · rw [h]
      exact isPrintable_of_ascii (by decide) (by decide)
    · rw [h]
      exact isPrintable_of_ascii (by decide) (by decide)
  rw [quoteChars, shown_cons, shown_append]
  refine ⟨hmark, ?_, shown_cons.mpr ⟨hmark, shown_nil⟩⟩
  intro d hd
  obtain ⟨c, -, hdc⟩ := List.mem_flatMap.mp hd
  exact shown_escape hm c d hdc

/-! ### Characters read back -/

/-- The character that hexadecimal digits stand for, and what follows them. -/
def coded (width : Nat) (s : List Char) : Char × List Char :=
  (Char.ofNat (Digits.value 16 (s.take width)), s.drop width)

/-- The character that is spelled after a backslash, and what follows. -/
def spelled? : List Char → Option (Char × List Char)
  | [] => none
  | c :: r =>
    if c = 'n' then some ('\n', r)
    else if c = 'r' then some ('\r', r)
    else if c = 't' then some ('\t', r)
    else if c = 'x' then some (coded 2 r)
    else if c = 'u' then some (coded 4 r)
    else if c = 'U' then some (coded 8 r)
    else some (c, r)

/-- The first character of a text up to its closing mark, and what follows it. -/
def next? (m : Char) : List Char → Option (Char × List Char)
  | [] => none
  | c :: r => if c = m then none else if c = backslash then spelled? r else some (c, r)

theorem next?_backslash (hm : IsMark m) (s : List Char) :
    next? m (backslash :: s) = spelled? s := by
  rw [next?, if_neg (Ne.symm hm.ne_backslash), if_pos rfl]

theorem coded_hex {width : Nat} (h : c.toNat < 16 ^ (width + 1)) (r : List Char) :
    coded (width + 1) (Digits.hex (width + 1) c.toNat ++ r) = (c, r) := by
  have hlength := Digits.length_hex h
  rw [coded, List.take_left' hlength, List.drop_left' hlength, Digits.value_hex h,
    Char.ofNat_toNat]

theorem next?_codePoint (hm : IsMark m) (c : Char) (r : List Char) :
    next? m (codePoint c.toNat ++ r) = some (c, r) := by
  unfold codePoint
  split_ifs with h2 h4
  · rw [List.cons_append, next?_backslash hm]
    exact congrArg some (coded_hex h2 r)
  · rw [List.cons_append, next?_backslash hm]
    exact congrArg some (coded_hex h4 r)
  · have h8 : c.toNat < 16 ^ (7 + 1) := (toNat_lt c).trans (by decide)
    rw [List.cons_append, next?_backslash hm]
    exact congrArg some (coded_hex h8 r)

/-- A character is told by its quoted form. -/
theorem next?_escape (hm : IsMark m) (c : Char) (r : List Char) :
    next? m (escape m c ++ r) = some (c, r) := by
  unfold escape
  split_ifs with hself hn hr ht hc
  · rw [List.cons_append, next?_backslash hm]
    rcases hself with rfl | rfl
    · rcases hm with rfl | rfl
      · rfl
      · rfl
    · rfl
  · rw [List.cons_append, next?_backslash hm, hn]
    rfl
  · rw [List.cons_append, next?_backslash hm, hr]
    rfl
  · rw [List.cons_append, next?_backslash hm, ht]
    rfl
  · rw [not_or] at hself
    rw [List.singleton_append, next?, if_neg hself.1, if_neg hself.2]
  · exact next?_codePoint hm c r

theorem next?_mark (m : Char) (r : List Char) : next? m (m :: r) = none := if_pos rfl

/-! ### Texts read back -/

/-- Up to the closing mark there stands one text. -/
theorem flatMap_escape_inj (hm : IsMark m)
    (h : s.flatMap (escape m) ++ m :: r = s'.flatMap (escape m) ++ m :: r') : s = s' ∧ r = r' := by
  induction s generalizing s' with
  | nil =>
    cases s' with
    | nil => exact ⟨rfl, (List.cons.inj h).2⟩
    | cons c' t' =>
      have hnext := congrArg (next? m) h
      rw [List.flatMap_nil, List.nil_append, next?_mark, List.flatMap_cons, List.append_assoc,
        next?_escape hm] at hnext
      cases hnext
  | cons c t ih =>
    have hnext := congrArg (next? m) h
    rw [List.flatMap_cons, List.append_assoc, next?_escape hm] at hnext
    cases s' with
    | nil =>
      rw [List.flatMap_nil, List.nil_append, next?_mark] at hnext
      cases hnext
    | cons c' t' =>
      rw [List.flatMap_cons, List.append_assoc, next?_escape hm] at hnext
      obtain ⟨rfl, hrest⟩ := Prod.mk.inj (Option.some.inj hnext)
      obtain ⟨rfl, rfl⟩ := ih hrest
      exact ⟨rfl, rfl⟩

/-- A quoted text ends where it seems to end, and stands for one text. -/
theorem quoteChars_append_inj (h : quoteChars s ++ r = quoteChars s' ++ r') :
    s = s' ∧ r = r' := by
  rw [quoteChars, quoteChars, List.cons_append, List.cons_append, List.append_assoc,
    List.append_assoc] at h
  obtain ⟨hmark, hbody⟩ := List.cons.inj h
  rw [← hmark] at hbody
  exact flatMap_escape_inj (isMark_mark s) hbody

theorem exists_quoteChars_eq_cons (s : List Char) :
    ∃ m t, quoteChars s = m :: t ∧ IsMark m :=
  ⟨mark s, _, rfl, isMark_mark s⟩

end Quoted

/-! ### Lists of texts -/

namespace Value

open Printable Quoted

/-- The elements of a list from the second one on, each after a comma, and the closing bracket. -/
def moreChars : List String → List Char
  | [] => [']']
  | x :: xs => ',' :: ' ' :: (quoteChars x.toList ++ moreChars xs)

/-- The elements of a list and the closing bracket. -/
def listChars : List String → List Char
  | [] => [']']
  | x :: xs => quoteChars x.toList ++ moreChars xs

theorem toList_listLiteral (xs : List String) :
    (listLiteral xs).toList = '[' :: listChars xs := by
  have hmore (x : String) (xs : List String) :
      [',', ' '].intercalate ((x :: xs).map fun x => quoteChars x.toList) ++ [']'] =
        quoteChars x.toList ++ moreChars xs := by
    induction xs generalizing x with
    | nil =>
      rw [List.map_singleton, List.intercalate_singleton]
      rfl
    | cons y ys ih =>
      have hrest := ih y
      rw [List.map_cons] at hrest
      rw [List.map_cons, List.map_cons, List.intercalate_cons_cons, List.append_assoc, hrest,
        moreChars, List.append_assoc]
      rfl
  have hquote : String.toList ∘ quote = fun x => quoteChars x.toList := by
    funext x
    exact String.toList_ofList
  rw [listLiteral, String.toList_append, String.toList_append, String.toList_intercalate,
    List.map_map, hquote]
  cases xs with
  | nil => rfl
  | cons x xs => exact congrArg (List.cons '[') (hmore x xs)

theorem moreChars_injective : Function.Injective moreChars := by
  intro xs
  induction xs with
  | nil =>
    intro ys h
    cases ys with
    | nil => rfl
    | cons y ys => cases (List.cons.inj h).1
  | cons x xs ih =>
    intro ys h
    cases ys with
    | nil => cases (List.cons.inj h).1
    | cons y ys =>
      obtain ⟨htext, hmore⟩ := quoteChars_append_inj (List.cons.inj (List.cons.inj h).2).2
      rw [String.toList_inj.mp htext, ih hmore]

/-- A list of texts is told by its literal. -/
theorem listLiteral_injective : Function.Injective listLiteral := by
  intro xs ys h
  have hchars := congrArg String.toList h
  rw [toList_listLiteral, toList_listLiteral] at hchars
  have hbody := (List.cons.inj hchars).2
  have hend (x : String) (xs : List String) : listChars (x :: xs) ≠ listChars [] := by
    obtain ⟨m, t, hquote, hm⟩ := exists_quoteChars_eq_cons x.toList
    intro hx
    rw [listChars, listChars, hquote, List.cons_append] at hx
    have hbracket := (List.cons.inj hx).1
    rcases hm with rfl | rfl
    · cases hbracket
    · cases hbracket
  cases xs with
  | nil =>
    cases ys with
    | nil => rfl
    | cons y ys => exact absurd hbody.symm (hend y ys)
  | cons x xs =>
    cases ys with
    | nil => exact absurd hbody (hend x xs)
    | cons y ys =>
      obtain ⟨htext, hmore⟩ := quoteChars_append_inj hbody
      rw [String.toList_inj.mp htext, moreChars_injective hmore]

theorem shown_moreChars (xs : List String) : Shown (moreChars xs) := by
  induction xs with
  | nil => exact shown_of_ascii rfl
  | cons x xs ih =>
    have hcomma : Shown [',', ' '] := shown_of_ascii rfl
    exact shown_append.mpr ⟨hcomma, shown_append.mpr ⟨shown_quoteChars _, ih⟩⟩

theorem shown_listLiteral (xs : List String) : Shown (listLiteral xs).toList := by
  rw [toList_listLiteral, shown_cons]
  refine ⟨isPrintable_of_ascii (by decide) (by decide), ?_⟩
  cases xs with
  | nil => exact shown_moreChars []
  | cons x xs => exact shown_append.mpr ⟨shown_quoteChars _, shown_moreChars xs⟩

end Value

end Nullary
