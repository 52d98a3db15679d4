import Nullary.Proofs.Json.Reader
import Nullary.Proofs.Number.Digits

/-!
# Texts that are read back

Every character is spelled by what stands for it in a document (`Json.spells_escape`), be it itself,
an escape letter, or one or two code units.  On a line of ASCII all of this is printable
(`Json.plain_escape`).
Main statement: `Json.textBody?_flatMap_escape`, a text is read to its closing mark.
-/

namespace Nullary.Json

/-! ### Escapes that are read -/

theorem unit?_hex {n : Nat} (h : n < 0x10000) (rest : List Char) :
    unit? (Digits.hex 4 n ++ rest) = some (n, rest) := by
  have h0 : n / 4096 < 16 := by omega
  have h1 : n / 256 % 16 < 16 := by omega
  have h2 : n / 16 % 16 < 16 := by omega
  have h3 : n % 16 < 16 := by omega
  rw [Digits.hex_four h]
  simp [unit?, Digits.isDigit, Digits.value, Digits.digit?_digitChar, h0, h1, h2, h3]
  omega

/-- No character is a surrogate. -/
theorem not_surrogate (c : Char) : c.toNat < 0xd800 ∨ 0xe000 ≤ c.toNat ∧ c.toNat < 0x110000 := by
  have hvalid := c.valid
  simp only [UInt32.isValidChar, Nat.isValidChar] at hvalid
  simp only [Char.toNat]
  omega

theorem escapedUnit?_unit {c : Char} (h : c.toNat < 0x10000) (rest : List Char) :
    escapedUnit? (Digits.hex 4 c.toNat ++ rest) = some (c, rest) := by
  have hno := not_surrogate c
  have hhigh : ¬ (0xd800 ≤ c.toNat ∧ c.toNat < 0xdc00) := by omega
  have hunit : ¬ (0xd800 ≤ c.toNat ∧ c.toNat < 0xe000) := by omega
  simp [escapedUnit?, unit?_hex h, hhigh, unitChar, hunit]

/-- Two surrogates stand for the character that they are the code units of. -/
theorem escapedUnit?_pair {high low : Nat} {c : Char} (hh : 0xd800 ≤ high ∧ high < 0xdc00)
    (hl : 0xdc00 ≤ low ∧ low < 0xe000)
    (hc : 0x10000 + (high - 0xd800) * 0x400 + (low - 0xdc00) = c.toNat) (rest : List Char) :
    escapedUnit? (Digits.hex 4 high ++ '\\' :: 'u' :: (Digits.hex 4 low ++ rest)) =
      some (c, rest) := by
  have hhigh : unit? (Digits.hex 4 high ++ '\\' :: 'u' :: (Digits.hex 4 low ++ rest)) =
      some (high, '\\' :: 'u' :: (Digits.hex 4 low ++ rest)) := unit?_hex (by omega) _
  have hlow : unit? (Digits.hex 4 low ++ rest) = some (low, rest) := unit?_hex (by omega) _
  simp [escapedUnit?, hhigh, hlow, hh, hl, hc]

/-- Characters that stand for a character where a text is read. -/
def Spells (cs : List Char) (c : Char) : Prop :=
  ∀ s, (textBody? (cs ++ s)).map Step.pair =
    ((textBody? s).map Step.pair).map fun p => (c :: p.1, p.2)

theorem spells_unit {cs : List Char} {c : Char} (h : ∀ s, escapedUnit? (cs ++ s) = some (c, s)) :
    Spells ('\\' :: 'u' :: cs) c := by
  intro s
  rw [List.cons_append, List.cons_append, textBody?]
  split
  · next h' => cases (h s).symm.trans h'
  · next c' r h' =>
    obtain ⟨rfl, rfl⟩ := Prod.mk.inj (Option.some.inj ((h s).symm.trans h'))
    cases textBody? s <;> rfl

theorem spells_simple {c e : Char} (he : e ≠ 'u') (h : simpleEscape? e = some c) :
    Spells ['\\', e] c := by
  intro s
  rw [List.cons_append, List.cons_append, List.nil_append, textBody?, h]
  · cases textBody? s <;> rfl
  · exact he

theorem spells_self {c : Char} (hq : c ≠ '\x22') (hb : c ≠ '\\') (h : ¬ c.toNat < 0x20) :
    Spells [c] c := by
  intro s
  rw [List.cons_append, List.nil_append, textBody?, if_neg (by simp [h, hb])]
  · cases textBody? s <;> rfl
  · exact hq
  · exact fun _ h => absurd h hb
  · exact fun _ _ h => absurd h hb

theorem spells_unitEscape {c : Char} (h : c.toNat < 0x10000) : Spells (unitEscape c.toNat) c :=
  spells_unit (escapedUnit?_unit h)

theorem spells_pair {high low : Nat} {c : Char} (hh : 0xd800 ≤ high ∧ high < 0xdc00)
    (hl : 0xdc00 ≤ low ∧ low < 0xe000)
    (hc : 0x10000 + (high - 0xd800) * 0x400 + (low - 0xdc00) = c.toNat) :
    Spells (unitEscape high ++ unitEscape low) c := by
  refine spells_unit fun s => ?_
  simp only [List.append_eq, List.append_assoc]
  exact escapedUnit?_pair hh hl hc s

theorem spells_codeEscape (c : Char) : Spells (codeEscape c) c := by
  unfold codeEscape
  dsimp only
  split_ifs with h
  · exact spells_unitEscape h
  · have hno := not_surrogate c
    exact spells_pair (by omega) (by omega) (by omega)

/-- Every character is spelled by its escape. -/
theorem spells_escape (ascii : Bool) (c : Char) : Spells (escape ascii c) c := by
  unfold escape
  split_ifs with hmark hn hr ht hb hf hlow hhigh
  · obtain rfl | rfl := hmark
    · exact spells_simple (by decide) rfl
    · exact spells_simple (by decide) rfl
  · exact hn ▸ spells_simple (by decide) rfl
  · exact hr ▸ spells_simple (by decide) rfl
  · exact ht ▸ spells_simple (by decide) rfl
  · exact hb ▸ spells_simple (by decide) rfl
  · exact hf ▸ spells_simple (by decide) rfl
  · exact spells_unitEscape (by omega)
  · exact spells_codeEscape c
  · exact spells_self (fun h => hmark (Or.inl h)) (fun h => hmark (Or.inr h)) hlow

/-- A text is read to its closing mark. -/
theorem textBody?_flatMap_escape (ascii : Bool) (s rest : List Char) :
    (textBody? (s.flatMap (escape ascii) ++ '\x22' :: rest)).map Step.pair = some (s, rest) := by
  induction s with
  | nil =>
    rw [List.flatMap_nil, List.nil_append, textBody?]
    rfl
  | cons c s ih =>
    rw [List.flatMap_cons, List.append_assoc, spells_escape ascii c, ih]
    rfl

/-! ### The characters of escapes -/

/-- Characters of printable ASCII, none of which ends a line. -/
def Plain (cs : List Char) : Prop :=
  ∀ c ∈ cs, 0x20 ≤ c.toNat ∧ c.toNat < 0x7f

theorem plain_append {cs ds : List Char} : Plain (cs ++ ds) ↔ Plain cs ∧ Plain ds :=
  List.forall_mem_append

theorem plain_cons {c : Char} {cs : List Char} :
    Plain (c :: cs) ↔ (0x20 ≤ c.toNat ∧ c.toNat < 0x7f) ∧ Plain cs :=
  List.forall_mem_cons

theorem plain_nil : Plain [] := fun _ h => nomatch h

theorem plain_of_all {cs : List Char}
    (h : (cs.all fun c => 0x20 ≤ c.toNat && c.toNat < 0x7f) = true) : Plain cs := by
  intro c hc
  simpa using List.all_eq_true.mp h c hc

theorem plain_digitChar {d : Nat} (h : d < 16) :
    0x20 ≤ (Nat.digitChar d).toNat ∧ (Nat.digitChar d).toNat < 0x7f := by
  interval_cases d <;> decide

theorem plain_unitEscape {n : Nat} (h : n < 0x10000) : Plain (unitEscape n) := by
  rw [unitEscape, Digits.hex_four h]
  refine plain_cons.mpr ⟨by decide, plain_cons.mpr ⟨by decide, ?_⟩⟩
  simp only [plain_cons, plain_nil, and_true]
  exact ⟨plain_digitChar (by omega), plain_digitChar (by omega), plain_digitChar (by omega),
    plain_digitChar (by omega)⟩

theorem plain_codeEscape (c : Char) : Plain (codeEscape c) := by
  have hno := not_surrogate c
  unfold codeEscape
  dsimp only
  split_ifs with h
  · exact plain_unitEscape h
  · exact plain_append.mpr ⟨plain_unitEscape (by omega), plain_unitEscape (by omega)⟩

theorem plain_simple {c : Char} (h : 0x20 ≤ c.toNat ∧ c.toNat < 0x7f) : Plain ['\\', c] :=
  plain_cons.mpr ⟨by decide, plain_cons.mpr ⟨h, plain_nil⟩⟩

theorem plain_escape (c : Char) : Plain (escape true c) := by
  unfold escape
  split_ifs with hmark hn hr ht hb hf hlow hhigh
  · obtain rfl | rfl := hmark
    · exact plain_simple (by decide)
    · exact plain_simple (by decide)
  · exact plain_simple (by decide)
  · exact plain_simple (by decide)
  · exact plain_simple (by decide)
  · exact plain_simple (by decide)
  · exact plain_simple (by decide)
  · exact plain_unitEscape (by omega)
  · exact plain_codeEscape c
  · simp only [Bool.true_and, decide_eq_true_eq] at hhigh
    exact plain_cons.mpr ⟨by omega, plain_nil⟩

theorem plain_textChars (s : String) : Plain (textChars true s) := by
  refine plain_cons.mpr ⟨by decide, plain_append.mpr
    ⟨fun c hc => ?_, plain_cons.mpr ⟨by decide, plain_nil⟩⟩⟩
  obtain ⟨d, -, hd⟩ := List.mem_flatMap.mp hc
  exact plain_escape d c hd

end Nullary.Json
