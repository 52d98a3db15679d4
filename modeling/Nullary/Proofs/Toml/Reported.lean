import Nullary.Proofs.Toml.Stops
import Nullary.Proofs.Toml.StoredText

/-!
# Which files are refused by their name

The error of a file that holds no document names the file where the fault has a place in its text
(`Toml.Reported`).  It does not where the bytes are no text, where an integer has too many digits
and where values nest too deep: `World.readToml_reported_iff`.
-/

namespace Nullary

namespace Toml

open Newline

/-- A document, or an error that names the file. -/
def Reported (p : FilePath) (x : Except FileError Table) : Prop :=
  ∀ e, x = .error e → ∃ sentence, e.message = "Invalid TOML in " ++ p.toString ++ ": " ++ sentence

variable {p : FilePath} {bytes : List UInt8} {cs : List Char}

/-! ### First characters of sentences -/

theorem head?_toList_append {a b : String} {c : Char} (h : a.toList.head? = some c) :
    (a ++ b).toList.head? = some c := by
  rw [String.toList_append, List.head?_append, h, Option.some_or]

theorem head?_encoding (e : Utf8.Failure) :
    (FileError.encoding e).message.toList.head? = some '\x27' :=
  head?_toList_append (head?_toList_append (head?_toList_append rfl))

theorem head?_digits (p : FilePath) (n : Nat) :
    (FileError.invalid p (.digits n)).message.toList.head? = some 'E' := by
  show (TooManyDigits.reading n).message.toList.head? = some 'E'
  unfold TooManyDigits.message
  exact head?_toList_append (head?_toList_append rfl)

theorem head?_tooDeep (p : FilePath) :
    (FileError.invalid p .tooDeep).message.toList.head? = some 'm' := by
  show "maximum recursion depth exceeded".toList.head? = some 'm'
  rfl

/-- An error that begins in another way does not name the file. -/
theorem not_reported {e : FileError} {c : Char} (hc : c ≠ 'I')
    (h : e.message.toList.head? = some c) : ¬ Reported p (.error e) := by
  intro hreported
  obtain ⟨sentence, hmessage⟩ := hreported e rfl
  have hopening : ("Invalid TOML in " ++ p.toString ++ ": " ++ sentence).toList.head? = some 'I' :=
    head?_toList_append (head?_toList_append (head?_toList_append rfl))
  rw [hmessage, hopening] at h
  exact hc (Option.some.inj h).symm

/-! ### Bytes of a file -/

theorem reported_ok (d : Table) : Reported p (.ok d) := by
  rintro e ⟨⟩

/-- Of the stops of a reader just those with a place are reported by the name of the file. -/
theorem reported_ofStop_iff (cs : List Char) (e : Stop) :
    Reported p (.error (.invalid p (Failure.ofStop cs e))) ↔ e.Placed := by
  cases e with
  | wrong left cause =>
    refine iff_of_true ?_ trivial
    rintro e ⟨⟩
    exact ⟨_, rfl⟩
  | digits n => exact iff_of_false (not_reported (by decide) (head?_digits p n)) id
  | tooDeep => exact iff_of_false (not_reported (by decide) (head?_tooDeep p)) id

theorem ofBytes_of_decode (h : Utf8.decode bytes = .ok cs) :
    ofBytes p bytes = match statements .empty (normalize cs) with
      | .ok d => .ok d.table
      | .error e => .error (.invalid p (Failure.ofStop (normalize cs) e)) := by
  rw [ofBytes, textOf, h]
  show (parse (String.ofList (normalize cs))).mapError (FileError.invalid p) = _
  rw [parse, String.toList_ofList, joinPairs_normalize]
  cases statements .empty (normalize cs) with
  | ok d => rfl
  | error e => rfl

theorem reported_ofBytes_iff :
    Reported p (ofBytes p bytes) ↔ ∃ cs, Utf8.decode bytes = .ok cs ∧
      StopsOnly Stop.Placed (statements .empty (normalize cs)) := by
  cases h : Utf8.decode bytes with
  | error e =>
    have herror : ofBytes p bytes = .error (.encoding e) := by
      rw [ofBytes, textOf, h]
      rfl
    rw [herror]
    refine iff_of_false (not_reported (by decide) (head?_encoding e)) ?_
    rintro ⟨cs, ⟨⟩, -⟩
  | ok cs =>
    rw [ofBytes_of_decode h]
    cases hs : statements .empty (normalize cs) with
    | ok d =>
      refine iff_of_true (reported_ok d.table) ⟨cs, rfl, ?_⟩
      rw [hs]
      exact StopsOnly.ok
    | error e =>
      show Reported p (.error (.invalid p (Failure.ofStop (normalize cs) e))) ↔ _
      rw [reported_ofStop_iff]
      constructor
      · intro he
        refine ⟨cs, rfl, ?_⟩
        rw [hs]
        exact StopsOnly.error he
      · rintro ⟨cs', ⟨⟩, hplaced⟩
        exact hplaced e hs

/-- A text without numerals that are too long and with brackets for which there is room. -/
structure Modest (cs : List Char) : Prop where
  numerals : ∀ n t, t <:+: cs → IsNumeral n t → n ≤ Digits.limit
  brackets : bracketRoom cs ≤ wholeRoom

/-- In a modest text all stops have a place. -/
theorem Modest.placed (h : Modest cs) (d : Draft) : StopsOnly Stop.Placed (statements d cs) := by
  intro e he
  have hexplained := explained_statements d cs e he
  cases e with
  | wrong left cause => trivial
  | digits n =>
    obtain ⟨hn, t, ht, hnumeral⟩ := hexplained
    exact absurd (h.numerals n t ht hnumeral) (Nat.not_le_of_lt hn)
  | tooDeep => exact absurd h.brackets (Nat.not_le_of_lt hexplained)

end Toml

namespace World

open Newline Toml

variable {w : World} {p : FilePath} {bytes : List UInt8}

/--
**Which files are refused by their name.**  A file that can be read is read as a document or
refused by its name just if its bytes are a text and whatever stops the reader of its lines has a
place.  So it is for every text that is modest in its numerals and its brackets, whatever else is
wrong with it.
-/
theorem readToml_reported_iff (h : w.read p = .ok bytes) :
    (Reported p (w.readToml p) ↔ ∃ cs, Utf8.decode bytes = .ok cs ∧
      StopsOnly Stop.Placed (statements .empty (normalize cs))) ∧
    ∀ cs, Utf8.decode bytes = .ok cs → Modest (normalize cs) → Reported p (w.readToml p) := by
  rw [readToml_of_read h]
  refine ⟨reported_ofBytes_iff, ?_⟩
  intro cs hcs hmodest
  exact reported_ofBytes_iff.mpr ⟨cs, hcs, hmodest.placed .empty⟩

/-- A settings file with a single byte, which begins no character. -/
def rawWorld : World := ⟨[([Discovery.fileName], .file [0xff])], [], []⟩

theorem readToml_raw : rawWorld.read topFile = .ok [0xff] ∧
    ¬ Reported topFile (rawWorld.readToml topFile) := by
  have hread : rawWorld.read topFile = .ok [0xff] := read_topFile rfl
  have hdecode : Utf8.decode [0xff] = .error ⟨0, 1, 0xff, .invalidStart⟩ := by cbv
  refine ⟨hread, fun hreported => ?_⟩
  obtain ⟨cs, hcs, -⟩ := (readToml_reported_iff hread).1.mp hreported
  cases hdecode.symm.trans hcs

end World

end Nullary
