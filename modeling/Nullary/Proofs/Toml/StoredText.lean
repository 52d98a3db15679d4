import Mathlib
import Nullary.Proofs.Toml.CarriageReturn
import Nullary.Proofs.World

/-!
# The text of a file and what is read of it

TOML ends its lines with a line feed, or with a carriage return and a line feed; a file is read with
every line end made a line feed first, also a carriage return that stands alone.  What TOML makes of
the stored text is read of the file, too.  The two differ exactly where the stored text has a lone
carriage return, for which TOML refuses it, and the text with its line ends replaced is a document:
`World.readToml_eq_ok_iff`.
-/

namespace Nullary

namespace Newline

variable {cs r : List Char}

/-- Somewhere in the text a carriage return stands alone: no line feed follows it. -/
def LoneReturn (cs : List Char) : Prop :=
  ∃ p r, cs = p ++ '\r' :: r ∧ r.head? ≠ some '\n'

theorem not_loneReturn_nil : ¬ LoneReturn [] := by
  rintro ⟨p, r, hp, -⟩
  cases p <;> cases hp

theorem loneReturn_cons {c : Char} :
    LoneReturn (c :: r) ↔ (c = '\r' ∧ r.head? ≠ some '\n') ∨ LoneReturn r := by
  constructor
  · rintro ⟨p, q, hp, hq⟩
    cases p with
    | nil =>
      obtain ⟨rfl, rfl⟩ := List.cons.inj hp
      exact Or.inl ⟨rfl, hq⟩
    | cons a p =>
      obtain ⟨-, rfl⟩ := List.cons.inj hp
      exact Or.inr ⟨p, q, rfl, hq⟩
  · rintro (⟨rfl, hr⟩ | ⟨p, q, rfl, hq⟩)
    · exact ⟨[], r, rfl, hr⟩
    · exact ⟨c :: p, q, rfl, hq⟩

/-- Where pairs are joined, the carriage returns that are left are those that stand alone. -/
theorem mem_joinPairs_iff : '\r' ∈ joinPairs cs ↔ LoneReturn cs := by
  fun_induction joinPairs cs with
  | case1 r ih =>
    rw [List.mem_cons, ih, loneReturn_cons, loneReturn_cons]
    simp
  | case2 c r hne ih =>
    rw [List.mem_cons, ih, loneReturn_cons]
    refine or_congr_left ?_
    constructor
    · rintro rfl
      refine ⟨rfl, fun hr => ?_⟩
      cases r with
      | nil => cases hr
      | cons d r =>
        obtain rfl := Option.some.inj hr
        exact hne r rfl rfl
    · intro h
      exact h.1.symm
  | case3 => simp [not_loneReturn_nil]

theorem not_mem_normalize (cs : List Char) : '\r' ∉ normalize cs := by
  fun_induction normalize cs with
  | case1 r ih => simpa using ih
  | case2 r hne ih => simpa using ih
  | case3 c r hne hr ih =>
    have hc : c ≠ '\r' := by
      rintro rfl
      exact hr rfl
    simpa [Ne.symm hc] using ih
  | case4 => simp

/-- Without lone carriage returns there are only pairs to join. -/
theorem normalize_eq_joinPairs (h : ¬ LoneReturn cs) : normalize cs = joinPairs cs := by
  fun_induction normalize cs with
  | case1 r ih =>
    rw [loneReturn_cons, loneReturn_cons, not_or, not_or] at h
    rw [joinPairs, ih h.2.2]
  | case2 r hne ih =>
    refine absurd (loneReturn_cons.mpr (Or.inl ⟨rfl, fun hr => ?_⟩)) h
    cases r with
    | nil => cases hr
    | cons d r =>
      obtain rfl := Option.some.inj hr
      exact hne r rfl
  | case3 c r hne hr ih =>
    rw [loneReturn_cons, not_or] at h
    rw [joinPairs, ih h.2]
    intro r' hc _
    exact hr hc
  | case4 => rfl

theorem not_loneReturn_of_not_mem (h : '\r' ∉ cs) : ¬ LoneReturn cs := by
  rintro ⟨p, r, rfl, -⟩
  simp at h

theorem normalize_of_not_mem (h : '\r' ∉ cs) : normalize cs = cs := by
  fun_induction normalize cs with
  | case1 r ih => simp at h
  | case2 r hne ih => simp at h
  | case3 c r hne hr ih =>
    rw [List.mem_cons, not_or] at h
    rw [ih h.2]
  | case4 => rfl

/-- Replaced line ends are not replaced again. -/
theorem joinPairs_normalize (cs : List Char) : joinPairs (normalize cs) = normalize cs := by
  have hno := not_mem_normalize cs
  rw [← normalize_eq_joinPairs (not_loneReturn_of_not_mem hno), normalize_of_not_mem hno]

end Newline

namespace Toml

open Newline

variable {cs : List Char} {d : Table}

/-- The characters are those of a document. -/
def Denotes (cs : List Char) (d : Table) : Prop :=
  parse (String.ofList cs) = .ok d

theorem denotes_iff_statements :
    Denotes cs d ↔ ∃ draft, statements .empty (joinPairs cs) = .ok draft ∧ draft.table = d := by
  unfold Denotes parse
  rw [String.toList_ofList]
  cases hs : statements .empty (joinPairs cs) with
  | error e => simp [hs]
  | ok draft => simp [hs]

/-- No text with a lone carriage return is a document. -/
theorem not_denotes_of_loneReturn (h : LoneReturn cs) : ¬ Denotes cs d := by
  intro hd
  obtain ⟨draft, hs, -⟩ := denotes_iff_statements.mp hd
  exact not_mem_of_statements hs (mem_joinPairs_iff.mpr h)

/-- Other texts are the same documents with their line ends replaced. -/
theorem denotes_normalize (h : ¬ LoneReturn cs) : Denotes (normalize cs) d ↔ Denotes cs d := by
  rw [denotes_iff_statements, denotes_iff_statements, joinPairs_normalize,
    normalize_eq_joinPairs h]

theorem ofBytes_eq_ok_iff {p : FilePath} {bytes : List UInt8} :
    ofBytes p bytes = .ok d ↔ ∃ cs, Utf8.decode bytes = .ok cs ∧ Denotes (normalize cs) d := by
  unfold ofBytes textOf Denotes
  cases Utf8.decode bytes with
  | error e => simp [Except.map]
  | ok cs =>
    cases hp : parse (String.ofList (normalize cs)) <;> simp [Except.map, Except.mapError, hp]

end Toml

namespace World

open Newline Toml

variable {w : World} {p : FilePath} {bytes : List UInt8}

/--
**What is read of a file.**  Its document is the one of the stored text, or else the stored text
has a lone carriage return, is no document for it, and becomes one when its line ends are
replaced.  So what is read of the file is what TOML makes of the stored text, unless the latter is
the case.
-/
theorem readToml_eq_ok_iff (h : w.read p = .ok bytes) :
    (∀ d, w.readToml p = .ok d ↔ ∃ cs, Utf8.decode bytes = .ok cs ∧
      (Denotes cs d ∨ (LoneReturn cs ∧ (∀ d', ¬ Denotes cs d') ∧ Denotes (normalize cs) d))) ∧
    ((∀ d, w.readToml p = .ok d ↔ ∃ cs, Utf8.decode bytes = .ok cs ∧ Denotes cs d) ↔
      ∀ cs d, Utf8.decode bytes = .ok cs → LoneReturn cs → ¬ Denotes (normalize cs) d) := by
  have hread (d : Table) : w.readToml p = .ok d ↔
      ∃ cs, Utf8.decode bytes = .ok cs ∧ Denotes (normalize cs) d := by
    rw [readToml_of_read h, ofBytes_eq_ok_iff]
  refine ⟨fun d => ?_, ?_, ?_⟩
  · rw [hread]
    refine exists_congr fun cs => and_congr_right fun _ => ?_
    by_cases hl : LoneReturn cs
    · constructor
      · intro hd
        exact Or.inr ⟨hl, fun d' => not_denotes_of_loneReturn hl, hd⟩
      · rintro (hd | ⟨-, -, hd⟩)
        · exact absurd hd (not_denotes_of_loneReturn hl)
        · exact hd
    · rw [denotes_normalize hl]
      simp [hl]
  · intro hsame cs d hcs hl hd
    obtain ⟨cs', hcs', hd'⟩ := (hsame d).mp ((hread d).mpr ⟨cs, hcs, hd⟩)
    rw [hcs] at hcs'
    obtain rfl := Except.ok.inj hcs'
    exact not_denotes_of_loneReturn hl hd'
  · intro hno d
    rw [hread]
    refine exists_congr fun cs => and_congr_right fun hcs => ?_
    by_cases hl : LoneReturn cs
    · exact iff_of_false (hno cs d hcs hl) (not_denotes_of_loneReturn hl)
    · exact denotes_normalize hl

/-- A file with a comment that a lone carriage return ends. -/
def commentWorld : World :=
  .withFile "# off\rverbose = true" []

theorem readToml_comment :
    commentWorld.readToml topFile = .ok [("verbose", .bool true)] ∧
    ¬ ∀ d, commentWorld.readToml topFile = .ok d ↔
      ∃ cs, Utf8.decode "# off\rverbose = true".toUTF8.toList = .ok cs ∧ Denotes cs d := by
  have hbytes : Utf8.decode "# off\rverbose = true".toUTF8.toList =
      .ok ("# off".toList ++ '\r' :: "verbose = true".toList) := by cbv
  have hdocument : Denotes (normalize ("# off".toList ++ '\r' :: "verbose = true".toList))
      [("verbose", .bool true)] := by
    unfold Denotes
    cbv
  have hlone : LoneReturn ("# off".toList ++ '\r' :: "verbose = true".toList) :=
    ⟨_, _, rfl, by decide⟩
  obtain ⟨hread, hsame⟩ := readToml_eq_ok_iff
    (read_withFile "# off\rverbose = true" [])
  refine ⟨(hread _).mpr ⟨_, hbytes, Or.inr ⟨hlone, ?_, hdocument⟩⟩, ?_⟩
  · exact fun d => not_denotes_of_loneReturn hlone
  · intro hd
    exact hsame.mp hd _ _ hbytes hlone hdocument

end World

end Nullary
