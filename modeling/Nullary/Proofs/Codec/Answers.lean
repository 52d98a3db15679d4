import Nullary.Codec
import Nullary.Proofs.Value.Literal

/-!
# When the service answers

The service answers with an envelope whenever the names of the entries that it was given can be
told: `Codec.exists_envelope_iff`.  They cannot be told where an integer of too many digits stands
in a key, and then the call fails, be the service strict or lenient: a strict decoder needs the
names for its complaint, a lenient one for its warning.  Building and encoding always answer.
-/

namespace Nullary.Codec

open Value

/-! ### Results that are there -/

theorem isOk_iff_exists {ε α : Type} {x : Except ε α} : x.isOk = true ↔ ∃ a, x = .ok a := by
  cases x <;> simp [Except.isOk, Except.toBool]

theorem isOk_map {ε α β : Type} (f : α → β) (x : Except ε α) : (x.map f).isOk = x.isOk := by
  cases x <;> rfl

/-- Timing neither gives an answer nor takes one away. -/
theorem isOk_timed (micros : Nat) (op : String) (o : Outcome) :
    (timed micros op o).result.isOk = o.result.isOk := by
  unfold timed
  split
  · rfl
  · next e he =>
    rw [he]
    rfl

/-! ### Names of entries -/

/-- Whether a key can be told. -/
def isTold (k : Value) : Bool :=
  (integers k).all Digits.withinLimit

theorem isTold_iff {k : Value} :
    isTold k = true ↔ ∀ n ∈ integers k, n.natAbs < 10 ^ Digits.limit := by
  rw [isTold, List.all_eq_true]
  exact forall₂_congr fun n _ => Digits.withinLimit_iff

/-- The names of entries can be told when each of their keys can. -/
theorem isOk_fieldNames (es : List (Value × Value)) :
    (Blank.fieldNames es).isOk = es.all fun e => isTold e.1 := by
  rw [Blank.fieldNames, isOk_map, isOk_displays, List.all_map]
  rfl

/-- A decoder, strict or not, answers just when it can tell the names of the entries. -/
theorem isOk_decode_mapping (strict : Bool) (kind : MappingKind) (es : List (Value × Value)) :
    (decode strict (.mapping kind es)).result.isOk = es.all fun e => isTold e.1 := by
  rw [← isOk_fieldNames es]
  unfold decode
  split
  · exact isOk_map _ _
  · next k hk =>
    unfold Blank.decode at hk
    simp only [entries?] at hk
    split_ifs at hk
    split at hk <;> cases hk
  · exact isOk_map _ _

/-- Whatever is no mapping is refused by its class. -/
theorem isOk_decode_of_entries?_eq_none {v : Value} (h : v.entries? = none) (strict : Bool) :
    (decode strict v).result.isOk = true := by
  have hrefused : Blank.decode strict v = .error (.notMapping v.kindName) := by
    rw [Blank.decode, h]
  rw [decode, hrefused]
  rfl

/-! ### Operations -/

/--
**When the service answers.**  The only calls without an envelope are those that decode a mapping
with a key in which an integer of more digits than the limit stands.  The value objects among the
values have no fields; for those that have, see `runExtended`.
-/
theorem exists_envelope_iff (strict : Bool) (micros : Nat) (op : Operation) :
    (∃ e, (run strict micros op).result = .ok e) ↔
      ∀ kind es, op = .decode (.mapping kind es) →
        ∀ e ∈ es, ∀ n ∈ integers e.1, n.natAbs < 10 ^ Digits.limit := by
  rw [← isOk_iff_exists, run, isOk_timed]
  cases op with
  | build => simp [perform, build, Except.isOk, Except.toBool]
  | encode v =>
    have hanswer : (encode v).result.isOk = true := by
      unfold encode
      split <;> rfl
    simp [perform, hanswer]
  | decode v =>
    show (decode strict v).result.isOk = true ↔ _
    cases hv : v.entries? with
    | none =>
      refine iff_of_true (isOk_decode_of_entries?_eq_none hv strict) ?_
      rintro kind es ⟨⟩
      cases hv
    | some es =>
      cases v with
      | mapping kind es' =>
        obtain rfl := Option.some.inj hv
        rw [isOk_decode_mapping, List.all_eq_true]
        constructor
        · rintro h kind' es' ⟨⟩ e he
          exact isTold_iff.mp (h e he)
        · intro h e he
          exact isTold_iff.mpr (h kind _ rfl e he)
      | _ => cases hv

/-- An entry whose key has one digit too many. -/
def longKey : Value :=
  .mapping .dict [(.int (10 ^ Digits.limit), .bool true)]

/-- Neither a strict service nor a lenient one answers for such a key. -/
theorem run_longKey (strict : Bool) (micros : Nat) (e : Envelope) :
    (run strict micros (.decode longKey)).result ≠ .ok e := by
  have hpower (m : Nat) : ¬ ((10 : Int) ^ m).natAbs < 10 ^ m := by
    rw [Int.natAbs_pow]
    exact Nat.lt_irrefl _
  intro h
  have hok : (run strict micros (.decode longKey)).result.isOk = true := isOk_iff_exists.mpr ⟨e, h⟩
  rw [run, isOk_timed] at hok
  change (decode strict longKey).result.isOk = true at hok
  rw [longKey, isOk_decode_mapping, List.all_eq_true] at hok
  have htold := isTold_iff.mp (hok _ (List.mem_singleton.mpr rfl))
  exact hpower Digits.limit (htold _ (List.mem_singleton.mpr rfl))

end Nullary.Codec
