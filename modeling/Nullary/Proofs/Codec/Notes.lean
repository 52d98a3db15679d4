import Nullary.Proofs.Codec.Decoding

/-!
# The notes of a call

Every answer tells which notes its call has left (`Codec.notes_run`): one for a new value object or
for a fault, none where a value was encoded or decoded, and a closing one in every case.
-/

namespace Nullary.Codec

/-- The notes before the closing one, told from the answer. -/
def notesOf (op : Operation) (e : Envelope) : List String :=
  match op, e.fault with
  | .build, _ => ["Built Type()"]
  | .encode _, some f =>
    match f.detail.get? "type" with
    | some (.text kind) => ["Refusing to encode " ++ kind]
    | _ => []
  | .decode _, some f =>
    if f.code = "INVALID_PAYLOAD" then ["Decode rejected payload: " ++ f.message]
    else if f.code = "UNKNOWN_FIELDS" then ["Decode rejected unknown fields: " ++ f.message]
    else []
  | _, none => []

/-- The closing note of a call. -/
def closing (micros : Nat) (op : Operation) (e : Envelope) : String :=
  op.name ++ " finished ok=" ++ Value.truthLiteral e.ok ++ " in " ++ milliseconds micros ++ "ms"

variable {strict : Bool} {micros : Nat} {op : Operation} {e : Envelope}

theorem notes_encode {v : Value} (h : (encode v).result = .ok e) :
    (encode v).notes = notesOf (.encode v) e := by
  revert h
  unfold encode
  split
  · exact fun h => Except.ok.inj h ▸ rfl
  · exact fun h => Except.ok.inj h ▸ rfl

theorem notes_decode {v : Value} (h : (decode strict v).result = .ok e) :
    (decode strict v).notes = notesOf (.decode v) e := by
  revert h
  unfold decode
  split
  · intro h
    obtain ⟨names, -, rfl⟩ := exists_of_map_eq_ok h
    rfl
  · exact fun h => Except.ok.inj h ▸ rfl
  · intro h
    obtain ⟨names, -, rfl⟩ := exists_of_map_eq_ok h
    rfl

theorem notes_perform (h : (perform strict op).result = .ok e) :
    (perform strict op).notes = notesOf op e := by
  cases op with
  | build => rfl
  | encode v => exact notes_encode h
  | decode v => exact notes_decode h

/-- The notes of a call are those that its answer tells of, and a closing one. -/
theorem notes_run (h : (run strict micros op).result = .ok e) :
    (run strict micros op).notes = notesOf op e ++ [closing micros op e] := by
  rw [result_run] at h
  obtain ⟨e, hp, rfl⟩ := exists_of_map_eq_ok h
  rw [run, timed, hp, notes_perform hp]
  rfl

end Nullary.Codec
