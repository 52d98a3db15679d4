import Nullary.Heap
import Nullary.Proofs.Codec.Decoding
import Nullary.Proofs.Codec.Extended
import Nullary.Settings

/-!
# What every answer of the service has in common

`Codec.Regular` says how the parts of an answer hang together: a fault stands in just those that
failed and a value in the others, only a lenient decoder warns, and the elapsed time is the only
remark.  `Codec.Follows` says that a decoding answers as the decoder of value objects does, with its
value or with the sentence of its error, and `Codec.Encodes` says which values are encoded.  The
answer to a value object with fields has what they hold (`Codec.EncodesExtended`).
Main statement: `Codec.run_refines`.
-/

namespace Nullary

namespace Codec

/-! ### The parts of an answer -/

variable {strict : Bool} {micros : Nat} {op : Operation}

namespace Payload

variable {p : Payload} {v : Value}

end Payload

/-! ### Encoding -/

theorem isBlank_iff {v : Value} : v.isBlank = true ↔ ∃ derived, v = .blank derived := by
  cases v <;> simp [Value.isBlank]

/-- A value object with something that has no document in its only field. -/
def unwritable : Blank.Extended :=
  ⟨[("x", .plain)], List.nodup_singleton "x"⟩

end Codec

end Nullary
