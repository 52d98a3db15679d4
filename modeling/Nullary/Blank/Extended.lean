import Nullary.Blank
import Nullary.Envelope.Document

/-!
# Value objects with fields

A class that is derived from that of the value objects can declare fields.  Its instances are no
values of a payload here; all that is told of one is what its fields hold.  They inherit the
encoding of the value objects, which is not empty for them.  Classes that encode in a way of their
own are left out.
-/

namespace Nullary.Blank

/-- A value object with fields, of which no two have one name. -/
structure Extended where
  fields : Fields Value
  distinct : fields.keys.Nodup

/-- The encoding of a value object with fields, each in the form that it has in a document. -/
def Extended.encode (x : Extended) : Except DocumentError Value :=
  (Value.recordJson x.fields).map Json.toValue

end Nullary.Blank
