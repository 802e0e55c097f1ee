/-!
# Failures of the wire format

A buffer that cannot be read means that the two sides disagree on the shape of
the data; a value that cannot be written is one the format has no room for.
Each cause has one wording.
-/
namespace CoreBridge.Wire

/-- Why a buffer does not hold the value asked for. -/
inductive DecodeError where
  /-- The next value needs more bytes than are left. -/
  | unexpectedEnd (needed remaining : Nat)
  /-- A length or count was negative. -/
  | negativeLength (value : Int)
  | invalidBool (value : Int)
  | invalidPresence (value : Int)
  | invalidText
  /-- No variant of the type has this discriminant. -/
  | unknownDiscriminant (typeName : String) (value : Int)
  /-- The value was read and bytes were left over. -/
  | trailingBytes (remaining : Nat)
  | invalidValue (typeName reason : String)
deriving DecidableEq, Repr, Inhabited

namespace DecodeError

/-- The wording of each cause. -/
def message : DecodeError → String
  | unexpectedEnd needed remaining =>
    s!"unexpected end of buffer: needed {needed} bytes, {remaining} remaining"
  | negativeLength value => s!"negative length prefix {value}"
  | invalidBool value => s!"invalid boolean byte {value}"
  | invalidPresence value => s!"invalid optional presence flag {value}"
  | invalidText => "string is not valid UTF-8"
  | unknownDiscriminant typeName value => s!"unknown discriminant {value} for {typeName}"
  | trailingBytes remaining => s!"{remaining} junk bytes remaining in buffer after decoding"
  | invalidValue typeName reason => s!"invalid {typeName}: {reason}"

end DecodeError

/-- Why a value has no wire form. -/
inductive EncodeError where
  /-- The length exceeds what a 32-bit signed prefix can say. -/
  | lengthOverflow (length : Nat)
  | invalidValue (typeName reason : String)
deriving DecidableEq, Repr, Inhabited

namespace EncodeError

/-- The wording of each cause. -/
def message : EncodeError → String
  | lengthOverflow length => s!"length {length} does not fit in a 32-bit prefix"
  | invalidValue typeName reason => s!"invalid {typeName}: {reason}"

end EncodeError
end CoreBridge.Wire
