import VectorIcons.Bytes

/-!
# Bytes in hexadecimal

A byte is written as two digits, the lower-case letters following the nine.
-/

namespace VectorIcons
namespace Text

private def hexDigits : List Char :=
  ['0', '1', '2', '3', '4', '5', '6', '7', '8', '9', 'a', 'b', 'c', 'd', 'e', 'f']

def hexDigit (n : Nat) : Char := hexDigits.getD n '0'

def hexByte (byte : UInt8) : String :=
  String.ofList [hexDigit (byte.toNat / 16), hexDigit (byte.toNat % 16)]

/-- The bytes with `separator` between them. -/
def hexRow (separator : String) (bytes : Bytes) : String :=
  separator.intercalate (bytes.map hexByte)

/-- The bytes as a list in brackets. -/
def hexList (bytes : Bytes) : String := "[" ++ hexRow ", " bytes ++ "]"

end Text
end VectorIcons
