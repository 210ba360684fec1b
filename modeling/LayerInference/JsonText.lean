import LayerInference.ByteStrings

/-!
# JSON text as it is written

Both services write JSON by hand: string contents are escaped byte by byte,
and an error is an object with a flag and the message. Bytes outside the
ASCII range are copied as they are.
-/

namespace LayerInference.JsonText

open ByteStrings

/-- A lower-case hexadecimal digit. -/
def hexDigit (value : UInt8) : UInt8 := if value < 10 then 48 + value else 87 + value

/-- The escape of one byte of a string. -/
def jsonEscapeByte (c : UInt8) : Bytes :=
  if c = 34 then ascii "\\\""
  else if c = 92 then ascii "\\\\"
  else if c = 8 then ascii "\\b"
  else if c = 12 then ascii "\\f"
  else if c = 10 then ascii "\\n"
  else if c = 13 then ascii "\\r"
  else if c = 9 then ascii "\\t"
  else if c < 0x20 then
    ascii "\\u00" ++ [hexDigit ((c >>> 4) &&& 0x0f), hexDigit (c &&& 0x0f)]
  else [c]

def jsonEscape (value : Bytes) : Bytes := value.flatMap jsonEscapeByte

/-- The body of an error answer. -/
def httpErrorJson (error : Bytes) : Bytes :=
  [0x7b] ++ ascii "\"ok\":false,\"error\":\"" ++ jsonEscape error ++ ascii "\"" ++ [0x7d]

end LayerInference.JsonText
