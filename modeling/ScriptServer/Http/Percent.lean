import ScriptServer.Text.Basic
import ScriptServer.Text.Utf8

/-!
# Percent escapes

An escape is a percent sign and two hexadecimal digits, which stand for one byte. Escapes are
decoded once from left to right, and a percent sign that begins none stands for itself.
-/

namespace ScriptServer.Http

/-- The byte that an escape with these digits stands for. -/
def escaped? (high low : UInt8) : Option UInt8 :=
  match Text.hexByte? high, Text.hexByte? low with
  | some h, some l => some (h * 16 + l).toUInt8
  | _, _ => none

def percentDecodeBytes : Bytes → Bytes
  | [] => []
  | [a] => [a]
  | [a, b] => [a, b]
  | percent :: high :: low :: rest =>
    if percent = 0x25 then
      match escaped? high low with
      | some b => b :: percentDecodeBytes rest
      | none => percent :: percentDecodeBytes (high :: low :: rest)
    else percent :: percentDecodeBytes (high :: low :: rest)

def percentDecode (raw : String) : String :=
  Utf8.toTextLossy (percentDecodeBytes (Utf8.ofText raw))

end ScriptServer.Http
