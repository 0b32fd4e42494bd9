import ScriptKit.Text.Basic

/-!
# Bytes written in base 64

Three bytes are written as four characters, each of which stands for six bits. The last group is filled up
with equals signs. Ends of lines do not count.
-/

namespace ScriptKit.Text

/-- The six bits a character stands for. -/
def sixBits? : Glyph → Option Nat
  | .char c =>
    if 'A' ≤ c && c ≤ 'Z' then some (c.toNat - 'A'.toNat)
    else if 'a' ≤ c && c ≤ 'z' then some (c.toNat - 'a'.toNat + 26)
    else if '0' ≤ c && c ≤ '9' then some (c.toNat - '0'.toNat + 52)
    else if c = '+' then some 62
    else if c = '/' then some 63
    else none
  | .stray _ => none

/-- The bytes of groups of four characters. -/
def base64Groups : Text → Option (List UInt8)
  | [] => some []
  | a :: b :: c :: d :: rest => do
    let x ← sixBits? a
    let y ← sixBits? b
    let first := UInt8.ofNat (x * 4 + y / 16)
    if d = .char '=' then
      if !rest.isEmpty then none
      else if c = .char '=' then some [first]
      else
        let z ← sixBits? c
        some [first, UInt8.ofNat (y * 16 + z / 4)]
    else
      let z ← sixBits? c
      let w ← sixBits? d
      let more ← base64Groups rest
      some (first :: UInt8.ofNat (y * 16 + z / 4) :: UInt8.ofNat (z * 64 + w) :: more)
  | _ => none

/-- The text whose bytes are written in base 64. -/
def ofBase64? (t : Text) : Option Text :=
  (base64Groups (t.filter fun g => g != .char '\n' && g != .char '\r')).map ofBytes

end ScriptKit.Text
