import ScriptKit.Text.Numeral

/-!
# JSON values and their written form

Values are written compactly. Inside strings the quote, the backslash and every control character are
escaped, and so are the characters that are unsafe in a web page: angle brackets, the ampersand and
the two line separators U+2028 and U+2029. Every other character stands for itself.

A number keeps the numeral it is written with, so that nothing is lost between reading and writing.
-/

namespace ScriptKit

/-- A JSON value. The fields of an object keep the order in which they are written. -/
inductive Json where
  | null
  | bool (b : Bool)
  | number (numeral : Text)
  | string (t : Text)
  | array (items : List Json)
  | object (fields : List (Text × Json))
  deriving Repr, Inhabited

namespace Json

/-- The JSON number of an integer. -/
def int (n : Int) : Json := .number (Text.ofInt n)

/-- The JSON number of a natural number. -/
def nat (n : Nat) : Json := .number (Text.ofNat n)

/-- A field of an object. -/
def field (name : Text) (value : Json) : Text × Json := (name, value)

/-! ## Writing -/

/-- How a character is written inside a string. -/
def escapeChar (c : Char) : Text :=
  match c.toNat with
  | 0x08 => "\\b"
  | 0x09 => "\\t"
  | 0x0A => "\\n"
  | 0x0C => "\\f"
  | 0x0D => "\\r"
  | 0x22 => "\\\""
  | 0x5C => "\\\\"
  | n =>
    if n < 0x20 || n == 0x26 || n == 0x3C || n == 0x3E || n == 0x2028 || n == 0x2029 then
      "\\u" ++ Text.ofHex 4 n
    else [.char c]

/-- A text as a JSON string; a stray byte is shown by the replacement character. -/
def writeString (t : Text) : Text :=
  [.char '"'] ++ t.flatMap (fun g => escapeChar g.shown) ++ [.char '"']

mutual

/-- The written form of a value. -/
def write : Json → Text
  | .null => "null"
  | .bool true => "true"
  | .bool false => "false"
  | .number numeral => numeral
  | .string t => writeString t
  | .array [] => "[]"
  | .array (item :: items) => [.char '['] ++ item.write ++ writeItems items ++ [.char ']']
  | .object [] => [.char '\x7b', .char '\x7d']
  | .object ((name, value) :: fields) =>
    [.char '\x7b'] ++ writeString name ++ [.char ':'] ++ value.write ++ writeFields fields ++
      [.char '\x7d']

/-- The items of an array after the first, each after a comma. -/
def writeItems : List Json → Text
  | [] => []
  | item :: items => [.char ','] ++ item.write ++ writeItems items

/-- The fields of an object after the first, each after a comma. -/
def writeFields : List (Text × Json) → Text
  | [] => []
  | (name, value) :: fields =>
    [.char ','] ++ writeString name ++ [.char ':'] ++ value.write ++ writeFields fields

end

end Json

end ScriptKit
