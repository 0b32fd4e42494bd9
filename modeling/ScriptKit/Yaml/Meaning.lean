import ScriptKit.Decimal
import ScriptKit.Text.Base64
import ScriptKit.Trace.Instant
import ScriptKit.Yaml.Tree

/-!
# What YAML scalars stand for

A plain scalar without a tag stands for the absence of a value, a truth value, a number or a time if it is
written like one, and else for its own text; a quoted scalar stands for its text. A tag asks for a kind, and
the scalar has to be of that kind. A tag that is not one of the common ones asks for nothing, but the scalar
is a text then.
-/

namespace ScriptKit.Yaml

/-- A number that may have a fraction. -/
inductive Amount where
  | finite (negative : Bool) (size : Ratio)
  | infinite (negative : Bool)
  | undefined
  deriving Repr, Inhabited

/-- What a scalar stands for. -/
inductive Meaning where
  | null
  | bool (b : Bool)
  | int (n : Int)
  /-- A whole number that takes 64 bits without a sign. -/
  | large (n : Nat)
  | amount (x : Amount)
  | time
  | text (t : Text)
  deriving Repr, Inhabited

/-! ## Words -/

/-- Words that all stand for the same. -/
def spelt (m : Meaning) (ws : List Text) : List (Text × Meaning) := ws.map (·, m)

/-- The plain scalars with a meaning of their own. -/
def words : List (Text × Meaning) :=
  spelt .null ["", "~", "null", "Null", "NULL"] ++
  spelt (.bool true) ["true", "True", "TRUE"] ++
  spelt (.bool false) ["false", "False", "FALSE"] ++
  spelt (.amount .undefined) [".nan", ".NaN", ".NAN"] ++
  spelt (.amount (.infinite false)) [".inf", ".Inf", ".INF", "+.inf", "+.Inf", "+.INF"] ++
  spelt (.amount (.infinite true)) ["-.inf", "-.Inf", "-.INF"]

/-! ## Numbers -/

/-- Whether a glyph is a decimal digit. -/
def isDigit (g : Glyph) : Bool := (Text.digitValue? g).isSome

/-- The exponent written after the mark, if there is one. -/
def exponent? : Text → Option Int
  | [] => some 0
  | g :: rest => if g = .char 'e' || g = .char 'E' then Text.readInt rest else none

/-- The value of a number without its sign. -/
def unsigned? (t : Text) : Option Ratio := do
  let whole := t.takeWhile isDigit
  let rest := t.drop whole.length
  let (fraction, rest) :=
    match rest with
    | .char '.' :: more => (more.takeWhile isDigit, more.dropWhile isDigit)
    | rest => ([], rest)
  let digits ← Text.readNat (whole ++ fraction)
  Ratio.ofDecimal? digits ((← exponent? rest) - fraction.length)

/-- The value of a number with or without a sign. -/
def amount? : Text → Option Amount
  | .char '-' :: rest => (unsigned? rest).map (.finite true)
  | .char '+' :: rest => (unsigned? rest).map (.finite false)
  | t => (unsigned? t).map (.finite false)

/-- The value of digits of a base, of at most 64 bits with the sign. -/
def signedDigits? (base : Nat) (negative : Bool) (digits : Text) : Option Int :=
  if digits.isEmpty then none
  else
    match Text.literalValueFrom base 0 digits with
    | .error _ => none
    | .ok n =>
      if negative then if n ≤ Text.bound64 then some (-(n : Int)) else none
      else if n < Text.bound64 then some n
      else none

/-- The value of a number with its sign after the mark of the base. -/
def innerSign? : Text → Option Int
  | .char '0' :: .char mark :: .char sign :: digits =>
    if (mark = 'b' || mark = 'o') && (sign = '-' || sign = '+') then
      signedDigits? (if mark = 'b' then 2 else 8) (sign = '-') digits
    else none
  | _ => none

/-- What a number without underscores stands for: a whole number of some base, or a number with a fraction or
an exponent. -/
def number? (t : Text) : Option Meaning :=
  match Text.literalInt t with
  | .ok n => some (.int n)
  | .error _ =>
    match Text.literalNat t with
    | .ok n => some (.large n)
    | .error _ => ((amount? t).map Meaning.amount) <|> ((innerSign? t).map Meaning.int)

/-- Whether every underscore stands between two digits. `ready` tells whether a digit came last. -/
def separatesDigits : Bool → Text → Bool
  | _, [] => true
  | ready, .char '_' :: g :: rest => ready && isDigit g && separatesDigits true rest
  | _, [.char '_'] => false
  | _, g :: rest => separatesDigits (isDigit g) rest

/-- A text without underscores. -/
def withoutUnderscores (t : Text) : Text := t.filter (· != .char '_')

/-! ## Times -/

/-- Read a date whose month and day may have one digit. -/
def takeShortDate (t : Text) : Option Text := do
  let (year, t) ← Instant.takeDigits 4 0 t
  let t ← Instant.takeMark '-' t
  let (month, t) ← Instant.takeShort t
  let t ← Instant.takeMark '-' t
  let (day, t) ← Instant.takeShort t
  if 1 ≤ month && 1 ≤ day && day ≤ Instant.daysInMonth year month then some t else none

/-- Read a time of day whose parts may have one digit. -/
def takeShortClock (t : Text) : Option Text := do
  let (hour, t) ← Instant.takeShort t
  let t ← Instant.takeMark ':' t
  let (minute, t) ← Instant.takeShort t
  let t ← Instant.takeMark ':' t
  let (second, t) ← Instant.takeShort t
  if hour < 24 && minute < 60 && second < 60 then some (Instant.takeFraction t).2 else none

/-- Whether a text is a date, alone, with a time of day after blanks, or with a time of day and an offset. -/
def isTime (t : Text) : Bool :=
  match takeShortDate t with
  | none => false
  | some [] => true
  | some (.char ' ' :: rest) => takeShortClock (rest.dropWhile (· == .char ' ')) == some []
  | some (.char c :: rest) =>
    (c = 'T' || c = 't') && ((takeShortClock rest).bind Instant.takeOffset).any (·.2.isEmpty)
  | some _ => false

/-! ## Meanings -/

/-- What a scalar stands for that may be anything. `timed` tells whether it may be a time. -/
def meaningOf (timed : Bool) (t : Text) : Meaning :=
  match words.lookup t, t with
  | some m, _ => m
  | none, .char '.' :: _ =>
    if separatesDigits false t then ((amount? (withoutUnderscores t)).map .amount).getD (.text t) else .text t
  | none, g :: _ =>
    if isDigit g || g == .char '+' || g == .char '-' then
      if timed && isTime t then .time else (number? (withoutUnderscores t)).getD (.text t)
    else .text t
  | none, [] => .text t

/-- The tag of texts. -/
def textTag : Text := "!!str"

/-- The tag of times. -/
def timeTag : Text := "!!timestamp"

/-- The tag of numbers with a fraction. -/
def amountTag : Text := "!!float"

/-- The tag of bytes. -/
def bytesTag : Text := "!!binary"

/-- The tag of the key under which a map takes in others. -/
def mergeTag : Text := "!!merge"

/-- The tag of what a scalar stands for. -/
def Meaning.tag : Meaning → Text
  | .null => "!!null"
  | .bool _ => "!!bool"
  | .int _ => "!!int"
  | .large _ => "!!int"
  | .amount _ => amountTag
  | .time => timeTag
  | .text _ => textTag

/-- The tags that ask for a kind of scalar. -/
def kindTags : List Text := ["!!bool", "!!int", amountTag, "!!null", timeTag]

/-- A whole number as a number with a fraction. -/
def Amount.ofInt (n : Int) : Amount := .finite (n < 0) (Ratio.rounded (.whole n.natAbs))

/-- What a scalar with a tag that asks for a kind stands for. A whole number will do for one with a
fraction. -/
def taggedMeaning? (tag value : Text) : Option Meaning :=
  let m := meaningOf (tag = timeTag) value
  if m.tag = tag then some m
  else
    match m with
    | .int n => if tag = amountTag then some (.amount (.ofInt n)) else none
    | _ => none

/-- What a scalar stands for; it fails if its tag asks for something else. -/
def meaning? (tag : Text) (plain : Bool) (value : Text) : Option Meaning :=
  if tag.isEmpty then some (if plain then meaningOf true value else .text value)
  else if tag = bytesTag then (Text.ofBase64? value).map .text
  else if kindTags.contains tag then taggedMeaning? tag value
  else some (.text value)

/-- Whether a node is the key under which a map takes in others. -/
def isMergeKey : Yaml → Bool
  | .scalar tag plain value => value == Text.ofString "<<" && (tag == mergeTag || (tag.isEmpty && plain))
  | _ => false

/-- What an alias stands for; any other node stands for itself. -/
def behind : Yaml → Yaml
  | .alias _ (some target) => target
  | node => node

end ScriptKit.Yaml
