import FormulaBook.Decimal.Numeral
import FormulaBook.Json.Reader
import FormulaBook.Text.Lowercase
import FormulaBook.Text.Quoted
import FormulaBook.Value.Basic
import FormulaBook.Yaml.Cursor

/-!
# The types of scalars

A plain scalar has the type whose form its text has: `yes` is a truth value, `010` a whole number
in octal digits, `1:30` one in sexagesimal digits, `2024-01-02` a day. All other plain scalars are
texts.

* `Tag`: the types;
* `implicitTag`: the type of a scalar that its text decides;
* `scalarValue`: the value of a scalar of a given type.
-/

namespace FormulaBook.Yaml

open Text (isDigit)

/-- The type of a scalar or collection. -/
inductive Tag where
  | null
  | bool
  | int
  | float
  | binary
  | timestamp
  | str
  | seq
  | map
  | set
  | omap
  | pairs
  | merge
  | value
  | other
  deriving DecidableEq, Repr

/-- What the names of the plain types begin with. -/
def plainTypes : String := "tag:yaml.org,2002:"

/-- The type that a full name denotes. -/
def Tag.ofName (name : String) : Tag :=
  ([("null", Tag.null), ("bool", .bool), ("int", .int), ("float", .float), ("binary", .binary),
    ("timestamp", .timestamp), ("str", .str), ("seq", .seq), ("map", .map), ("set", .set),
    ("omap", .omap), ("pairs", .pairs), ("merge", .merge), ("value", .value)].find?
      fun (short, _) => plainTypes ++ short == name).elim .other (·.2)

/-! ### The forms of plain scalars -/

/-- Digits and underscores. -/
def isDigitOrGap (c : Char) : Bool := isDigit c || c == '_'

/-- A row that is not empty and whose members satisfy `p`. -/
def isRow (p : Char → Bool) (l : List Char) : Bool := !l.isEmpty && l.all p

/-- A text without a sign at its front. -/
def unsigned (l : List Char) : List Char := (Decimal.signed l).2

/-- The parts of a text between colons. -/
def colonParts (l : List Char) : List (List Char) := l.splitOn ':'

/-- One or two digits for a number below sixty. -/
def isSixtieth : List Char → Bool
  | [c] => isDigit c
  | [c, d] => '0' ≤ c && c ≤ '5' && isDigit d
  | _ => false

/-- The forms of whole numbers. -/
def isInt (l : List Char) : Bool :=
  match unsigned l with
  | '0' :: 'b' :: digits => isRow (fun c => c == '0' || c == '1' || c == '_') digits
  | '0' :: 'x' :: digits => isRow (fun c => (Json.hexValue? c).isSome || c == '_') digits
  | ['0'] => true
  | '0' :: digits => isRow (fun c => ('0' ≤ c && c ≤ '7') || c == '_') digits
  | c :: rest =>
    let (first, others) := match colonParts rest with
      | [] => ([], [])
      | first :: others => (first, others)
    '1' ≤ c && c ≤ '9' && first.all isDigitOrGap && others.all isSixtieth
  | [] => false

/-- An exponent with a sign, or nothing. -/
def isSignedExponent : List Char → Bool
  | [] => true
  | e :: sign :: digits =>
    (e == 'e' || e == 'E') && (sign == '+' || sign == '-') && isRow isDigit digits
  | _ => false

/-- Digits that begin with a digit, and what follows them. -/
def leadingDigits? : List Char → Option (List Char × List Char)
  | c :: rest =>
    if isDigit c then some (c :: rest.takeWhile isDigitOrGap, rest.dropWhile isDigitOrGap) else none
  | [] => none

/-- A decimal with a point: digits before it with a sign, or digits after it without one. -/
def isDecimal (l : List Char) : Bool :=
  match leadingDigits? (unsigned l) with
  | some (_, '.' :: rest) => isSignedExponent (rest.dropWhile isDigitOrGap)
  | some _ => false
  | none =>
    match l with
    | '.' :: rest => (leadingDigits? rest).any fun (_, rest) => isSignedExponent rest
    | _ => false

/-- A sexagesimal number with a point. -/
def isSexagesimal (l : List Char) : Bool :=
  let l := unsigned l
  match colonParts (l.takeWhile (· != '.')), l.dropWhile (· != '.') with
  | first :: others, '.' :: fraction =>
    ((leadingDigits? first).any fun (_, rest) => rest.isEmpty) && !others.isEmpty &&
      others.all isSixtieth && fraction.all isDigitOrGap
  | _, _ => false

/-- The words for infinity and for no number. -/
def isFloatWord (l : List Char) : Bool :=
  [".inf", ".Inf", ".INF"].contains (String.ofList (unsigned l)) ||
    [".nan", ".NaN", ".NAN"].contains (String.ofList l)

/-- The forms of doubles. -/
def isFloat (l : List Char) : Bool := isDecimal l || isSexagesimal l || isFloatWord l

/-! ### Days and moments -/

/-- The texts of the fields of a day or moment. -/
structure Stamp where
  year : List Char
  month : List Char
  day : List Char
  hour : List Char := []
  minute : List Char := []
  second : List Char := []
  fraction : List Char := []
  /-- The sign, the hours and the minutes of the distance from universal time. -/
  zone : Option (Char × List Char × List Char) := none

/-- Between `least` and `greatest` digits and then `last`, and what follows. -/
def digitsThen? (least greatest : Nat) (last : Char) (l : List Char) :
    Option (List Char × List Char) :=
  let digits := (l.take greatest).takeWhile isDigit
  match l.drop digits.length with
  | c :: rest => if least ≤ digits.length && c == last then some (digits, rest) else none
  | [] => none

/-- The distance from universal time: nothing, the letter Z, or a sign with hours and minutes. -/
def zone? (l : List Char) : Option (Option (Char × List Char × List Char)) :=
  match l.dropWhile fun c => c == ' ' || c == '\t' with
  | [] => if l.isEmpty then some none else none
  | ['Z'] => some (some ('+', ['0'], []))
  | sign :: rest =>
    if sign == '+' || sign == '-' then
      match rest.takeWhile isDigit, rest.dropWhile isDigit with
      | hour, [] =>
        if hour.length == 1 || hour.length == 2 then some (some (sign, hour, [])) else none
      | hour, [':', a, b] =>
        if (hour.length == 1 || hour.length == 2) && isDigit a && isDigit b then
          some (some (sign, hour, [a, b]))
        else none
      | _, _ => none
    else none

/-- The time of day after a day. -/
def time? (stamp : Stamp) (l : List Char) : Option Stamp := do
  let (hour, l) ← digitsThen? 1 2 ':' l
  let (minute, l) ← digitsThen? 2 2 ':' l
  let second := (l.take 2).takeWhile isDigit
  if second.length != 2 then none
  let l := l.drop 2
  let (fraction, l) := match l with
    | '.' :: rest => (rest.takeWhile isDigit, rest.dropWhile isDigit)
    | _ => ([], l)
  let zone ← zone? l
  return { stamp with hour, minute, second, fraction, zone }

/-- The fields of a day or moment. -/
def stamp? (l : List Char) : Option Stamp := do
  let (year, l) ← digitsThen? 4 4 '-' l
  let (month, l) ← digitsThen? 1 2 '-' l
  let day := (l.take 2).takeWhile isDigit
  if day.isEmpty then none
  let stamp : Stamp := { year, month, day }
  match l.drop day.length with
  | [] => return stamp
  | c :: rest =>
    if c == 'T' || c == 't' then time? stamp rest
    else if c == ' ' || c == '\t' then
      time? stamp (rest.dropWhile fun c => c == ' ' || c == '\t')
    else none

/-- The forms of days and moments; a day alone has two digits for the month and for the day. -/
def isTimestamp (l : List Char) : Bool :=
  (stamp? l).any fun s => !s.hour.isEmpty || (s.month.length == 2 && s.day.length == 2)

/-! ### The type of a plain scalar -/

/-- The words for truth values. -/
def truthWords : List (String × Bool) :=
  [("yes", true), ("no", false), ("true", true), ("false", false), ("on", true), ("off", false)]

/-- A word in small letters, in capital letters, or with one capital letter in front. -/
def isWordIn (words : List String) (s : String) : Bool :=
  words.any fun w => s == w || s == w.toUpper || s == w.capitalize

/-- The type of a scalar that its text decides: a plain one, or a quoted one with the tag that leaves
the type open. One line feed at its end is not looked at, unless it is all there is. The sign of a
tag, of an anchor or of an alias, by itself, has a type without values. -/
def implicitTag (text : String) : Tag :=
  let chars := text.toList
  let chars := if chars.getLast? == some '\n' then chars.dropLast else chars
  let word := String.ofList chars
  if text == "\n" then .str
  else if isWordIn (truthWords.map (·.1)) word then .bool
  else if isFloat chars then .float
  else if isInt chars then .int
  else if word == "<<" then .merge
  else if word == "" || word == "~" || isWordIn ["null"] word then .null
  else if isTimestamp chars then .timestamp
  else if word == "=" then .value
  else if word == "!" || word == "&" || word == "*" then .other
  else .str

/-! ### The value of a scalar -/

/-- The text for a scalar that is no whole number; of a long one the beginning is shown. -/
def invalidInt (base : Nat) (s : String) : Error :=
  .badValue (s!"invalid literal for int() with base {base}: " ++
    String.ofList ((Text.quote s).toList.take 200))

/-- The whole number that a text without underscores denotes in a base, where the letter of the base
may stand after a zero in front. -/
def baseInt (base : Nat) (letter : Char) (s : String) : Except Error Int :=
  let (negative, l) := Decimal.signed (Decimal.numeralChars s)
  let digits := match l with
    | '0' :: c :: rest => if c.toLower == letter && !rest.isEmpty then rest else l
    | _ => l
  let value := digits.foldlM (fun n c => do
    let d ← Json.hexValue? c
    if d < base then some (n * base + d) else none) 0
  match value with
  | some n =>
    if digits.isEmpty then .error (invalidInt base s) else .ok (if negative then -n else n)
  | none => .error (invalidInt base s)

/-- The whole number that a text denotes in decimal digits. -/
def decimalInt (s : String) : Except Error Int :=
  (Decimal.toInt s).mapError fun
    | .malformed => invalidInt 10 s
    | .tooManyDigits digits => .badValue (Decimal.longNumeralMessage digits)

/-- A whole number: binary, octal, hexadecimal, sexagesimal or decimal digits. -/
def intValue (text : String) : Except Error Int := do
  let chars := text.toList.filter (· != '_')
  let (negative, l) := Decimal.signed chars
  let s := String.ofList l
  let n ← match l with
    | [] => .error .unsuitable
    | ['0'] => .ok 0
    | '0' :: 'b' :: digits => baseInt 2 'b' (String.ofList digits)
    | '0' :: 'x' :: digits => baseInt 16 'x' (String.ofList digits)
    | '0' :: _ => baseInt 8 'o' s
    | _ =>
      match colonParts l with
      | [_] => decimalInt s
      | parts => parts.foldlM (fun n part => do
          return n * 60 + (← decimalInt (String.ofList part))) 0
  return if negative then -n else n

/-- The double that a text reads as. -/
def floatOf (s : String) : Except Error Float :=
  match Decimal.toFloat? s with
  | some x => .ok x
  | none => .error (.badValue ("could not convert string to float: " ++ Text.quote s))

/-- The sum of sexagesimal parts, added from the last one on, of which `i` have been added. A power
of sixty that is too large for a double cannot be used. -/
def addSixtieths (sum : Float) (i : Nat) : List Float → Except Error Float
  | [] => .ok sum
  | x :: rest =>
    let unit := Float.ofNat (Nat.pow 60 i)
    if unit.isFinite then addSixtieths (sum + x * unit) (i + 1) rest else .error .unsuitable

/-- The characters of a double in small letters, without underscores. -/
def floatChars (text : String) : List Char :=
  (Text.lower (String.ofList (text.toList.filter (· != '_')))).toList

/-- Whether a text is the word for no number. -/
def isNaNWord (text : String) : Bool := unsigned (floatChars text) == ".nan".toList

/-- A double: a word, sexagesimal parts, or a decimal. -/
def floatValue (text : String) : Except Error Float := do
  let chars := floatChars text
  if chars.isEmpty then .error .unsuitable
  let (negative, l) := Decimal.signed chars
  let s := String.ofList l
  let x ←
    if s == ".inf" then .ok Decimal.infinity
    else if s == ".nan" then .ok Decimal.notANumber
    else
      match colonParts l with
      | [_] => floatOf s
      | parts => do
        let values ← parts.mapM fun part => floatOf (String.ofList part)
        addSixtieths 0.0 0 values.reverse
  return if negative then -x else x

/-- A truth value. -/
def boolValue (text : String) : Except Error Bool :=
  let word := Text.lower text
  match truthWords.lookup word with
  | some b => .ok b
  | none => .error (.unknownTruth word)

/-- The number of microseconds that the digits of a fraction of a second denote. -/
def microseconds (fraction : List Char) : Nat :=
  Decimal.natOfDigits ((fraction ++ List.replicate 6 '0').take 6)

/-- The distance from universal time in minutes, less than a day. -/
def offsetMinutes (sign : Char) (hour minute : List Char) : Except Error Int :=
  let length : Int := Decimal.natOfDigits hour * 60 + Decimal.natOfDigits minute
  let minutes := if sign == '-' then -length else length
  if length < 24 * 60 then .ok minutes
  else .error (.badValue
    ("offset must be a timedelta strictly between -timedelta(hours=24) and timedelta(hours=24), " ++
      "not " ++ Moment.callSpan minutes ++ "."))

/-- A day or a moment. -/
def timestampValue (text : String) : Except Error Value := do
  let chars := text.toList
  let chars := if chars.getLast? == some '\n' then chars.dropLast else chars
  match stamp? chars with
  | none => .error .unsuitable
  | some s =>
    let number := Decimal.natOfDigits
    let date : Date := ⟨number s.year, number s.month, number s.day⟩
    if s.hour.isEmpty then
      match date.problem? with
      | some words => .error (.badValue words)
      | none => return .date date
    else
      let offset ← match s.zone with
        | none => pure none
        | some (sign, hour, minute) => (offsetMinutes sign hour minute).map some
      let moment : Moment :=
        ⟨date, number s.hour, number s.minute, number s.second, microseconds s.fraction, offset⟩
      match moment.problem? with
      | some words => .error (.badValue words)
      | none => return .moment moment

/-- The six bits that a character of base 64 denotes. -/
def sixBits? (c : Char) : Option Nat :=
  if 'A' ≤ c && c ≤ 'Z' then some (c.toNat - 'A'.toNat)
  else if 'a' ≤ c && c ≤ 'z' then some (c.toNat - 'a'.toNat + 26)
  else if isDigit c then some (c.toNat - '0'.toNat + 52)
  else if c == '+' then some 62
  else if c == '/' then some 63
  else none

/-- The octets of a text in base 64 after `done`, which is held last first, where `held` characters
of a group of four have been read and leave the bits `left`. Other characters are passed over. -/
def base64From (done : List UInt8) (held left pads : Nat) : List Char → Option (List UInt8)
  | [] => if held == 0 then some done.reverse else none
  | c :: rest =>
    if c == '=' then
      if 2 ≤ held && 4 ≤ held + pads + 1 then some done.reverse
      else base64From done held left (if 2 ≤ held then pads + 1 else pads) rest
    else
      match sixBits? c, held with
      | none, _ => base64From done held left pads rest
      | some b, 0 => base64From done 1 b 0 rest
      | some b, 1 => base64From ((left * 4 + b / 16).toUInt8 :: done) 2 (b % 16) 0 rest
      | some b, 2 => base64From ((left * 16 + b / 4).toUInt8 :: done) 3 (b % 4) 0 rest
      | some b, _ => base64From ((left * 64 + b).toUInt8 :: done) 0 0 0 rest

/-- The octets of a text in base 64. -/
def binaryValue (text : String) : Except Error (List UInt8) :=
  if text.toList.any (0x80 ≤ ·.toNat) then .error .malformed
  else
    match base64From [] 0 0 0 text.toList with
    | some octets => .ok octets
    | none => .error .malformed

/-- The value of a scalar of a type. -/
def scalarValue (tag : Tag) (text : String) : Except Error Value :=
  match tag with
  | .null => .ok .null
  | .bool => (boolValue text).map .bool
  | .int => (intValue text).map .int
  | .float => (floatValue text).map .float
  | .binary => (binaryValue text).map .bytes
  | .timestamp => timestampValue text
  | .str => .ok (.text text)
  | .seq | .map | .set | .omap | .pairs | .merge | .value | .other => .error .malformed

end FormulaBook.Yaml
