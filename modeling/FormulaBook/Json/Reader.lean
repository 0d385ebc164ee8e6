import FormulaBook.Json.Basic
import FormulaBook.Decimal.Numeral
import FormulaBook.Text.CodePoint

/-!
# Reading JSON

A text is read lexeme by lexeme, with the containers that are still open held on a stack. Words for
infinity and for no number are accepted, control characters in a text are not, and of two fields
of one name the last counts.

* `Json.ReadError`: why a text is not read;
* `Json.Lexeme`, `Json.lexeme?`: the front of a text;
* `Json.Reading`, `Json.Reading.step`: what has been read, and the effect of a lexeme;
* `Json.parse`: the value that a text stands for.
-/

namespace FormulaBook

namespace Json

open Text

/-- Why a text is not read: it is not JSON, a whole number has too many digits, or containers are
nested too deep. -/
inductive ReadError where
  | malformed
  | tooManyDigits (digits : Nat)
  | tooDeep
  deriving DecidableEq, Repr

/-- How many containers may be open at once. -/
def nestingLimit : Nat := 990

/-- The blanks between lexemes. -/
def isBlank (c : Char) : Bool := c == ' ' || c == '\t' || c == '\n' || c == '\r'

/-! ### Lexemes -/

/-- The parts that a JSON text consists of. -/
inductive Lexeme where
  | openList
  | closeList
  | openObject
  | closeObject
  | comma
  | colon
  | scalar (j : Json)
  /-- A whole number: whether it has a minus sign, and its digits. -/
  | whole (negative : Bool) (digits : List Char)

/-- The value of a hexadecimal digit. -/
def hexValue? (c : Char) : Option Nat :=
  if isDigit c then some (digitValue c)
  else if 'a' ≤ c && c ≤ 'f' then some (c.toNat - 'a'.toNat + 10)
  else if 'A' ≤ c && c ≤ 'F' then some (c.toNat - 'A'.toNat + 10)
  else none

/-- The UTF-16 unit that four hexadecimal digits denote. -/
def unit? (a b c d : Char) : Option Nat := do
  return (((← hexValue? a) * 16 + (← hexValue? b)) * 16 + (← hexValue? c)) * 16 + (← hexValue? d)

/-- The character that a letter after a backslash denotes. -/
def escaped? : Char → Option Char
  | '"' => some '"'
  | '\\' => some '\\'
  | '/' => some '/'
  | 'b' => some '\x08'
  | 'f' => some '\x0C'
  | 'n' => some '\n'
  | 'r' => some '\r'
  | 't' => some '\t'
  | _ => none

/-- The code points read, last first, with the first half of a pair before them if it stands alone.
-/
def flush (first : Option Nat) (out : List Nat) : List Nat := first.toList ++ out

/-- The code points of a text up to the closing double quote, and what follows. Those read are held
last first, and the first half of a pair of units is held until the second one is read. -/
def textBody (first : Option Nat) (out : List Nat) : List Char → Option (List Nat × List Char)
  | [] => none
  | '"' :: rest => some ((flush first out).reverse, rest)
  | '\\' :: 'u' :: a :: b :: c :: d :: rest =>
    match unit? a b c d, first with
    | none, _ => none
    | some u, some h =>
      if 0xDC00 ≤ u && u < 0xE000 then
        textBody none ((0x10000 + (h - 0xD800) * 0x400 + (u - 0xDC00)) :: out) rest
      else if isHalf u then textBody (some u) (flush first out) rest
      else textBody none (u :: flush first out) rest
    | some u, none =>
      if isHalf u && u < 0xDC00 then textBody (some u) out rest
      else textBody none (u :: out) rest
  | '\\' :: e :: rest =>
    match escaped? e with
    | some c => textBody none (c.toNat :: flush first out) rest
    | none => none
  | c :: rest =>
    if c.toNat < 0x20 || c == '\\' then none else textBody none (c.toNat :: flush first out) rest

/-- The digits of a whole number: a zero, or a row that begins with another digit. -/
def wholeDigits (l : List Char) : List Char :=
  match l with
  | '0' :: _ => ['0']
  | _ => l.takeWhile isDigit

/-- A point with digits after it. -/
def fractionChars : List Char → List Char
  | '.' :: rest =>
    let digits := rest.takeWhile isDigit
    if digits.isEmpty then [] else '.' :: digits
  | _ => []

/-- A letter with a signed row of digits. -/
def exponentChars : List Char → List Char
  | e :: rest =>
    if e == 'e' || e == 'E' then
      let sign := match rest with
        | '+' :: _ => ['+']
        | '-' :: _ => ['-']
        | _ => []
      let digits := (rest.drop sign.length).takeWhile isDigit
      if digits.isEmpty then [] else e :: sign ++ digits
    else []
  | [] => []

/-- The number at the front of a text that has the sign `sign`, and what follows it. -/
def numberAfter (sign l : List Char) : Option (Lexeme × List Char) :=
  let whole := wholeDigits (l.drop sign.length)
  let rest := l.drop (sign.length + whole.length)
  let fraction := fractionChars rest
  let power := exponentChars (rest.drop fraction.length)
  if whole.isEmpty then none
  else if fraction.isEmpty && power.isEmpty then some (.whole (!sign.isEmpty) whole, rest)
  else
    let x := (Decimal.signedFloat? (sign ++ whole ++ fraction ++ power)).getD 0
    some (.scalar (.float x), rest.drop (fraction.length + power.length))

/-- The number at the front of a text, and what follows it. -/
def number? (l : List Char) : Option (Lexeme × List Char) :=
  match l with
  | '-' :: _ => numberAfter ['-'] l
  | _ => numberAfter [] l

/-- What follows a word at the front of a text. -/
def afterWord? (word : String) (l : List Char) : Option (List Char) :=
  if word.toList.isPrefixOf l then some (l.drop word.length) else none

/-- The words that stand for values. -/
def words : List (String × Json) :=
  [("null", .null), ("true", .bool true), ("false", .bool false),
    ("NaN", .float Decimal.notANumber),
    ("Infinity", .float Decimal.infinity), ("-Infinity", .float (-Decimal.infinity))]

/-- The lexeme at the front of a text that begins with no blank, and what follows it. -/
def lexeme? (l : List Char) : Option (Lexeme × List Char) :=
  match l with
  | '[' :: rest => some (.openList, rest)
  | ']' :: rest => some (.closeList, rest)
  | '\x7b' :: rest => some (.openObject, rest)
  | '\x7d' :: rest => some (.closeObject, rest)
  | ',' :: rest => some (.comma, rest)
  | ':' :: rest => some (.colon, rest)
  | '"' :: rest =>
    (textBody none [] rest).map fun (codes, rest) => (.scalar (.text (ofCodes codes)), rest)
  | l =>
    match words.findSome? fun (word, j) => (afterWord? word l).map (j, ·) with
    | some (j, rest) => some (.scalar j, rest)
    | none => number? l

/-! ### Containers -/

/-- A container that is open: the items or fields read, last first, and the name of the field whose
value is being read. -/
inductive Frame where
  | list (items : List Json)
  | object (fields : List (String × Json))
  | field (fields : List (String × Json)) (name : String)

/-- What may come next. -/
inductive Expectation where
  /-- A value, or the end of the list that has just been opened. -/
  | valueOrEnd
  | value
  /-- A name, or the end of the object that has just been opened. -/
  | nameOrEnd
  | name
  | colon
  /-- A comma, or the end of the container. -/
  | commaOrEnd
  /-- Nothing: the value is read. -/
  | nothing (j : Json)

/-- What has been read of a text. -/
structure Reading where
  expected : Expectation := .value
  frames : List Frame := []

namespace Reading

/-- The state after a whole value, in the containers `frames`. -/
def complete (j : Json) : List Frame → Except ReadError Reading
  | [] => .ok ⟨.nothing j, []⟩
  | .list items :: frames => .ok ⟨.commaOrEnd, .list (j :: items) :: frames⟩
  | .field fields name :: frames =>
    .ok ⟨.commaOrEnd, .object ((name, j) :: fields) :: frames⟩
  | .object _ :: _ => .error .malformed

/-- An object of fields that are held last first; of two with one name the last counts. -/
def closeObject (fields : List (String × Json)) : Json :=
  .object (fields.reverse.foldl (fun done (name, j) => setField name j done) [])

/-- The state with one more container open. -/
def enter (r : Reading) (expected : Expectation) (frame : Frame) : Except ReadError Reading :=
  if nestingLimit ≤ r.frames.length then .error .tooDeep else .ok ⟨expected, frame :: r.frames⟩

/-- The state after a whole number, whose digits are counted only where a value may stand. -/
def completeWhole (negative : Bool) (digits : List Char) (frames : List Frame) :
    Except ReadError Reading :=
  if Decimal.digitLimit < digits.length then .error (.tooManyDigits digits.length)
  else
    let n := Decimal.natOfDigits digits
    complete (.int (if negative then -n else n)) frames

/-- The effect of a lexeme. -/
def step (r : Reading) (x : Lexeme) : Except ReadError Reading :=
  match r.expected, x, r.frames with
  | .value, .scalar j, frames | .valueOrEnd, .scalar j, frames => complete j frames
  | .value, .whole negative digits, frames | .valueOrEnd, .whole negative digits, frames =>
    completeWhole negative digits frames
  | .value, .openList, _ | .valueOrEnd, .openList, _ => r.enter .valueOrEnd (.list [])
  | .value, .openObject, _ | .valueOrEnd, .openObject, _ => r.enter .nameOrEnd (.object [])
  | .valueOrEnd, .closeList, .list items :: frames
  | .commaOrEnd, .closeList, .list items :: frames => complete (.list items.reverse) frames
  | .nameOrEnd, .closeObject, .object fields :: frames
  | .commaOrEnd, .closeObject, .object fields :: frames => complete (closeObject fields) frames
  | .name, .scalar (.text s), .object fields :: frames
  | .nameOrEnd, .scalar (.text s), .object fields :: frames =>
    .ok ⟨.colon, .field fields s :: frames⟩
  | .colon, .colon, frames => .ok ⟨.value, frames⟩
  | .commaOrEnd, .comma, .list items :: frames => .ok ⟨.value, .list items :: frames⟩
  | .commaOrEnd, .comma, .object fields :: frames => .ok ⟨.name, .object fields :: frames⟩
  | _, _, _ => .error .malformed

end Reading

/-- The value of a text after what has been read of it. The end of the text comes at the latest
when `fuel` lexemes have been read; as each lexeme has a character, the length of the text is
enough. -/
def parseFrom : Nat → Reading → List Char → Except ReadError Json
  | 0, _, _ => .error .malformed
  | fuel + 1, r, l =>
    match l.dropWhile isBlank with
    | [] =>
      match r.expected with
      | .nothing j => .ok j
      | _ => .error .malformed
    | l =>
      match lexeme? l with
      | none => .error .malformed
      | some (x, rest) =>
        match r.step x with
        | .error e => .error e
        | .ok r => parseFrom fuel r rest

/-- The value that a text stands for. -/
def parse (l : List Char) : Except ReadError Json := parseFrom (l.length + 1) {} l

end Json

end FormulaBook
