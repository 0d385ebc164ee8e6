import FormulaBook.Text.Quoted

/-!
# UTF-8

Octets and characters. Octets that are no text have a fault: a run of octets that begins a character
and cannot be finished, or an octet that begins none. There are two ways to read them: one puts
U+FFFD in the place of each fault, and the other one stops at the first.

* `encode`: the octets of a list of characters;
* `Pending`: a character of which some octets are read;
* `decode`: the characters of a list of octets, with U+FFFD for each fault;
* `DecodeError`: a fault, with its text;
* `decode?`: the characters of a list of octets, or the first fault;
* `octets`: the octets of a text.
-/

namespace FormulaBook.Text

namespace Utf8

/-- The octets of a list of characters. -/
def encode (cs : List Char) : List UInt8 := cs.flatMap String.utf8EncodeChar

/-- A character that has begun: how many octets are to come, the bounds of the next one, and the
bits read so far. -/
structure Pending where
  owed : Nat
  least : Nat
  greatest : Nat
  code : Nat
  deriving Repr, DecidableEq

/-- What the first octet of a character says: a whole character, or one that has begun. -/
def first? (b : Nat) : Option (Char ⊕ Pending) :=
  if b < 0x80 then some (.inl (Char.ofNat b))
  else if 0xC2 ≤ b && b ≤ 0xDF then some (.inr ⟨1, 0x80, 0xBF, b - 0xC0⟩)
  else if b == 0xE0 then some (.inr ⟨2, 0xA0, 0xBF, 0⟩)
  else if b == 0xED then some (.inr ⟨2, 0x80, 0x9F, 0xD⟩)
  else if 0xE1 ≤ b && b ≤ 0xEF then some (.inr ⟨2, 0x80, 0xBF, b - 0xE0⟩)
  else if b == 0xF0 then some (.inr ⟨3, 0x90, 0xBF, 0⟩)
  else if 0xF1 ≤ b && b ≤ 0xF3 then some (.inr ⟨3, 0x80, 0xBF, b - 0xF0⟩)
  else if b == 0xF4 then some (.inr ⟨3, 0x80, 0x8F, 4⟩)
  else none

/-- What the next octet of a character says: the character, or one of which more is to come. -/
def Pending.next? (p : Pending) (b : Nat) : Option (Char ⊕ Pending) :=
  if p.least ≤ b && b ≤ p.greatest then
    let code := p.code * 64 + (b - 0x80)
    if p.owed ≤ 1 then some (.inl (Char.ofNat code))
    else some (.inr ⟨p.owed - 1, 0x80, 0xBF, code⟩)
  else none

/-- The character that stands for what cannot be read. -/
def replacement : Char := '\uFFFD'

/-- The state after octet `b` when no character has begun: the characters read, last first, and
the character that `b` begins. -/
def begin (out : List Char) (b : Nat) : List Char × Option Pending :=
  match first? b with
  | some (.inl c) => (c :: out, none)
  | some (.inr p) => (out, some p)
  | none => (replacement :: out, none)

/-- The state after one octet. -/
def step (state : List Char × Option Pending) (octet : UInt8) : List Char × Option Pending :=
  let b := octet.toNat
  match state with
  | (out, none) => begin out b
  | (out, some p) =>
    match p.next? b with
    | some (.inl c) => (c :: out, none)
    | some (.inr q) => (out, some q)
    | none => begin (replacement :: out) b

/-- The characters of a list of octets. -/
def decode (octets : List UInt8) : List Char :=
  match octets.foldl step ([], none) with
  | (out, none) => out.reverse
  | (out, some _) => (replacement :: out).reverse

@[simp] theorem decode_nil : decode [] = [] := rfl

/-! ### Octets that are no text -/

/-- What is wrong with octets that are no text. -/
inductive Fault where
  /-- An octet begins no character. -/
  | start
  /-- A character that has begun is not continued. -/
  | continuation
  /-- The octets end within a character. -/
  | ending
  deriving DecidableEq, Repr

/-- What is wrong, in words. -/
def Fault.reason : Fault → String
  | .start => "invalid start byte"
  | .continuation => "invalid continuation byte"
  | .ending => "unexpected end of data"

/-- Why octets are no text: the fault, the octet with which it begins, the place of that octet and
the place behind the last one. -/
structure DecodeError where
  fault : Fault
  octet : UInt8
  start : Nat
  stop : Nat
  deriving DecidableEq, Repr

/-- The text that a person sees. -/
def DecodeError.message (e : DecodeError) : String :=
  let extent :=
    if e.stop == e.start + 1 then
      "byte 0x" ++ String.ofList (hex 2 e.octet.toNat) ++ s!" in position {e.start}"
    else s!"bytes in position {e.start}-{e.stop - 1}"
  "'utf-8' codec can't decode " ++ extent ++ ": " ++ e.fault.reason

/-- A character that has begun: its first octet, the place of that octet, and what is to come. -/
structure Begun where
  octet : UInt8
  start : Nat
  rest : Pending

/-- The first fault of a list of octets that stands at `place`, behind a character that has perhaps
begun. -/
def faultFrom (place : Nat) : Option Begun → List UInt8 → Option DecodeError
  | none, [] => none
  | some c, [] => some ⟨.ending, c.octet, c.start, place⟩
  | none, b :: rest =>
    match first? b.toNat with
    | some (.inl _) => faultFrom (place + 1) none rest
    | some (.inr p) => faultFrom (place + 1) (some ⟨b, place, p⟩) rest
    | none => some ⟨.start, b, place, place + 1⟩
  | some c, b :: rest =>
    match c.rest.next? b.toNat with
    | some (.inl _) => faultFrom (place + 1) none rest
    | some (.inr p) => faultFrom (place + 1) (some { c with rest := p }) rest
    | none => some ⟨.continuation, c.octet, c.start, place⟩

/-- The characters of a list of octets that has no fault. -/
def decode? (octets : List UInt8) : Except DecodeError (List Char) :=
  match faultFrom 0 none octets with
  | none => .ok (decode octets)
  | some e => .error e

end Utf8

/-- The octets of a text that holds no halves of pairs. -/
def octets (s : String) : List UInt8 := Utf8.encode (chars s)

end FormulaBook.Text
