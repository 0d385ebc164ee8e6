import FormulaBook.Text.Utf8
import FormulaBook.Yaml.ScalarText

/-!
# YAML tokens

A YAML text as a row of tokens. The indentation of lines becomes tokens that open and close block
collections, and a key that is recognised only by the colon after it gets its token in front. A text
is read no further than the next token needs, as what is wrong later may never be seen.

* `Token`: the tokens;
* `directive`, `name`, `tag`: the tokens that hold names;
* `Scan`: what has been read, with the columns of the open blocks and the places where a key may
  have begun;
* `Scan.token`, `Scan.fetch`: the effect of the next token of the text;
* `Scan.ofText`, `Scan.peek`, `Scan.next`: the row of tokens of a text.
-/

namespace FormulaBook.Yaml

/-- A part of a YAML text. -/
inductive Token where
  | version (major : Nat)
  | tagPrefix (handle start : String)
  | reserved
  | documentStart
  | documentEnd
  | sequenceStart
  | mappingStart
  | blockEnd
  | flowSequenceStart
  | flowSequenceEnd
  | flowMappingStart
  | flowMappingEnd
  | key
  | value
  | entry
  | flowEntry
  | alias (name : String)
  | anchor (name : String)
  /-- A tag with its handle, if it has one. -/
  | tag (handle : Option String) (rest : String)
  | scalar (text : String) (isPlain : Bool)
  | streamEnd
  deriving DecidableEq, Repr

/-! ### Names -/

/-- A handle: a mark of exclamation, or a name between two of them. -/
def handle (p : Cursor) : Except Error (String × Cursor) :=
  if p.peek != '!' then .error .malformed
  else if p.peekAt 1 == ' ' then .ok ("!", p.next)
  else
    let (letters, q) := p.next.takeWhile isNameLetter
    if q.peek == '!' then .ok (String.ofList ('!' :: letters ++ ['!']), q.next)
    else .error .malformed

/-- The characters of a tag that stand for themselves. -/
def isUriChar (c : Char) : Bool := c.isAlphanum || "-;/?:@&=+$,_.!~*'()[]".toList.contains c

/-- The octets that a row of percent signs with two digits each denotes. -/
def percentOctets : Nat → List UInt8 → Cursor → Except Error (List UInt8 × Cursor)
  | 0, _, _ => .error .malformed
  | fuel + 1, octets, p =>
    if p.peek == '%' then
      match hexValue? (p.next.rest.take 2) with
      | some n =>
        if (p.rest.take 3).length == 3 then percentOctets fuel (n.toUInt8 :: octets) (p.skip 3)
        else .error .malformed
      | none => .error .malformed
    else .ok (octets.reverse, p)

/-- The rest of a tag after `done`, which is held last first. -/
def uriFrom : Nat → List Char → Cursor → Except Error (List Char × Cursor)
  | 0, _, _ => .error .malformed
  | fuel + 1, done, p =>
    if p.peek == '%' then do
      let (octets, p) ← percentOctets (fuel + 1) [] p
      match Text.Utf8.decode? octets with
      | .ok chars => uriFrom fuel (chars.reverse ++ done) p
      | .error _ => .error .malformed
    else if isUriChar p.peek then uriFrom fuel (p.peek :: done) p.next
    else if done.isEmpty then .error .malformed
    else .ok (done.reverse, p)

/-- The characters of a tag, at least one. The text has at most `size` characters. -/
def uri (size : Nat) (p : Cursor) : Except Error (String × Cursor) :=
  (uriFrom (size + 1) [] p).map fun (chars, p) => (String.ofList chars, p)

/-- The digits of a version number. -/
def versionNumber (p : Cursor) : Except Error (Nat × Cursor) :=
  let (digits, p) := p.takeWhile Text.isDigit
  if digits.isEmpty then .error .malformed
  else if Decimal.digitLimit < digits.length then
    .error (.badValue (Decimal.longNumeralMessage digits.length))
  else .ok (Decimal.natOfDigits digits, p)

/-- The directive whose percent sign stands here, and the next line. -/
def directive (size : Nat) (p : Cursor) : Except Error (Token × Cursor) := do
  let (letters, p) := p.next.takeWhile isNameLetter
  if letters.isEmpty || !isGap p.peek then .error .malformed
  let spaces (p : Cursor) : Cursor := p.skipWhile (· == ' ')
  match String.ofList letters with
  | "YAML" =>
    let (major, p) ← versionNumber (spaces p)
    if p.peek != '.' then .error .malformed
    let (_, p) ← versionNumber p.next
    if !isGap p.peek then .error .malformed
    return (.version major, ← p.restOfLine)
  | "TAG" =>
    let (h, p) ← handle (spaces p)
    if p.peek != ' ' then .error .malformed
    let (start, p) ← uri size (spaces p)
    if !isGap p.peek then .error .malformed
    return (.tagPrefix h start, ← p.restOfLine)
  | _ => return (.reserved, ← (p.skipWhile (!isBreakOrEnd ·)).restOfLine)

/-- The name after an ampersand or an asterisk. -/
def name (p : Cursor) : Except Error (String × Cursor) :=
  let (letters, p) := p.next.takeWhile isNameLetter
  if letters.isEmpty then .error .malformed
  else if isSpaceOrEnd p.peek || "?:,]\x7d%@`".toList.contains p.peek then
    .ok (String.ofList letters, p)
  else .error .malformed

/-- The tag whose mark of exclamation stands here. -/
def tag (size : Nat) (p : Cursor) : Except Error (Token × Cursor) := do
  let (t, p) ←
    if p.peekAt 1 == '<' then
      let (rest, p) ← uri size (p.skip 2)
      if p.peek == '>' then pure (Token.tag none rest, p.next) else .error .malformed
    else if isSpaceOrEnd (p.peekAt 1) then pure (Token.tag none "!", p.next)
    else
      let named := (p.next.rest.takeWhile fun c => !isGap c).contains '!'
      let (h, p) ← if named then handle p else pure ("!", p.next)
      let (rest, p) ← uri size p
      pure (Token.tag (some h) rest, p)
  if isGap p.peek then return (t, p) else .error .malformed

/-! ### Rows of tokens -/

/-- A place where a key may have begun. -/
structure KeyPlace where
  /-- The number of tokens before the key. -/
  number : Nat
  /-- Whether the colon has to follow, as nothing else can stand at this column. -/
  required : Bool
  index : Nat
  line : Nat
  column : Nat

/-- What has been read of a text of some size: the tokens that wait to be taken and the number of
those taken, whether the end has been reached, the number of flow collections that are open, the
column of the innermost block and those of the blocks around it, whether a key may begin here, and
the places where one may have begun, by the number of flow collections around it. -/
structure Scan where
  size : Nat
  cursor : Cursor
  waiting : List Token := []
  taken : Nat := 0
  isDone : Bool := false
  flow : Int := 0
  indent : Int := -1
  outer : List Int := []
  keyAllowed : Bool := true
  keys : List (Int × KeyPlace) := []

namespace Scan

/-- Whether a flow collection is open. -/
def inFlow (s : Scan) : Bool := s.flow != 0

/-- The number of tokens that have been read. -/
def count (s : Scan) : Nat := s.taken + s.waiting.length

/-- The state with one more token. -/
def push (s : Scan) (t : Token) : Scan := { s with waiting := s.waiting ++ [t] }

/-- The state with a token in front of the one of a number. -/
def insert (s : Scan) (number : Nat) (t : Token) : Scan :=
  { s with waiting := s.waiting.insertIdx (number - s.taken) t }

/-- A token of `length` characters. -/
def take (s : Scan) (t : Token) (length : Nat := 1) : Scan :=
  { s.push t with cursor := s.cursor.skip length }

/-- Blanks, comments and line breaks are skipped; after a line break in a block a key may begin. -/
def skipBlank : Nat → Scan → Scan
  | 0, s => s
  | fuel + 1, s =>
    let p := (s.cursor.skipWhile (· == ' ')).skipComment
    match p.lineBreak? with
    | some (_, p) =>
      skipBlank fuel { s with cursor := p, keyAllowed := s.keyAllowed || !s.inFlow }
    | none => { s with cursor := p }

/-- Places of keys on an earlier line, or far back, are given up. -/
def dropStale (s : Scan) : Except Error Scan :=
  let isStale (k : KeyPlace) : Bool := k.line != s.cursor.line || 1024 < s.cursor.index - k.index
  if s.keys.any fun (_, k) => isStale k && k.required then .error .malformed
  else .ok { s with keys := s.keys.filter fun (_, k) => !isStale k }

/-- The place of a key in the innermost collection is given up. -/
def dropKey (s : Scan) : Except Error Scan :=
  match s.keys.lookup s.flow with
  | some k =>
    if k.required then .error .malformed
    else .ok { s with keys := s.keys.filter (·.1 != s.flow) }
  | none => .ok s

/-- A key may begin here, if one is allowed. -/
def saveKey (s : Scan) : Except Error Scan :=
  if s.keyAllowed then do
    let s ← s.dropKey
    let p := s.cursor
    let required := !s.inFlow && s.indent == p.column
    return { s with
      keys := (s.flow, ⟨s.count, required, p.index, p.line, p.column⟩) :: s.keys }
  else .ok s

/-- The columns of the blocks that stay open at `column`, and the number of those that end. -/
def unwound (column : Int) : Int → List Int → Nat × Int × List Int
  | indent, [] => (0, indent, [])
  | indent, next :: outer =>
    if column < indent then
      let (n, rest) := unwound column next outer
      (n + 1, rest)
    else (0, indent, next :: outer)

/-- The blocks that are indented by more than `column` end. -/
def unwind (s : Scan) (column : Int) : Scan :=
  if s.inFlow then s
  else
    let (ended, indent, outer) := unwound column s.indent s.outer
    { s with indent, outer, waiting := s.waiting ++ List.replicate ended .blockEnd }

/-- A block begins at `column`, unless one is open there; its token is the one of number `at`. -/
def openBlock (s : Scan) (column : Int) (t : Token) (number : Nat) : Scan :=
  if s.indent < column then
    { s.insert number t with indent := column, outer := s.indent :: s.outer }
  else s

/-- A directive or a mark of a document, before which all blocks end. -/
def beforeDocument (s : Scan) : Except Error Scan := do
  let s ← (s.unwind (-1)).dropKey
  return { s with keyAllowed := false }

/-- The beginning of a flow collection. -/
def openFlow (s : Scan) (t : Token) : Except Error Scan := do
  let s ← s.saveKey
  return { s.take t with flow := s.flow + 1, keyAllowed := true }

/-- The end of a flow collection. -/
def closeFlow (s : Scan) (t : Token) : Except Error Scan := do
  let s ← s.dropKey
  return { s.take t with flow := s.flow - 1, keyAllowed := false }

/-- A comma in a flow collection. -/
def comma (s : Scan) : Except Error Scan := do
  let s ← s.dropKey
  return { s.take .flowEntry with keyAllowed := true }

/-- The dash of an entry. -/
def dash (s : Scan) : Except Error Scan := do
  if !s.inFlow && !s.keyAllowed then .error .malformed
  let s := if s.inFlow then s else s.openBlock s.cursor.column .sequenceStart s.count
  let s ← s.dropKey
  return { s.take .entry with keyAllowed := true }

/-- The mark of a key that is not recognised by its colon. -/
def questionMark (s : Scan) : Except Error Scan := do
  if !s.inFlow && !s.keyAllowed then .error .malformed
  let s := if s.inFlow then s else s.openBlock s.cursor.column .mappingStart s.count
  let s ← s.dropKey
  return { s.take .key with keyAllowed := !s.inFlow }

/-- The colon before a value. If a key may have begun before it, one has. -/
def colon (s : Scan) : Except Error Scan := do
  match s.keys.lookup s.flow with
  | some k =>
    let s := { s.insert k.number .key with keys := s.keys.filter (·.1 != s.flow) }
    let s := if s.inFlow then s else s.openBlock k.column .mappingStart k.number
    return { s.take .value with keyAllowed := false }
  | none =>
    if !s.inFlow && !s.keyAllowed then .error .malformed
    let s := if s.inFlow then s else s.openBlock s.cursor.column .mappingStart s.count
    let s := { s with keyAllowed := !s.inFlow }
    let s ← s.dropKey
    return s.take .value

/-- A token with which a key may begin. -/
def keyed (s : Scan) (read : Cursor → Except Error (Token × Cursor)) : Except Error Scan := do
  let s ← s.saveKey
  let (t, p) ← read s.cursor
  return { s.push t with cursor := p, keyAllowed := false }

/-- A quoted scalar. -/
def quotedScalar (s : Scan) : Except Error Scan :=
  s.keyed fun p => (quoted s.size p).map fun (codes, p) => (.scalar (Text.ofCodes codes) false, p)

/-- A block of lines. -/
def blockScalar (s : Scan) : Except Error Scan := do
  let s ← s.dropKey
  let (chars, p) ← block s.size s.indent s.cursor
  return { s.push (.scalar (Text.ofChars chars) false) with cursor := p, keyAllowed := true }

/-- A plain scalar. -/
def plainScalar (s : Scan) : Except Error Scan := do
  let s ← s.saveKey
  let (chars, p, crossed) := plain s.size s.inFlow (s.indent + 1) s.cursor
  return { s.push (.scalar (Text.ofChars chars) true) with cursor := p, keyAllowed := crossed }

/-- Whether a plain scalar can begin here. -/
def startsPlain (s : Scan) : Bool :=
  let c := s.cursor.peek
  if isSpaceOrEnd c then false
  else if "-?:".toList.contains c then
    !isSpaceOrEnd (s.cursor.peekAt 1) && (c == '-' || !s.inFlow)
  else !",[]\x7b\x7d#&*!|>'\"%@`".toList.contains c

/-- The effect of the next token. -/
def token (s : Scan) : Except Error Scan := do
  let c := s.cursor.peek
  let atStart := s.cursor.column == 0
  let free := isSpaceOrEnd (s.cursor.peekAt 1)
  if c == '%' && atStart then
    let s ← s.beforeDocument
    let (t, p) ← directive s.size s.cursor
    return { s.push t with cursor := p }
  else if atStart && s.cursor.isMark '-' then return (← s.beforeDocument).take .documentStart 3
  else if atStart && s.cursor.isMark '.' then return (← s.beforeDocument).take .documentEnd 3
  else if c == '[' then s.openFlow .flowSequenceStart
  else if c == '{' then s.openFlow .flowMappingStart
  else if c == ']' then s.closeFlow .flowSequenceEnd
  else if c == '}' then s.closeFlow .flowMappingEnd
  else if c == ',' then s.comma
  else if c == '-' && free then s.dash
  else if c == '?' && (s.inFlow || free) then s.questionMark
  else if c == ':' && (s.inFlow || free) then s.colon
  else if c == '*' then s.keyed fun p => (name p).map fun (n, p) => (.alias n, p)
  else if c == '&' then s.keyed fun p => (name p).map fun (n, p) => (.anchor n, p)
  else if c == '!' then s.keyed (tag s.size)
  else if (c == '|' || c == '>') && !s.inFlow then s.blockScalar
  else if c == '\'' || c == '"' then s.quotedScalar
  else if s.startsPlain then s.plainScalar
  else .error .malformed

/-- The effect of what comes next in the text. -/
def fetch (s : Scan) : Except Error Scan := do
  let s ← (s.skipBlank (s.size + 1)).dropStale
  let s := s.unwind s.cursor.column
  if s.cursor.peek == endMark then
    let s ← (s.unwind (-1)).dropKey
    return { s.push .streamEnd with isDone := true, keys := [] }
  else s.token

/-- Whether the next token may turn out to be a key. -/
def awaitsColon (s : Scan) : Bool :=
  match s.keys.map fun (_, k) => k.number with
  | [] => false
  | number :: rest => rest.foldl min number == s.taken

/-- The state in which it is known which token comes next, for which `fuel` parts of the text are
read at most. -/
def ready : Nat → Scan → Except Error Scan
  | 0, _ => .error .malformed
  | fuel + 1, s =>
    if s.isDone then .ok s
    else if s.waiting.isEmpty then s.fetch.bind (ready fuel)
    else do
      let s ← s.dropStale
      if s.awaitsColon then s.fetch.bind (ready fuel) else return s

/-- The next token. -/
def peek (s : Scan) : Except Error (Token × Scan) :=
  (s.ready (s.size + 2)).map fun s => (s.waiting.headD .streamEnd, s)

/-- The state after the next token. -/
def next (s : Scan) : Scan := { s with waiting := s.waiting.tail, taken := s.taken + 1 }

/-- The state in which nothing of a text has been read. -/
def ofText (text : List Char) : Except Error Scan :=
  if text.all isPrintable then
    let text := if text.head? == some orderMark then text.tail else text
    .ok { size := text.length, cursor := { rest := text } }
  else .error .malformed

end Scan

end FormulaBook.Yaml
