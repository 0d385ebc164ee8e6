import FormulaBook.Json.Reader
import FormulaBook.Text.CodePoint
import FormulaBook.Yaml.Cursor

/-!
# The texts of scalars

A scalar is plain, quoted, or a block of lines. A line break inside a scalar is folded: one break
is a blank, and of several the first is left out.

* `fold`: what a line break and the breaks after it stand for;
* `plain`: a plain scalar;
* `quoted`: a scalar in apostrophes or double quotes;
* `block`: a literal or folded block.
-/

namespace FormulaBook.Yaml

/-- What a line break stands for, with the breaks of the empty lines after it. -/
def fold (first : Char) (breaks : List Char) : List Char :=
  if first != '\n' then first :: breaks
  else if breaks.isEmpty then [' ']
  else breaks

/-! ### Plain scalars -/

/-- The number of characters before the end of a plain word. In a flow collection its brackets and
commas end a word too. -/
def wordLength (flow : Bool) : List Char → Nat
  | [] => 0
  | c :: rest =>
    let next := rest.headD endMark
    if isSpaceOrEnd c ||
        (c == ':' && (isSpaceOrEnd next || (flow && ",[]\x7b\x7d".toList.contains next))) ||
        (flow && ",?[]\x7b\x7d".toList.contains c) then 0
    else wordLength flow rest + 1

/-- What stands between two words of a plain scalar. -/
structure Gap where
  /-- What the gap stands for. -/
  chars : List Char
  cursor : Cursor
  /-- Whether the gap holds the end of a line. -/
  crossed : Bool
  /-- Whether the scalar may go on after the gap. -/
  goesOn : Bool

/-- The empty lines in a gap, and the blanks before the next word; the breaks are held last first.
A mark for the beginning or end of a document ends the scalar. -/
def gapBreaks : Nat → List Char → Cursor → List Char × Cursor × Bool
  | 0, breaks, p => (breaks.reverse, p, false)
  | fuel + 1, breaks, p =>
    if p.peek == ' ' then gapBreaks fuel breaks p.next
    else
      match p.lineBreak? with
      | none => (breaks.reverse, p, true)
      | some (b, p) =>
        if p.isDocumentMark then ((b :: breaks).reverse, p, false)
        else gapBreaks fuel (b :: breaks) p

/-- The gap after a word, of at most `fuel` lines. -/
def gap (fuel : Nat) (p : Cursor) : Gap :=
  let (spaces, p) := p.takeWhile (· == ' ')
  match p.lineBreak? with
  | none => ⟨spaces, p, false, !spaces.isEmpty⟩
  | some (b, p) =>
    if p.isDocumentMark then ⟨[], p, true, false⟩
    else
      let (breaks, p, goesOn) := gapBreaks fuel [] p
      ⟨fold b breaks, p, true, goesOn⟩

/-- The words of a plain scalar after `done`, which is held last first. In a block the words must
stand at column `indent` at least. The flag tells whether the place after the scalar is on a later
line. -/
def plainFrom (flow : Bool) (indent : Int) : Nat → Bool → List Char → List Char → Cursor →
    List Char × Cursor × Bool
  | 0, crossed, done, _, p => (done.reverse, p, crossed)
  | fuel + 1, crossed, done, between, p =>
    let length := wordLength flow p.rest
    if p.peek == '#' || length == 0 then (done.reverse, p, crossed)
    else
      let done := (p.rest.take length).reverse ++ (between.reverse ++ done)
      let g := gap fuel (p.skip length)
      if !g.goesOn || g.cursor.peek == '#' || (!flow && g.cursor.column < indent) then
        (done.reverse, g.cursor, g.crossed)
      else plainFrom flow indent fuel g.crossed done g.chars g.cursor

/-- The plain scalar that begins here, the place after it, and whether that is on a later line. The
text has at most `size` characters. -/
def plain (size : Nat) (flow : Bool) (indent : Int) (p : Cursor) : List Char × Cursor × Bool :=
  plainFrom flow indent (size + 1) false [] [] p

/-! ### Quoted scalars -/

/-- The character that a letter after a backslash denotes. -/
def escaped? (c : Char) : Option Char :=
  [('0', '\x00'), ('a', '\x07'), ('b', '\x08'), ('t', '\t'), ('\t', '\t'), ('n', '\n'),
    ('v', '\x0B'), ('f', '\x0C'), ('r', '\r'), ('e', '\x1B'), (' ', ' '), ('"', '"'), ('\\', '\\'),
    ('/', '/'), ('N', '\u0085'), ('_', '\u00A0'), ('L', '\u2028'), ('P', '\u2029')].lookup c

/-- The number of hexadecimal digits after a letter that announces a code point. -/
def codeLength? (c : Char) : Option Nat := [('x', 2), ('u', 4), ('U', 8)].lookup c

/-- The value of hexadecimal digits. -/
def hexValue? (digits : List Char) : Option Nat :=
  digits.foldlM (fun n c => (Json.hexValue? c).map (n * 16 + ·)) 0

/-- A code point that a text can hold. -/
def validCode (code : Nat) : Except Error Nat :=
  if code < 0x110000 then .ok code
  else if code < Nat.pow 2 31 then .error (.badValue "chr() arg not in range(0x110000)")
  else .error .unsuitable

/-- The breaks of empty lines in a quoted scalar, after `breaks`, which are held last first. -/
def quotedBreaks : Nat → List Char → Cursor → Except Error (List Char × Cursor)
  | 0, _, _ => .error .malformed
  | fuel + 1, breaks, p =>
    if p.isDocumentMark then .error .malformed
    else
      let p := p.skipWhile fun c => c == ' ' || c == '\t'
      match p.lineBreak? with
      | some (b, p) => quotedBreaks fuel (b :: breaks) p
      | none => .ok (breaks.reverse, p)

/-- The code points that a backslash and the characters after it stand for; `p` is after the
backslash, and at most `fuel` empty lines may follow it. -/
def escape (fuel : Nat) (p : Cursor) : Except Error (List Nat × Cursor) :=
  let c := p.peek
  match escaped? c, codeLength? c, p.lineBreak? with
  | some e, _, _ => .ok ([e.toNat], p.next)
  | none, some length, _ =>
    let digits := p.next.rest.take length
    match hexValue? digits with
    | some code =>
      if digits.length == length then (validCode code).map fun e => ([e], p.next.skip length)
      else .error .malformed
    | none => .error .malformed
  | none, none, some (_, p) =>
    (quotedBreaks fuel [] p).map fun (breaks, p) => (breaks.map Char.toNat, p)
  | none, none, none => .error .malformed

/-- The code points of a quoted scalar after `done`, which is held last first. -/
def quotedFrom (double : Bool) : Nat → List Nat → Cursor → Except Error (List Nat × Cursor)
  | 0, _, _ => .error .malformed
  | fuel + 1, done, p =>
    let c := p.peek
    let after (chars : List Char) : List Nat := (chars.map Char.toNat).reverse ++ done
    if c == endMark then .error .malformed
    else if !double && c == '\'' then
      if p.peekAt 1 == '\'' then quotedFrom double fuel (after ['\'']) (p.skip 2)
      else .ok (done.reverse, p.next)
    else if double && c == '"' then .ok (done.reverse, p.next)
    else if double && c == '\\' then do
      let (codes, p) ← escape fuel p.next
      quotedFrom double fuel (codes.reverse ++ done) p
    else if isSpaceOrEnd c then
      let (spaces, p) := p.takeWhile fun c => c == ' ' || c == '\t'
      match p.lineBreak? with
      | some (b, p) => do
        let (breaks, p) ← quotedBreaks fuel [] p
        quotedFrom double fuel (after (fold b breaks)) p
      | none => quotedFrom double fuel (after spaces) p
    else quotedFrom double fuel (after [c]) p.next

/-- The code points of the quoted scalar whose first mark stands here, and the place after its last
one. The text has at most `size` characters. -/
def quoted (size : Nat) (p : Cursor) : Except Error (List Nat × Cursor) :=
  quotedFrom (p.peek == '"') (size + 1) [] p.next

/-! ### Blocks -/

/-- What the first line of a block says: whether the breaks at its end are all kept or all dropped,
and by how much it is indented. -/
structure BlockHeader where
  keep : Option Bool := none
  increment : Option Nat := none

/-- The number that a digit other than zero denotes. -/
def increment? (c : Char) : Option Nat :=
  if '1' ≤ c && c ≤ '9' then some (c.toNat - '0'.toNat) else none

/-- What a sign says about the breaks at the end. -/
def keep? (c : Char) : Option Bool :=
  if c == '+' then some true else if c == '-' then some false else none

/-- The header of a block, and the place of its first line. -/
def blockHeader (p : Cursor) : Except Error (BlockHeader × Cursor) := do
  let (header, p) :=
    match keep? p.peek, increment? p.peek with
    | some k, _ =>
      match increment? (p.peekAt 1) with
      | some n => (({ keep := some k, increment := some n } : BlockHeader), p.skip 2)
      | none => ({ keep := some k }, p.next)
    | none, some n =>
      match keep? (p.peekAt 1) with
      | some k => ({ keep := some k, increment := some n }, p.skip 2)
      | none => ({ increment := some n }, p.next)
    | none, none => ({}, p)
  if !isGap p.peek then .error .malformed
  let p ← p.restOfLine
  return (header, p)

/-- The empty lines at the beginning of a block, and the greatest column that blanks reach. -/
def blockIndentation : Nat → List Char → Nat → Cursor → List Char × Nat × Cursor
  | 0, breaks, greatest, p => (breaks.reverse, greatest, p)
  | fuel + 1, breaks, greatest, p =>
    if p.peek == ' ' then blockIndentation fuel breaks (max greatest p.next.column) p.next
    else
      match p.lineBreak? with
      | some (b, p) => blockIndentation fuel (b :: breaks) greatest p
      | none => (breaks.reverse, greatest, p)

/-- The place after blanks up to a column. -/
def skipIndent (indent : Nat) (p : Cursor) : Cursor :=
  p.skip (min (indent - p.column) (p.rest.takeWhile (· == ' ')).length)

/-- Empty lines in a block, with the blanks up to its indentation before the next line. -/
def blockBreaks (indent : Nat) : Nat → List Char → Cursor → List Char × Cursor
  | 0, breaks, p => (breaks.reverse, p)
  | fuel + 1, breaks, p =>
    match (skipIndent indent p).lineBreak? with
    | some (b, p) => blockBreaks indent fuel (b :: breaks) p
    | none => (breaks.reverse, skipIndent indent p)

/-- The lines of a block after `done`, which is held last first, and after empty lines. -/
def blockFrom (folded : Bool) (keep : Option Bool) (indent : Nat) :
    Nat → List Char → List Char → List Char → Cursor → List Char × Cursor
  | 0, done, _, _, p => (done.reverse, p)
  | fuel + 1, done, lastBreak, breaks, p =>
    if p.column == indent && p.peek != endMark then
      let startsFlush := p.peek != ' ' && p.peek != '\t'
      let (line, p) := p.takeWhile (!isBreakOrEnd ·)
      let done := line.reverse ++ (breaks.reverse ++ done)
      let (lineEnd, p) := match p.lineBreak? with
        | some (b, p) => ([b], p)
        | none => ([], p)
      let (breaks, p) := blockBreaks indent fuel [] p
      if p.column == indent && p.peek != endMark then
        let joint :=
          if folded && lineEnd == ['\n'] && startsFlush && p.peek != ' ' && p.peek != '\t' then
            if breaks.isEmpty then [' '] else []
          else lineEnd
        blockFrom folded keep indent fuel (joint.reverse ++ done) lineEnd breaks p
      else finish done lineEnd breaks p
    else finish done lastBreak breaks p
where
  /-- The block with the breaks at its end that are kept. -/
  finish (done lastBreak breaks : List Char) (p : Cursor) : List Char × Cursor :=
    (done.reverse ++ (if keep == some false then [] else lastBreak) ++
      (if keep == some true then breaks else []), p)

/-- The block that is announced here, by a bar or an angle, inside lines indented by `indent`. The
text has at most `size` characters. -/
def block (size : Nat) (indent : Int) (p : Cursor) : Except Error (List Char × Cursor) := do
  let folded := p.peek == '>'
  let (header, p) ← blockHeader p.next
  let least := (max 1 (indent + 1)).toNat
  let fuel := size + 1
  match header.increment with
  | none =>
    let (breaks, greatest, p) := blockIndentation fuel [] 0 p
    return blockFrom folded header.keep (max least greatest) fuel [] [] breaks p
  | some n =>
    let indent := least + n - 1
    let (breaks, p) := blockBreaks indent fuel [] p
    return blockFrom folded header.keep indent fuel [] [] breaks p

end FormulaBook.Yaml
