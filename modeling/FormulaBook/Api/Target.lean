import FormulaBook.Json.Reader
import FormulaBook.Text.Utf8

/-!
# Request targets

The target of a request is a path and a query. In both, a percent sign with two hexadecimal digits
stands for an octet.

* `Target`: the parts of a target;
* `Target.path?`, `Target.withoutDots`: the path in a target;
* `Target.parse?`: the target that a text stands for;
* `Target.sentOn`: the target with another path;
* `Target.field?`: a field of the query.
-/

namespace FormulaBook.Api

open Text

/-- The octets of a text in which some are written with percent signs. -/
def percentOctets : List Char → List UInt8
  | [] => []
  | '%' :: a :: b :: rest =>
    match Json.hexValue? a, Json.hexValue? b with
    | some high, some low => UInt8.ofNat (high * 16 + low) :: percentOctets rest
    | _, _ => Utf8.encode ['%'] ++ percentOctets (a :: b :: rest)
  | c :: rest => Utf8.encode [c] ++ percentOctets rest
termination_by cs => cs.length

/-- The text that is meant by one in which some octets are written with percent signs. -/
def percentDecode (s : String) : String :=
  ofChars (Utf8.decode (percentOctets (chars s)))

/-- The text up to the first `mark`, and what follows the mark, if there is one. -/
def cut (mark : Char) (s : String) : String × Option String :=
  let cs := s.toList
  match cs.dropWhile (· != mark) with
  | [] => (s, none)
  | _ :: rest => (String.ofList (cs.takeWhile (· != mark)), some (String.ofList rest))

/-- The parts of a target. -/
structure Target where
  path : String
  query : List (String × String)

namespace Target

/-! ### The path -/

/-- A path without the parts that are a single point, and without those that are taken back by two
points after them. The outermost part cannot be taken back. -/
def withoutDots (path : String) : String :=
  let step (done : List String) (part : String) : List String :=
    if part == "." then done
    else if part == ".." then (if done == [""] then done else done.dropLast)
    else done ++ [part]
  "/".intercalate ((path.splitOn "/").foldl step [])

/-- The greatest length of a target. -/
def lengthLimit : Nat := 65536

/-- The characters that no target may hold. -/
def isControl (c : Char) : Bool := c.toNat < 0x20 || c.toNat == 0x7F

/-- The characters of the name of a protocol. -/
def isSchemeChar (c : Char) : Bool := c.isAlphanum || c == '+' || c == '.' || c == '-'

/-- The name of a protocol in front of a colon, which may be empty, and what follows the colon. -/
def scheme (cs : List Char) : List Char × List Char :=
  let name := cs.takeWhile isSchemeChar
  match cs.dropWhile isSchemeChar with
  | ':' :: rest => if name.isEmpty || name.head?.any Char.isAlpha then (name, rest) else ([], cs)
  | _ => ([], cs)

/-- The name of a host after two slashes, and what follows it. -/
def host : List Char → List Char × List Char
  | '/' :: '/' :: rest => (rest.takeWhile (· != '/'), rest.dropWhile (· != '/'))
  | cs => ([], cs)

/-- The path in what stands before the query of a target. A protocol and a host may stand in front
of it, and if not both do, it is taken to begin with one slash. A path that looks as if a host or a
protocol stood in front of it is refused. -/
def path? (s : String) : Option String :=
  let (scheme, rest) := scheme s.toList
  let (host, path) := host rest
  let misleads := ['/', '/'].isPrefixOf path || [':'].isPrefixOf path
  if scheme.isEmpty && host.isEmpty && misleads then none
  else if scheme.isEmpty || host.isEmpty || path.isEmpty then
    some (String.ofList ('/' :: path.dropWhile (· == '/')))
  else some (String.ofList path)

/-! ### The query -/

/-- A name or value in a query, in which a plus sign stands for a blank. -/
def queryText (s : String) : String :=
  percentDecode (s.map fun c => if c == '+' then ' ' else c)

/-- The fields of a query; a field without a value has the empty value. -/
def parseQuery (s : String) : List (String × String) :=
  ((s.splitOn "&").filter (!·.isEmpty)).map fun part =>
    let (name, value) := cut '=' part
    (queryText name, queryText (value.getD ""))

/-! ### Targets -/

/-- The target that a text stands for. What follows a number sign does not count. The percent signs
of the path are read once by the one who sends a request and once more by the one who answers it. -/
def parse? (s : String) : Option Target :=
  if lengthLimit < size s.toList || s.any isControl || holdsHalf s then none
  else
    let (written, query) := cut '?' (cut '#' s).1
    match path? written with
    | some path =>
      if lengthLimit < size path.toList then none
      else some ⟨percentDecode (percentDecode (withoutDots path)), parseQuery (query.getD "")⟩
    | none => none

/-- The target with the path that a request is sent on to, which is written once more. -/
def sentOn (t : Target) (path : String) : Target :=
  { t with path := percentDecode (withoutDots path) }

/-- A field of the query; of two with one name, the last. -/
def field? (t : Target) (name : String) : Option String := t.query.reverse.lookup name

end Target

end FormulaBook.Api
