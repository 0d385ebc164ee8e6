import FormulaBook.Api.Target

/-!
# Words of a command line

The words after a command are its arguments and its options. Options may stand anywhere; a word of
two dashes says that only arguments follow.

* `Flag`: an option that a command understands;
* `Words`: the arguments and options among some words, with `Words.value?`, `Words.values` and
  `Words.has`;
* `Words.read?`: the arguments and options among the words of a command.
-/

namespace FormulaBook.CommandLine

/-- An option that a command understands: its name with the dashes, the word for the value that it
takes, if it takes one, and what it is for. -/
structure Flag where
  name : String
  value : Option String := none
  about : String

/-- The arguments and options among some words, in order. -/
structure Words where
  arguments : List String := []
  options : List (String × String) := []

namespace Words

/-- The words with one more argument in front. -/
def addArgument (word : String) (w : Words) : Words := { w with arguments := word :: w.arguments }

/-- The words with one more option in front. -/
def addOption (name value : String) (w : Words) : Words :=
  { w with options := (name, value) :: w.options }

/-- Whether a word is an option: a dash with something after it. -/
def isOption (word : String) : Bool :=
  match word.toList with
  | '-' :: _ :: _ => true
  | _ => false

/-- The arguments and options among the words of a command that understands some options. The value
of an option is attached to it with an equals sign, or else is the next word. -/
def read? (flags : List Flag) : List String → Option Words
  | [] => some {}
  | word :: rest =>
    if word == "--" then some { arguments := rest }
    else if isOption word then
      let (name, attached) := Api.cut '=' word
      match flags.find? (·.name == name) with
      | none => none
      | some flag =>
        match flag.value, attached with
        | none, none => (read? flags rest).map (·.addOption name "")
        | none, some _ => none
        | some _, some value => (read? flags rest).map (·.addOption name value)
        | some _, none =>
          match rest with
          | [] => none
          | value :: later => (read? flags later).map (·.addOption name value)
    else (read? flags rest).map (·.addArgument word)

/-- The values of an option, in order. -/
def values (w : Words) (name : String) : List String :=
  (w.options.filter (·.1 == name)).map (·.2)

/-- The last value of an option. -/
def value? (w : Words) (name : String) : Option String := (w.values name).getLast?

/-- Whether an option is given. -/
def has (w : Words) (name : String) : Bool := w.options.any (·.1 == name)

end Words

end FormulaBook.CommandLine
