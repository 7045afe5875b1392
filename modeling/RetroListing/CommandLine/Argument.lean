/-
The arguments of a command line, told apart into options and positional arguments. An option has a
long name after two hyphens and perhaps a letter after one; its value follows an equals sign or the
letter itself, or is the next argument. Letters without a value can stand together, and after two
bare hyphens every argument is positional.
-/

namespace RetroListing.CommandLine

/-! ## Options -/

/-- The options of the program. -/
inductive OptionName where
  | config
  | verbose
  | platform
  | language
  | start
  | stop
  | origin
  | prg
  | comments
  | region
  deriving DecidableEq, Repr

namespace OptionName

/-- The name after two hyphens. -/
def long : OptionName → String
  | .config => "config"
  | .verbose => "verbose"
  | .platform => "platform"
  | .language => "language"
  | .start => "start"
  | .stop => "end"
  | .origin => "origin"
  | .prg => "prg"
  | .comments => "comments"
  | .region => "region"

/-- Whether the option has a value. -/
def takesValue : OptionName → Bool
  | .verbose | .prg => false
  | _ => true

/-- Whether the option can be given more than once. -/
def repeats : OptionName → Bool
  | .verbose | .region => true
  | _ => false

end OptionName

/-- The options that a command knows, those with a letter under that letter. -/
structure Grammar where
  options : List OptionName
  letters : List (Char × OptionName)

/-- The known option with a long name. -/
def Grammar.long? (g : Grammar) (name : String) : Option OptionName :=
  g.options.find? (·.long == name)

/-- The known option with a letter. -/
def Grammar.letter? (g : Grammar) (letter : Char) : Option OptionName := g.letters.lookup letter

/-! ## Arguments -/

/-- A part of a command line. -/
inductive Argument where
  /-- An option; `value` is empty where the option has none. -/
  | option (name : OptionName) (value : String)
  | positional (text : String)
  deriving DecidableEq, Repr

/-- What a single word of the command line holds: arguments, and perhaps an option after them whose
value is the next word. -/
structure Reading where
  arguments : List Argument
  pending : Option OptionName := none

/-- A word after two hyphens. -/
def readLong (g : Grammar) (word : List Char) : Option Reading := do
  let name ← g.long? (String.ofList (word.takeWhile (· != '=')))
  match word.dropWhile (· != '='), name.takesValue with
  | _ :: value, true => return ⟨[.option name (String.ofList value)], none⟩
  | [], true => return ⟨[], name⟩
  | [], false => return ⟨[.option name ""], none⟩
  | _ :: _, false => none

/-- The value that stands right after a letter, without the equals sign that may lead it. -/
def attachedValue : List Char → String
  | '=' :: value => String.ofList value
  | value => String.ofList value

/-- The letters after one hyphen. -/
def readLetters (g : Grammar) : List Char → Option Reading
  | [] => some ⟨[], none⟩
  | letter :: rest => do
    let name ← g.letter? letter
    if name.takesValue then
      if rest.isEmpty then return ⟨[], name⟩
      else return ⟨[.option name (attachedValue rest)], none⟩
    else
      let reading ← readLetters g rest
      return { reading with arguments := .option name "" :: reading.arguments }

/-- One word that is not two bare hyphens; `none` if it is an option that is not known. -/
def readWord (g : Grammar) (word : String) : Option Reading :=
  match word.toList with
  | '-' :: '-' :: name => readLong g name
  | '-' :: letter :: letters => readLetters g (letter :: letters)
  | _ => some ⟨[.positional word], none⟩

/-- Whether a word can be the value of the option before it: it must not look like an option. -/
def isValue (word : String) : Bool := word == "-" || word.toList.head? != some '-'

/-- All words of a command line; `none` if they do not fit the grammar. -/
def readWords (g : Grammar) : List String → Option (List Argument)
  | [] => some []
  | word :: rest =>
    if word = "--" then some (rest.map .positional)
    else
      match readWord g word with
      | none => none
      | some ⟨arguments, none⟩ => (readWords g rest).map (arguments ++ ·)
      | some ⟨arguments, some name⟩ =>
        match rest with
        | [] => none
        | value :: rest =>
          if isValue value then (readWords g rest).map (arguments ++ .option name value :: ·)
          else none

/-- The words up to the first positional one, which is left at the head of the rest; `none` if they
do not fit the grammar or no positional word follows. -/
def readLeading (g : Grammar) : List String → Option (List Argument × List String)
  | [] => none
  | word :: rest =>
    if word = "--" then none
    else
      match readWord g word with
      | none => none
      | some ⟨[.positional _], none⟩ => some ([], word :: rest)
      | some ⟨arguments, none⟩ =>
        (readLeading g rest).map fun (more, rest) => (arguments ++ more, rest)
      | some ⟨arguments, some name⟩ =>
        match rest with
        | [] => none
        | value :: rest =>
          if isValue value then
            (readLeading g rest).map fun (more, rest) =>
              (arguments ++ .option name value :: more, rest)
          else none

/-! ## Looking arguments up -/

/-- The values given to an option, in order. -/
def valuesOf (name : OptionName) (arguments : List Argument) : List String :=
  arguments.filterMap fun
    | .option n value => if n = name then some value else none
    | .positional _ => none

/-- The positional arguments, in order. -/
def positionals (arguments : List Argument) : List String :=
  arguments.filterMap fun
    | .positional text => some text
    | .option .. => none

/-- Whether no option is given more often than it can be. -/
def withoutRepeats (arguments : List Argument) : Bool :=
  arguments.all fun
    | .option name _ => name.repeats || (valuesOf name arguments).length == 1
    | .positional _ => true

/-- Reads the value of an option that may be missing; `none` if the value is not of its kind. -/
def readOption {α : Type} (read? : String → Option α) (name : OptionName)
    (arguments : List Argument) : Option (Option α) :=
  match valuesOf name arguments with
  | [] => some none
  | value :: _ => (read? value).map some

end RetroListing.CommandLine
