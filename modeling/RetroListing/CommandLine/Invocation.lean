/-
What a command line asks for. Every word must be understood and every value be of its kind;
otherwise the command line asks for nothing.
-/
import RetroListing.CommandLine.Argument
import RetroListing.CommandLine.Value
import RetroListing.Language
import RetroListing.Platform.Basic

namespace RetroListing.CommandLine

/-- Which part of which file to list, and how. -/
structure ScanRequest where
  file : String
  platform : Option Platform := none
  language : Option Language := none
  start : Option Nat := none
  stop : Option Nat := none
  origin : Option UInt16 := none
  /-- Whether the file starts with its load address. -/
  prg : Bool := false
  comments : Option String := none
  /-- Regions to switch, in order. -/
  regions : List (String × Bool) := []
  deriving DecidableEq, Repr

/-- What the program is to do. -/
inductive Command where
  | disassemble (request : ScanRequest)
  | transcribe (request : ScanRequest)
  | profiles (platform : Option Platform)
  deriving DecidableEq, Repr

/-- A command with the options that all commands share. -/
structure Invocation where
  /-- The settings file, if it is not the user's own. -/
  config : Option String
  /-- How many times more output is asked for. -/
  verbosity : Nat
  command : Command
  deriving DecidableEq, Repr

/-! ## Grammars -/

/-- The options before the name of a command. -/
def sharedGrammar : Grammar where
  options := [.config, .verbose]
  letters := [('v', .verbose)]

/-- The options of the commands that list a file. -/
def scanGrammar : Grammar where
  options := [.config, .verbose, .platform, .language, .start, .stop, .origin, .prg, .comments,
    .region]
  letters := [('v', .verbose), ('p', .platform), ('l', .language)]

/-- The options of the command that lists the profiles. -/
def profilesGrammar : Grammar where
  options := [.config, .verbose, .platform]
  letters := [('v', .verbose)]

/-! ## Commands -/

/-- The name of a file, which cannot be empty. -/
def path? (text : String) : Option String := if text.isEmpty then none else some text

/-- The request of a command that lists a file. -/
def readScan? (arguments : List Argument) : Option ScanRequest := do
  let file ← match positionals arguments with
    | [file] => path? file
    | _ => none
  let platform ← readOption Platform.ofText? .platform arguments
  let language ← readOption Language.ofText? .language arguments
  let start ← readOption (readOffset · |>.toOption) .start arguments
  let stop ← readOption (readOffset · |>.toOption) .stop arguments
  let origin ← readOption (readAddress · |>.toOption) .origin arguments
  let comments ← readOption path? .comments arguments
  let regions ← (valuesOf .region arguments).mapM (readSwitch · |>.toOption)
  let prg := !(valuesOf .prg arguments).isEmpty
  return { file, platform, language, start, stop, origin, prg, comments, regions }

/-- The request of the command that lists the profiles. -/
def readProfiles? (arguments : List Argument) : Option (Option Platform) := do
  guard (positionals arguments).isEmpty
  readOption Platform.ofText? .platform arguments

/-- The grammar of a command, and how its arguments are read. -/
def command? (name : String) : Option (Grammar × (List Argument → Option Command)) :=
  if name = "disasm" then some (scanGrammar, fun as => (readScan? as).map .disassemble)
  else if name = "notation" then some (scanGrammar, fun as => (readScan? as).map .transcribe)
  else if name = "profiles" then
    some (profilesGrammar, fun as => (readProfiles? as).map .profiles)
  else none

/-- What the words of a command line ask for. An option that all commands share can stand before the
name of the command and after it; after it, it counts more. -/
def Invocation.parse? (words : List String) : Option Invocation := do
  let (leading, rest) ← readLeading sharedGrammar words
  guard (withoutRepeats leading)
  let outer ← readOption path? .config leading
  let name ← rest.head?
  let (grammar, read?) ← command? name
  let arguments ← readWords grammar rest.tail
  guard (withoutRepeats arguments)
  let inner ← readOption path? .config arguments
  let command ← read? arguments
  let count := (valuesOf .verbose arguments).length
  return {
    config := inner.or outer
    verbosity := if count = 0 then (valuesOf .verbose leading).length else count
    command }

end RetroListing.CommandLine
