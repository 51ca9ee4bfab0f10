import Rv32Soc.Text.Numeral
import Rv32Soc.Word

/-!
# Options of the emulator

The command line names one file and options in any order. A long option has
its value behind an equals sign or as the next argument; a short one behind
its letter or as the next argument, and letters without values may be joined.
A value that is an argument of its own cannot start with a minus sign. No
option may be given twice, and after `--` everything is a file name.
-/

namespace Rv32Soc.Emulator

/-- What a run of the emulator is to do. -/
structure Options where
  file : String
  /-- The most cycles to run. -/
  cycles : Nat := 1000000
  romPages : Word := 64
  ramPages : Word := 64
  /-- Where to attach a timer. -/
  timer : Option Word := none
  timerLine : Nat := 0
  timestepEvery : Nat := 1000
  /-- Stop before the instruction at this address. -/
  stopAt : Option Word := none
  debug : Bool := false
  verbose : Bool := false
  deriving DecidableEq

/-- What is wrong with a command line. -/
inductive UsageError where
  | unexpected (argument : String)
  | repeated (option : String)
  | missingValue (option : String)
  | badValue (option value : String)
  | missingFile
  deriving DecidableEq

/-- The text of a wrong command line. -/
def UsageError.message : UsageError → String
  | unexpected argument => "unexpected argument '" ++ argument ++ "' found"
  | repeated option => "the argument '" ++ option ++ "' cannot be used multiple times"
  | missingValue option => "a value is required for '" ++ option ++ "' but none was supplied"
  | badValue option value => "invalid value '" ++ value ++ "' for '" ++ option ++ "'"
  | missingFile => "the file argument was not provided"

/-! ## Splitting the command line -/

/-- The options, by their long names. -/
inductive Key where
  | cycles | romPages | ramPages | timer | timerLine | timestepEvery | stopAt | debug | verbose
  deriving DecidableEq

namespace Key

/-- The long name of an option. -/
def name : Key → String
  | cycles => "--cycles"
  | romPages => "--rom-pages"
  | ramPages => "--ram-pages"
  | timer => "--timer"
  | timerLine => "--timer-line"
  | timestepEvery => "--timestep-every"
  | stopAt => "--stop-at"
  | debug => "--debug"
  | verbose => "--verbose"

/-- Every option once. -/
def all : List Key :=
  [cycles, romPages, ramPages, timer, timerLine, timestepEvery, stopAt, debug, verbose]

/-- The option of a long name. -/
def ofName? (name : List Char) : Option Key :=
  all.find? fun k => k.name.toList == name

/-- The option of a letter. -/
def ofLetter? : Char → Option Key
  | 'c' => some cycles
  | 'd' => some debug
  | 'v' => some verbose
  | _ => none

/-- The option stands alone, without a value. -/
def isFlag : Key → Bool
  | debug | verbose => true
  | _ => false

end Key

/-- A part of a command line: an option with its value, if it takes one, or a file name. -/
inductive Part where
  | option (key : Key) (value : List Char)
  | file (name : String)
  deriving DecidableEq

/-- What the letters behind one minus sign ask for: flags, and at the end perhaps an option that
takes a value, with what follows its letter. -/
def splitLetters (argument : String) : List Char →
    Except UsageError (List Part × Option (Key × List Char))
  | [] => .ok ([], none)
  | letter :: rest =>
      match Key.ofLetter? letter with
      | none => .error (.unexpected argument)
      | some key =>
          if key.isFlag then do
            let (parts, last) ← splitLetters argument rest
            return (.option key [] :: parts, last)
          else .ok ([], some (key, rest))

/-- Give an option the next argument as its value. -/
def takeValue (key : Key) : List String → Except UsageError (Part × List String)
  | [] => .error (.missingValue key.name)
  | value :: rest =>
      if value.toList.head? = some '-' then .error (.missingValue key.name)
      else .ok (.option key value.toList, rest)

/-- What one argument and those behind it begin with: its parts, and the arguments left. -/
def splitFirst (argument : String) (rest : List String) :
    Except UsageError (List Part × List String) :=
  match argument.toList with
  | '-' :: '-' :: long =>
      let name := '-' :: '-' :: long.takeWhile (· ≠ '=')
      match Key.ofName? name, long.dropWhile (· ≠ '=') with
      | none, _ => .error (.unexpected argument)
      | some key, [] =>
          if key.isFlag then .ok ([.option key []], rest)
          else do
            let (part, rest) ← takeValue key rest
            return ([part], rest)
      | some key, _ :: value =>
          if key.isFlag then .error (.unexpected argument)
          else .ok ([.option key value], rest)
  | '-' :: first :: letters => do
      let (parts, last) ← splitLetters argument (first :: letters)
      match last with
      | none => return (parts, rest)
      | some (key, '=' :: value) => return (parts ++ [.option key value], rest)
      | some (key, []) =>
          let (part, rest) ← takeValue key rest
          return (parts ++ [part], rest)
      | some (key, value) => return (parts ++ [.option key value], rest)
  | _ => .ok ([.file argument], rest)

/-- Split a command line into its parts. Each argument is looked at once, so their number bounds
the work. -/
def split (arguments : List String) : Except UsageError (List Part) :=
  go arguments.length arguments
where
  /-- Split at most `fuel` arguments. -/
  go : Nat → List String → Except UsageError (List Part)
    | _, [] => .ok []
    | 0, _ => .ok []
    | fuel + 1, argument :: rest =>
        if argument = "--" then .ok (rest.map .file)
        else do
          let (parts, rest) ← splitFirst argument rest
          return parts ++ (← go fuel rest)

/-! ## Options -/

/-- Counts are 64-bit numbers; this is how many of them there are. -/
def countLimit : Nat := 0x10000000000000000

/-- Give an option its value. -/
def Options.set (o : Options) (key : Key) (value : List Char) : Except UsageError Options :=
  let orBad {α : Type} (found : Option α) (use : α → Options) : Except UsageError Options :=
    match found with
    | some a => .ok (use a)
    | none => .error (.badValue key.name (String.ofList value))
  let count := Text.decimal? countLimit value
  let word := (Text.decimalOrHex? wordCount value).map (BitVec.ofNat 32)
  match key with
  | .cycles => orBad count fun n => { o with cycles := n }
  | .romPages => orBad word fun n => { o with romPages := n }
  | .ramPages => orBad word fun n => { o with ramPages := n }
  | .timer => orBad word fun a => { o with timer := some a }
  | .timerLine => orBad count fun n => { o with timerLine := n }
  | .timestepEvery => orBad (count.filter (1 ≤ ·)) fun n => { o with timestepEvery := n }
  | .stopAt => orBad word fun a => { o with stopAt := some a }
  | .debug => .ok { o with debug := true }
  | .verbose => .ok { o with verbose := true }

/-- Take the options of a command line in order; `seen` are those that had their turn. -/
def Options.setAll (o : Options) (seen : List Key) : List Part → Except UsageError Options
  | [] => .ok o
  | .file _ :: rest => o.setAll seen rest
  | .option key value :: rest =>
      if key ∈ seen then .error (.repeated key.name)
      else do
        let o ← o.set key value
        o.setAll (key :: seen) rest

/-- The file names among the parts of a command line. -/
def files (parts : List Part) : List String :=
  parts.filterMap fun
    | .file name => some name
    | .option .. => none

/-- Read a command line. -/
def Options.parse (arguments : List String) : Except UsageError Options := do
  let parts ← split arguments
  match files parts with
  | [file] => Options.setAll { file } [] parts
  | [] => throw .missingFile
  | _ :: second :: _ => throw (.unexpected second)

end Rv32Soc.Emulator
