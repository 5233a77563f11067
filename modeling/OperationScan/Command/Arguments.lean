import OperationScan.Text.Printable
import OperationScan.Text.Similar

/-!
# Arguments of the command line

An argument that starts with a dash is an option: a long one behind two dashes, whose value may
follow an equals sign, or several short ones behind one dash, of which the last may have its value
attached. Two dashes alone end the options.

* `Switch`: the options.
* `Arguments.parse`: the options that have been given, in order, and the other arguments.
* `UsageFault`: how a command line can be wrong.
-/

namespace OperationScan

/-- The options. -/
inductive Switch where
  | output
  | batch
  | collection
  | aggressive
  | concurrency
  | verbose
  | plugin
  | timeout
  | help
  | version
  deriving Repr, DecidableEq

namespace Switch

/-- The spellings of an option. -/
def spellings (s : Switch) : List Text :=
  let words := match s with
    | output => ["-o", "--output"]
    | batch => ["--batch"]
    | collection => ["--postman"]
    | aggressive => ["--aggressive"]
    | concurrency => ["--concurrency"]
    | verbose => ["--verbose"]
    | plugin => ["--plugin"]
    | timeout => ["--timeout"]
    | help => ["--help"]
    | version => ["--version"]
  words.map (·.toList)

/-- The option is followed by a value. -/
def takesValue : Switch → Bool
  | output | batch | concurrency | plugin | timeout => true
  | _ => false

/-- The options before the name of a command. -/
def ofProgram : List Switch := [version, help]

/-- The options of a scan. -/
def ofScan : List Switch :=
  [output, batch, collection, aggressive, concurrency, verbose, plugin, timeout, help]

/-- How an option is named in a message. -/
def hint (s : Switch) : Text :=
  Text.join " / ".toList (s.spellings.map fun t => '\'' :: (t ++ ['\'']))

end Switch

/-- How a command line can be wrong. -/
inductive UsageFault where
  | unknownOption (name : Text) (similar : List Text)
  | valueMissing (name : Text)
  | valueGiven (name : Text)
  | commandMissing
  | unknownCommand (name : Text)
  | badValue (hint reason : Text)
  | inputsMissing
  | reportMissing
  deriving Repr, DecidableEq

namespace UsageFault

/-- Names that may have been meant. -/
def suggestion : List Text → Text
  | [] => []
  | [name] => " Did you mean ".toList ++ name ++ ['?']
  | names =>
    " (Possible options: ".toList ++ Text.join ", ".toList (names.mergeSort Text.atMost) ++ [')']

/-- The wording of a fault. -/
def message : UsageFault → Text
  | unknownOption name similar => "No such option: ".toList ++ name ++ suggestion similar
  | valueMissing name => "Option ".toList ++ Text.quoted name ++ " requires an argument.".toList
  | valueGiven name => "Option ".toList ++ Text.quoted name ++ " does not take a value.".toList
  | commandMissing => "Missing command.".toList
  | unknownCommand name => "No such command ".toList ++ Text.quoted name ++ ['.']
  | badValue hint reason => "Invalid value for ".toList ++ hint ++ ": ".toList ++ reason
  | inputsMissing => "Provide at least one input or --batch FILE".toList
  | reportMissing => "--postman needs --output".toList

/-- The fault is shown together with the form of the command. -/
def showsForm : UsageFault → Bool
  | valueMissing _ | valueGiven _ => false
  | _ => true

end UsageFault

/-- The options that have been given, in order, each with its value if it takes one, and the other
arguments. -/
structure Arguments where
  given : List (Switch × Text)
  rest : List Text
  deriving Repr, DecidableEq

/-- What an argument says: options, of which the last may still wait for its value under the
spelling that has been used. -/
structure SwitchReading where
  given : List (Switch × Text)
  waiting : Option (Switch × Text)

namespace Arguments

/-- The option with a spelling. -/
def find? (known : List Switch) (spelling : Text) : Option Switch :=
  known.find? fun s => s.spellings.contains spelling

/-- The long spellings of options. -/
def longSpellings (known : List Switch) : List Text :=
  (known.flatMap Switch.spellings).filter fun t => Text.startsWith t "--".toList

/-- Reads short options. -/
def readShort (known : List Switch) :
    Text → List (Switch × Text) → Except UsageFault SwitchReading
  | [], given => .ok ⟨given, none⟩
  | c :: rest, given =>
    match find? known ['-', c] with
    | none => .error (.unknownOption ['-', c] [])
    | some s =>
      if !s.takesValue then readShort known rest (given ++ [(s, [])])
      else if rest.isEmpty then .ok ⟨given, some (s, ['-', c])⟩
      else .ok ⟨given ++ [(s, rest)], none⟩

/-- Reads a long option with what follows an equals sign, if there is one. -/
def readLong (s : Switch) (name : Text) (value : Option Text) : Except UsageFault SwitchReading :=
  match s.takesValue, value with
  | true, some v => .ok ⟨[(s, v)], none⟩
  | true, none => .ok ⟨[], some (s, name)⟩
  | false, some _ => .error (.valueGiven name)
  | false, none => .ok ⟨[(s, [])], none⟩

/-- Reads an argument that starts with a dash. -/
def readSwitches (known : List Switch) (arg : Text) : Except UsageFault SwitchReading :=
  let name := arg.takeWhile (· != '=')
  if Text.startsWith arg "--".toList then
    match find? known name with
    | some s => readLong s name (if name == arg then none else some (arg.drop (name.length + 1)))
    | none => .error (.unknownOption name (Text.mostSimilar 3 name (longSpellings known)))
  else readShort known (arg.drop 1) []

/-- An argument is read as options. -/
def isSwitches (arg : Text) : Bool := arg.head? == some '-' && arg != ['-']

/-- Reads arguments behind those already read. Unless options may stand behind other arguments,
the first of these ends the options. -/
def parseFrom (known : List Switch) (mixed : Bool) :
    List Text → Arguments → Except UsageFault Arguments
  | [], done => .ok done
  | arg :: rest, done =>
    if arg == ['-', '-'] then .ok { done with rest := done.rest ++ rest }
    else if isSwitches arg then
      match readSwitches known arg with
      | .error f => .error f
      | .ok ⟨given, none⟩ => parseFrom known mixed rest { done with given := done.given ++ given }
      | .ok ⟨given, some (s, spelling)⟩ =>
        match rest with
        | [] => .error (.valueMissing spelling)
        | value :: rest =>
          parseFrom known mixed rest { done with given := done.given ++ given ++ [(s, value)] }
    else if mixed then parseFrom known mixed rest { done with rest := done.rest ++ [arg] }
    else .ok { done with rest := done.rest ++ arg :: rest }

/-- Reads arguments. -/
def parse (known : List Switch) (mixed : Bool) (args : List Text) : Except UsageFault Arguments :=
  parseFrom known mixed args ⟨[], []⟩

/-- An option has been given. -/
def has (a : Arguments) (s : Switch) : Bool := a.given.any fun g => g.1 == s

/-- The values of an option. -/
def values (a : Arguments) (s : Switch) : List Text :=
  a.given.filterMap fun g => if g.1 == s then some g.2 else none

/-- The last value of an option. -/
def value? (a : Arguments) (s : Switch) : Option Text := (a.values s).getLast?

end Arguments

end OperationScan
