import OperationScan.Command.Scan

/-!
# The program

* `Program.run`: runs the program with arguments; the outcome is what it has written and the code
  with which it ends.
-/

namespace OperationScan

open Commanding

/-- What a program leaves behind: the code with which it ends, what it has written, and the fault
that it has not dealt with. -/
structure ProgramOutcome where
  code : Nat
  console : Console
  fault : Option CommandFault

namespace Program

/-- The words in front of the arguments of a command. -/
def commandPath (s : CommandSetting) (inScan : Bool) : Text :=
  if inScan then s.programName ++ " scan".toList else s.programName

/-- The form of a command. -/
def form (s : CommandSetting) (inScan : Bool) : Text :=
  "Usage: ".toList ++ commandPath s inScan ++
    (if inScan then " [OPTIONS] [INPUTS]...".toList else " [OPTIONS] COMMAND [ARGS]...".toList)

/-- What a wrong use of a command is answered with. -/
def usageText (s : CommandSetting) (inScan : Bool) (f : UsageFault) : Text :=
  let form := if f.showsForm then
    form s inScan ++ "\nTry '".toList ++ commandPath s inScan ++ " --help' for help.\n\n".toList
    else []
  form ++ "Error: ".toList ++ f.message

/-- What is said about the program. -/
def about : String :=
  "

  gqlhound - find GraphQL operations in JavaScript and TypeScript.

Options:
  --version  Show the version and exit.
  --help     Show this message and exit.

Commands:
  scan  Extract GraphQL operations from scripts."

/-- What is said about a scan. -/
def aboutScan : String :=
  "

  Extract GraphQL operations from scripts.

  INPUTS: Files, directories, glob patterns or http(s) URLs.

Options:
  -o, --output FILE            Write the JSON report here instead of stdout
  --batch FILE                 File listing one input (path, glob or URL) per
                               line
  --postman                    Also write a Postman collection next to --output
  --aggressive                 Enable low-confidence patterns for
                               minified/bundled code
  --concurrency INTEGER RANGE  Number of worker processes  [default: 4; x>=1]
  --verbose                    Log per-input diagnostics and failed tasks
  --plugin TEXT                Extractor plugin as 'package.module:attribute'.
                               Can specify multiple.
  --timeout FLOAT RANGE        Seconds to wait for each remote download
                               [default: 30.0; x>0]
  --help                       Show this message and exit."

/-- The help for a command. -/
def helpText (s : CommandSetting) (inScan : Bool) : Text :=
  form s inScan ++ (if inScan then aboutScan else about).toList

/-- The version of the program. -/
def versionText : Text := "gqlhound, version ".toList ++ Pipeline.version

/-- Tells what is wrong with the use of a command instead of stopping for it. -/
def guarded (s : CommandSetting) (inScan : Bool) (body : Commanding Unit) : Commanding Unit :=
  tryCatch body fun stop =>
    match stop with
    | .usage f => do
      tell (usageText s inScan f)
      throw (.done 2)
    | stop => throw stop

/-- Does what an option asks for that ends the program at once; the first one counts. -/
def answerAtOnce (s : CommandSetting) (inScan : Bool) (a : Arguments) : Commanding Unit :=
  match (a.given.map Prod.fst).find? fun g => g == .version || g == .help with
  | some .version => do
    print versionText
    throw (.done 0)
  | some _ => do
    print (helpText s inScan)
    throw (.done 0)
  | none => pure ()

/-- The scan command with its arguments. -/
def scanCommand (s : CommandSetting) (args : List Text) (r : Registry) : Commanding Unit := do
  let a ← orStop .usage (Arguments.parse Switch.ofScan true args)
  answerAtOnce s true a
  let p ← orStop
    (fun (switch, fault) =>
      match fault with
      | .refused reason => .usage (.badValue switch.hint reason)
      | .unusablePath => .fault .unusablePath)
    (ScanParameters.read s.surroundings.files s.environment a)
  scan s p r

/-- Options in front of the name of a command. -/
def programOptions (s : CommandSetting) (args : List Text) : Commanding (List Text) := do
  let a ← orStop .usage (Arguments.parse Switch.ofProgram false args)
  answerAtOnce s false a
  return a.rest

/-- The program with its arguments. What is no command may be options behind two dashes, which
are read after all. -/
def perform (s : CommandSetting) (args : List Text) (r : Registry) : Commanding Unit := do
  if args.isEmpty then
    tell (helpText s false)
    throw (.done 2)
  let rest ← programOptions s args
  match rest with
  | [] => throw (.usage .commandMissing)
  | name :: more =>
    if name == "scan".toList then guarded s true (scanCommand s more r)
    else
      let _ ← programOptions s rest
      throw (.usage (.unknownCommand name))

/-- Runs the program. -/
def run (s : CommandSetting) (args : List Text) (r : Registry) : ProgramOutcome :=
  match (guarded s false (perform s args r)).run ⟨[], [], s.surroundings.files⟩ with
  | (.ok (), console) => ⟨0, console, none⟩
  | (.error (.done code), console) => ⟨code, console, none⟩
  | (.error (.usage _), console) => ⟨2, console, none⟩
  | (.error (.fault f), console) => ⟨1, console, some f⟩

end Program

end OperationScan
