import SharedCounters.Settings
import SharedCounters.Listing

/-! The command that prints the listing of one counters file: its arguments, and what it answers. -/

namespace SharedCounters.CommandLine

def programName : String := "shm-counters-dump"

def versionText : String := programName ++ " 0.1.0\n"

def helpText : String := "Print the header, statics and live counters of a counters file

Usage: shm-counters-dump [OPTIONS] <FILE>

Arguments:
  <FILE>  The counters file

Options:
      --named    Resolve the file name in the counters directory, `SHM_COUNTERS_DIR` or the default
  -h, --help     Print help
  -V, --version  Print version
"

inductive Command
  | help
  | version
  /-- A named file is looked for in the counters directory. -/
  | dump (named : Bool) (file : Path)
  | misuse
  deriving DecidableEq

/-- A file was given or not; after two dashes nothing else can follow. -/
def finish (named : Bool) (file : Option Path) : List (List UInt8) → Command
  | [] => match file with
    | some file => .dump named file
    | none => .misuse
  | argument :: rest =>
    if argument.isEmpty ∨ file.isSome then .misuse else finish named (some ⟨argument⟩) rest

/-- What stands behind a single dash: the first letter answers or is unknown. -/
def letter : List UInt8 → Command
  | b :: _ => if b = 0x56 then .version else if b = 0x68 then .help else .misuse
  | [] => .misuse

/-- One file and at most one option; an empty argument is no file. -/
def parseFrom (named : Bool) (file : Option Path) : List (List UInt8) → Command
  | [] => finish named file []
  | argument :: rest =>
    if argument = Text.utf8 "--" then finish named file rest
    else if argument = Text.utf8 "--named" then if named then .misuse else parseFrom true file rest
    else if argument = Text.utf8 "--version" then .version
    else if argument = Text.utf8 "--help" then .help
    else if (Text.utf8 "--").isPrefixOf argument then .misuse
    else if (Text.utf8 "-").isPrefixOf argument ∧ argument ≠ Text.utf8 "-" then letter (argument.drop 1)
    else if argument.isEmpty ∨ file.isSome then .misuse
    else parseFrom named (some ⟨argument⟩) rest

def parse (arguments : List (List UInt8)) : Command := parseFrom false none arguments

def target (standard : Settings) (env : Environment) (named : Bool) (file : Path) :
    Except BadRequest Path := do
  if named then return (← standard.override env).locate file else return file

def listingOf (path : Path) (file : Nat) : Host String := do
  let reader ← Reader.ofMapping (← Mapping.ofOpen file false)
  return (← Listing.ofReader path reader).text

def listingAt (path : Path) : Host String := do
  let full ← Host.ask fun fs => fs.canonical path
  return (← Listing.ofReader full (← Reader.ofPath full)).text

structure Outcome where
  code : Nat
  output : String
  failure : Option Failure

namespace Outcome

def ofResult : Except Failure String → Outcome
  | .ok text => ⟨0, text, none⟩
  | .error failure => ⟨1, "", some failure⟩

/-- What goes to the other output: the failure, or how the command is used. -/
def complaint (o : Outcome) : String :=
  match o.failure with
  | some failure => s!"{programName}: {failure.message}\n"
  | none => if o.code = 2 then helpText else ""

end Outcome

def answerWith {m : Type → Type} [Monad m] (list : Path → m (Except Failure String))
    (standard : Settings) (env : Environment) (arguments : List (List UInt8)) : m Outcome :=
  match parse arguments with
  | .help => return ⟨0, helpText, none⟩
  | .version => return ⟨0, versionText, none⟩
  | .misuse => return ⟨2, "", none⟩
  | .dump named file =>
    match target standard env named file with
    | .error cause => return .ofResult (.error (.request cause))
    | .ok path => return .ofResult (← list path)

def answer (standard : Settings) (env : Environment) (arguments : List (List UInt8))
    (fs : FileSystem) : Outcome :=
  Id.run (answerWith (fun path => pure (Host.result (listingAt path) fs)) standard env arguments)

end SharedCounters.CommandLine
