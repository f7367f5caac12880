import AccessRules.CommandLine.Arguments
import AccessRules.CommandLine.Report
import AccessRules.Json.Codec
import AccessRules.Rules.Compile
import AccessRules.Text.WhiteSpace

namespace AccessRules.CommandLine

structure Outcome where
  exitCode : Nat
  output : String
  errors : String
deriving DecidableEq, Repr

/-- What a run may look at. A file that cannot be read gives the system's reason. -/
structure Surroundings where
  standardInput : ByteArray
  file : String → Except String ByteArray
  /-- Whether errors go to a terminal. -/
  terminal : Bool
  /-- The text of the time that the compilation took. -/
  elapsed : String

def programName : String := "firerules"

def programVersion : String := "0.1.0"

def helpText : String :=
  programName ++ " " ++ programVersion ++ "\n\n" ++
  "Compile and check a Realtime Database rules document.\n\n" ++
  "Reads a JSON rule tree with a top-level \"rules\" key and prints the compiled\n" ++
  "document on stdout.\n\n" ++
  "Usage:\n" ++
  "  firerules [OPTIONS] [FILE]\n" ++
  "  firerules [OPTIONS] --input <file>\n\n" ++
  "Options:\n" ++
  "  -i, --input <file>         Rules file to read. Reads stdin when omitted or '-'.\n" ++
  "  --strict                   Reject unknown '.' keys, malformed '$' wildcards and\n" ++
  "                             non-boolean, non-string permissions.\n" ++
  "  --compact                  Print single-line JSON.\n" ++
  "  --report                   Print a compile report on stderr.\n" ++
  "  --color                    Force ANSI color in the report.\n" ++
  "  --no-color                 Disable ANSI color in the report.\n" ++
  "  -h, --help                 Show this help message.\n" ++
  "  -V, --version              Print version information.\n\n" ++
  "Environment:\n" ++
  "  FIRERULES_LOG              Log filter (default: warn), e.g. FIRERULES_LOG=debug.\n\n" ++
  "Exit codes:\n" ++
  "  0  Success.\n" ++
  "  1  The rule tree failed to compile.\n" ++
  "  2  Invalid arguments, unreadable input or invalid JSON.\n"

inductive SessionFault where
  | arguments (fault : ArgumentFault)
  /-- The input could not be read. `source` names it and `reason` tells why. -/
  | unreadable (source reason : String)
  /-- The input holds white space only. -/
  | noInput
  | invalidJson (reason : String)
  | compilation (failure : CompileFailure)
  /-- The printer has no text for the document. -/
  | unprintable (reason : String)
deriving DecidableEq, Repr

namespace SessionFault

def exitCode : SessionFault → Nat
  | .compilation _ => 1
  | .unprintable _ => 1
  | _ => 2

def message : SessionFault → String
  | .arguments .missingInput => "error: --input expects a value"
  | .arguments .repeatedInput => "error: input provided multiple times"
  | .arguments (.unknownOption text) =>
      "error: unknown option '" ++ text ++ "'\n\n" ++ helpText
  | .unreadable source reason => "error: failed to read " ++ source ++ ": " ++ reason
  | .noInput => "error: no input provided\n\n" ++ helpText
  | .invalidJson reason => "error: input is not valid JSON: " ++ reason
  | .compilation failure => "error: " ++ failure.message
  | .unprintable reason => "error: failed to serialize rules: " ++ reason

/-- A fault leaves nothing on the output. -/
def outcome (fault : SessionFault) : Outcome := ⟨fault.exitCode, "", fault.message ++ "\n"⟩

end SessionFault

namespace Settings

def strictness (settings : Settings) : Strictness :=
  if settings.strict then .strict else .lenient

def sourceLabel (settings : Settings) : String := settings.input.getD "<stdin>"

def readInput (settings : Settings) (surroundings : Surroundings) : Except SessionFault String :=
  let source := settings.input.getD "stdin"
  let bytes : Except String ByteArray := match settings.input with
    | none => .ok surroundings.standardInput
    | some path => surroundings.file path
  match bytes with
  | .error reason => .error (.unreadable source reason)
  | .ok bytes =>
      match String.fromUTF8? bytes with
      | none => .error (.unreadable source "stream did not contain valid UTF-8")
      | some text => if Text.isBlank text then .error .noInput else .ok text

variable (codec : JsonCodec) (settings : Settings)

def compileText (text : String) : Except SessionFault (Json × Tally) :=
  match codec.read text with
  | .error reason => .error (.invalidJson reason)
  | .ok json =>
      let run := (RuleNode.ofJson json).compile settings.strictness
      match run.result with
      | .error failure => .error (.compilation failure)
      | .ok document => .ok (document, run.tally)

def documentText (document : Json) : Except SessionFault String :=
  match if settings.compact then codec.compact document else codec.pretty document with
  | .error reason => .error (.unprintable reason)
  | .ok text => .ok (text ++ "\n")

def execute (surroundings : Surroundings) : Outcome :=
  match settings.readInput surroundings with
  | .error fault => fault.outcome
  | .ok text =>
      match settings.compileText codec text with
      | .error fault => fault.outcome
      | .ok (document, tally) =>
          match settings.documentText codec document with
          | .error fault => fault.outcome
          | .ok output =>
              let errors :=
                if settings.report then
                  reportText settings.color settings.sourceLabel surroundings.elapsed
                    settings.strictness tally
                else ""
              ⟨0, output, errors⟩

end Settings

def Request.execute (codec : JsonCodec) (surroundings : Surroundings) : Request → Outcome
  | .help => ⟨0, helpText ++ "\n", ""⟩
  | .version => ⟨0, programName ++ " " ++ programVersion ++ "\n", ""⟩
  | .run settings => settings.execute codec surroundings

/-- One run of the command line. How documents are read and printed is left to a codec. -/
def runWith (codec : JsonCodec) (surroundings : Surroundings) (arguments : List String) : Outcome :=
  match Request.ofArguments surroundings.terminal arguments with
  | .error fault => (SessionFault.arguments fault).outcome
  | .ok request => request.execute codec surroundings

/-- The command line with the reader and the printers of this library. -/
def run (surroundings : Surroundings) (arguments : List String) : Outcome :=
  runWith .standard surroundings arguments

end AccessRules.CommandLine
