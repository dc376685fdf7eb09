import Sidelink.Document.Printer
import Sidelink.Scenario.File
import Sidelink.Simulation.Report
import Sidelink.Simulation.Run
import Sidelink.Simulation.Setup

/-!
The command line: what its arguments ask for, and what a run prints, writes and exits with. Arguments are read from
the left, and the first one that settles the matter wins; an option may be given once.
-/
namespace Sidelink.CommandLine

/-! ## Arguments -/

/-- What a run is asked to do. -/
structure Options where
  /-- The path of the scenario. -/
  config : String
  /-- The level of detail of logs, of which a run writes none. -/
  logLevel : Option String
  seed : Option Nat
  durationMs : Option Nat
  /-- Where the report is written, instead of being printed. -/
  report : Option String
  deriving DecidableEq, Inhabited

def Options.default : Options := ⟨"scenarios/highway.yml", none, none, none, none⟩

/-- An option that takes a value. -/
inductive Flag where
  | config
  | logLevel
  | seed
  | durationMs
  | report
  deriving DecidableEq

namespace Flag

def ofLong? (name : String) : Option Flag :=
  [("config", config), ("log-level", logLevel), ("seed", seed), ("duration-ms", durationMs),
    ("report", report)].lookup name

def ofShort? (c : Char) : Option Flag := [('c', config), ('l', logLevel), ('r', report)].lookup c

end Flag

/-- What arguments ask for. -/
inductive Invocation where
  | run (options : Options)
  | help
  | version
  /-- The arguments make no sense. -/
  | misuse
  deriving DecidableEq

/-- Sets an option. A path is not empty, and a number has 64 bits. -/
def Options.set? (o : Options) (flag : Flag) (value : String) : Option Options :=
  let number := (Numeral.read 18446744073709551615 value.toList).toOption
  match flag with
  | .config => if value.isEmpty then none else some { o with config := value }
  | .logLevel => some { o with logLevel := some value }
  | .seed => number.map fun n => { o with seed := some n }
  | .durationMs => number.map fun n => { o with durationMs := some n }
  | .report => if value.isEmpty then none else some { o with report := some value }

/-- An argument by itself. -/
inductive Argument where
  | help
  | version
  /-- An option with its value. -/
  | attached (flag : Flag) (value : String)
  /-- An option whose value is the next argument. -/
  | detached (flag : Flag)
  /-- The end of all options. -/
  | finish
  | invalid

namespace Argument

/-- An argument that begins with two dashes, from behind them on. -/
def ofLong (cs : List Char) : Argument :=
  let (name, value) := cs.span (· ≠ '=')
  match String.ofList name, value with
  | "help", [] => .help
  | "version", [] => .version
  | name, value =>
    match Flag.ofLong? name, value with
    | some flag, [] => .detached flag
    | some flag, _ :: value => .attached flag (String.ofList value)
    | none, _ => .invalid

def read (argument : String) : Argument :=
  match argument.toList with
  | ['-', '-'] => .finish
  | '-' :: '-' :: cs => ofLong cs
  | '-' :: 'h' :: _ => .help
  | '-' :: 'V' :: _ => .version
  | '-' :: c :: value =>
    match Flag.ofShort? c, value with
    | some flag, [] => .detached flag
    | some flag, '=' :: value => .attached flag (String.ofList value)
    | some flag, value => .attached flag (String.ofList value)
    | none, _ => .invalid
  | _ => .invalid

/-- Whether an argument may be the value of an option before it. -/
def isValue (argument : String) : Bool := argument = "-" || argument.toList.head? ≠ some '-'

end Argument

/-- Reads arguments, after those that gave some options. -/
def parseAfter (options : Options) (given : List Flag) : List String → Invocation
  | [] => .run options
  | argument :: rest =>
    match Argument.read argument with
    | .help => .help
    | .version => .version
    | .finish => if rest.isEmpty then .run options else .misuse
    | .invalid => .misuse
    | .attached flag value =>
      match options.set? flag value with
      | some options => if flag ∈ given then .misuse else parseAfter options (flag :: given) rest
      | none => .misuse
    | .detached flag =>
      match rest with
      | [] => .misuse
      | value :: rest =>
        match options.set? flag value with
        | some options =>
          if flag ∈ given || !Argument.isValue value then .misuse else parseAfter options (flag :: given) rest
        | none => .misuse

/-- Reads all arguments. -/
def parse (arguments : List String) : Invocation := parseAfter .default [] arguments

/-! ## Runs -/

/-- What a run leaves behind. -/
structure Completion where
  exitCode : Nat
  output : String
  errors : String
  /-- A file to be written, and its text. -/
  file : Option (String × String)
  deriving DecidableEq, Inhabited

/-- A cause, each of its lines behind an indentation. -/
def indented (first others : String) (cause : String) : String :=
  first ++ ("\n" ++ others).intercalate (cause.splitOn "\n") ++ "\n"

/-- An error with its causes. Several causes are numbered. -/
def errorText (message : String) (causes : List String) : String :=
  let lines := match causes with
    | [] => []
    | [cause] => ["\nCaused by:\n", indented "    " "    " cause]
    | causes => "\nCaused by:\n" :: causes.mapIdx fun i cause => indented s!"    {i}: " "       " cause
  s!"Error: {message}\n" ++ String.join lines

/-- What an error leaves behind. -/
def failure (message : String) (causes : List String) : Completion := ⟨1, "", errorText message causes, none⟩

/-- What the common error codes of the system mean. -/
def systemDescriptions : List (Nat × String) :=
  [(2, "No such file or directory"), (13, "Permission denied"), (20, "Not a directory"), (21, "Is a directory"),
    (28, "No space left on device"), (30, "Read-only file system"), (36, "File name too long")]

/-- The reason that an error code of the system gives. Codes may be written as negative words of 32 bits. -/
def systemReason (code : Nat) (details : String) : String :=
  let code := if code < 2147483648 then code else 4294967296 - code
  s!"{(systemDescriptions.lookup code).getD details} (os error {code})"

/-- The scenario with what the options change in it. -/
def Options.apply (o : Options) (s : Scenario) : Scenario :=
  { s with run := { s.run with
    seed := o.seed.getD s.run.seed
    durationMs := o.durationMs.getD s.run.durationMs } }

/-- Runs the scenario that was loaded. A run in which a node stops has an exit code of its own. -/
def execute (o : Options) (loaded : Except LoadError Scenario) : Completion :=
  match loaded with
  | .error error => failure error.message error.causes
  | .ok scenario =>
    match Simulation.ofScenario (o.apply scenario) >>= Simulation.run with
    | .error (.stopped node) => { failure (SimulationError.stopped node).message [] with exitCode := 101 }
    | .error error => failure error.message error.causes
    | .ok s =>
      let text := s.report.pretty 0
      match o.report with
      | some path => ⟨0, "", "", some (path, text)⟩
      | none => ⟨0, text ++ "\n", "", none⟩

/-- What the program tells about itself. -/
def helpText : String :=
  "D2D flow multiplexing scenario simulator\n\nUsage: d2d_sim [OPTIONS]\n\nOptions:\n" ++
  "  -c, --config <CONFIG>            Path to the scenario file (.yml, .yaml or .toml) " ++
  "[default: scenarios/highway.yml]\n" ++
  "  -l, --log-level <LOG_LEVEL>      Log level (trace, debug, info, warn, error); overrides the scenario\n" ++
  "      --seed <SEED>                Seed override for the flow start offsets\n" ++
  "      --duration-ms <DURATION_MS>  Simulated duration override in milliseconds\n" ++
  "  -r, --report <REPORT>            Write the JSON report here instead of stdout\n" ++
  "  -h, --help                       Print help\n" ++
  "  -V, --version                    Print version\n"

def versionText : String := "simulator 0.1.0\n"

def misuseText : String := "error: invalid arguments\n\nFor more information, try '--help'.\n"

end Sidelink.CommandLine
