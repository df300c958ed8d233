import KeyedLog.Level

/-! The arguments of the command line. -/

namespace KeyedLog.Command

structure Options where
  configPath : Option String := none
  level : Option Level := none
  deriving DecidableEq, Repr

inductive Refusal where
  | help
  | usage
  deriving DecidableEq, Repr

inductive Flag where
  | config
  | level
  deriving DecidableEq, Repr

namespace Flag

def ofName? : List Char → Option Flag
  | ['c', 'o', 'n', 'f', 'i', 'g'] => some config
  | ['l', 'e', 'v', 'e', 'l'] => some level
  | _ => none

def ofLetter? : Char → Option Flag
  | 'c' => some config
  | 'l' => some level
  | _ => none

end Flag

inductive Argument where
  | help
  | assigned (flag : Flag) (value : String)
  | awaiting (flag : Flag)
  | terminator
  | unknown
  deriving DecidableEq, Repr

namespace Argument

def ofName (name : List Char) (value : Option String) : Argument :=
  match Flag.ofName? name, value with
  | some flag, some value => assigned flag value
  | some flag, none => awaiting flag
  | none, none => if name = ['h', 'e', 'l', 'p'] then help else unknown
  | none, some _ => unknown

def ofLetter (letter : Char) (rest : List Char) : Argument :=
  match Flag.ofLetter? letter, rest with
  | some flag, [] => awaiting flag
  | some flag, '=' :: value => assigned flag (String.ofList value)
  | some flag, value => assigned flag (String.ofList value)
  | none, _ => if letter = 'h' then help else unknown

def ofChars : List Char → Argument
  | ['-', '-'] => terminator
  | '-' :: '-' :: rest =>
    match rest.dropWhile (· != '=') with
    | [] => ofName rest none
    | _ :: value => ofName (rest.takeWhile (· != '=')) (some (String.ofList value))
  | '-' :: letter :: rest => ofLetter letter rest
  | _ => unknown

def isFlagLike (argument : String) : Bool :=
  match argument.toList with
  | '-' :: _ :: _ => true
  | _ => false

end Argument

namespace Options

def assign (options : Options) (flag : Flag) (value : String) : Except Refusal Options :=
  match flag with
  | .config =>
    if options.configPath.isSome || value.isEmpty then .error .usage
    else .ok { options with configPath := some value }
  | .level =>
    match options.level, Level.parse value with
    | none, .ok level => .ok { options with level := some level }
    | _, _ => .error .usage

/-- Take in arguments from the left to the right, up to the first that ends it. -/
def take (options : Options) : List String → Except Refusal Options
  | [] => .ok options
  | [argument] =>
    match Argument.ofChars argument.toList with
    | .help => .error .help
    | .assigned flag value => options.assign flag value
    | .terminator => .ok options
    | .awaiting _ | .unknown => .error .usage
  | argument :: value :: rest =>
    match Argument.ofChars argument.toList with
    | .help => .error .help
    | .assigned flag assigned => do (← options.assign flag assigned).take (value :: rest)
    | .awaiting flag =>
      if Argument.isFlagLike value then .error .usage
      else do (← options.assign flag value).take rest
    | .terminator | .unknown => .error .usage

def parse (arguments : List String) : Except Refusal Options :=
  take {} arguments

end Options

def help (program : String) : String :=
  "Route log events to per-workspace and per-job destinations\n\nUsage: " ++ program ++ " [OPTIONS]\n\n" ++
  "Options:\n" ++
  "  -c, --config <CONFIG>  TOML configuration file. Defaults plus LOG_* environment variables when absent\n" ++
  "  -l, --level <LEVEL>    Root level, overriding configuration and LOG_LEVEL\n" ++
  "  -h, --help             Print help\n"

end KeyedLog.Command
