-- The arguments of the command line. They are read from left to right, and the
-- first that asks for help, for the version, or makes no sense decides.
import Uplift.Text.Basic

namespace Uplift.Cli

/-- The form of the report. -/
inductive Format where
  | console
  | json
deriving DecidableEq

namespace Format

def name : Format → String
  | console => "console"
  | json => "json"

def ofName? (s : String) : Option Format := [console, json].find? (·.name == s)

end Format

/-- What is scanned when no pattern is given. -/
def defaultPattern : String := "./src/**/*.\x7btsx,jsx,ts,js\x7d"

/-- What the arguments ask for; what is not given is open. -/
structure Options where
  pattern : Option String := none
  dryRun : Bool := false
  format : Option Format := none
  config : Option String := none
  catalog : Option String := none
  noColour : Bool := false
deriving DecidableEq

/-- What the program is to do. -/
inductive Request where
  | run (options : Options)
  | help
  | version
  /-- The arguments make no sense. -/
  | misuse
deriving DecidableEq

/-- A plain argument: the pattern, which can be given once. -/
def Options.operand? (o : Options) (arg : String) : Option Options :=
  if o.pattern.isSome then none else some { o with pattern := some arg }

/-- The options that take a value. -/
inductive Valued where
  | format
  | config
  | catalog
deriving DecidableEq

def Valued.ofName? : String → Option Valued
  | "format" => some .format
  | "config" => some .config
  | "catalog" => some .catalog
  | _ => none

/-- Set an option that takes a value. It can be given once; a report format must be known, and
the path of a configuration is not empty. -/
def Options.set? (o : Options) (name : Valued) (value : String) : Option Options :=
  match name with
  | .format =>
    if o.format.isSome then none
    else (Format.ofName? value).map fun f => { o with format := some f }
  | .config =>
    if o.config.isSome ∨ value.isEmpty then none else some { o with config := some value }
  | .catalog => if o.catalog.isSome then none else some { o with catalog := some value }

/-- An argument as it looks. -/
inductive Shape where
  /-- `--`: no options after this. -/
  | separator
  /-- `--name` or `--name=value`. -/
  | long (name : String) (value : Option String)
  /-- `-x`, with the letters after the hyphen. -/
  | short (letters : Text)
  | plain

def shapeOf (arg : String) : Shape :=
  match arg.toList with
  | ['-', '-'] => .separator
  | '-' :: '-' :: rest =>
    let name := String.ofList (rest.takeWhile (· != '='))
    match rest.dropWhile (· != '=') with
    | _ :: value => .long name (some (String.ofList value))
    | [] => .long name none
  | '-' :: c :: rest => .short (c :: rest)
  | _ => .plain

/-- The arguments after `--`. -/
def readOperands (o : Options) : List String → Request
  | [] => .run o
  | arg :: rest =>
    match o.operand? arg with
    | some o => readOperands o rest
    | none => .misuse

/-- Read the arguments. A value may follow its option as the next argument unless it looks like
an option. -/
def readFrom (o : Options) : List String → Request
  | [] => .run o
  | arg :: rest =>
    match shapeOf arg with
    | .separator => readOperands o rest
    | .plain =>
      match o.operand? arg with
      | some o => readFrom o rest
      | none => .misuse
    | .short ('h' :: _) => .help
    | .short ('V' :: _) => .version
    | .short _ => .misuse
    | .long "help" none => .help
    | .long "version" none => .version
    | .long "dry-run" none => if o.dryRun then .misuse else readFrom { o with dryRun := true } rest
    | .long "no-color" none =>
      if o.noColour then .misuse else readFrom { o with noColour := true } rest
    | .long name value =>
      match Valued.ofName? name, value, rest with
      | none, _, _ => .misuse
      | some option, some value, rest =>
        match o.set? option value with
        | some o => readFrom o rest
        | none => .misuse
      | some _, none, [] => .misuse
      | some option, none, value :: rest =>
        match shapeOf value with
        | .plain =>
          match o.set? option value with
          | some o => readFrom o rest
          | none => .misuse
        | _ => .misuse

/-- Read the arguments of a call. -/
def read (args : List String) : Request := readFrom {} args

end Uplift.Cli
