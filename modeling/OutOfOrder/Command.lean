import OutOfOrder.Stats.Report

/-!
# Command lines

Two commands: `demo` runs the built-in program, `run` one that is read from a file. Both may choose
sections of the statistics and may trace. An option that takes a value has it in the next word, or
in the same word after an equals sign; `--stats` takes all the plain words that follow it.
-/

namespace OutOfOrder

structure Options where
  program : Option String := none
  config : Option String := none
  sections : List String := []
  tracing : Bool := false
deriving DecidableEq

inductive Command
  | demo (options : Options)
  | run (program : String) (options : Options)
  | version
  | help
deriving DecidableEq

inductive UsageError
  | noCommand
  | unknownCommand (name : String)
  | unexpected (argument : String)
  | missingValue (option : String)
  | invalidValue (option value : String)
  | repeated (option : String)
  | missingOption (option : String)
deriving DecidableEq

def UsageError.message : UsageError → String
  | noCommand => "a command is required"
  | unknownCommand name => s!"unrecognized command '{name}'"
  | unexpected argument => s!"unexpected argument '{argument}'"
  | missingValue option => s!"a value is required for '{option}'"
  | invalidValue option value => s!"invalid value '{value}' for '{option}'"
  | repeated option => s!"'{option}' cannot be used multiple times"
  | missingOption option => s!"'{option}' is required"

namespace Command

/-! ## Words -/

/-- A word of the command line. A lone dash is plain. -/
inductive Word
  | plain (text : String)
  | long (name : String) (value : Option String)
  | short (letter : Char) (rest : List Char)
  | escape
deriving DecidableEq

def Word.ofString (s : String) : Word :=
  match s.toList with
  | ['-', '-'] => .escape
  | '-' :: '-' :: rest =>
    let name := String.ofList (rest.takeWhile (· != '='))
    match rest.dropWhile (· != '=') with
    | [] => .long name none
    | _ :: value => .long name (some (String.ofList value))
  | '-' :: letter :: rest => .short letter rest
  | _ => .plain s

/-! ## Options -/

inductive PathOption
  | program
  | config
deriving DecidableEq

def PathOption.flag : PathOption → String
  | program => "--program"
  | config => "--config"

/-- Sets a path, which has a name and is set once. -/
def setPath (option : PathOption) (value : String) (o : Options) : Except UsageError Options :=
  if value.isEmpty then .error (.invalidValue option.flag value)
  else
    match option, o.program, o.config with
    | .program, none, _ => .ok { o with program := some value }
    | .config, _, none => .ok { o with config := some value }
    | _, _, _ => .error (.repeated option.flag)

def addSection (value : String) (o : Options) : Except UsageError Options :=
  if (Stats.Section.all.map (·.name)).contains value then
    .ok { o with sections := o.sections ++ [value] }
  else .error (.invalidValue "--stats" value)

def setTracing (o : Options) : Except UsageError Options :=
  if o.tracing then .error (.repeated "--trace") else .ok { o with tracing := true }

/-- What the words read so far ask for. -/
inductive Expecting
  | nothing
  | path (option : PathOption)
  | firstSection
  | moreSections
deriving DecidableEq

/-- The path option of a name, where the command has paths at all. -/
def pathOption? (paths : Bool) : Word → Option (PathOption × Option String)
  | .long "program" value => if paths then some (.program, value) else none
  | .long "config" value => if paths then some (.config, value) else none
  | .short 'p' rest => if paths then some (.program, attached rest) else none
  | .short 'c' rest => if paths then some (.config, attached rest) else none
  | _ => none
where
  /-- The value in the word of a short option, with or without an equals sign. -/
  attached : List Char → Option String
    | [] => none
    | '=' :: rest => some (String.ofList rest)
    | rest => some (String.ofList rest)

/-- Reads an option, and says what it asks the next words for. -/
def readOption (paths : Bool) (o : Options) (text : String) (w : Word) :
    Except UsageError (Options × Expecting) :=
  match pathOption? paths w, w with
  | some (option, none), _ => .ok (o, .path option)
  | some (option, some value), _ => do return (← setPath option value o, .nothing)
  | none, .long "stats" none => .ok (o, .firstSection)
  | none, .long "stats" (some value) => do return (← addSection value o, .nothing)
  | none, .long "trace" none => do return (← setTracing o, .nothing)
  | none, _ => .error (.unexpected text)

/-- Reads the words after the command. Help is `none`. -/
def readOptions (paths : Bool) (o : Options) (expecting : Expecting) :
    List String → Except UsageError (Option Options)
  | [] =>
    match expecting with
    | .path option => .error (.missingValue option.flag)
    | .firstSection => .error (.missingValue "--stats")
    | .nothing | .moreSections => .ok (some o)
  | text :: rest =>
    match expecting, Word.ofString text with
    | .path option, .plain value => do
      readOptions paths (← setPath option value o) .nothing rest
    | .path option, _ => .error (.missingValue option.flag)
    | .firstSection, .plain value | .moreSections, .plain value => do
      readOptions paths (← addSection value o) .moreSections rest
    | .firstSection, _ => .error (.missingValue "--stats")
    | _, .escape =>
      match rest with
      | [] => .ok (some o)
      | next :: _ => .error (.unexpected next)
    | _, .long "help" none | _, .short 'h' _ => .ok none
    | _, w => do
      let (o, expecting) ← readOption paths o text w
      readOptions paths o expecting rest

/-! ## Commands -/

/-- The command whose help is asked for. No command has commands of its own. -/
def readHelp : List String → Except UsageError Command
  | [] => .ok .help
  | name :: rest =>
    match name, rest with
    | "demo", [] | "run", [] | "help", [] => .ok .help
    | "demo", next :: _ | "run", next :: _ | "help", next :: _ => .error (.unknownCommand next)
    | _, _ => .error (.unknownCommand name)

def read : List String → Except UsageError Command
  | [] => .error .noCommand
  | first :: rest =>
    match Word.ofString first with
    | .long "version" none | .short 'V' _ => .ok .version
    | .long "help" none | .short 'h' _ => .ok .help
    | .plain "help" => readHelp rest
    | .plain "demo" => do
      match ← readOptions false {} .nothing rest with
      | none => return .help
      | some o => return .demo o
    | .plain "run" => do
      match ← readOptions true {} .nothing rest with
      | none => return .help
      | some o =>
        match o.program with
        | none => throw (.missingOption PathOption.program.flag)
        | some program => return .run program o
    | .plain name => .error (.unknownCommand name)
    | _ => .error (.unexpected first)

end Command

end OutOfOrder
