import TypedSql.Command
import TypedSql.Text.Blank

/-!
# The arguments of the program

Arguments are read in order, and the first that makes no sense decides. An option is known at
its level: before the name of the command, or behind it. On each level an option may be given
once; where both levels have it, the one behind the name of the command counts. The value of an
option stands in the same argument or in the next one, and a value must not be empty. What
follows two dashes is an operand, whatever it looks like.

An option with a value of its own argument is only settled by the next option of its level. So a
request for help behind the name of the command is answered also when the value before it makes
no sense.
-/

namespace TypedSql

namespace Arguments

/-- An option of the program. -/
inductive Flag where
  | config
  | output
  | verbose
  | tls
  | help
  | version
  deriving DecidableEq

namespace Flag

def takesValue : Flag → Bool
  | .config | .output => true
  | _ => false

end Flag

/-- Where an argument stands. -/
inductive Level where
  /-- Before the name of the command. -/
  | program
  | check
  | infer
  deriving DecidableEq

namespace Level

/-- The options of a level. -/
def flags : Level → List Flag
  | .program => [.config, .verbose, .help, .version]
  | .check => [.config, .verbose, .help]
  | .infer => [.config, .output, .verbose, .tls, .help]

/-- What help is about at a level. -/
def topic : Level → HelpTopic
  | .program => .program
  | .check => .check
  | .infer => .infer

/-- The option of a level with a one-letter name. -/
def short? (l : Level) (c : Char) : Option Flag :=
  let named : Option Flag := match c with
    | 'c' => some .config
    | 'o' => some .output
    | 'v' => some .verbose
    | 'h' => some .help
    | 'V' => some .version
    | _ => none
  named.filter l.flags.contains

/-- The option of a level with a whole word as its name. -/
def long? (l : Level) (name : String) : Option Flag :=
  let named : Option Flag := match name with
    | "config" => some .config
    | "output" => some .output
    | "verbose" => some .verbose
    | "tls" => some .tls
    | "help" => some .help
    | "version" => some .version
    | _ => none
  named.filter l.flags.contains

end Level

/-- The options that were given on a level. -/
structure Given where
  config : Option Path
  output : Option Path
  verbose : Bool
  tls : Bool
  /-- An option with its value that is still to be settled. -/
  pending : Option (Flag × String)

namespace Given

/-- No options. -/
def nothing : Given := ⟨none, none, false, false, none⟩

/-- Record the value of an option that has none yet. -/
def put? (g : Given) (f : Flag) (value : String) : Option Given :=
  if value = "" then none
  else
    match f with
    | .config => if g.config.isNone then some { g with config := some ⟨value⟩ } else none
    | .output => if g.output.isNone then some { g with output := some ⟨value⟩ } else none
    | _ => none

/-- Record an option without a value. -/
def mark? (g : Given) (f : Flag) : Option Given :=
  match f with
  | .verbose => if g.verbose then none else some { g with verbose := true }
  | .tls => if g.tls then none else some { g with tls := true }
  | _ => none

/-- Settle the option that waits for it. -/
def settle? (g : Given) : Option Given :=
  match g.pending with
  | none => some g
  | some (f, value) => { g with pending := none }.put? f value

end Given

/-- What an argument with options comes to. -/
inductive Step where
  | done (g : Given)
  /-- The next argument has to be a value. -/
  | awaits (g : Given) (f : Flag)
  | stop (answer : Invocation)

namespace Step

/-- Go on if there is something to go on with. -/
def ofOption : Option Given → Step
  | some g => .done g
  | none => .stop .misuse

end Step

/-- Read an option. `value` is what stands in the same argument as its value. -/
def option (l : Level) (g : Given) (f : Flag) (value : Option String) : Step :=
  match g.settle? with
  | none => .stop .misuse
  | some g =>
    if f.takesValue then
      match value with
      | some value => .ofOption (g.put? f value)
      | none => .awaits g f
    else if value.isSome then .stop .misuse
    else
      match f with
      | .help => .stop (.help l.topic)
      | .version => .stop .version
      | f => .ofOption (g.mark? f)

/-- Read the letters behind a dash. The letters behind an option with a value are the value. -/
def letters (l : Level) (g : Given) : List Char → Step
  | [] => .done g
  | c :: rest =>
    match l.short? c with
    | none => .stop .misuse
    | some f =>
      if f.takesValue then
        let value : Option String := match rest with
          | [] => none
          | '=' :: value => some (String.ofList value)
          | value => some (String.ofList value)
        option l g f value
      else
        match option l g f none with
        | .done g => letters l g rest
        | step => step

/-- Read the word behind two dashes. -/
def word (l : Level) (g : Given) (text : List Char) : Step :=
  let (name, value) := match Text.splitAtFirst '=' text with
    | some (name, value) => (name, some (String.ofList value))
    | none => (text, none)
  match l.long? (String.ofList name) with
  | none => .stop .misuse
  | some f => option l g f value

/-- The kinds of arguments by their looks. -/
inductive Shape where
  | operand
  /-- Two dashes alone. -/
  | divider
  | letters (text : List Char)
  | word (text : List Char)

/-- A single dash alone is an operand. -/
def shape (argument : String) : Shape :=
  match argument.toList with
  | ['-', '-'] => .divider
  | '-' :: '-' :: text => .word text
  | ['-'] => .operand
  | '-' :: text => .letters text
  | _ => .operand

/-- Read an argument that looks like options. -/
def step? (l : Level) (g : Given) (argument : String) : Option Step :=
  match shape argument with
  | .letters text => some (letters l g text)
  | .word text => some (word l g text)
  | _ => none

/-- The command at a level other than that of the program, with the options before its name. -/
def finish (l : Level) (before g : Given) (operands : List String) : Invocation :=
  match g.settle? with
  | none => .misuse
  | some g =>
    if operands.isEmpty || operands.contains "" then .misuse
    else
      let options : CommandOptions := ⟨g.config.or before.config, before.verbose || g.verbose⟩
      let paths := operands.map Path.mk
      match l with
      | .infer => .run options (.infer paths (g.output.getD Command.usualOutput) g.tls)
      | _ => .run options (.check paths)

/-- Read what is behind the name of a command. An empty operand makes no sense, and no option
behind it can change that. -/
def ofCommand (l : Level) (before : Given) (operands : List String) (g : Given) :
    List String → Invocation
  | [] => finish l before g operands
  | argument :: rest =>
    match step? l g argument with
    | some (.stop answer) => if operands.contains "" then .misuse else answer
    | some (.done g) => ofCommand l before operands g rest
    | some (.awaits g f) =>
      match rest with
      | [] => .misuse
      | value :: rest =>
        match shape value with
        | .operand => ofCommand l before operands { g with pending := some (f, value) } rest
        | _ => .misuse
    | none =>
      match shape argument with
      | .divider => finish l before g (operands ++ rest)
      | _ =>
        match g.settle? with
        | none => .misuse
        | some g => ofCommand l before (operands ++ [argument]) g rest

/-- The help on the commands behind the word `help`. -/
def ofHelp : List String → Invocation
  | [] => .help .program
  | ["check"] => .help .check
  | ["infer"] => .help .infer
  | ["help"] => .help .help
  | _ => .misuse

/-- Let a command run only with options before its name that make sense. -/
def guarded (g : Given) (read : Given → Invocation) : Invocation :=
  match g.settle? with
  | some g => read g
  | none =>
    match read g with
    | .run _ _ => .misuse
    | answer => answer

/-- Read arguments before the name of the command. -/
def ofProgram (g : Given) : List String → Invocation
  | [] => .misuse
  | argument :: rest =>
    match step? .program g argument with
    | some (.stop answer) => answer
    | some (.done g) => ofProgram g rest
    | some (.awaits g f) =>
      match rest with
      | [] => .misuse
      | value :: rest =>
        match shape value with
        | .operand => ofProgram { g with pending := some (f, value) } rest
        | _ => .misuse
    | none =>
      match argument with
      | "check" => guarded g fun g => ofCommand .check g [] .nothing rest
      | "infer" => guarded g fun g => ofCommand .infer g [] .nothing rest
      | "help" => ofHelp rest
      | _ => .misuse

/-- Read all arguments. -/
def read (arguments : List String) : Invocation :=
  ofProgram .nothing arguments

end Arguments

end TypedSql
