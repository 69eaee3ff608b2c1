import ReleaseUpgrade.CommandLine.Flag
import ReleaseUpgrade.Dict

/-!
# Arguments

`Arguments.ofList` reads the arguments of the command line, `Arguments.withEnvironment` adds what
the environment sets.

* `--name value` and `--name=value` set a flag, at most once each.
* A value does not start with a hyphen, unless it stands after an equals sign; `-` alone is a value.
* `crd` asks for the resource definitions; nothing but a request for help may follow it.
* The value of an option is checked when the next option, a request for help or the end comes.  An
  argument with no meaning at all is reported before that.
-/

namespace ReleaseUpgrade

/-- why the operator does not start -/
inductive UsageError where
  | unknownArgument
  | missingValue
  /-- the value is not a number in range -/
  | invalidValue
  /-- an option is given twice -/
  | repeated
  | unknownCommand
  /-- an option that has no value is given one -/
  | surplusValue
  /-- help is asked for -/
  | help
  /-- the version is asked for -/
  | version
  deriving DecidableEq, Repr

/-- the form of an argument -/
inductive Argument where
  /-- everything after it is plain -/
  | separator
  | long (name : String) (value : Option String)
  | short (first : Char)
  | plain (text : String)
  deriving DecidableEq, Repr

namespace Argument

/-- the form that the characters have -/
def ofChars : List Char → Argument
  | ['-', '-'] => .separator
  | '-' :: '-' :: cs =>
    let (name, value) := Text.cutChars '=' cs
    .long (String.ofList name) (value.map String.ofList)
  | '-' :: c :: _ => .short c
  | cs => .plain (String.ofList cs)

def ofText (s : String) : Argument := ofChars s.toList

end Argument

/-- what the command line asks for -/
structure Arguments where
  /-- the resource definitions are asked for -/
  definitions : Bool := false
  values : List (Flag × String) := []
  deriving DecidableEq, Repr

namespace Arguments

/-- the value that a flag is set to -/
def value? (a : Arguments) (f : Flag) : Option String :=
  (a.values.find? fun v => v.1 = f).map (·.2)

/-- a flag is set -/
def set (f : Flag) (value : String) (a : Arguments) : Except UsageError Arguments :=
  if (a.value? f).isSome then .error .repeated
  else if f.accepts value then .ok { a with values := a.values ++ [(f, value)] }
  else .error .invalidValue

/-- an option that is not settled yet, with its value if that has come -/
abbrev Pending := Option (Flag × Option String)

/-- the option before this place is settled -/
def settle (pending : Pending) (a : Arguments) : Except UsageError Arguments :=
  match pending with
  | none => .ok a
  | some (_, none) => .error .missingValue
  | some (f, some value) => a.set f value

/-- an option waits for its value -/
def Pending.awaits : Pending → Option Flag
  | some (f, none) => some f
  | _ => none

/-- the error that a request ends with, once the option before it is settled -/
def request (pending : Pending) (a : Arguments) (e : UsageError) : Except UsageError Arguments := do
  let _ ← a.settle pending
  throw e

/-- the commands: the resource definitions, and help about the commands -/
def isCommand (s : String) : Bool := s = "crd" || s = "help"

/-- what help about commands ends with: at most one command is asked about -/
def helpAbout : List String → UsageError
  | [] => .help
  | [topic] => if isCommand topic then .help else .unknownCommand
  | _ => .unknownCommand

/-- the arguments after `crd` -/
def afterCommand : List String → Except UsageError Unit
  | [] => .ok ()
  | s :: rest =>
    match Argument.ofText s with
    | .separator => if rest.isEmpty then .ok () else .error .unknownArgument
    | .long "help" none => .error .help
    | .long "help" (some _) => .error .surplusValue
    | .short 'h' => .error .help
    | _ => .error .unknownArgument

/-- the arguments after a separator, where nothing may follow -/
def afterSeparator (pending : Pending) (a : Arguments) : List String → Except UsageError Arguments
  | [] => a.settle pending
  | s :: _ => .error (if isCommand s then .unknownArgument else .unknownCommand)

/-- reads the arguments that are left -/
def read (pending : Pending) (a : Arguments) : List String → Except UsageError Arguments
  | [] => a.settle pending
  | s :: rest =>
    match Argument.ofText s, pending.awaits with
    | .plain value, some f => read (some (f, some value)) a rest
    | .plain "crd", none => do
      afterCommand rest
      return { ← a.settle pending with definitions := true }
    | .plain "help", none => .error (helpAbout rest)
    | .plain _, none => .error .unknownCommand
    | .separator, _ => afterSeparator pending a rest
    | .short 'h', _ => a.request pending .help
    | .short 'V', _ => a.request pending .version
    | .short _, _ => .error .unknownArgument
    | .long "help" none, _ => a.request pending .help
    | .long "version" none, _ => a.request pending .version
    | .long "help" (some _), _ | .long "version" (some _), _ => .error .surplusValue
    | .long name value, _ =>
      match Flag.ofOption? name with
      | none => .error .unknownArgument
      | some f =>
        match a.settle pending, value with
        | .error e, _ => .error e
        | .ok a, none => read (some (f, none)) a rest
        | .ok a, some value =>
          match a.set f value with
          | .error e => .error e
          | .ok a => read none a rest

/-- what the arguments ask for -/
def ofList (arguments : List String) : Except UsageError Arguments := read none {} arguments

/-- a flag that is not set takes its value from the environment -/
def addVariable (environment : List (String × String)) (a : Arguments) (f : Flag) :
    Except UsageError Arguments :=
  match a.value? f, Dict.get? f.environmentVariable environment with
  | none, some value => a.set f value
  | _, _ => .ok a

/-- flags that are not set take their values from the environment -/
def withEnvironment (environment : List (String × String)) (a : Arguments) :
    Except UsageError Arguments :=
  Flag.all.foldlM (addVariable environment) a

end Arguments

end ReleaseUpgrade
