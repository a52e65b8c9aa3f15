import RpcPool.Text.Numeral

/-!
# The command line

What a user may ask for when starting the program. Options are read from left to right. An option that
takes a value is taken over only when the next option, or the end, is reached: until then its value is
pending, and of two faults the one that is met first in this order is reported.
-/

namespace RpcPool

/-- What the user has asked for. -/
structure CommandLine where
  config : Option String := none
  init : Bool := false
  checkConfig : Bool := false
  /-- For how many seconds to watch the pool. -/
  watch : Option UInt64 := none
  deriving DecidableEq, Repr

namespace CommandLine

/-- Why the program does not go on with its work. -/
inductive Refusal
  /-- Not a fault: the user asked for help. -/
  | help
  /-- Not a fault: the user asked for the version. -/
  | version
  | missingValue
  | invalidNumber
  | repeated
  | unneededValue
  | unknown
  deriving DecidableEq, Repr

/-! ## Options -/

/-- The options that stand alone. -/
inductive Toggle
  | init
  | checkConfig
  | help
  | version
  deriving DecidableEq, Repr

/-- The options that take a value. -/
inductive Setting
  | config
  | watch
  deriving DecidableEq, Repr

inductive Choice
  | toggle (t : Toggle)
  | setting (s : Setting)
  deriving DecidableEq, Repr

/-- The option that is written `--name`. -/
def ofLong? (name : List Char) : Option Choice :=
  [("config".toList, .setting .config), ("init".toList, .toggle .init),
   ("check-config".toList, .toggle .checkConfig), ("watch".toList, .setting .watch),
   ("help".toList, .toggle .help), ("version".toList, .toggle .version)].lookup name

/-- The option that is written `-c`. -/
def ofShort? : Char → Option Choice
  | 'c' => some (.setting .config)
  | 'w' => some (.setting .watch)
  | 'h' => some (.toggle .help)
  | 'V' => some (.toggle .version)
  | _ => none

/-- A setting that was met and not taken over yet, with its value if that has come. -/
abbrev Pending := Option (Setting × Option (List Char))

/-! ## Values -/

/-- A number without sign, or with a plus in front, that fits into 64 bits. -/
def number? (cs : List Char) : Option UInt64 :=
  let digits := match cs with
    | '+' :: rest => rest
    | _ => cs
  if digits.isEmpty then none
  else ((Text.number? 10 digits).filter fun n => n < Nat.pow 2 64).map UInt64.ofNat

/-- Gives a setting its value. -/
def assign (c : CommandLine) (s : Setting) (value : List Char) : Except Refusal CommandLine :=
  match s with
  | .config =>
    if c.config.isSome then .error .repeated
    else if value.isEmpty then .error .missingValue
    else .ok { c with config := some (String.ofList value) }
  | .watch =>
    if c.watch.isSome then .error .repeated
    else
      match number? value with
      | none => .error .invalidNumber
      | some n => .ok { c with watch := some n }

def turnOn (c : CommandLine) : Toggle → Except Refusal CommandLine
  | .init => if c.init then .error .repeated else .ok { c with init := true }
  | .checkConfig => if c.checkConfig then .error .repeated else .ok { c with checkConfig := true }
  | .help => .error .help
  | .version => .error .version

/-- Takes over what is pending. -/
def settle (c : CommandLine) : Pending → Except Refusal CommandLine
  | none => .ok c
  | some (_, none) => .error .missingValue
  | some (s, some value) => c.assign s value

/-! ## Arguments -/

/-- Meets an option, with a value if one is attached to it. -/
def meet (c : CommandLine) (pending : Pending) (choice : Choice) (value : Option (List Char)) :
    Except Refusal (CommandLine × Pending) :=
  match choice, value with
  | .toggle _, some _ => .error .unneededValue
  | .toggle t, none => do return (← (← c.settle pending).turnOn t, none)
  | .setting s, some v => do return (← (← c.settle pending).assign s v, none)
  | .setting s, none => do return (← c.settle pending, some (s, none))

/-- Meets the letters after a single dash. What follows the letter of a setting is its value, with or
without an equals sign between them. -/
def meetLetters (c : CommandLine) (pending : Pending) :
    List Char → Except Refusal (CommandLine × Pending)
  | [] => .ok (c, pending)
  | letter :: rest =>
    match ofShort? letter with
    | none => .error .unknown
    | some (.toggle t) =>
      match c.meet pending (.toggle t) none with
      | .error e => .error e
      | .ok (c, pending) => c.meetLetters pending rest
    | some (.setting s) =>
      match rest with
      | [] => c.meet pending (.setting s) none
      | '=' :: value => c.meet pending (.setting s) (some value)
      | value => c.meet pending (.setting s) (some value)

/-- Meets what follows two dashes: the name of an option, and after an equals sign its value. -/
def meetLong (c : CommandLine) (pending : Pending) (cs : List Char) :
    Except Refusal (CommandLine × Pending) :=
  match ofLong? (cs.takeWhile (· != '=')) with
  | none => .error .unknown
  | some choice =>
    match cs.dropWhile (· != '=') with
    | [] => c.meet pending choice none
    | _ :: value => c.meet pending choice (some value)

/-- Meets one argument. One that is not an option must be the value that a setting waits for. -/
def meetArgument (c : CommandLine) (pending : Pending) (argument : List Char) :
    Except Refusal (CommandLine × Pending) :=
  match argument with
  | '-' :: '-' :: cs => c.meetLong pending cs
  | '-' :: letter :: letters => c.meetLetters pending (letter :: letters)
  | plain =>
    match pending with
    | some (s, none) => .ok (c, some (s, some plain))
    | _ => .error .unknown

/-- Reads arguments. Two dashes alone end the options, and nothing may follow them. -/
def readFrom (c : CommandLine) (pending : Pending) : List (List Char) → Except Refusal CommandLine
  | [] => c.settle pending
  | ['-', '-'] :: rest => if rest.isEmpty then c.settle pending else .error .unknown
  | argument :: rest =>
    match c.meetArgument pending argument with
    | .error e => .error e
    | .ok (c, pending) => c.readFrom pending rest

/-- The command line that the arguments of the program stand for. -/
def read (arguments : List String) : Except Refusal CommandLine :=
  readFrom {} none (arguments.map String.toList)

/-! ## Texts -/

/-- The answer to a user who asks for the version. -/
def versionText : String := "monero-connections Ver:0.3.1\n"

/-- The answer to a user who asks for help. -/
def helpText : String :=
  "Check and watch a pool of Monero RPC connections with automatic failover\n\n"
    ++ "Usage: monero-connections [OPTIONS]\n\n"
    ++ "Options:\n"
    ++ "  -c, --config <CONFIG>  Config file (default: ~/.monero-connection-manager/config.toml)\n"
    ++ "      --init             Write a default config file if none exists\n"
    ++ "      --check-config     Validate the config file and exit\n"
    ++ "  -w, --watch <SECONDS>  Poll for the given number of seconds, printing each connection change."
    ++ " Without this flag every connection is probed once and the best one printed\n"
    ++ "  -h, --help             Print help\n"
    ++ "  -V, --version          Print version\n"

end CommandLine

end RpcPool
