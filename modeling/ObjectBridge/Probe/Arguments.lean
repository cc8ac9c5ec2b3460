import ObjectBridge.Config
import ObjectBridge.Probe.Help

/-!
# The words of a command line

A command line holds options, each at most once, then the name of a command, then the operands of the
command. A word that starts with a dash is an option unless two dashes stand before it as a word of
their own; a single dash is a plain word. Words are read from left to right, and the first one that
does not fit decides. Asking for help or for the version ends the reading.
-/

namespace ObjectBridge.Probe

/-- What the probe is to do with its session. -/
inductive Command where
  | template (className : String)
  | call (className method : String) (args : List String)
  | construct (expression : String)
  | info
deriving DecidableEq, Repr

/-- The options in front of the command. -/
structure Options where
  host : Option String := none
  port : Option UInt16 := none
  server : Option String := none
  runtime : Option String := none
  dll : Option String := none
  retries : Option Nat := none
  /-- The pause between attempts, in milliseconds. -/
  gap : Option Nat := none
deriving DecidableEq, Repr

/-- What a command line asks for. -/
inductive Request where
  | run (options : Options) (command : Command)
  | version
  | help (page : Page)
  /-- The words are no command line of the probe. -/
  | misuse
deriving DecidableEq, Repr

/-! ### Words -/

/-- What a word is by its dashes. -/
inductive Shape where
  | plain
  /-- Two dashes alone: all words behind them are plain. -/
  | escape
  /-- A name after two dashes, with the text behind an equals sign. -/
  | long (name : String) (attached : Option String)
  /-- Letters after one dash; the first one decides. -/
  | short (letter : Char)
deriving DecidableEq, Repr

/-- The shape of a word with a name after two dashes. -/
def longShape (cs : List Char) : Shape :=
  let name := String.ofList (cs.takeWhile (· != '='))
  match cs.dropWhile (· != '=') with
  | [] => .long name none
  | _ :: value => .long name (some (String.ofList value))

def shape (word : String) : Shape :=
  match word.toList with
  | ['-', '-'] => .escape
  | '-' :: '-' :: rest => longShape rest
  | '-' :: letter :: _ => .short letter
  | _ => .plain

/-! ### Options -/

/-- An integer from zero to a limit, with an optional sign. -/
def bounded? (limit : Nat) (value : String) : Option Nat :=
  match Decimal.int64? value.toList with
  | some n => if 0 ≤ n.toInt ∧ n.toInt ≤ limit then some n.toInt.toNat else none
  | none => none

def path? (value : String) : Option String := if value.isEmpty then none else some value

/-- A field that is filled once, with a value that has to be there. -/
def fill {α : Type} (field value : Option α) : Option (Option α) :=
  match field, value with
  | none, some a => some (some a)
  | _, _ => none

namespace Options

/-- The options with one more; `none` if there is no such option, if it was given before, or if the
value does not suit it. -/
def assign (o : Options) (name value : String) : Option Options :=
  match name with
  | "host" => (fill o.host (some value)).map ({ o with host := · })
  | "port" =>
    (fill o.port ((bounded? 0xffff value).map UInt16.ofNat)).map ({ o with port := · })
  | "server" => (fill o.server (path? value)).map ({ o with server := · })
  | "runtime" => (fill o.runtime (some value)).map ({ o with runtime := · })
  | "dll" => (fill o.dll (path? value)).map ({ o with dll := · })
  | "retries" => (fill o.retries (bounded? 0xffffffff value)).map ({ o with retries := · })
  | "retry-gap-ms" =>
    (fill o.gap (Decimal.natural? 0xffffffffffffffff value.toList)).map ({ o with gap := · })
  | _ => none

/-- Whether what describes a server comes with the server. -/
def isComplete (o : Options) : Bool := o.server.isSome || (o.runtime.isNone && o.dll.isNone)

/-- The configuration with the options laid over it. A named server replaces the whole
specification. -/
def overlay (o : Options) (c : Config) : Config :=
  { c with
    host := o.host.getD c.host
    port := o.port.getD c.port
    retry := { retries := o.retries.getD c.retry.retries, gap := o.gap.getD c.retry.gap }
    server := match o.server with
      | some server => some { server, runtime := o.runtime, dll := o.dll }
      | none => c.server }

end Options

/-! ### Commands -/

/-- The most operands that a command takes, of so many words. -/
def capacity (name : String) (words : Nat) : Nat :=
  if (parametersOf name).any (·.repeated) then words else (parametersOf name).length

def Command.ofWords? : String → List String → Option Command
  | "template", [className] => some (.template className)
  | "call", className :: method :: args => some (.call className method args)
  | "ctor", [expression] => some (.construct expression)
  | "info", [] => some .info
  | _, _ => none

/-- The words behind the name of a command. -/
inductive Operands where
  | words (ws : List String)
  | help
  | misuse
deriving DecidableEq, Repr

/-- Reads words of which at most `room` may be operands. -/
def operands : Nat → List String → Operands
  | _, [] => .words []
  | room, word :: rest =>
    match shape word with
    | .plain =>
      match room with
      | 0 => .misuse
      | room + 1 =>
        match operands room rest with
        | .words ws => .words (word :: ws)
        | other => other
    | .escape => .words rest
    | .long name attached => if name = "help" ∧ attached = none then .help else .misuse
    | .short letter => if letter = 'h' then .help else .misuse

/-- Reads the words behind the name of a command. -/
def readCommand (o : Options) (name : String) (words : List String) : Request :=
  match operands (capacity name words.length) words with
  | .help => .help (.ofCommand name)
  | .misuse => .misuse
  | .words ws =>
    match Command.ofWords? name ws with
    | some command => if o.isComplete then .run o command else .misuse
    | none => .misuse

/-- Reads the words behind the command that explains commands. -/
def readHelp : List String → Request
  | [] => .help .ofProbe
  | [name] => if commandNames.contains name ∨ name = "help" then .help (.ofCommand name) else .misuse
  | _ => .misuse

def readFrom (o : Options) : List String → Request
  | [] => .misuse
  | word :: rest =>
    match shape word with
    | .plain =>
      if commandNames.contains word then readCommand o word rest
      else if word = "help" then readHelp rest
      else .misuse
    | .escape => .misuse
    | .short letter => if letter = 'V' then .version else if letter = 'h' then .help .ofProbe else .misuse
    | .long name (some value) =>
      match o.assign name value with
      | some o => readFrom o rest
      | none => .misuse
    | .long name none =>
      if name = "version" then .version
      else if name = "help" then .help .ofProbe
      else
        match rest with
        | [] => .misuse
        | value :: rest =>
          match shape value, o.assign name value with
          | .plain, some o => readFrom o rest
          | _, _ => .misuse

def Request.ofWords (words : List String) : Request := readFrom {} words

end ObjectBridge.Probe
