/-!
# Help

What help tells of the probe and of each of its commands, and one way to lay it out (`Page.inColumns`).
-/

namespace ObjectBridge.Probe

/-- An operand of a command. Any number of words may stand for one that is repeated. -/
structure Parameter where
  name : String
  repeated : Bool := false
  about : String := ""
deriving DecidableEq, Repr

/-- A page of help. That of a command has its name. -/
structure Page where
  command : Option String := none
  about : String
  parameters : List Parameter := []
  /-- The options, each with what it is for. -/
  options : List (String × String) := []
  /-- The commands, each with what it does. -/
  commands : List (String × String) := []
deriving DecidableEq, Repr

def commandNames : List String := ["template", "call", "ctor", "info"]

def parametersOf (name : String) : List Parameter :=
  match name with
  | "template" => [{ name := "class" }]
  | "call" => [{ name := "class" }, { name := "method" }, { name := "args", repeated := true }]
  | "ctor" => [{ name := "expr" }]
  | "help" => [{ name := "command", repeated := true, about := "Print help for the subcommand(s)" }]
  | _ => []

def aboutCommand (name : String) : String :=
  match name with
  | "template" => "Print the member template of a class"
  | "call" => "Call a static method; arguments are literals (null, true, 42, 1.5, text, s:42)"
  | "ctor" => "Evaluate a constructor expression such as \"Point(3, 4)\""
  | "info" => "Print wire-contract information for the connected server"
  | "help" => "Print this message or the help of the given subcommand(s)"
  | _ => ""

def aboutOptions : List (String × String) :=
  [("host", "Bridge server host [default: $CLRBRIDGE_HOST or localhost]"),
    ("port", "Bridge server port [default: $CLRBRIDGE_PORT or 56789]"),
    ("server", "Server executable to launch if nothing is listening"),
    ("runtime", "Host program for the server (e.g. mono)"),
    ("dll", "Assembly for a launched server to preload"),
    ("retries", "Connection attempts before giving up"),
    ("retry-gap-ms", "Milliseconds between connection attempts")]

def Page.ofProbe : Page where
  about := "Probe a CLR bridge server"
  options := aboutOptions
  commands := (commandNames ++ ["help"]).map fun name => (name, aboutCommand name)

def Page.ofCommand (name : String) : Page where
  command := some name
  about := aboutCommand name
  parameters := parametersOf name

/-! ### A layout -/

def Parameter.shown (p : Parameter) : String :=
  if p.repeated then s!"[{p.name.toUpper}]..." else s!"<{p.name.toUpper}>"

/-- An option takes a value, which is named after it. -/
def shownOption (name : String) : String :=
  let value := (name.replace "-" "_").toUpper
  s!"    --{name} <{value}>"

/-- Two columns under a title, or nothing if there are no rows. -/
def columns (title : String) (rows : List (String × String)) : String :=
  let width := (rows.map (·.1.length)).foldl max 0
  let line (row : String × String) : String :=
    let gap := String.ofList (List.replicate (width + 2 - row.1.length) ' ')
    s!"  {row.1}{gap}{row.2}\n"
  if rows.isEmpty then "" else s!"\n{title}:\n" ++ String.join (rows.map line)

def Page.usage (page : Page) : String :=
  match page.command with
  | some name => " ".intercalate (name :: page.parameters.map Parameter.shown)
  | none => "[OPTIONS] <COMMAND>"

/-- The options that ask for help and for the version. -/
def Page.ending (page : Page) : List (String × String) :=
  match page.command with
  | some "help" => []
  | some _ => [("-h, --help", "Print help")]
  | none => [("-h, --help", "Print help"), ("-V, --version", "Print version")]

def Page.inColumns (page : Page) : String :=
  let parameters := page.parameters.map fun p => (p.shown, p.about)
  let options := page.options.map fun (name, what) => (shownOption name, what)
  s!"{page.about}\n\nUsage: clr-probe {page.usage}\n" ++ columns "Commands" page.commands ++
    columns "Arguments" parameters ++ columns "Options" (options ++ page.ending)

end ObjectBridge.Probe
