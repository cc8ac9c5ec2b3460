import ObjectBridge.Decimal.Reading
import ObjectBridge.Dial
import ObjectBridge.Text.Blank
import ObjectBridge.Text.Suffix

/-!
# Configuration

Where a session connects to, how patiently, and how the companion server is started when nobody
listens. Environment variables lie over a given configuration. The command line of the server is made
from its specification and the address that it has to serve.
-/

namespace ObjectBridge

/-- How to start the companion server. -/
structure ServerSpec where
  /-- The program, or what the runtime has to run. -/
  server : String
  /-- The program that runs the server. -/
  runtime : Option String := none
  /-- The library that the server loads first. -/
  dll : Option String := none
  args : List String := []
deriving DecidableEq, Repr

namespace ServerSpec

/-- The part of a path behind its last slash. -/
def lastComponent (path : String) : String := Text.behindLast '/' path

/-- The options that a runtime needs for itself. -/
def runtimeFlags (runtime : String) : List String :=
  if lastComponent runtime = "mono" then ["--llvm"] else []

/-- A runtime gets a flag exactly if its program is called mono, in whatever directory it is. -/
theorem mem_runtimeFlags {runtime flag : String} : flag ∈ runtimeFlags runtime ↔
    flag = "--llvm" ∧ (runtime = "mono" ∨ ∃ directory, runtime = directory ++ "/mono") := by
  have hmono : lastComponent runtime = "mono" ↔
      runtime = "mono" ∨ ∃ directory, runtime = directory ++ "/mono" :=
    Text.behindLast_eq_iff.trans (and_iff_right (by decide))
  rw [← hmono, runtimeFlags]
  split
  · rename_i hname
    simp only [List.mem_singleton, hname, and_true]
  · rename_i hname
    simp only [List.not_mem_nil, hname, and_false]

/-- The program that starts the server, and its arguments. -/
def commandLine (spec : ServerSpec) (url : String) : String × List String :=
  let (program, leading) := match spec.runtime with
    | some runtime => (runtime, runtimeFlags runtime ++ [spec.server])
    | none => (spec.server, [])
  let library := match spec.dll with
    | some dll => ["-dll", dll]
    | none => []
  (program, leading ++ ["-url", url] ++ library ++ spec.args)

/-- What stands behind the first `-url` is the address, whatever arguments of its own the server is given. Only a
server that a runtime runs and that has this very name would be taken for the option. -/
theorem commandLine_address (spec : ServerSpec) (url : String)
    (h : spec.runtime = none ∨ spec.server ≠ "-url") :
    ∃ leading rest, (spec.commandLine url).2 = leading ++ "-url" :: url :: (rest ++ spec.args) ∧
      "-url" ∉ leading := by
  unfold commandLine
  cases hruntime : spec.runtime with
  | none => exact ⟨[], _, rfl, List.not_mem_nil⟩
  | some runtime =>
    have hserver : spec.server ≠ "-url" := h.resolve_left (by rw [hruntime]; nofun)
    refine ⟨runtimeFlags runtime ++ [spec.server], match spec.dll with
      | some dll => ["-dll", dll]
      | none => [], ?_, fun hmem => ?_⟩
    · simp only [List.append_assoc, List.cons_append, List.nil_append]
    · rcases List.mem_append.mp hmem with hflag | hname
      · exact absurd (mem_runtimeFlags.mp hflag).1 (by decide)
      · exact hserver (List.mem_singleton.mp hname).symm

end ServerSpec

/-- The settings of a session. -/
structure Config where
  host : String := "localhost"
  port : UInt16 := 56789
  retry : RetryPolicy := {}
  server : Option ServerSpec := none
  /-- The class whose static method evaluates constructor expressions. -/
  creatorClass : String := "bridge.common.reflection.Creator"
deriving DecidableEq, Repr

namespace Config

def localHost : String := "localhost"

def effectiveHost (c : Config) : String := if c.host.isEmpty then localHost else c.host

def address (c : Config) : String := s!"{c.effectiveHost}:{c.port.toNat}"

/-- The address that a started server has to serve. -/
def serviceUrl (c : Config) : String := s!"svc://{c.address}"

/-- The number in a variable; white space around it does not count. -/
def numberOf (name value : String) (limit : Nat) : Except Fault Nat :=
  match Decimal.natural? limit (Text.trimBlank value.toList) with
  | some n => .ok n
  | none => .error (.config (.notANumber name value))

/-- The number in a variable, if the variable is set. -/
def number? (lookup : String → Option String) (name : String) (limit : Nat) :
    Except Fault (Option Nat) :=
  match lookup name with
  | some value => (numberOf name value limit).map some
  | none => .ok none

/-- The text of a variable, if the variable is set and not empty. -/
def text? (lookup : String → Option String) (name : String) : Option String :=
  (lookup name).filter fun value => !value.isEmpty

/-- A server specification with the runtime and the library that the environment names. -/
def overlaySpec (lookup : String → Option String) (spec : ServerSpec) : ServerSpec :=
  { spec with
    runtime := text? lookup "CLRBRIDGE_RUNTIME" <|> spec.runtime
    dll := text? lookup "CLRBRIDGE_DLL" <|> spec.dll }

/-- The configuration with the environment laid over it. A named server replaces the whole
specification; a runtime or a library changes only a specification that is there. -/
def overlay (c : Config) (lookup : String → Option String) : Except Fault Config := do
  let port ← number? lookup "CLRBRIDGE_PORT" 0xffff
  let retries ← number? lookup "CLRBRIDGE_RETRIES" 0xffffffff
  let gap ← number? lookup "CLRBRIDGE_RETRY_GAP_MS" 0xffffffffffffffff
  let named : Option ServerSpec :=
    (text? lookup "CLRBRIDGE_SERVER").map fun program => { server := program }
  return { c with
    host := (text? lookup "CLRBRIDGE_HOST").getD c.host
    port := (port.map UInt16.ofNat).getD c.port
    retry := { retries := retries.getD c.retry.retries, gap := gap.getD c.retry.gap }
    server := (named <|> c.server).map (overlaySpec lookup) }

end Config

end ObjectBridge
