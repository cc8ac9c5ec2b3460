import ObjectBridge.Fault

/-!
# Dialling

Connecting takes several attempts. Only a refused connection is tried again: the first refusal runs
the start hook, if there is one, and every other refusal waits. Any other failure, or a refusal of the
last attempt, ends the dialling.
-/

namespace ObjectBridge

/-- How often and how patiently to connect. -/
structure RetryPolicy where
  /-- The number of attempts; at least one is always made. -/
  retries : Nat := 5
  /-- The pause after a refusal, in milliseconds. -/
  gap : Nat := 2000
deriving DecidableEq, Repr

namespace RetryPolicy

def once : RetryPolicy := ⟨1, 0⟩

/-- The number of attempts that are made at most. -/
def attempts (p : RetryPolicy) : Nat := max p.retries 1

end RetryPolicy

/-- What is done while dialling. -/
inductive DialEvent where
  | attempt (n : Nat)
  | startHook
  | pause (milliseconds : Nat)
deriving DecidableEq, Repr

/-- What was done while dialling, in order, and how it ended. -/
structure Dialled (α : Type) where
  events : List DialEvent
  result : Except Fault α

namespace Dialled

variable {α : Type}

def after (e : DialEvent) (d : Dialled α) : Dialled α := { d with events := e :: d.events }

end Dialled

/-- Makes the attempts from number `n` on, of which there are `left`; the one with number `last` is not
tried again. If none of them ended the dialling, it would come to `exhausted`. -/
def dialFrom {α : Type} (gap : Nat) (address : String) (attempt : Nat → Except IoError α)
    (hook : Option (Except Fault Unit)) (last : Nat) (exhausted : Fault) (n : Nat) : Nat → Dialled α
  | 0 => ⟨[], .error exhausted⟩
  | left + 1 =>
    .after (.attempt n) <|
      match attempt n with
      | .ok connection => ⟨[], .ok connection⟩
      | .error cause =>
        if cause.kind ≠ .connectionRefused ∨ n = last then
          ⟨[], .error (.connectFailed address n cause)⟩
        else
          match hook with
          | some (.error fault) => ⟨[.startHook], .error fault⟩
          | some (.ok ()) =>
            .after .startHook (dialFrom gap address attempt none last exhausted (n + 1) left)
          | none =>
            .after (.pause gap) (dialFrom gap address attempt none last exhausted (n + 1) left)

/-- Dials an address. `attempt n` is what the attempt with number `n` comes to, `hook` what the start
hook comes to. -/
def dial {α : Type} (policy : RetryPolicy) (address : String) (attempt : Nat → Except IoError α)
    (hook : Option (Except Fault Unit)) : Dialled α :=
  let last := policy.attempts
  dialFrom policy.gap address attempt hook last
    (.connectFailed address last { kind := .connectionRefused }) 1 last

end ObjectBridge
