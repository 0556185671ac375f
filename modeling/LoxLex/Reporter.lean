import LoxLex.Sink

namespace LoxLex

/-- Diagnostics since the last reset, and what was written to the stream if there is
one, the latest first in both. -/
structure Reporter where
  kept : List Diagnostic := []
  echoes : Option (List Text) := none
deriving DecidableEq, Repr

namespace Reporter

def errors (reporter : Reporter) : List Diagnostic := reporter.kept.reverse

def hadError (reporter : Reporter) : Bool := !reporter.kept.isEmpty

def stream (reporter : Reporter) : Option Text :=
  reporter.echoes.map fun echoes => echoes.reverse.flatten

def add (reporter : Reporter) (report : Report) : Reporter where
  kept := .ofReport report :: reporter.kept
  echoes := reporter.echoes.map ((Diagnostic.ofReport report).echo :: ·)

def reset (reporter : Reporter) : Reporter := { reporter with kept := [] }

/-- A reporter as a sink, which takes every report. -/
def sink {ε : Type} : Sink ε Reporter := fun report => modify (·.add report)

@[simp] theorem errors_add (reporter : Reporter) (report : Report) :
    (reporter.add report).errors = reporter.errors ++ [.ofReport report] := by
  simp [errors, add]

@[simp] theorem stream_add (reporter : Reporter) (report : Report) :
    (reporter.add report).stream =
      reporter.stream.map (· ++ (Diagnostic.ofReport report).echo) := by
  cases echoes : reporter.echoes <;> simp [stream, add, echoes]

@[simp] theorem errors_reset (reporter : Reporter) : reporter.reset.errors = [] := rfl

@[simp] theorem stream_reset (reporter : Reporter) : reporter.reset.stream = reporter.stream := rfl

theorem hadError_iff (reporter : Reporter) : reporter.hadError = true ↔ reporter.errors ≠ [] := by
  simp [hadError, errors]

end Reporter

/-- The refusal of a recorder, by the number of the call. -/
structure Refusal where
  call : Nat
deriving DecidableEq, Repr

def Refusal.message (refusal : Refusal) : Text :=
  "sink failed on report ".toList ++ Text.ofNat refusal.call

/-- The calls so far, the latest first, and the number of the call that is refused. -/
structure Recorder where
  received : List Report := []
  failOn : Option Nat := none
deriving DecidableEq, Repr

namespace Recorder

def calls (recorder : Recorder) : List Report := recorder.received.reverse

/-- Records a call, whether or not it is the one that is refused. -/
def add (recorder : Recorder) (report : Report) : Recorder :=
  { recorder with received := report :: recorder.received }

@[simp] theorem calls_add (recorder : Recorder) (report : Report) :
    (recorder.add report).calls = recorder.calls ++ [report] := by
  simp [calls, add]

/-- The refusal of the latest call, if that is the one to refuse. -/
def refusal? (recorder : Recorder) : Option Refusal :=
  if recorder.failOn = some recorder.received.length then some ⟨recorder.received.length⟩
  else none

def sink : Sink Refusal Recorder := fun report => do
  modify (·.add report)
  match (← get).refusal? with
  | some refusal => throw refusal
  | none => pure ()

end Recorder

end LoxLex
