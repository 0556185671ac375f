import LoxLex.CommandLine.Reading

/-! From arguments to the options of a run.

The operands are one contiguous group: the first operands that stand together.
Operands behind it and unknown options are left over, and arguments with leftovers
are refused.  Help is given as soon as its option is met, before later faults.

Letters behind a single dash are flags for as long as they name options, also behind an
equals sign, and the rest is a value that is refused.  This is the older of two conventions.
The newer one refuses all letters behind an equals sign, and leaves over the letters that name
no option; whatever options it gives, this one gives them too.
-/

namespace LoxLex.CommandLine

structure Options where
  verbose : Bool := false
  noTokens : Bool := false
  scripts : List Text := []
deriving DecidableEq, Repr

/-- Whether the group of operands is still to come, is being read, or has ended. -/
inductive Group where
  | awaited
  | gathered
  | ended
deriving DecidableEq, Repr

/-- What the arguments read so far ask for, and what they left over. -/
structure Progress where
  options : Options := {}
  group : Group := .awaited
  leftovers : List Text := []
deriving DecidableEq, Repr

/-- Single-letter options written together behind one dash. -/
def cluster (flag : Flag) : Text → Except UsageError (List Flag)
  | [] => .ok [flag]
  | c :: rest =>
    match Flag.spelled? ['-', c] with
    | some next => (cluster next rest).map (flag :: ·)
    | none => .error (.ignoredValue flag (c :: rest))

/-- The flags of an option.  None of them takes a value, but behind a single dash
the value may be further flags. -/
def flagsOf (flag : Flag) (isShort : Bool) : Option Text → Except UsageError (List Flag)
  | none => .ok [flag]
  | some value =>
    if isShort && !value.isEmpty then cluster flag value else .error (.ignoredValue flag value)

def applyFlag (options : Options) : Flag → Except Stop Options
  | .help => .error .help
  | .verbose => .ok { options with verbose := true }
  | .noTokens => .ok { options with noTokens := true }

namespace Progress

def endGroup (progress : Progress) : Progress :=
  if progress.group = .gathered then { progress with group := .ended } else progress

def leave (progress : Progress) (argument : Text) : Progress :=
  { progress with leftovers := progress.leftovers ++ [argument] }

/-- Takes an argument into the group of operands, or leaves it over. -/
def takeOperand (progress : Progress) (argument : Text) : Progress :=
  if progress.group = .ended then progress.leave argument
  else { progress with
    group := .gathered
    options := { progress.options with scripts := progress.options.scripts ++ [argument] } }

/-- Drops the separator from the group of operands, or leaves it over. -/
def takeSeparator (progress : Progress) (argument : Text) : Progress :=
  if progress.group = .ended then progress.leave argument
  else { progress with group := .gathered }

def advance (progress : Progress) (argument : Text) : Reading → Except Stop Progress
  | .operand => .ok (progress.takeOperand argument)
  | .separator => .ok (progress.takeSeparator argument)
  | .unknown => .ok (progress.endGroup.leave argument)
  | .option flag isShort value => do
    let flags ← (flagsOf flag isShort value).mapError .usage
    let options ← flags.foldlM applyFlag progress.options
    return { progress.endGroup with options := options }

end Progress

def parse (arguments : List Text) : Except Stop Options := do
  let readings ← (readAll arguments).mapError .usage
  let progress ← readings.foldlM (fun progress (argument, reading) =>
    progress.advance argument reading) ({} : Progress)
  if progress.leftovers.isEmpty then return progress.options
  else throw (.usage (.unrecognized progress.leftovers))

end LoxLex.CommandLine
