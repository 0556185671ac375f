import LoxLex.Program

namespace LoxLex.Main

open Run

def errorCode (code : UInt32) : Nat :=
  if code.toNat < Nat.pow 2 31 then code.toNat else Nat.pow 2 32 - code.toNat

def openError : IO.Error → Files.OpenError
  | .noFileOrDirectory _ code details
  | .permissionDenied _ code details
  | .inappropriateType _ code details
  | .invalidArgument _ code details
  | .resourceExhausted _ code details
  | .noSuchThing _ code details
  | .otherError code details => .ofCode (errorCode code) details.toList
  | error => .other 0 (toString error).toList

def readDisk (path : Text) : IO (Except Files.OpenError (List UInt8)) := do
  try
    let bytes ← IO.FS.readBinFile (String.ofList path)
    return .ok bytes.toList
  catch error => return .error (openError error)

def put (chunk : Stream × Text) : IO Unit := do
  let target ← match chunk.1 with
    | .out => IO.getStdout
    | .err => IO.getStderr
  target.putStr (String.ofList chunk.2)
  target.flush

/-- Carries out an action and shows what it writes. -/
def perform {α : Type} (verbose : Bool) (console : Console) (action : Action α) :
    IO (Option α × Console) := do
  let (value, after) := match action { console with written := [] } with
    | .ok value after => (some value, after)
    | .error _ after => (none, after)
  (transcript verbose after.written.reverse).forM put
  return (value, after)

partial def promptLoop (verbose : Bool) (settings : Settings) (console : Console) : IO Status := do
  let (_, console) ← perform verbose console (writePrompt settings)
  let line ← (← IO.getStdin).getLine
  if line.isEmpty then
    let (status, _) ← perform verbose console (do
      writeText .out ['\n']
      promptStatus)
    return status.getD .success
  else
    let (_, console) ← perform verbose console (answerLine settings line.toList)
    promptLoop verbose settings console

/-- Runs the program on arguments that ask for no prompt. -/
def runOnce (arguments scripts : List Text) : IO UInt32 := do
  let contents ← match scripts with
    | [path] => readDisk path
    | _ => pure (.error .notFound)
  let ending := Program.run .process { disk := fun _ => contents } arguments
  ending.transcript.forM put
  match ending.result with
  | .ok finish => return UInt32.ofNat finish.code
  | .error escape =>
    put (.err, escape.message ++ ['\n'])
    return 1

end LoxLex.Main

def main (arguments : List String) : IO UInt32 := do
  let arguments := arguments.map String.toList
  match LoxLex.CommandLine.parse arguments with
  | .ok { scripts := [], verbose, noTokens } =>
    let settings := LoxLex.Program.settingsOf { scripts := [], verbose, noTokens }
    let status ← LoxLex.Main.promptLoop verbose settings {}
    return UInt32.ofNat status.code
  | .ok options => LoxLex.Main.runOnce arguments options.scripts
  | .error _ => LoxLex.Main.runOnce arguments []
