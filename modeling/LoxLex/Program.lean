import LoxLex.CommandLine.Parse
import LoxLex.Run

namespace LoxLex.Program

open Run

def version : Text := "0.1.0".toList

def license : Text := "MIT".toList

/-- Whether the program is called and returns its status, or is a process of its
own and exits with it. -/
inductive Invocation where
  | called
  | process
deriving DecidableEq, Repr

/-- The channel that the program's own records go to. -/
def Invocation.channel : Invocation → Text
  | .called => Log.channel "lox.cli".toList
  | .process => Log.channel "__main__".toList

/-- What the program finds around it: the disk, the text to read at the prompt, and
the number of reads after which it is interrupted. -/
structure Surroundings where
  disk : Disk
  input : Text := []
  limit : Option Nat := none

def settingsOf (options : CommandLine.Options) : Settings where
  printTokens := .bool !options.noTokens
  logLevel := .text (if options.verbose then "DEBUG".toList else "WARNING".toList)

def tooManyScripts : Text := "Usage: lox [script]\n".toList

def untilInterrupted (action : Action Status) : Action Status := fun console =>
  match action console with
  | .error .interrupted after => (do writeText .err ['\n']; return .success : Action Status) after
  | other => other

def action (invocation : Invocation) (around : Surroundings) (options : CommandLine.Options) :
    Action Status :=
  match options.scripts with
  | [] => untilInterrupted (runPrompt (settingsOf options) around.limit around.input)
  | [path] => untilInterrupted (runFile invocation.channel around.disk (settingsOf options) path)
  | _ => do
    writeText .err tooManyScripts
    return .usage

inductive Finish where
  | returned (status : Nat)
  | exited (status : Nat)
deriving DecidableEq, Repr

def Finish.code : Finish → Nat
  | .returned status => status
  | .exited status => status

def Invocation.finish : Invocation → Status → Finish
  | .called, status => .returned status.code
  | .process, status => .exited status.code

/-- How the program went: the streams, and its end or what escaped from it. -/
structure Ending where
  transcript : List (Stream × Text)
  result : Except Escape Finish

def run (invocation : Invocation) (around : Surroundings) (arguments : List Text) : Ending :=
  match CommandLine.parse arguments with
  | .error .help => ⟨[(.out, CommandLine.helpText)], .ok (.exited 0)⟩
  | .error (.usage error) => ⟨[(.err, error.report)], .ok (.exited 2)⟩
  | .ok options =>
    let went := outcome (action invocation around options)
    ⟨transcript options.verbose went.written, went.result.map invocation.finish⟩

end LoxLex.Program
