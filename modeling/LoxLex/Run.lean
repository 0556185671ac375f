import LoxLex.Files.Scan
import LoxLex.Settings

/-! Runs over a source text, a file, or the lines of an interactive prompt.

A run has a console: the diagnostics since the last reset, and what was written so
far.  Each report is logged and echoed on the error stream as soon as it is made;
tokens are listed on the output stream when a scan has come to its end.
-/

namespace LoxLex.Run

inductive Stream where
  | out
  | err
deriving DecidableEq, Repr

inductive Entry where
  | text (stream : Stream) (content : Text)
  | log (entry : Log.Record)
deriving DecidableEq, Repr

def Entry.shown (verbose : Bool) : Entry → Stream × Text
  | .text stream content => (stream, content)
  | .log entry => (.err, if verbose then entry.line ++ ['\n'] else [])

def joinChunk (chunk : Stream × Text) (rest : List (Stream × Text)) : List (Stream × Text) :=
  if chunk.2 = [] then rest
  else match rest with
    | [] => [chunk]
    | next :: more =>
      if chunk.1 = next.1 then (chunk.1, chunk.2 ++ next.2) :: more else chunk :: next :: more

/-- What becomes of entries on the streams.  Neighbouring texts of one stream are one text there,
and no text is empty. -/
def transcript (verbose : Bool) (entries : List Entry) : List (Stream × Text) :=
  (entries.map (Entry.shown verbose)).foldr joinChunk []

def streamText (verbose : Bool) (stream : Stream) (entries : List Entry) : Text :=
  (entries.map (Entry.shown verbose)).flatMap fun chunk =>
    if chunk.1 = stream then chunk.2 else []

inductive Status where
  | success
  | usage
  | dataError
  | noInput
deriving DecidableEq, Repr

namespace Status

def all : List Status := [success, usage, dataError, noInput]

def code : Status → Nat
  | success => 0
  | usage => 64
  | dataError => 65
  | noInput => 66

end Status

/-- What stops a run before it has a status. -/
inductive Escape where
  | interrupted
  | nulInPath
  | malformed (fault : Utf8.Fault)
deriving DecidableEq, Repr

def Escape.message : Escape → Text
  | interrupted => []
  | nulInPath => nulInPathMessage
  | malformed fault => fault.message

/-- Diagnostics since the last reset and the entries written, the latest first in both. -/
structure Console where
  errors : List Diagnostic := []
  written : List Entry := []
deriving DecidableEq, Repr

abbrev Action (α : Type) := EStateM Escape Console α

def write (entry : Entry) : Action Unit :=
  modify fun console => { console with written := entry :: console.written }

def writeText (stream : Stream) (text : Text) : Action Unit := write (.text stream text)

def writeLog (entry : Log.Record) : Action Unit := write (.log entry)

def report : Sink Escape Console := fun report => do
  let diagnostic := Diagnostic.ofReport report
  modify fun console => { console with errors := diagnostic :: console.errors }
  writeLog diagnostic.record
  writeText .err diagnostic.echo

def forgetErrors : Action Unit := modify fun console => { console with errors := [] }

def listTokens (settings : Settings) (tokens : List Token) : Action Unit :=
  if settings.printTokens.truth then
    tokens.forM fun token => writeText .out (token.listing ++ ['\n'])
  else pure ()

def runSource (settings : Settings) (source : Text) : Action Unit := do
  let tokens ← scanInto report source
  writeLog (scannedRecord tokens)
  listTokens settings tokens

def fileRecord (channel path : Text) (errors : Nat) : Log.Record where
  level := .info
  channel := channel
  message := path ++ ": ".toList ++ Text.ofNat errors ++ " lexical error(s)".toList

/-- What is shown of a path that cannot be read: the reason, or the whole error where there
is no reason. -/
def unreadable (path : Text) (reason : Files.OpenError) : Text :=
  "Cannot read ".toList ++ path ++ ": ".toList ++
    (if reason.reason = [] then (LoadError.refused reason).message path else reason.reason) ++
    ['\n']

/-- Scans the file at a path and lists its tokens.  The channel is that of the
record for a file with errors. -/
def runFile (channel : Text) (disk : Disk) (settings : Settings) (path : Text) : Action Status := do
  match disk.load path with
  | .error (.refused reason) =>
    writeText .err (unreadable path reason)
    return .noInput
  | .error .nulInPath => throw .nulInPath
  | .error (.malformed fault) => throw (.malformed fault)
  | .ok source =>
    runSource settings source
    let errors := (← get).errors
    if errors.isEmpty then return .success
    else
      writeLog (fileRecord channel path errors.length)
      return .dataError

def writePrompt (settings : Settings) : Action Unit := writeText .out settings.prompt.plain

def answerLine (settings : Settings) (line : Text) : Action Unit := do
  runSource settings line
  if settings.resetErrorsPerLine.truth then forgetErrors

/-- Prompts for lines until there are no more.  With a limit on reads, the read
behind that many lines is interrupted. -/
def promptLines (settings : Settings) (limit : Option Nat) (lines : List Text) : Action Unit := do
  writePrompt settings
  if limit = some 0 then throw .interrupted
  match lines with
  | [] => writeText .out ['\n']
  | line :: rest =>
    answerLine settings line
    promptLines settings (limit.map (· - 1)) rest

/-- The status at the end of the lines: errors count if they were kept. -/
def promptStatus : Action Status := do
  if (← get).errors.isEmpty then return .success else return .dataError

def runPrompt (settings : Settings) (limit : Option Nat) (input : Text) : Action Status := do
  promptLines settings limit (Text.lines input)
  promptStatus

structure Outcome (α : Type) where
  written : List Entry
  result : Except Escape α

def outcome {α : Type} (action : Action α) : Outcome α :=
  match action {} with
  | .ok value console => ⟨console.written.reverse, .ok value⟩
  | .error escape console => ⟨console.written.reverse, .error escape⟩

end LoxLex.Run
