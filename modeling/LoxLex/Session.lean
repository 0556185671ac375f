import LoxLex.Cursor
import LoxLex.Reporter

/-! Sessions of reporters, recorders and scanners.

A session holds objects and the names given to them.  A scanner has a source, which
can be replaced, the sink that its scans report to, and the cursor that they move;
several scanners may share one sink.  A name given again means the new object from then
on, while scanners keep the sink they were made with.
-/

namespace LoxLex

/-- An object is known by its place in the session. -/
abbrev Handle := Nat

/-- What a scanner has beside its source.  The cursor is where its last scan left it. -/
structure ScannerState where
  sink : Handle
  cursor : Cursor := {}
deriving DecidableEq, Repr

inductive Object where
  | reporter (reporter : Reporter)
  | recorder (recorder : Recorder)
  | scanner (source : Text) (state : ScannerState)
deriving DecidableEq, Repr

namespace Object

def isSink : Object → Bool
  | reporter _ | recorder _ => true
  | scanner _ _ => false

/-- What an object becomes of a report.  A scanner is no sink and stays as it is. -/
def sink : Sink Refusal Object := fun report object =>
  match object with
  | reporter state => .ok () (reporter (state.add report))
  | recorder state =>
    match Recorder.sink report state with
    | .ok _ after => .ok () (recorder after)
    | .error refusal after => .error refusal (recorder after)
  | scanner source state => .ok () (scanner source state)

/-- What is logged of a report that an object has taken. -/
def records (report : Report) : Object → List Log.Record
  | reporter _ => [(Diagnostic.ofReport report).record]
  | recorder _ | scanner _ _ => []

end Object

/-- The objects in the order in which they were made, and the names and the log of
the current operation with the latest first. -/
structure Session where
  objects : Array Object := #[]
  names : List (Text × Handle) := []
  log : List Log.Record := []

inductive Operation where
  | makeReporter (name : Text) (hasStream : Bool)
  | makeRecorder (name : Text) (failOn : Option Nat)
  | makeScanner (name : Text) (source : Text) (sink : Option Text)
  | setSource (name : Text) (source : Text)
  | scan (name : Text)
  | scanText (sink : Text) (source : Text)
  | report (sink : Text) (report : Report)
  | reset (name : Text)
  | look (name : Text)
deriving DecidableEq, Repr

/-- What an operation answers.  The object in an answer is a sink as it is then. -/
inductive Answer where
  | sink (state : Object)
  | scanner (source : Text) (sink : Object)
  | source (source : Text)
  | scanned (tokens : List Token) (sink : Object)
  | scanRefused (refusal : Refusal) (sink : Object)
  | reportRefused (refusal : Refusal) (sink : Object)
  | unknown
deriving DecidableEq, Repr

namespace Session

def handle? (session : Session) (name : Text) : Option Handle := session.names.lookup name

def object? (session : Session) (handle : Handle) : Option Object := session.objects[handle]?

def setObject (session : Session) (handle : Handle) (object : Object) : Session :=
  { session with objects := session.objects.setIfInBounds handle object }

def logAll (session : Session) (entries : List Log.Record) : Session :=
  { session with log := entries.reverse ++ session.log }

/-- Adds an object without a name. -/
def push (session : Session) (object : Object) : Session :=
  { session with objects := session.objects.push object }

def make (session : Session) (name : Text) (object : Object) : Session :=
  { session.push object with names := (name, session.objects.size) :: session.names }

/-- The handle that a name means, if there is a sink behind it. -/
def sinkHandle? (session : Session) (name : Text) : Option Handle := do
  let handle ← session.handle? name
  if (session.object? handle).any Object.isSink then return handle else none

/-- Sends reports to the object behind a handle, and logs those that it takes. -/
def sink (handle : Handle) : Sink Refusal Session := fun report session =>
  match session.object? handle with
  | none => .ok () session
  | some object =>
    match object.sink report with
    | .ok _ after => .ok () ((session.setObject handle after).logAll (object.records report))
    | .error refusal after => .error refusal (session.setObject handle after)

def answering (session : Session) (handle : Handle) (answer : Object → Answer) :
    Option (Session × Answer) := do
  let object ← session.object? handle
  return (session, answer object)

/-- A session in which the cursor of a scanner has been moved. -/
def moved (session : Session) (handle : Handle) (source : Text) (state : ScannerState)
    (cursor : Cursor) : Session :=
  session.setObject handle (.scanner source { state with cursor })

/-- Scans with the scanner behind a handle.  The end of a scan is logged. -/
def answerScan (session : Session) (handle : Handle) : Option (Session × Answer) := do
  let .scanner source state ← session.object? handle | none
  match Cursor.scan (sink state.sink) source (state.cursor, session) with
  | .ok tokens (cursor, after) =>
    ((after.moved handle source state cursor).logAll [scannedRecord tokens]).answering
      state.sink (.scanned tokens)
  | .error refusal (cursor, after) =>
    (after.moved handle source state cursor).answering state.sink (.scanRefused refusal)

def answerReport (session : Session) (handle : Handle) (report : Report) :
    Option (Session × Answer) :=
  match sink handle report session with
  | .ok () after => after.answering handle .sink
  | .error refusal after => after.answering handle (.reportRefused refusal)

def answerSink (session : Session) (name : Text) (object : Object) : Option (Session × Answer) :=
  (session.make name object).answering session.objects.size .sink

def answerScanner (session : Session) (name source : Text) (sink : Handle) :
    Option (Session × Answer) :=
  (session.make name (.scanner source { sink })).answering sink (.scanner source)

/-- Carries out an operation.  There is no result if a name means nothing, or an
object of another sort than the operation is for.  A text is scanned by a scanner that
is made for it and has no name. -/
def carryOut? (session : Session) : Operation → Option (Session × Answer)
  | .makeReporter name hasStream =>
    session.answerSink name (.reporter { echoes := if hasStream then some [] else none })
  | .makeRecorder name failOn => session.answerSink name (.recorder { failOn := failOn })
  | .makeScanner name source none =>
    (session.push (.reporter {})).answerScanner name source session.objects.size
  | .makeScanner name source (some sinkName) => do
    session.answerScanner name source (← session.sinkHandle? sinkName)
  | .setSource name source => do
    let handle ← session.handle? name
    let .scanner _ state ← session.object? handle | none
    return (session.setObject handle (.scanner source state), .source source)
  | .scan name => do session.answerScan (← session.handle? name)
  | .scanText sinkName source => do
    let sink ← session.sinkHandle? sinkName
    (session.push (.scanner source { sink })).answerScan session.objects.size
  | .report sinkName report => do
    session.answerReport (← session.sinkHandle? sinkName) report
  | .reset name => do
    let handle ← session.handle? name
    let .reporter reporter ← session.object? handle | none
    (session.setObject handle (.reporter reporter.reset)).answering handle .sink
  | .look name => do
    session.answering (← session.handle? name) .sink

def cleared (session : Session) : Session := { session with log := [] }

/-- Carries out an operation: the session after it, the answer, and what was logged. -/
def perform (session : Session) (operation : Operation) : Session × Answer × List Log.Record :=
  let (after, answer) := (session.cleared.carryOut? operation).getD (session.cleared, .unknown)
  (after.cleared, answer, after.log.reverse)

def run (session : Session) : List Operation → List (Answer × List Log.Record)
  | [] => []
  | operation :: rest =>
    let (after, answer, logged) := session.perform operation
    (answer, logged) :: after.run rest

end Session

end LoxLex
