import LoxLex.Proofs.Objects

namespace LoxLex.Session

/-- A scan of a source that reports to an object: what becomes of the object, the answer, and
what is logged.  A reporter takes every report, and so does a recorder unless the call that it
refuses is among them. -/
inductive ScanAnswer (source : Text) : Object → Object → Answer → List Log.Record → Prop
  | reporter (reporter : Reporter) :
    ScanAnswer source (.reporter reporter) (.reporter (reporter.hear (reports source)))
      (.scanned (tokens source) (.reporter (reporter.hear (reports source))))
      (logged (reports source) ++ [scannedRecord (tokens source)])
  | recorder {recorder : Recorder} (spared : ¬ recorder.RefusesWithin (reports source).length) :
    ScanAnswer source (.recorder recorder) (.recorder (recorder.hear (reports source)))
      (.scanned (tokens source) (.recorder (recorder.hear (reports source))))
      [scannedRecord (tokens source)]
  | refused {recorder : Recorder} {n : Nat} (due : recorder.failOn = some n)
      (later : recorder.calls.length < n)
      (within : n ≤ recorder.calls.length + (reports source).length) :
    ScanAnswer source (.recorder recorder)
      (.recorder (recorder.hear ((reports source).take (n - recorder.calls.length))))
      (.scanRefused ⟨n⟩
        (.recorder (recorder.hear ((reports source).take (n - recorder.calls.length))))) []

/-- The sink and its state decide what comes of a scan of a source. -/
theorem ScanAnswer.unique {source : Text} {old first second : Object} {one two : Answer}
    {front back : List Log.Record} (left : ScanAnswer source old first one front)
    (right : ScanAnswer source old second two back) :
    first = second ∧ one = two ∧ front = back := by
  cases left with
  | reporter reporter =>
      cases right
      exact ⟨rfl, rfl, rfl⟩
  | recorder spared =>
      cases right with
      | recorder _ => exact ⟨rfl, rfl, rfl⟩
      | refused due later within => exact absurd ⟨_, due, later, within⟩ spared
  | refused due later within =>
      cases right with
      | recorder spared => exact absurd ⟨_, due, later, within⟩ spared
      | refused due' _ _ =>
          cases due.symm.trans due'
          exact ⟨rfl, rfl, rfl⟩

/-- A session behind a scan: its sink is as the scan left it, and the cursor of the scanner has
been moved. -/
def afterScan (session : Session) (handle : Handle) (source : Text) (state : ScannerState)
    (sunk : Object) (cursor : Cursor) : Session :=
  (session.setObject state.sink sunk).moved handle source state cursor

section Scanning

variable {session : Session} {handle : Handle} {source : Text} {state : ScannerState}
  {old : Object}

theorem afterScan_sink (sunk : Object) (cursor : Cursor)
    (held : session.object? state.sink = some old) (apart : handle ≠ state.sink) :
    (session.afterScan handle source state sunk cursor).object? state.sink = some sunk :=
  (object?_setObject_other apart.symm).trans (object?_setObject_self held)

theorem afterScan_scanner (sunk : Object) (cursor : Cursor)
    (found : session.object? handle = some (.scanner source state)) (apart : handle ≠ state.sink) :
    (session.afterScan handle source state sunk cursor).object? handle =
      some (.scanner source { state with cursor }) :=
  object?_setObject_self ((object?_setObject_other apart).trans found)

theorem apart_of_isSink (found : session.object? handle = some (.scanner source state))
    (held : session.object? state.sink = some old) (sinks : old.isSink = true) :
    handle ≠ state.sink := by
  intro here
  subst here
  cases found.symm.trans held
  contradiction

/-- A scan whose sink takes every report. -/
theorem answerScan_taken {sunk : Object} (front : List Log.Record)
    (found : session.object? handle = some (.scanner source state))
    (held : session.object? state.sink = some old) (apart : handle ≠ state.sink)
    (sent : (Session.sink state.sink).send (reports source) session =
      .ok () ((session.setObject state.sink sunk).logAll front)) :
    ∃ cursor, session.answerScan handle =
      some ((session.afterScan handle source state sunk cursor).logAll
        (front ++ [scannedRecord (tokens source)]), .scanned (tokens source) sunk) := by
  obtain ⟨cursor, scanned⟩ := Cursor.scan_taken state.cursor sent
  have seen : ((session.afterScan handle source state sunk cursor).logAll
      (front ++ [scannedRecord (tokens source)])).object? state.sink = some sunk :=
    afterScan_sink sunk cursor held apart
  refine ⟨cursor, ?_⟩
  simp only [answerScan, found, Option.bind_eq_bind, Option.bind_some, scanned, moved_logAll,
    logAll_logAll]
  exact answering_held _ seen

/-- A scan whose sink refuses a report. -/
theorem answerScan_refused {sunk : Object} {refusal : Refusal}
    (found : session.object? handle = some (.scanner source state))
    (held : session.object? state.sink = some old) (apart : handle ≠ state.sink)
    (sent : (Session.sink state.sink).send (reports source) session =
      .error refusal (session.setObject state.sink sunk)) :
    ∃ cursor, session.answerScan handle =
      some (session.afterScan handle source state sunk cursor, .scanRefused refusal sunk) := by
  obtain ⟨cursor, scanned⟩ := Cursor.scan_refused state.cursor sent
  refine ⟨cursor, ?_⟩
  simp only [answerScan, found, Option.bind_eq_bind, Option.bind_some, scanned]
  exact answering_held _ (afterScan_sink sunk cursor held apart)

/-- Whatever the sink is, the scan goes as far as the sink lets it. -/
theorem answerScan_heard (found : session.object? handle = some (.scanner source state))
    (held : session.object? state.sink = some old) (sinks : old.isSink = true) :
    ∃ cursor answer sunk logged, session.answerScan handle =
        some ((session.afterScan handle source state sunk cursor).logAll logged, answer) ∧
      ScanAnswer source old sunk answer logged := by
  have apart := apart_of_isSink found held sinks
  cases old with
  | reporter reporter =>
      obtain ⟨cursor, answered⟩ :=
        answerScan_taken _ found held apart (send_reporter (reports source) held)
      exact ⟨cursor, _, _, _, answered, .reporter reporter⟩
  | recorder recorder =>
      have sent := send_recorder (reports source) held
      by_cases due : recorder.RefusesWithin (reports source).length
      · obtain ⟨n, failOn, later, within⟩ := due
        rw [Recorder.send_refused failOn later within] at sent
        obtain ⟨cursor, answered⟩ := answerScan_refused found held apart sent
        exact ⟨cursor, _, _, [], answered, .refused failOn later within⟩
      · rw [Recorder.send_taken due] at sent
        obtain ⟨cursor, answered⟩ := answerScan_taken [] found held apart sent
        exact ⟨cursor, _, _, _, answered, .recorder due⟩
  | scanner => contradiction

end Scanning

/-- The source that an operation scans, and the sink that it reports to. -/
def scanOf? (session : Session) : Operation → Option (Text × Handle)
  | .scan name => do
    let .scanner source state ← session.object? (← session.handle? name) | none
    return (source, state.sink)
  | .scanText sinkName source => do return (source, ← session.sinkHandle? sinkName)
  | _ => none

/-- The scanner of an operation that scans: one that it names, or one that is made for it.  The
second session is the one that has it. -/
inductive Scans (session : Session) : Operation → Session → Handle → Text → ScannerState → Prop
  | named {name : Text} {handle : Handle} {source : Text} {state : ScannerState}
    (named : session.handle? name = some handle)
    (found : session.object? handle = some (.scanner source state)) :
    Scans session (.scan name) session handle source state
  | unnamed {sinkName : Text} {sink : Handle} (source : Text)
    (named : session.sinkHandle? sinkName = some sink) :
    Scans session (.scanText sinkName source) (session.push (.scanner source { sink }))
      session.objects.size source { sink }

section Operations

variable {session ready after : Session} {operation : Operation} {handle sink : Handle}
  {source : Text} {state : ScannerState} {old : Object} {answer : Answer}

theorem scans_of_scanOf (found : session.scanOf? operation = some (source, sink)) :
    ∃ ready handle state, Scans session operation ready handle source state ∧
      state.sink = sink := by
  cases operation with
  | scan name =>
      simp only [scanOf?, Option.bind_eq_bind, Option.bind_eq_some_iff] at found
      obtain ⟨handle, named, object, held, made⟩ := found
      split at made
      · cases made
        exact ⟨session, handle, _, .named named held, rfl⟩
      · contradiction
  | scanText sinkName text =>
      simp only [scanOf?, Option.bind_eq_bind, Option.bind_eq_some_iff] at found
      obtain ⟨sink, named, made⟩ := found
      cases made
      exact ⟨_, _, _, .unnamed source named, rfl⟩
  | _ => contradiction

theorem Scans.found (scans : Scans session operation ready handle source state) :
    ready.object? handle = some (.scanner source state) := by
  cases scans with
  | named _ found => exact found
  | unnamed _ _ => exact object?_push_new

theorem Scans.held (scans : Scans session operation ready handle source state)
    (held : session.object? sink = some old) : ready.object? sink = some old := by
  cases scans with
  | named _ _ => exact held
  | unnamed _ _ => exact object?_push_old held

theorem perform_eq (done : session.cleared.carryOut? operation = some (after, answer)) :
    session.perform operation = (after.cleared, answer, after.log.reverse) := by
  rw [perform, done]
  rfl

theorem perform_fst {result : Session × Answer}
    (done : session.cleared.carryOut? operation = some result) :
    (session.perform operation).1 = result.1.cleared := by
  rw [perform_eq done]

theorem perform_failed (failed : session.cleared.carryOut? operation = none) :
    (session.perform operation).1 = session.cleared := by
  rw [perform, failed]
  rfl

theorem sinkHandle?_eq_some {name : Text} : session.sinkHandle? name = some sink ↔
    session.handle? name = some sink ∧
      ∃ object, session.object? sink = some object ∧ object.isSink = true := by
  simp only [sinkHandle?, Option.bind_eq_bind, Option.bind_eq_some_iff]
  constructor
  · intro found
    obtain ⟨handle, named, kind⟩ := found
    split at kind
    · cases kind
      exact ⟨named, (Option.any_eq_true _ _).mp ‹_›⟩
    · contradiction
  · intro found
    obtain ⟨named, kind⟩ := found
    exact ⟨sink, named, if_pos ((Option.any_eq_true _ _).mpr kind)⟩

theorem perform_look (name : Text) : (session.perform (.look name)).1 = session.cleared := by
  cases carried : session.cleared.carryOut? (.look name) with
  | none => exact perform_failed carried
  | some result =>
      rw [perform_fst carried]
      simp only [carryOut?, answering, Option.bind_eq_bind, Option.bind_eq_some_iff] at carried
      obtain ⟨handle, -, object, -, made⟩ := carried
      cases made
      rfl

theorem answerSink_eq (session : Session) (name : Text) (object : Object) :
    session.answerSink name object = some (session.make name object, .sink object) :=
  answering_held _ object?_push_new

theorem answerScanner_eq (session : Session) {object : Object} (name source : Text)
    (held : session.object? sink = some object) :
    session.answerScanner name source sink =
      some (session.make name (.scanner source { sink }), .scanner source object) :=
  answering_held _ (object?_push_old held)

theorem perform_makeReporter (name : Text) (hasStream : Bool) :
    (session.perform (.makeReporter name hasStream)).1 =
      (session.make name
        (.reporter { echoes := if hasStream then some [] else none })).cleared := by
  have carried : session.cleared.carryOut? (.makeReporter name hasStream) = _ :=
    answerSink_eq session.cleared name _
  rw [perform_fst carried]
  rfl

theorem perform_makeRecorder (name : Text) (failOn : Option Nat) :
    (session.perform (.makeRecorder name failOn)).1 =
      (session.make name (.recorder { failOn })).cleared := by
  have carried : session.cleared.carryOut? (.makeRecorder name failOn) = _ :=
    answerSink_eq session.cleared name _
  rw [perform_fst carried]
  rfl

theorem perform_makeScanner_alone (name source : Text) :
    (session.perform (.makeScanner name source none)).1 =
      ((session.push (.reporter {})).make name
        (.scanner source { sink := session.objects.size })).cleared := by
  have carried : session.cleared.carryOut? (.makeScanner name source none) = _ :=
    answerScanner_eq (session.cleared.push (.reporter {})) name source object?_push_new
  rw [perform_fst carried]
  rfl

theorem perform_makeScanner {sinkName : Text} (name : Text)
    (named : session.sinkHandle? sinkName = some sink) :
    (session.perform (.makeScanner name source (some sinkName))).1 =
      (session.make name (.scanner source { sink })).cleared := by
  obtain ⟨-, object, held, -⟩ := sinkHandle?_eq_some.mp named
  have named : session.cleared.sinkHandle? sinkName = some sink := named
  have carried : session.cleared.carryOut? (.makeScanner name source (some sinkName)) =
      session.cleared.answerScanner name source sink := by
    simp only [carryOut?, named, Option.bind_eq_bind, Option.bind_some]
  rw [answerScanner_eq session.cleared name source held] at carried
  rw [perform_fst carried]
  rfl

theorem perform_setSource {name old : Text} {state : ScannerState} (source : Text)
    (named : session.handle? name = some handle)
    (held : session.object? handle = some (.scanner old state)) :
    (session.perform (.setSource name source)).1 =
      (session.setObject handle (.scanner source state)).cleared := by
  have carried : session.cleared.carryOut? (.setSource name source) =
      some (session.cleared.setObject handle (.scanner source state), .source source) := by
    have named : session.cleared.handle? name = some handle := named
    have held : session.cleared.object? handle = some (.scanner old state) := held
    simp only [carryOut?, named, held, Option.bind_eq_bind, Option.bind_some]
    rfl
  rw [perform_fst carried]
  rfl

theorem perform_reset {name : Text} {reporter : Reporter}
    (named : session.handle? name = some handle)
    (held : session.object? handle = some (.reporter reporter)) :
    (session.perform (.reset name)).1 =
      (session.setObject handle (.reporter reporter.reset)).cleared := by
  have carried : session.cleared.carryOut? (.reset name) =
      some (session.cleared.setObject handle (.reporter reporter.reset),
        .sink (.reporter reporter.reset)) := by
    have named : session.cleared.handle? name = some handle := named
    have held : session.cleared.object? handle = some (.reporter reporter) := held
    simp only [carryOut?, named, held, Option.bind_eq_bind, Option.bind_some]
    exact answering_held _ (object?_setObject_self held)
  rw [perform_fst carried]
  rfl

theorem answerReport_hear (session : Session) {object : Object} (report : Report)
    (held : session.object? sink = some object) :
    ∃ after answer, session.answerReport sink report = some (after, answer) ∧
      after.cleared = (session.setObject sink (object.hear [report])).cleared := by
  have later : (session.setObject sink (object.hear [report])).object? sink =
      some (object.hear [report]) := object?_setObject_self held
  have heard := object.sink_hear report
  cases called : Object.sink report object with
  | ok _ next =>
      rw [called] at heard
      cases heard
      refine ⟨(session.setObject sink (object.hear [report])).logAll (object.records report),
        .sink (object.hear [report]), ?_, rfl⟩
      simp only [answerReport, Session.sink, held, called]
      exact answering_held _ later
  | error refusal next =>
      rw [called] at heard
      cases heard
      refine ⟨session.setObject sink (object.hear [report]),
        .reportRefused refusal (object.hear [report]), ?_, rfl⟩
      simp only [answerReport, Session.sink, held, called]
      exact answering_held _ later

theorem perform_report {sinkName : Text} {object : Object} (report : Report)
    (named : session.sinkHandle? sinkName = some sink)
    (held : session.object? sink = some object) :
    (session.perform (.report sinkName report)).1 =
      (session.setObject sink (object.hear [report])).cleared := by
  have named : session.cleared.sinkHandle? sinkName = some sink := named
  obtain ⟨after, answer, answered, same⟩ :=
    answerReport_hear session.cleared report held
  have carried : session.cleared.carryOut? (.report sinkName report) =
      session.cleared.answerReport sink report := by
    simp only [carryOut?, named, Option.bind_eq_bind, Option.bind_some]
  rw [perform_fst (carried.trans answered)]
  exact same

/-- An operation that scans goes as far as the sink lets it, and changes the sink and the
scanner that it has. -/
theorem perform_scans (scans : Scans session operation ready handle source state)
    (held : session.object? state.sink = some old) (sinks : old.isSink = true) :
    ∃ cursor answer sunk logged, session.perform operation =
        ((ready.afterScan handle source state sunk cursor).cleared, answer, logged) ∧
      ScanAnswer source old sunk answer logged := by
  have carried : session.cleared.carryOut? operation = ready.cleared.answerScan handle := by
    cases scans with
    | named named _ => simp [carryOut?, named]
    | unnamed _ named =>
        simp only [carryOut?, sinkHandle?_cleared, named, Option.bind_eq_bind, Option.bind_some]
        rfl
  have found : ready.cleared.object? handle = some (.scanner source state) := scans.found
  have held : ready.cleared.object? state.sink = some old := scans.held held
  obtain ⟨cursor, answer, sunk, logged, answered, scan⟩ := answerScan_heard found held sinks
  refine ⟨cursor, answer, sunk, logged, ?_, scan⟩
  have log : ((ready.cleared.afterScan handle source state sunk cursor).logAll logged).log =
      logged.reverse := List.append_nil _
  rw [perform_eq (carried.trans answered), log, List.reverse_reverse]
  rfl

theorem perform_scanOf (found : session.scanOf? operation = some (source, sink))
    (held : session.object? sink = some old) (sinks : old.isSink = true) :
    ∃ after answer sunk logged, session.perform operation = (after, answer, logged) ∧
      ScanAnswer source old sunk answer logged ∧ after.object? sink = some sunk := by
  obtain ⟨ready, handle, state, scans, rfl⟩ := scans_of_scanOf found
  obtain ⟨cursor, answer, sunk, logged, performed, scan⟩ := perform_scans scans held sinks
  have apart := apart_of_isSink scans.found (scans.held held) sinks
  exact ⟨_, answer, sunk, logged, performed, scan,
    afterScan_sink sunk cursor (scans.held held) apart⟩

end Operations

end LoxLex.Session
