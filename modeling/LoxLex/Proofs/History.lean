import LoxLex.Proofs.Notices
import LoxLex.Proofs.Operations

namespace LoxLex

namespace Session

/-- The session after operations. -/
def after (session : Session) (operations : List Operation) : Session :=
  operations.foldl (fun before operation => (before.perform operation).1) session

/-- The object that a name means. -/
def named? (session : Session) (name : Text) : Option (Handle × Object) := do
  let handle ← session.handle? name
  return (handle, ← session.object? handle)

/-- Whom an operation tells something, and what. -/
def told (session : Session) : Operation → List (Handle × Notice)
  | .makeReporter _ hasStream => tell session.objects.size [.made hasStream]
  | .makeRecorder _ _ => []
  | .makeScanner _ source none =>
    tell session.objects.size [.made false] ++ tell (session.objects.size + 1) [.source source]
  | .makeScanner _ source (some sinkName) =>
    match session.sinkHandle? sinkName with
    | some _ => tell session.objects.size [.source source]
    | none => []
  | .setSource name source =>
    match session.named? name with
    | some (handle, .scanner _ _) => tell handle [.source source]
    | _ => []
  | .scan name =>
    match session.scanOf? (.scan name) with
    | some (source, sink) => tell sink ((reports source).map .report)
    | none => []
  | .scanText sinkName source =>
    match session.sinkHandle? sinkName with
    | some sink =>
      tell session.objects.size [.source source] ++ tell sink ((reports source).map .report)
    | none => []
  | .report sinkName report =>
    match session.sinkHandle? sinkName with
    | some sink => tell sink [.report report]
    | none => []
  | .reset name =>
    match session.named? name with
    | some (handle, .reporter _) => tell handle [.reset]
    | _ => []
  | .look _ => []

/-- What an object has been told by operations. -/
def heard (session : Session) (handle : Handle) : List Operation → List Notice
  | [] => []
  | operation :: rest =>
    noticesTo handle (session.told operation) ++ (session.perform operation).1.heard handle rest

/-- The object that an operation is done to, if it is there before. -/
def subject? (session : Session) : Operation → Option Handle
  | .setSource name _ | .scan name | .reset name | .look name => session.handle? name
  | .report sinkName _ => session.sinkHandle? sinkName
  | _ => none

/-- Whether an operation names an object, or reports to it. -/
def Concerns (session : Session) (operation : Operation) (handle : Handle) : Prop :=
  session.subject? operation = some handle ∨
    ∃ source, session.scanOf? operation = some (source, handle)

theorem ScanAnswer.becomes {source : Text} {old sunk : Object} {answer : Answer}
    {logged : List Log.Record} (scan : ScanAnswer source old sunk answer logged) :
    old.Becomes ((reports source).map .report) sunk := by
  cases scan with
  | reporter reporter =>
      rw [← Reporter.heedAll_reports]
      exact .reporter reporter
  | recorder _ => exact .recorder _ _
  | refused _ _ _ => exact .recorder _ _

section Operations

variable {session ready : Session} {operation : Operation} {handle sink : Handle} {source : Text}
  {state : ScannerState} {object new : Object}

theorem step_quiet (quiet : session.told operation = []) :
    Step session session.cleared (session.told operation) (session.Concerns operation) := by
  rw [quiet]
  have step : Step session session.cleared [] fun _ => False := .refl rfl
  exact step.within fun _ _ _ nobody => nobody.elim

theorem step_failed (failed : session.cleared.carryOut? operation = none)
    (quiet : session.told operation = []) :
    Step session (session.perform operation).1 (session.told operation)
      (session.Concerns operation) := by
  rw [perform_failed failed]
  exact step_quiet quiet

theorem step_made {name : Text} (notices : List Notice)
    (performed : (session.perform operation).1 = (session.make name object).cleared)
    (told : session.told operation = tell session.objects.size notices)
    (accounts : object.Accounts notices)
    (sinks : ∀ source state, object = .scanner source state →
      ∃ sunk, session.object? state.sink = some sunk ∧ sunk.isSink = true) :
    Step session (session.perform operation).1 (session.told operation)
      (session.Concerns operation) := by
  rw [performed, told]
  have step : Step session (session.make name object).cleared _ _ := .push rfl accounts sinks
  exact step.within fun _ _ _ nobody => nobody.elim

theorem step_changed (notices : List Notice)
    (performed : (session.perform operation).1 = (session.setObject handle new).cleared)
    (told : session.told operation = tell handle notices)
    (subject : session.subject? operation = some handle)
    (held : session.object? handle = some object) (becomes : object.Becomes notices new) :
    Step session (session.perform operation).1 (session.told operation)
      (session.Concerns operation) := by
  rw [performed, told]
  have step : Step session (session.setObject handle new).cleared _ _ := .set rfl held becomes
  exact step.within fun other _ _ same => .inl (subject.trans (congrArg some same.symm))

theorem step_makeScanner_alone (name source : Text) :
    Step session (session.perform (.makeScanner name source none)).1
      (session.told (.makeScanner name source none))
      (session.Concerns (.makeScanner name source none)) := by
  rw [perform_makeScanner_alone]
  have first : Step session (session.push (.reporter {})) _ _ :=
    .push rfl (Reporter.Keeps.start false) (by simp)
  -- The second object that is made reports to the first.
  have second : Step (session.push (.reporter {})) ((session.push (.reporter {})).make name
      (.scanner source { sink := session.objects.size })).cleared
      (tell (session.push (.reporter {})).objects.size [.source source]) fun _ => False := by
    refine .push rfl rfl ?_
    intro _ _ same
    cases same
    exact ⟨_, object?_push_new, rfl⟩
  rw [size_push] at second
  exact (first.trans second).within fun _ _ _ nobody => nobody.elim False.elim False.elim

theorem step_setSource (name source : Text) :
    Step session (session.perform (.setSource name source)).1
      (session.told (.setSource name source)) (session.Concerns (.setSource name source)) := by
  cases named : session.handle? name with
  | none => exact step_failed (by simp [carryOut?, named]) (by simp [told, named?, named])
  | some handle =>
      rcases held : session.object? handle with _ | (_ | _ | ⟨old, state⟩)
      case some.scanner =>
        exact step_changed [.source source] (perform_setSource source named held)
          (by simp [told, named?, named, held]) named held (.scanner old state state.cursor)
      all_goals
        exact step_failed (by simp [carryOut?, named, held]) (by simp [told, named?, named, held])

theorem step_reset (name : Text) :
    Step session (session.perform (.reset name)).1
      (session.told (.reset name)) (session.Concerns (.reset name)) := by
  cases named : session.handle? name with
  | none => exact step_failed (by simp [carryOut?, named]) (by simp [told, named?, named])
  | some handle =>
      rcases held : session.object? handle with _ | (reporter | _ | _)
      case some.reporter =>
        exact step_changed [.reset] (perform_reset named held)
          (by simp [told, named?, named, held]) named held (.reporter reporter)
      all_goals
        exact step_failed (by simp [carryOut?, named, held]) (by simp [told, named?, named, held])

theorem step_report (sinkName : Text) (report : Report) :
    Step session (session.perform (.report sinkName report)).1
      (session.told (.report sinkName report)) (session.Concerns (.report sinkName report)) := by
  cases named : session.sinkHandle? sinkName with
  | none => exact step_failed (by simp [carryOut?, named]) (by simp [told, named])
  | some sink =>
      obtain ⟨-, object, held, kind⟩ := sinkHandle?_eq_some.mp named
      refine step_changed [.report report] (perform_report report named held)
        (by simp only [told, named]) named held ?_
      cases object with
      | reporter reporter => exact .reporter reporter
      | recorder recorder => exact .recorder recorder _
      | scanner _ _ => contradiction

section Scanning

variable (scans : Scans session operation ready handle source state)

include scans

theorem Scans.scanOf : session.scanOf? operation = some (source, state.sink) := by
  cases scans with
  | named named found => simp [scanOf?, named, found]
  | unnamed _ named => simp [scanOf?, named]

theorem Scans.sink_held (sinks : session.SinksHeld) :
    ∃ object, session.object? state.sink = some object ∧ object.isSink = true := by
  cases scans with
  | named _ found => exact sinks _ _ _ found
  | unnamed _ named => exact (sinkHandle?_eq_some.mp named).2

/-- What is told before the scan is told to the scanner, if it is made for the scan. -/
theorem Scans.told : ∃ made,
    session.told operation = made ++ tell state.sink ((reports source).map .report) ∧
      Step session ready made fun _ => False := by
  cases scans with
  | named named found =>
      exact ⟨[], by simp [Session.told, scanOf?, named, found], .refl rfl⟩
  | unnamed source named =>
      refine ⟨tell session.objects.size [.source source], by simp [Session.told, named],
        .push rfl rfl ?_⟩
      intro _ _ same
      cases same
      exact (sinkHandle?_eq_some.mp named).2

theorem Scans.concerns {place : Handle} (held : session.object? place = some object)
    (here : place = handle) : session.Concerns operation place := by
  subst here
  cases scans with
  | named named _ => exact .inl named
  | unnamed _ _ => exact absurd rfl (ne_size held)

theorem step_scans (sinks : session.SinksHeld) :
    Step session (session.perform operation).1 (session.told operation)
      (session.Concerns operation) := by
  obtain ⟨old, held, kind⟩ := scans.sink_held sinks
  obtain ⟨cursor, answer, sunk, logged, performed, scan⟩ := perform_scans scans held kind
  have sinkHere := scans.held held
  have found := scans.found
  have apart := apart_of_isSink found sinkHere kind
  obtain ⟨made, told, readied⟩ := scans.told
  have heard : Step ready (ready.setObject state.sink sunk)
      (tell state.sink ((reports source).map .report)) (· = state.sink) :=
    .set rfl sinkHere scan.becomes
  have moved : Step (ready.setObject state.sink sunk)
      (ready.afterScan handle source state sunk cursor).cleared (tell handle []) (· = handle) :=
    .set rfl ((object?_setObject_other apart).trans found) (.scanner source state cursor)
  have whole := readied.trans (heard.trans moved)
  rw [tell_nil, List.append_nil, ← told] at whole
  rw [performed]
  refine whole.within fun place object before concerned => ?_
  rcases concerned with nobody | atSink | atScanner
  · contradiction
  · exact .inr ⟨source, atSink ▸ scans.scanOf⟩
  · exact scans.concerns before atScanner

end Scanning

theorem perform_step (sinks : session.SinksHeld) (operation : Operation) :
    Step session (session.perform operation).1 (session.told operation)
      (session.Concerns operation) := by
  cases operation with
  | makeReporter name hasStream =>
      exact step_made [.made hasStream] (perform_makeReporter name hasStream) rfl
        (Reporter.Keeps.start hasStream) (by simp)
  | makeRecorder name failOn =>
      exact step_made [] (perform_makeRecorder name failOn) rfl trivial (by simp)
  | makeScanner name source sinkName =>
      cases sinkName with
      | none => exact step_makeScanner_alone name source
      | some sinkName =>
        cases named : session.sinkHandle? sinkName with
        | none => exact step_failed (by simp [carryOut?, named]) (by simp [told, named])
        | some sink =>
            refine step_made [.source source] (perform_makeScanner name named)
              (by simp only [told, named]) rfl ?_
            intro _ _ same
            cases same
            exact (sinkHandle?_eq_some.mp named).2
  | setSource name source => exact step_setSource name source
  | scan name =>
      cases named : session.handle? name with
      | none => exact step_failed (by simp [carryOut?, named]) (by simp [told, scanOf?, named])
      | some handle =>
          rcases held : session.object? handle with _ | (_ | _ | ⟨source, state⟩)
          case some.scanner => exact step_scans (.named named held) sinks
          all_goals
            exact step_failed (by simp [carryOut?, answerScan, named, held])
              (by simp [told, scanOf?, named, held])
  | scanText sinkName source =>
      cases named : session.sinkHandle? sinkName with
      | some sink => exact step_scans (.unnamed source named) sinks
      | none => exact step_failed (by simp [carryOut?, named]) (by simp [told, named])
  | report sinkName report => exact step_report sinkName report
  | reset name => exact step_reset name
  | look name =>
      rw [perform_look]
      exact step_quiet rfl

end Operations

section Runs

variable {session before after : Session} {told : List (Handle × Notice)}
  {concerned : Handle → Prop}

/-- What holds of a session whose objects have been told what they were told. -/
structure Accounted (session : Session) (heard : Handle → List Notice) : Prop where
  objects : ∀ handle object, session.object? handle = some object → object.Accounts (heard handle)
  absent : ∀ handle, session.object? handle = none → heard handle = []
  sinks : session.SinksHeld

theorem Accounted.start : Accounted {} fun _ => [] where
  objects _ _ held := by simp [object?] at held
  absent _ _ := rfl
  sinks _ _ _ held := by simp [object?] at held

variable {past : Handle → List Notice}

theorem Step.accounted (step : Step before after told concerned)
    (accounted : Accounted before past) :
    Accounted after fun handle => past handle ++ noticesTo handle told := by
  constructor
  case objects =>
    intro handle object held
    cases was : before.object? handle with
    | some old =>
        obtain ⟨next, later, becomes, -⟩ := step.becomes handle old was
        cases held.symm.trans later
        exact becomes.accounts (accounted.objects handle old was)
    | none =>
        rw [accounted.absent handle was]
        exact step.begins handle object was held
  case absent =>
    intro handle gone
    cases was : before.object? handle with
    | some old =>
        obtain ⟨next, later, -⟩ := step.becomes handle old was
        simp [gone] at later
    | none => rw [accounted.absent handle was, step.silent handle gone, List.append_nil]
  case sinks => exact step.sinks accounted.sinks

/-- A whole run keeps the account. -/
theorem Accounted.run (accounted : Accounted session past) (operations : List Operation) :
    Accounted (session.after operations) fun handle =>
      past handle ++ session.heard handle operations := by
  induction operations generalizing session past with
  | nil => simpa [Session.after, heard] using accounted
  | cons operation rest ih =>
      have step := ih ((perform_step accounted.sinks operation).accounted accounted)
      simp only [List.append_assoc] at step
      exact step

/-- The answers of a run are those of its operations in the sessions that they meet. -/
theorem run_append (session : Session) (front back : List Operation) :
    session.run (front ++ back) = session.run front ++ (session.after front).run back := by
  induction front generalizing session with
  | nil => rfl
  | cons operation rest ih => exact congrArg (_ :: ·) (ih (session.perform operation).1)

end Runs

/-- Whatever was done in a session: what its reporters keep and its scanners have is what they
were told, an operation leaves alone all that it does not name and does not report to, and a scan
finds and reports what its source has.  A reporter never refuses a scan; a recorder does where the
call is due that it refuses. -/
theorem session_accounts (operations : List Operation) :
    let session := after {} operations
    (∀ handle reporter, session.object? handle = some (.reporter reporter) →
      reporter.Keeps (heard {} handle operations)) ∧
    (∀ operation handle object, session.object? handle = some object →
      ¬ session.Concerns operation handle →
      (session.perform operation).1.object? handle = some object) ∧
    (∀ operation source sink, session.scanOf? operation = some (source, sink) →
      ∃ object later answer logged sunk, session.object? sink = some object ∧
        session.perform operation = (later, answer, logged) ∧
        run {} (operations ++ [operation]) = run {} operations ++ [(answer, logged)] ∧
        later.object? sink = some sunk ∧ ScanAnswer source object sunk answer logged) ∧
    (∀ handle source state, session.object? handle = some (.scanner source state) →
      ((heard {} handle operations).filterMap Notice.source?).getLast? = some source) ∧
    ∀ {ε σ : Type} (sink : Sink ε σ) source cursor state,
      match sink.send (reports source) state with
      | .ok _ later => ∃ ended, Cursor.scan sink source (cursor, state) =
          .ok (tokens source) (ended, later)
      | .error reason later => ∃ left, Cursor.scan sink source (cursor, state) =
          .error reason (left, later) := by
  intro session
  have accounted : Accounted session fun handle => heard {} handle operations :=
    Accounted.start.run operations
  refine ⟨fun handle reporter held => accounted.objects handle _ held, ?_, ?_,
    fun handle source state held => accounted.objects handle _ held, ?_⟩
  · intro operation handle object held apart
    obtain ⟨next, later, -, same⟩ :=
      (perform_step accounted.sinks operation).becomes handle object held
    exact same apart ▸ later
  · intro operation source sink found
    obtain ⟨ready, handle, state, scans, rfl⟩ := scans_of_scanOf found
    obtain ⟨object, held, kind⟩ := scans.sink_held accounted.sinks
    obtain ⟨later, answer, sunk, logged, performed, scan, heard⟩ :=
      perform_scanOf found held kind
    have answered : run {} (operations ++ [operation]) =
        run {} operations ++ [(answer, logged)] := by
      rw [run_append]
      exact congrArg (fun done => run {} operations ++ [done.2]) performed
    exact ⟨object, later, answer, logged, sunk, held, performed, answered, heard, scan⟩
  · intro _ _ sink source cursor state
    cases sent : sink.send (reports source) state with
    | ok _ later => exact Cursor.scan_taken cursor sent
    | error reason later => exact Cursor.scan_refused cursor sent

/-- Two scanners at one reporter, which is reset between their scans, and a recorder that
refuses its first call. -/
theorem session_accounts_shared_reporter :
    let operations : List Operation := [.makeReporter ['e'] true,
      .makeScanner ['s'] ['@'] (some ['e']), .makeScanner ['t'] ['"'] (some ['e']), .scan ['s'],
      .reset ['e'], .scan ['t'], .setSource ['s'] ['$'], .makeRecorder ['r'] (some 1)]
    let session := after {} operations
    (∃ reporter, session.object? 0 = some (.reporter reporter) ∧
      reporter.Keeps [.made true, .report ⟨1, Fault.unsupportedCharacter.message⟩, .reset,
        .report ⟨1, Fault.unterminatedString.message⟩]) ∧
    (∃ state, session.object? 1 = some (.scanner ['$'] state) ∧
      ((heard {} 1 operations).filterMap Notice.source?).getLast? = some ['$']) ∧
    (∃ object, session.object? 2 = some object ∧
      (session.perform (.scan ['s'])).1.object? 2 = some object) ∧
    (∃ later logged sunk, later.object? 0 = some sunk ∧
      session.perform (.scan ['s']) = (later, .scanned (tokens ['$']) sunk, logged)) ∧
    ∃ later logged sunk, later.object? 3 = some sunk ∧
      session.perform (.scanText ['r'] ['@']) = (later, .scanRefused ⟨1⟩ sunk, logged) := by
  intro operations session
  obtain ⟨reporters, frame, scans, scanners, -⟩ := session_accounts operations
  have reporter : ∃ reporter, session.object? 0 = some (.reporter reporter) :=
    ⟨⟨[⟨1, Fault.unterminatedString.message, some Fault.unterminatedString.code⟩],
      some [(⟨1, Fault.unterminatedString.message, none⟩ : Diagnostic).echo,
        (⟨1, Fault.unsupportedCharacter.message, none⟩ : Diagnostic).echo]⟩, by decide +kernel⟩
  have scanner : session.object? 1 = some (.scanner ['$'] ⟨0, ⟨1, 1, []⟩⟩) := by decide +kernel
  have other : session.object? 2 = some (.scanner ['"'] ⟨0, ⟨1, 1, []⟩⟩) := by decide +kernel
  have recorder : session.object? 3 = some (.recorder ⟨[], some 1⟩) := by decide +kernel
  have scanned : session.scanOf? (.scan ['s']) = some (['$'], 0) := by decide +kernel
  have refused : session.scanOf? (.scanText ['r'] ['@']) = some (['@'], 3) := by decide +kernel
  obtain ⟨shared, held⟩ := reporter
  refine ⟨⟨shared, held, ?_⟩, ⟨_, scanner, scanners 1 _ _ scanner⟩,
    ⟨_, other, frame _ 2 _ other ?_⟩, ?_, ?_⟩
  · have told : heard {} 0 operations = [.made true,
        .report ⟨1, Fault.unsupportedCharacter.message⟩, .reset,
        .report ⟨1, Fault.unterminatedString.message⟩] := by decide +kernel
    exact told ▸ reporters 0 shared held
  · have subject : session.subject? (.scan ['s']) = some 1 := by decide +kernel
    intro concerned
    rcases concerned with named | ⟨source, other⟩
    · cases subject.symm.trans named
    · cases scanned.symm.trans other
  · obtain ⟨object, later, answer, logged, sunk, found, performed, -, seen, answered⟩ :=
      scans _ _ _ scanned
    cases held.symm.trans found
    cases answered
    exact ⟨later, _, _, seen, performed⟩
  · obtain ⟨object, later, answer, logged, sunk, found, performed, -, seen, answered⟩ :=
      scans _ _ _ refused
    cases recorder.symm.trans found
    cases answered with
    | recorder spared =>
        have due : Recorder.RefusesWithin ⟨[], some 1⟩ (reports ['@']).length :=
          ⟨1, rfl, by decide, by decide +kernel⟩
        contradiction
    | refused due _ _ =>
        cases due
        exact ⟨later, _, _, seen, performed⟩

end Session

end LoxLex
