import LoxLex.Proofs.Operations

namespace LoxLex

namespace Sink

section Shapes

variable {ε σ : Type}

/-- A sink that takes every report, in whatever state it is. -/
def Tireless (sink : Sink ε σ) : Prop := ∀ report state, ∃ after, sink report state = .ok () after

/-- A sink with a note of the reports that it was called with. -/
def noting (sink : Sink ε σ) : Sink ε (List Report × σ) := fun report (noted, state) =>
  match sink report state with
  | .ok _ after => .ok () (noted ++ [report], after)
  | .error reason after => .error reason (noted ++ [report], after)

/-- A sink that records its calls, refuses the `n`-th of them and no other. -/
structure RefusesAt (sink : Sink ε σ) (calls : σ → List Report) (n : Nat) : Prop where
  taken : ∀ report state, (calls state).length + 1 ≠ n →
    ∃ after, sink report state = .ok () after ∧ calls after = calls state ++ [report]
  refused : ∀ report state, (calls state).length + 1 = n →
    ∃ reason after, sink report state = .error reason after ∧
      calls after = calls state ++ [report]

end Shapes

section Sending

variable {ε σ : Type} {sink : Sink ε σ} {calls : σ → List Report} {n : Nat}
  {reports noted : List Report} {state : σ}

theorem Tireless.send (tireless : sink.Tireless) (reports noted : List Report) (state : σ) :
    ∃ after, sink.send reports state = .ok () after ∧
      sink.noting.send reports (noted, state) = .ok () (noted ++ reports, after) := by
  induction reports generalizing noted state with
  | nil => exact ⟨state, rfl, by rw [List.append_nil]; rfl⟩
  | cons report rest ih =>
      obtain ⟨next, taken⟩ := tireless report state
      have noted' : sink.noting report (noted, state) = .ok () (noted ++ [report], next) := by
        simp only [noting, taken]
      obtain ⟨after, sent, all⟩ := ih (noted ++ [report]) next
      refine ⟨after, (send_ok rest taken).trans sent, ?_⟩
      rw [send_ok rest noted', all, List.append_assoc]
      rfl

/-- Such a sink behaves as a recorder does. -/
theorem RefusesAt.send (refuses : sink.RefusesAt calls n) (recorder : Recorder)
    (failOn : recorder.failOn = some n) (same : recorder.calls = calls state)
    (reports : List Report) :
    match Recorder.sink.send reports recorder with
    | .ok _ model => ∃ after, sink.send reports state = .ok () after ∧ calls after = model.calls
    | .error _ model => ∃ reason after, sink.send reports state = .error reason after ∧
        calls after = model.calls := by
  induction reports generalizing recorder state with
  | nil => exact ⟨state, rfl, same.symm⟩
  | cons report rest ih =>
      by_cases due : (calls state).length + 1 = n
      · obtain ⟨reason, after, refused, recorded⟩ := refuses.refused report state due
        have model : Recorder.sink report recorder =
            .error ⟨recorder.calls.length + 1⟩ (recorder.add report) :=
          Recorder.sink_refused (by rw [failOn, same, due])
        rw [send_error rest model]
        exact ⟨reason, after, send_error rest refused,
          by rw [recorded, Recorder.calls_add, same]⟩
      · obtain ⟨after, taken, recorded⟩ := refuses.taken report state due
        have model : Recorder.sink report recorder = .ok () (recorder.add report) :=
          Recorder.sink_taken (by rw [failOn, same]; simpa using Ne.symm due)
        rw [send_ok rest model, send_ok rest taken]
        exact ih (recorder.add report) failOn (by rw [recorded, Recorder.calls_add, same])

end Sending

end Sink

namespace Cursor

section Sinks

variable {ε σ : Type} {sink : Sink ε σ} {source : Text}

theorem scan_tireless (tireless : sink.Tireless) (cursor : Cursor) (noted : List Report)
    (state : σ) :
    ∃ after, (∃ ended, scan sink source (cursor, state) = .ok (tokens source) (ended, after)) ∧
      ∃ ended, scan sink.noting source (cursor, noted, state) =
        .ok (tokens source) (ended, noted ++ reports source, after) := by
  obtain ⟨after, sent, all⟩ := tireless.send (reports source) noted state
  exact ⟨after, scan_taken cursor sent, scan_taken cursor all⟩

theorem scan_refusesAt {calls : σ → List Report} {n : Nat} (refuses : sink.RefusesAt calls n)
    (cursor : Cursor) (state : σ) :
    if (calls state).length < n ∧ n ≤ (calls state).length + (reports source).length then
      ∃ reason left after, scan sink source (cursor, state) = .error reason (left, after) ∧
        calls after = calls state ++ (reports source).take (n - (calls state).length)
    else
      ∃ ended after, scan sink source (cursor, state) = .ok (tokens source) (ended, after) ∧
        calls after = calls state ++ reports source := by
  let recorder : Recorder := ⟨(calls state).reverse, some n⟩
  have same : recorder.calls = calls state := List.reverse_reverse _
  have law := refuses.send recorder rfl same (reports source)
  split
  case isTrue due =>
    rw [Recorder.send_refused (n := n) rfl (same ▸ due.1) (same ▸ due.2)] at law
    obtain ⟨reason, after, sent, recorded⟩ := law
    obtain ⟨left, scanned⟩ := scan_refused cursor sent
    exact ⟨reason, left, after, scanned, by rw [recorded, Recorder.calls_hear, same]⟩
  case isFalse spared =>
    have taken : ¬ recorder.RefusesWithin (reports source).length := by
      rintro ⟨_, ⟨⟩, due⟩
      exact spared (same ▸ due)
    rw [Recorder.send_taken taken] at law
    obtain ⟨after, sent, recorded⟩ := law
    obtain ⟨ended, scanned⟩ := scan_taken cursor sent
    exact ⟨ended, after, scanned, by rw [recorded, Recorder.calls_hear, same]⟩

theorem scan_forgets (sink : Sink ε σ) (source : Text) (cursor other : Cursor) (state : σ) :
    scan sink source (cursor, state) = scan sink source (other, state) := by
  rw [scan_eq, scan_eq]

end Sinks

end Cursor

namespace Session

section Recorders

variable {session : Session} {operation : Operation} {source : Text} {sink : Handle}
  {recorder : Recorder} {n : Nat}

theorem perform_recorder (found : session.scanOf? operation = some (source, sink))
    (held : session.object? sink = some (.recorder recorder)) (failOn : recorder.failOn = some n) :
    ∃ after answer logged sunk, session.perform operation = (after, answer, logged) ∧
      after.object? sink = some (.recorder sunk) ∧ sunk.failOn = some n ∧
      if recorder.calls.length < n ∧ n ≤ recorder.calls.length + (reports source).length then
        answer = .scanRefused ⟨n⟩ (.recorder sunk) ∧ logged = [] ∧
          sunk.calls = recorder.calls ++ (reports source).take (n - recorder.calls.length)
      else
        answer = .scanned (tokens source) (.recorder sunk) ∧
          logged = [scannedRecord (tokens source)] ∧
          sunk.calls = recorder.calls ++ reports source := by
  obtain ⟨after, answer, sunk, logged, performed, scan, heard⟩ := perform_scanOf found held rfl
  cases scan with
  | recorder spared =>
      refine ⟨after, _, _, _, performed, heard, by simp [failOn], ?_⟩
      rw [if_neg fun due => spared ⟨n, failOn, due⟩]
      exact ⟨rfl, rfl, Recorder.calls_hear⟩
  | refused due later within =>
      cases failOn.symm.trans due
      refine ⟨after, _, _, _, performed, heard, by simp [failOn], ?_⟩
      rw [if_pos ⟨later, within⟩]
      exact ⟨rfl, rfl, Recorder.calls_hear⟩

/-- A scanner that has been used answers as one that is made at that moment. -/
theorem perform_fresh {old : Object} {name sinkName : Text} (fresh : Text)
    (found : session.scanOf? (.scan name) = some (source, sink))
    (held : session.object? sink = some old) (sinks : old.isSink = true)
    (named : session.sinkHandle? sinkName = some sink) :
    ((session.perform (.makeScanner fresh source (some sinkName))).1.perform (.scan fresh)).2 =
      (session.perform (.scan name)).2 := by
  rw [perform_makeScanner fresh named]
  obtain ⟨_, answer, sunk, logged, performed, scan, -⟩ := perform_scanOf found held sinks
  have newScan : (session.make fresh (.scanner source { sink })).cleared.scanOf? (.scan fresh) =
      some (source, sink) := by
    simp [scanOf?, handle?, cleared, make, object?, push]
  obtain ⟨_, answer', sunk', logged', performed', scan', -⟩ :=
    perform_scanOf newScan (object?_push_old held) sinks
  obtain ⟨-, rfl, rfl⟩ := scan.unique scan'
  rw [performed, performed']

theorem perform_keeps_scan {old : Object} {name : Text}
    (found : session.scanOf? (.scan name) = some (source, sink))
    (held : session.object? sink = some old) (sinks : old.isSink = true) :
    (session.perform (.scan name)).1.scanOf? (.scan name) = some (source, sink) := by
  obtain ⟨ready, handle, state, scans, rfl⟩ := scans_of_scanOf found
  obtain ⟨cursor, answer, sunk, logged, performed, -⟩ := perform_scans scans held sinks
  rw [performed]
  cases scans with
  | named named here =>
      have named : (session.afterScan handle source state sunk cursor).cleared.handle? name =
          some handle := named
      have kept := afterScan_scanner sunk cursor here (apart_of_isSink here held sinks)
      simp only [scanOf?, named, object?_cleared, kept, Option.bind_eq_bind, Option.bind_some]
      rfl

end Recorders

end Session

/-- Whatever the sink: if it takes all reports it is sent the reports of the source and the
tokens are those of the source, and if it refuses one call the scan ends at that call or is
not touched by it.  A scan that was ended makes no difference to the next. -/
theorem scan_and_sink (source : Text) :
    (∀ {ε σ : Type} (sink : Sink ε σ), sink.Tireless → ∀ cursor noted state,
      ∃ after, (∃ ended, Cursor.scan sink source (cursor, state) =
          .ok (tokens source) (ended, after)) ∧
        ∃ ended, Cursor.scan sink.noting source (cursor, noted, state) =
          .ok (tokens source) (ended, noted ++ reports source, after)) ∧
    (∀ {ε σ : Type} (sink : Sink ε σ) (calls : σ → List Report) (n : Nat),
      sink.RefusesAt calls n → ∀ cursor state,
      if (calls state).length < n ∧ n ≤ (calls state).length + (reports source).length then
        ∃ reason left after, Cursor.scan sink source (cursor, state) =
            .error reason (left, after) ∧
          calls after = calls state ++ (reports source).take (n - (calls state).length)
      else
        ∃ ended after, Cursor.scan sink source (cursor, state) =
            .ok (tokens source) (ended, after) ∧
          calls after = calls state ++ reports source) ∧
    (∀ {ε σ : Type} (sink : Sink ε σ) (left : Cursor) (later : σ),
      Cursor.scan sink source (left, later) = Cursor.scan sink source ({}, later)) ∧
    (∀ (session : Session) (operation : Operation) (sink : Handle) (recorder : Recorder)
      (n : Nat), session.scanOf? operation = some (source, sink) →
      session.object? sink = some (.recorder recorder) → recorder.failOn = some n →
      ∃ after answer logged sunk, session.perform operation = (after, answer, logged) ∧
        after.object? sink = some (.recorder sunk) ∧ sunk.failOn = some n ∧
        (if recorder.calls.length < n ∧ n ≤ recorder.calls.length + (reports source).length then
          answer = .scanRefused ⟨n⟩ (.recorder sunk) ∧ logged = [] ∧
            sunk.calls = recorder.calls ++ (reports source).take (n - recorder.calls.length)
        else
          answer = .scanned (tokens source) (.recorder sunk) ∧
            logged = [scannedRecord (tokens source)] ∧
            sunk.calls = recorder.calls ++ reports source) ∧
        ∀ name, operation = .scan name →
          after.scanOf? (.scan name) = some (source, sink) ∧
          ∀ fresh sinkName, after.sinkHandle? sinkName = some sink →
            ((after.perform (.makeScanner fresh source (some sinkName))).1.perform
              (.scan fresh)).2 = (after.perform (.scan name)).2) := by
  refine ⟨fun _ tireless => Cursor.scan_tireless tireless,
    fun _ _ _ refuses => Cursor.scan_refusesAt refuses,
    fun sink left later => Cursor.scan_forgets sink source left {} later, ?_⟩
  intro session operation sink recorder n found held failOn
  obtain ⟨after, answer, logged, sunk, performed, heard, still, outcome⟩ :=
    Session.perform_recorder found held failOn
  refine ⟨after, answer, logged, sunk, performed, heard, still, outcome, ?_⟩
  rintro name rfl
  have kept := Session.perform_keeps_scan found held rfl
  rw [performed] at kept
  exact ⟨kept, fun fresh _ named => Session.perform_fresh fresh kept heard rfl named⟩

/-- Two unsupported characters, and sinks that count them, refuse the second of them and refuse
the first of them. -/
theorem scan_and_sink_two_reports :
    let source := "@\n$".toList
    let counting : Sink Refusal Nat := fun _ count => .ok () (count + 1)
    let second : Sink Refusal (List Report) := fun report calls =>
      if calls.length + 1 = 2 then .error ⟨2⟩ (calls ++ [report]) else .ok () (calls ++ [report])
    let session : Session := {
      objects := #[.recorder { failOn := some 1 }, .scanner source { sink := 0 }]
      names := [(['s'], 1), (['r'], 0)] }
    (∃ after ended, Cursor.scan counting.noting source ({}, [], 5) =
      .ok (tokens source) (ended, reports source, after)) ∧
    (∃ reason left after, Cursor.scan second source ({}, []) = .error reason (left, after) ∧
      after = reports source) ∧
    ∃ after logged sunk, session.perform (.scan ['s']) =
        (after, .scanRefused ⟨1⟩ (.recorder sunk), logged) ∧
      logged = [] ∧ sunk.calls = (reports source).take 1 ∧
      ((after.perform (.makeScanner ['t'] source (some ['r']))).1.perform (.scan ['t'])).2 =
        (after.perform (.scan ['s'])).2 := by
  intro source counting second session
  have two : (reports source).length = 2 := by decide +kernel
  obtain ⟨all, stops, -, sessions⟩ := scan_and_sink source
  have tireless : counting.Tireless := fun _ count => ⟨count + 1, rfl⟩
  have refuses : second.RefusesAt id 2 :=
    ⟨fun report calls early => ⟨calls ++ [report], if_neg early, rfl⟩,
      fun report calls due => ⟨⟨2⟩, calls ++ [report], if_pos due, rfl⟩⟩
  refine ⟨?_, ?_, ?_⟩
  · obtain ⟨after, -, ended, scanned⟩ := all counting tireless {} [] 5
    exact ⟨after, ended, scanned⟩
  · have stopped := stops second id 2 refuses {} []
    rw [if_pos ⟨by decide, by rw [two]; decide⟩] at stopped
    obtain ⟨reason, left, after, scanned, calls⟩ := stopped
    exact ⟨reason, left, after, scanned, calls.trans (List.take_of_length_le (by rw [two]; decide))⟩
  · obtain ⟨after, answer, logged, sunk, performed, -, -, outcome, again⟩ :=
      sessions session (.scan ['s']) 0 { failOn := some 1 } 1 rfl rfl rfl
    rw [if_pos ⟨by decide, by rw [two]; decide⟩] at outcome
    obtain ⟨rfl, rfl, calls⟩ := outcome
    have named : after.sinkHandle? ['r'] = some 0 := by
      have here : (session.perform (.scan ['s'])).1.sinkHandle? ['r'] = some 0 := by
        decide +kernel
      rwa [performed] at here
    exact ⟨after, _, sunk, performed, rfl, calls, (again ['s'] rfl).2 ['t'] ['r'] named⟩

end LoxLex
