import LoxLex.Session
import LoxLex.Proofs.Rescan

namespace LoxLex

namespace Reporter

/-- A reporter that has heard more reports. -/
def hear (reporter : Reporter) (reports : List Report) : Reporter := reports.foldl add reporter

end Reporter

namespace Recorder

/-- A recorder that has been called with more reports. -/
def hear (recorder : Recorder) (reports : List Report) : Recorder := reports.foldl add recorder

/-- Whether one of the next calls is refused. -/
def RefusesWithin (recorder : Recorder) (count : Nat) : Prop :=
  ∃ n, recorder.failOn = some n ∧ recorder.calls.length < n ∧
    n ≤ recorder.calls.length + count

section Hearing

variable {recorder : Recorder} {report : Report} {reports : List Report} {n : Nat}

@[simp] theorem hear_nil : recorder.hear [] = recorder := rfl

theorem hear_cons : recorder.hear (report :: reports) = (recorder.add report).hear reports := rfl

@[simp] theorem failOn_add : (recorder.add report).failOn = recorder.failOn := rfl

@[simp] theorem length_calls_add :
    (recorder.add report).calls.length = recorder.calls.length + 1 := by
  rw [calls_add, List.length_append, List.length_singleton]

@[simp] theorem calls_hear : (recorder.hear reports).calls = recorder.calls ++ reports := by
  induction reports generalizing recorder with
  | nil => simp
  | cons report rest ih => rw [hear_cons, ih, calls_add, List.append_assoc]; rfl

@[simp] theorem failOn_hear : (recorder.hear reports).failOn = recorder.failOn := by
  induction reports generalizing recorder with
  | nil => rfl
  | cons report rest ih => rw [hear_cons, ih, failOn_add]

theorem refusal?_eq : recorder.refusal? =
    if recorder.failOn = some recorder.calls.length then some ⟨recorder.calls.length⟩
    else none := by
  simp [refusal?, calls]

theorem sink_eq (recorder : Recorder) (report : Report) : sink report recorder =
    match (recorder.add report).refusal? with
    | some refusal => .error refusal (recorder.add report)
    | none => .ok () (recorder.add report) := by
  have called : sink report recorder =
      (match (recorder.add report).refusal? with
      | some refusal => (throw refusal : EStateM Refusal Recorder Unit)
      | none => pure ()) (recorder.add report) := rfl
  rw [called]
  cases (recorder.add report).refusal? <;> rfl

theorem sink_refused (due : recorder.failOn = some (recorder.calls.length + 1)) :
    sink report recorder = .error ⟨recorder.calls.length + 1⟩ (recorder.add report) := by
  have refusal : (recorder.add report).refusal? = some ⟨recorder.calls.length + 1⟩ := by
    simp [refusal?_eq, due]
  rw [sink_eq, refusal]

theorem sink_taken (later : recorder.failOn ≠ some (recorder.calls.length + 1)) :
    sink report recorder = .ok () (recorder.add report) := by
  have refusal : (recorder.add report).refusal? = none := by
    simp [refusal?_eq, later]
  rw [sink_eq, refusal]

/-- A call that is refused is recorded, and no call behind it is made. -/
theorem send_refused (due : recorder.failOn = some n) (later : recorder.calls.length < n)
    (within : n ≤ recorder.calls.length + reports.length) :
    Sink.send sink reports recorder =
      .error ⟨n⟩ (recorder.hear (reports.take (n - recorder.calls.length))) := by
  induction reports generalizing recorder with
  | nil =>
      rw [List.length_nil] at within
      omega
  | cons report rest ih =>
      by_cases next : n = recorder.calls.length + 1
      · subst next
        rw [Sink.send_error rest (sink_refused due)]
        simp [hear_cons]
      · have taken : sink report recorder = .ok () (recorder.add report) :=
          sink_taken (by rw [due]; simpa using next)
        have more : n - recorder.calls.length = n - (recorder.add report).calls.length + 1 := by
          rw [length_calls_add]
          omega
        rw [List.length_cons] at within
        rw [Sink.send_ok rest taken, more, List.take_succ_cons, hear_cons]
        have due : (recorder.add report).failOn = some n := due
        exact ih due (by rw [length_calls_add]; omega) (by rw [length_calls_add]; omega)

theorem send_taken (spared : ¬ recorder.RefusesWithin reports.length) :
    Sink.send sink reports recorder = .ok () (recorder.hear reports) := by
  induction reports generalizing recorder with
  | nil => rfl
  | cons report rest ih =>
      rw [List.length_cons] at spared
      have taken : sink report recorder = .ok () (recorder.add report) := by
        refine sink_taken fun due => spared ⟨_, due, ?_, ?_⟩ <;> omega
      rw [Sink.send_ok rest taken, hear_cons]
      apply ih
      intro found
      obtain ⟨n, due, later, within⟩ := found
      rw [length_calls_add] at later within
      exact spared ⟨n, due, by omega, by omega⟩

end Hearing

end Recorder

/-- A sink that has heard more reports. -/
def Object.hear : Object → List Report → Object
  | .reporter state, reports => .reporter (state.hear reports)
  | .recorder state, reports => .recorder (state.hear reports)
  | .scanner source state, _ => .scanner source state

/-- A report that a sink refuses has been heard too. -/
theorem Object.sink_hear (object : Object) (report : Report) :
    match Object.sink report object with
    | .ok _ after | .error _ after => after = object.hear [report] := by
  cases object with
  | reporter reporter => rfl
  | recorder recorder =>
      by_cases due : recorder.failOn = some (recorder.calls.length + 1)
      · simp only [Object.sink, Recorder.sink_refused due]
        rfl
      · simp only [Object.sink, Recorder.sink_taken due]
        rfl
  | scanner source state => rfl

namespace Session

section Places

variable {session : Session} {handle other : Handle} {object old new : Object}

theorem object?_setObject_self (held : session.object? handle = some old) :
    (session.setObject handle new).object? handle = some new := by
  have within : handle < session.objects.size := (Array.getElem?_eq_some_iff.mp held).1
  simp [object?, setObject, within]

theorem object?_setObject_other (apart : other ≠ handle) :
    (session.setObject handle new).object? other = session.object? other :=
  Array.getElem?_setIfInBounds_ne apart.symm

@[simp] theorem setObject_setObject :
    (session.setObject handle old).setObject handle new = session.setObject handle new := by
  simp [setObject]

@[simp] theorem object?_cleared : session.cleared.object? handle = session.object? handle := rfl

@[simp] theorem handle?_cleared (name : Text) :
    session.cleared.handle? name = session.handle? name := rfl

@[simp] theorem sinkHandle?_cleared (name : Text) :
    session.cleared.sinkHandle? name = session.sinkHandle? name := rfl

@[simp] theorem logAll_logAll (front back : List Log.Record) :
    (session.logAll front).logAll back = session.logAll (front ++ back) := by
  simp [logAll]

@[simp] theorem setObject_logAll (entries : List Log.Record) :
    (session.logAll entries).setObject handle new = (session.setObject handle new).logAll entries :=
  rfl

@[simp] theorem moved_logAll (entries : List Log.Record) (source : Text) (state : ScannerState)
    (cursor : Cursor) : (session.logAll entries).moved handle source state cursor =
      (session.moved handle source state cursor).logAll entries :=
  rfl

theorem setObject_held (held : session.object? handle = some object) :
    session.setObject handle object = session := by
  have same : session.objects.setIfInBounds handle object = session.objects := by
    apply Array.ext_getElem?
    intro place
    by_cases here : place = handle
    · subst here
      exact (object?_setObject_self held).trans held.symm
    · exact object?_setObject_other here
  rw [setObject, same]

@[simp] theorem size_push :
    (session.push object).objects.size = session.objects.size + 1 := by
  simp [push]

theorem object?_push_new : (session.push object).object? session.objects.size = some object := by
  simp [object?, push]

theorem object?_push_other (apart : handle ≠ session.objects.size) :
    (session.push object).object? handle = session.object? handle := by
  simp [object?, push, Array.getElem?_push, apart]

theorem object?_size : session.object? session.objects.size = none := Array.getElem?_size

theorem ne_size (held : session.object? handle = some old) : handle ≠ session.objects.size := by
  intro here
  subst here
  exact absurd (held.symm.trans object?_size) (by simp)

theorem object?_push_old (held : session.object? handle = some old) :
    (session.push object).object? handle = some old :=
  (object?_push_other (ne_size held)).trans held

theorem answering_held (answer : Object → Answer) (held : session.object? handle = some object) :
    session.answering handle answer = some (session, answer object) := by
  rw [answering, held]
  rfl

end Places

section Sending

variable {session : Session} {handle : Handle}

/-- What a reporter logs of reports. -/
def logged (reports : List Report) : List Log.Record :=
  reports.map fun report => (Diagnostic.ofReport report).record

theorem send_reporter {reporter : Reporter} (reports : List Report)
    (held : session.object? handle = some (.reporter reporter)) :
    (sink handle).send reports session =
      .ok () ((session.setObject handle (.reporter (reporter.hear reports))).logAll
        (logged reports)) := by
  induction reports generalizing session reporter with
  | nil =>
      have same := setObject_held held
      exact congrArg (EStateM.Result.ok ()) same.symm
  | cons report rest ih =>
      have taken : sink handle report session =
          .ok () ((session.setObject handle (.reporter (reporter.add report))).logAll
            [(Diagnostic.ofReport report).record]) := by
        rw [sink, held]
        rfl
      have held : ((session.setObject handle (.reporter (reporter.add report))).logAll
          [(Diagnostic.ofReport report).record]).object? handle =
            some (.reporter (reporter.add report)) :=
        object?_setObject_self held
      rw [Sink.send_ok rest taken, ih held]
      simp only [setObject_logAll, setObject_setObject, logAll_logAll]
      rfl

theorem send_recorder {recorder : Recorder} (reports : List Report)
    (held : session.object? handle = some (.recorder recorder)) :
    (sink handle).send reports session =
      match Recorder.sink.send reports recorder with
      | .ok _ after => .ok () (session.setObject handle (.recorder after))
      | .error refusal after => .error refusal (session.setObject handle (.recorder after)) := by
  induction reports generalizing session recorder with
  | nil =>
      have same := setObject_held held
      exact congrArg (EStateM.Result.ok ()) same.symm
  | cons report rest ih =>
      cases called : Recorder.sink report recorder with
      | ok _ next =>
          have taken : sink handle report session =
              .ok () (session.setObject handle (.recorder next)) := by
            rw [sink, held]
            simp only [Object.sink, called]
            rfl
          have held : (session.setObject handle (.recorder next)).object? handle =
              some (.recorder next) := object?_setObject_self held
          rw [Sink.send_ok rest taken, Sink.send_ok rest called, ih held]
          simp only [setObject_setObject]
      | error refusal next =>
          have refused : sink handle report session =
              .error refusal (session.setObject handle (.recorder next)) := by
            rw [sink, held]
            simp only [Object.sink, called]
          rw [Sink.send_error rest refused, Sink.send_error rest called]

end Sending

end Session

end LoxLex
