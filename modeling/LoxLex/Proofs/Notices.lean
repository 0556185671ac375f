import LoxLex.Proofs.Objects
import Mathlib.Data.List.DropRight

/-! What objects are told, and what becomes of them then.

An object is told that it is made, that a report is made to it, that it is reset or that it
has a source.  What a reporter has been told says what it keeps: the diagnostics behind the
last reset, and on its stream those of all times.  Changes to a session go in steps, each of
which makes an object or changes one, and steps can be put behind one another.
-/

namespace LoxLex

inductive Notice where
  | made (hasStream : Bool)
  | report (report : Report)
  | reset
  | source (source : Text)
deriving DecidableEq, Repr

namespace Notice

def report? : Notice → Option Report
  | .report told => some told
  | _ => none

def source? : Notice → Option Text
  | .source text => some text
  | _ => none

/-- The reports behind the last reset. -/
def sinceReset (heard : List Notice) : List Report :=
  (heard.rtakeWhile (· ≠ reset)).filterMap report?

section Heard

variable (heard : List Notice)

theorem sinceReset_report (report : Report) :
    sinceReset (heard ++ [.report report]) = sinceReset heard ++ [report] := by
  rw [sinceReset, List.rtakeWhile_concat_pos _ _ _ (by simp), List.filterMap_append, sinceReset]
  rfl

theorem sinceReset_reset : sinceReset (heard ++ [reset]) = [] := by
  rw [sinceReset, List.rtakeWhile_concat_neg _ _ _ (by simp)]
  rfl

theorem sinceReset_other {notice : Notice} (goesOn : notice ≠ reset)
    (silent : notice.report? = none) : sinceReset (heard ++ [notice]) = sinceReset heard := by
  rw [sinceReset, List.rtakeWhile_concat_pos _ _ _ (by simpa using goesOn), List.filterMap_append]
  simp [silent, sinceReset]

end Heard

/-- The last source in notices, or else the one from before. -/
def latestSource (source : Text) (notices : List Notice) : Text :=
  (notices.filterMap source?).getLast?.getD source

theorem latestSource_append (source : Text) (front back : List Notice) :
    latestSource source (front ++ back) = latestSource (latestSource source front) back := by
  simp only [latestSource, List.filterMap_append, List.getLast?_append]
  cases (back.filterMap source?).getLast? <;> rfl

end Notice

def Diagnostic.report (diagnostic : Diagnostic) : Report := ⟨diagnostic.line, diagnostic.message⟩

theorem Diagnostic.code_ofReport (report : Report) : (ofReport report).code =
    if report.message = "Unsupported character".toList then some "L001".toList
    else if report.message = "Unterminated string".toList then some "L002".toList
    else none := by
  by_cases unsupported : report.message = Fault.unsupportedCharacter.message
  · rw [ofReport, unsupported]
    rfl
  · by_cases unterminated : report.message = Fault.unterminatedString.message
    · rw [ofReport, unterminated]
      rfl
    · have neither : Fault.ofMessage? report.message = none := by
        simp [Fault.ofMessage?, Fault.all, Ne.symm unsupported, Ne.symm unterminated]
      rw [ofReport, neither]
      exact ((if_neg unsupported).trans (if_neg unterminated)).symm

namespace Reporter

/-- What a reporter becomes of a notice. -/
def heed (reporter : Reporter) : Notice → Reporter
  | .report report => reporter.add report
  | .reset => reporter.reset
  | .made _ | .source _ => reporter

def heedAll (reporter : Reporter) (notices : List Notice) : Reporter := notices.foldl heed reporter

/-- What a reporter has of all that it has been told. -/
structure Keeps (reporter : Reporter) (heard : List Notice) : Prop where
  errors : reporter.errors.map Diagnostic.report = Notice.sinceReset heard
  codes : ∀ diagnostic ∈ reporter.errors, diagnostic.code =
    if diagnostic.message = "Unsupported character".toList then some "L001".toList
    else if diagnostic.message = "Unterminated string".toList then some "L002".toList
    else none
  hadError : reporter.hadError = true ↔ reporter.errors ≠ []
  stream : ∃ hasStream said, heard = .made hasStream :: said ∧
    reporter.stream = if hasStream = true then
      some ((said.filterMap Notice.report?).flatMap fun report =>
        (Diagnostic.ofReport report).text ++ ['\n']) else none

theorem Keeps.start (hasStream : Bool) :
    Keeps { echoes := if hasStream then some [] else none } [.made hasStream] where
  errors := by cases hasStream <;> rfl
  codes _ absent := absurd absent List.not_mem_nil
  hadError := hadError_iff _
  stream := ⟨hasStream, [], rfl, by cases hasStream <;> rfl⟩

section Heeding

variable {reporter : Reporter} {heard : List Notice} {notice : Notice}

theorem Keeps.report (keeps : reporter.Keeps heard) (report : Report) :
    (reporter.add report).Keeps (heard ++ [.report report]) where
  errors := by
    rw [Notice.sinceReset_report, ← keeps.errors, errors_add, List.map_append]
    rfl
  codes diagnostic member := by
    rw [errors_add, List.mem_append, List.mem_singleton] at member
    rcases member with old | rfl
    · exact keeps.codes diagnostic old
    · exact Diagnostic.code_ofReport report
  hadError := hadError_iff _
  stream := by
    obtain ⟨hasStream, said, rfl, stream⟩ := keeps.stream
    refine ⟨hasStream, said ++ [.report report], rfl, ?_⟩
    rw [stream_add, stream, List.filterMap_append, List.flatMap_append]
    cases hasStream <;> simp [Notice.report?, Diagnostic.echo]

theorem Keeps.reset (keeps : reporter.Keeps heard) : reporter.reset.Keeps (heard ++ [.reset]) where
  errors := by
    rw [Notice.sinceReset_reset]
    rfl
  codes _ absent := absurd absent List.not_mem_nil
  hadError := hadError_iff _
  stream := by
    obtain ⟨hasStream, said, rfl, stream⟩ := keeps.stream
    have silent : Notice.reset.report? = none := rfl
    exact ⟨hasStream, said ++ [.reset], rfl, by simp [stream, silent]⟩

theorem Keeps.silent (keeps : reporter.Keeps heard) (goesOn : notice ≠ .reset)
    (silent : notice.report? = none) : reporter.Keeps (heard ++ [notice]) where
  errors := by
    rw [Notice.sinceReset_other heard goesOn silent]
    exact keeps.errors
  codes := keeps.codes
  hadError := keeps.hadError
  stream := by
    obtain ⟨hasStream, said, rfl, stream⟩ := keeps.stream
    exact ⟨hasStream, said ++ [notice], rfl, by simp [stream, silent]⟩

theorem Keeps.heed (keeps : reporter.Keeps heard) (notice : Notice) :
    (reporter.heed notice).Keeps (heard ++ [notice]) := by
  cases notice with
  | report report => exact keeps.report report
  | reset => exact keeps.reset
  | made _ => exact keeps.silent nofun rfl
  | source _ => exact keeps.silent nofun rfl

end Heeding

theorem Keeps.heedAll {reporter : Reporter} {heard : List Notice} (keeps : reporter.Keeps heard)
    (notices : List Notice) : (reporter.heedAll notices).Keeps (heard ++ notices) := by
  induction notices generalizing reporter heard with
  | nil => rwa [List.append_nil]
  | cons notice rest ih =>
      rw [List.append_cons]
      exact ih (keeps.heed notice)

theorem heedAll_append (reporter : Reporter) (front back : List Notice) :
    reporter.heedAll (front ++ back) = (reporter.heedAll front).heedAll back :=
  List.foldl_append

theorem heedAll_reports (reporter : Reporter) (reports : List Report) :
    reporter.heedAll (reports.map .report) = reporter.hear reports := by
  rw [heedAll, List.foldl_map]
  rfl

end Reporter

namespace Object

/-- What an object may become when it is told something.  What a recorder becomes depends on
the call that it refuses; the cursor of a scanner may be anywhere. -/
inductive Becomes (notices : List Notice) : Object → Object → Prop
  | reporter (reporter : Reporter) :
    Becomes notices (.reporter reporter) (.reporter (reporter.heedAll notices))
  | recorder (recorder after : Recorder) : Becomes notices (.recorder recorder) (.recorder after)
  | scanner (source : Text) (state : ScannerState) (cursor : Cursor) :
    Becomes notices (.scanner source state)
      (.scanner (Notice.latestSource source notices) { state with cursor })

/-- What an object has of all that it has been told.  A scanner has its latest source. -/
def Accounts (heard : List Notice) : Object → Prop
  | .reporter state => state.Keeps heard
  | .recorder _ => True
  | .scanner source _ => (heard.filterMap Notice.source?).getLast? = some source

section Told

variable {object middle after : Object} {heard notices more : List Notice}

theorem Becomes.refl (object : Object) : object.Becomes [] object := by
  cases object with
  | reporter reporter => exact .reporter reporter
  | recorder recorder => exact .recorder recorder recorder
  | scanner source state => exact .scanner source state state.cursor

theorem Becomes.trans (first : object.Becomes notices middle) (second : middle.Becomes more after) :
    object.Becomes (notices ++ more) after := by
  cases first with
  | reporter reporter =>
      cases second
      rw [← Reporter.heedAll_append]
      exact .reporter reporter
  | recorder _ _ =>
      cases second
      exact .recorder _ _
  | scanner source state cursor =>
      cases second
      rw [← Notice.latestSource_append]
      exact .scanner source state _

theorem Becomes.isSink (becomes : object.Becomes notices after) : after.isSink = object.isSink := by
  cases becomes <;> rfl

theorem Becomes.accounts (becomes : object.Becomes notices after)
    (accounts : object.Accounts heard) : after.Accounts (heard ++ notices) := by
  cases becomes with
  | reporter reporter => exact accounts.heedAll notices
  | recorder _ _ => trivial
  | scanner source state cursor =>
      have latest : (heard.filterMap Notice.source?).getLast? = some source := accounts
      rw [Accounts, List.filterMap_append, List.getLast?_append, latest, Notice.latestSource]
      cases (notices.filterMap Notice.source?).getLast? <;> rfl

end Told

end Object

def tell (handle : Handle) (notices : List Notice) : List (Handle × Notice) :=
  notices.map fun notice => (handle, notice)

@[simp] theorem tell_nil (handle : Handle) : tell handle [] = [] := rfl

/-- Those of the notices that are for one object. -/
def noticesTo (handle : Handle) (told : List (Handle × Notice)) : List Notice :=
  told.filterMap fun (place, notice) => if place = handle then some notice else none

section Notices

variable {handle other : Handle}

@[simp] theorem noticesTo_append (front back : List (Handle × Notice)) :
    noticesTo handle (front ++ back) = noticesTo handle front ++ noticesTo handle back :=
  List.filterMap_append

@[simp] theorem noticesTo_tell_self (notices : List Notice) :
    noticesTo handle (tell handle notices) = notices := by
  simp [noticesTo, tell, List.filterMap_map]

@[simp] theorem noticesTo_tell_other (notices : List Notice) (apart : handle ≠ other) :
    noticesTo handle (tell other notices) = [] := by
  simp [noticesTo, tell, apart.symm]

end Notices

namespace Session

/-- What the scanners of a session report to are sinks. -/
def SinksHeld (session : Session) : Prop :=
  ∀ handle source state, session.object? handle = some (.scanner source state) →
    ∃ object, session.object? state.sink = some object ∧ object.isSink = true

/-- What happens to the objects of a session when some of them are told something. -/
structure Step (before after : Session) (told : List (Handle × Notice))
    (concerned : Handle → Prop) : Prop where
  becomes : ∀ handle object, before.object? handle = some object → ∃ next,
    after.object? handle = some next ∧ object.Becomes (noticesTo handle told) next ∧
    (¬ concerned handle → next = object)
  begins : ∀ handle object, before.object? handle = none → after.object? handle = some object →
    object.Accounts (noticesTo handle told)
  silent : ∀ handle, after.object? handle = none → noticesTo handle told = []
  sinks : before.SinksHeld → after.SinksHeld

section Steps

variable {before middle after : Session} {told more : List (Handle × Notice)}
  {concerned others : Handle → Prop} {handle : Handle} {object new : Object}
  {notices : List Notice}

theorem Step.refl (same : after.objects = before.objects) :
    Step before after [] fun _ => False := by
  have same (handle : Handle) : after.object? handle = before.object? handle :=
    congrArg (·[handle]?) same
  constructor
  case becomes =>
    intro handle object held
    exact ⟨object, (same handle).trans held, .refl object, fun _ => rfl⟩
  case begins =>
    intro handle object absent held
    simp [same, absent] at held
  case silent => exact fun _ _ => rfl
  case sinks =>
    intro sinks handle source state held
    rw [same] at held ⊢
    exact sinks handle source state held

theorem Step.trans (first : Step before middle told concerned)
    (second : Step middle after more others) :
    Step before after (told ++ more) fun handle => concerned handle ∨ others handle := by
  constructor
  case becomes =>
    intro handle object held
    obtain ⟨next, seen, becomes, same⟩ := first.becomes handle object held
    obtain ⟨last, found, onward, still⟩ := second.becomes handle next seen
    refine ⟨last, found, ?_, fun apart => ?_⟩
    · rw [noticesTo_append]
      exact becomes.trans onward
    · obtain ⟨one, two⟩ := not_or.mp apart
      exact (still two).trans (same one)
  case begins =>
    intro handle object absent held
    rw [noticesTo_append]
    cases seen : middle.object? handle with
    | none =>
        rw [first.silent handle seen]
        exact second.begins handle object seen held
    | some next =>
        obtain ⟨last, found, becomes, -⟩ := second.becomes handle next seen
        cases held.symm.trans found
        exact becomes.accounts (first.begins handle next absent seen)
  case silent =>
    intro handle gone
    have seen : middle.object? handle = none := by
      cases seen : middle.object? handle with
      | none => rfl
      | some next =>
          obtain ⟨last, found, -⟩ := second.becomes handle next seen
          simp [gone] at found
    rw [noticesTo_append, first.silent handle seen, second.silent handle gone, List.append_nil]
  case sinks => exact second.sinks ∘ first.sinks

theorem Step.within (step : Step before after told concerned)
    (covered : ∀ handle object, before.object? handle = some object → concerned handle →
      others handle) : Step before after told others where
  becomes handle object held := by
    obtain ⟨next, seen, becomes, same⟩ := step.becomes handle object held
    exact ⟨next, seen, becomes, fun apart => same (apart ∘ covered handle object held)⟩
  begins := step.begins
  silent := step.silent
  sinks := step.sinks

/-- Making an object. -/
theorem Step.push (grown : after.objects = (before.push object).objects)
    (accounts : object.Accounts notices)
    (sinks : ∀ source state, object = .scanner source state →
      ∃ sunk, before.object? state.sink = some sunk ∧ sunk.isSink = true) :
    Step before after (tell before.objects.size notices) fun _ => False := by
  have same (handle : Handle) (old : handle ≠ before.objects.size) :
      after.object? handle = before.object? handle :=
    (congrArg (·[handle]?) grown).trans (object?_push_other old)
  have made : after.object? before.objects.size = some object :=
    (congrArg (·[before.objects.size]?) grown).trans object?_push_new
  constructor
  case becomes =>
    intro handle old held
    refine ⟨old, (same handle (ne_size held)).trans held, ?_, fun _ => rfl⟩
    rw [noticesTo_tell_other notices (ne_size held)]
    exact .refl old
  case begins =>
    intro handle new absent held
    by_cases here : handle = before.objects.size
    · subst here
      cases made.symm.trans held
      rw [noticesTo_tell_self]
      exact accounts
    · simp [same handle here, absent] at held
  case silent =>
    intro handle gone
    refine noticesTo_tell_other notices ?_
    intro here
    simp [here, made] at gone
  case sinks =>
    intro earlier handle source state held
    obtain ⟨sunk, old, kind⟩ : ∃ sunk, before.object? state.sink = some sunk ∧
        sunk.isSink = true := by
      by_cases here : handle = before.objects.size
      · subst here
        exact sinks source state (Option.some.inj (made.symm.trans held))
      · exact earlier handle source state ((same handle here).symm.trans held)
    exact ⟨sunk, (same _ (ne_size old)).trans old, kind⟩

/-- Changing an object. -/
theorem Step.set (changed : after.objects = (before.setObject handle new).objects)
    (held : before.object? handle = some object) (becomes : object.Becomes notices new) :
    Step before after (tell handle notices) (· = handle) := by
  have same (other : Handle) (apart : other ≠ handle) :
      after.object? other = before.object? other :=
    (congrArg (·[other]?) changed).trans (object?_setObject_other apart)
  have made : after.object? handle = some new :=
    (congrArg (·[handle]?) changed).trans (object?_setObject_self held)
  have moves (other : Handle) (old : Object) (was : before.object? other = some old) :
      ∃ next, after.object? other = some next ∧
        old.Becomes (noticesTo other (tell handle notices)) next ∧
        (¬ other = handle → next = old) := by
    by_cases here : other = handle
    · subst here
      cases held.symm.trans was
      exact ⟨new, made, by rwa [noticesTo_tell_self], (absurd rfl ·)⟩
    · refine ⟨old, (same other here).trans was, ?_, fun _ => rfl⟩
      rw [noticesTo_tell_other notices here]
      exact .refl old
  have kept (other : Handle) (absent : before.object? other = none) :
      after.object? other = none := by
    refine (same other ?_).trans absent
    intro here
    simp [here, held] at absent
  constructor
  case becomes => exact moves
  case begins =>
    intro other found absent seen
    simp [kept other absent] at seen
  case silent =>
    intro other gone
    refine noticesTo_tell_other notices ?_
    intro here
    simp [here, made] at gone
  case sinks =>
    intro earlier other source state found
    cases was : before.object? other with
    | none => simp [kept other was] at found
    | some old =>
        obtain ⟨next, seen, becomes, -⟩ := moves other old was
        cases found.symm.trans seen
        cases becomes with
        | scanner source state cursor =>
            obtain ⟨sunk, old, kind⟩ := earlier other source state was
            obtain ⟨next, seen, becomes, -⟩ := moves state.sink sunk old
            exact ⟨next, seen, becomes.isSink.trans kind⟩

end Steps

end Session

end LoxLex
