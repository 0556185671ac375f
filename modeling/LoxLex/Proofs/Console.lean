import LoxLex.Run

/-! What the actions of a run do to its console.

An action that comes to its end adds diagnostics and entries to the console and reads
nothing of what is there already.  `Console.extend` is all that it does, and each action
has one equation that says what it adds.
-/

namespace LoxLex.Run

/-- A console with more diagnostics and more entries behind those that it has. -/
def Console.extend (console : Console) (errors : List Diagnostic) (entries : List Entry) :
    Console where
  errors := errors.reverse ++ console.errors
  written := entries.reverse ++ console.written

def noticed (diagnostic : Diagnostic) : List Entry :=
  [.log diagnostic.record, .text .err diagnostic.echo]

def listed (settings : Settings) (tokens : List Token) : List Entry :=
  if settings.printTokens.truth then tokens.map fun token => .text .out (token.listing ++ ['\n'])
  else []

/-- What is written of a source text. -/
def sourceEntries (settings : Settings) (source : Text) : List Entry :=
  (diagnostics source).flatMap noticed ++
    .log (scannedRecord (tokens source)) :: listed settings (tokens source)

def Entry.text? : Entry → Option (Stream × Text)
  | text stream content => some (stream, content)
  | log _ => none

/-- The texts among entries, each with the stream that it is for. -/
def writes (entries : List Entry) : List (Stream × Text) := entries.filterMap Entry.text?

section Extend

variable {console : Console} {errors moreErrors : List Diagnostic}
  {entries moreEntries : List Entry}

@[simp] theorem Console.extend_extend :
    (console.extend errors entries).extend moreErrors moreEntries =
      console.extend (errors ++ moreErrors) (entries ++ moreEntries) := by
  simp [Console.extend]

theorem writes_append (front back : List Entry) :
    writes (front ++ back) = writes front ++ writes back :=
  List.filterMap_append

theorem writes_extend :
    writes (console.extend errors entries).written.reverse =
      writes console.written.reverse ++ writes entries := by
  rw [← writes_append]
  simp [Console.extend]

end Extend

section Actions

variable {settings : Settings} {console : Console}

theorem writeText_eq (stream : Stream) (text : Text) (console : Console) :
    writeText stream text console = .ok () (console.extend [] [.text stream text]) := rfl

theorem writeLog_eq (entry : Log.Record) (console : Console) :
    writeLog entry console = .ok () (console.extend [] [.log entry]) := rfl

theorem report_eq (report : Report) (console : Console) :
    Run.report report console =
      .ok () (console.extend [.ofReport report] (noticed (.ofReport report))) := rfl

theorem bind_ok {α β : Type} {action : Action α} {next : α → Action β} {value : α}
    {console after : Console} (done : action console = .ok value after) :
    (action >>= next) console = next value after := by
  simp only [bind, EStateM.bind, done]

theorem bind_error {α β : Type} {action : Action α} {next : α → Action β} {escape : Escape}
    {console after : Console} (stopped : action console = .error escape after) :
    (action >>= next) console = .error escape after := by
  simp only [bind, EStateM.bind, stopped]

/-- A scan hands all its reports on to the console, and none of them stops it. -/
theorem deliver_eq (events : List Event) (console : Console) :
    deliver Run.report events console =
      .ok (events.filterMap Event.token?)
        (console.extend ((events.filterMap Event.report?).map .ofReport)
          (((events.filterMap Event.report?).map .ofReport).flatMap noticed)) := by
  induction events generalizing console with
  | nil => rfl
  | cons event rest ih =>
      cases event with
      | token token => rw [deliver_token, ih]; rfl
      | report report =>
          rw [deliver_report, report_eq]
          simp only [ih, Console.extend_extend]
          rfl

theorem scanInto_eq (text : Text) (console : Console) :
    scanInto Run.report text console =
      .ok (tokens text)
        (console.extend (diagnostics text) ((diagnostics text).flatMap noticed)) :=
  deliver_eq (events text) console

theorem forM_writeText {α : Type} (stream : Stream) (content : α → Text) (items : List α)
    (console : Console) :
    (items.forM fun item => writeText stream (content item)) console =
      .ok () (console.extend [] (items.map fun item => .text stream (content item))) := by
  induction items generalizing console with
  | nil => rfl
  | cons item rest ih =>
      rw [List.forM_eq_forM, List.forM_cons, bind_ok (writeText_eq ..), ← List.forM_eq_forM, ih,
        Console.extend_extend]
      rfl

theorem listTokens_eq (settings : Settings) (tokens : List Token) (console : Console) :
    listTokens settings tokens console = .ok () (console.extend [] (listed settings tokens)) := by
  unfold listTokens listed
  split
  · exact forM_writeText ..
  · rfl

theorem runSource_eq (settings : Settings) (source : Text) (console : Console) :
    runSource settings source console =
      .ok () (console.extend (diagnostics source) (sourceEntries settings source)) := by
  unfold runSource
  rw [bind_ok (scanInto_eq ..), bind_ok (writeLog_eq ..), listTokens_eq, Console.extend_extend,
    Console.extend_extend]
  simp [sourceEntries]

end Actions

theorem outcome_ok {α : Type} {action : Action α} {value : α} {console : Console}
    (done : action {} = .ok value console) :
    outcome action = ⟨console.written.reverse, .ok value⟩ := by
  rw [outcome, done]

theorem outcome_error {α : Type} {action : Action α} {escape : Escape} {console : Console}
    (stopped : action {} = .error escape console) :
    outcome action = ⟨console.written.reverse, .error escape⟩ := by
  rw [outcome, stopped]

theorem writes_noticed (diagnostics : List Diagnostic) :
    writes (diagnostics.flatMap noticed) =
      diagnostics.map fun diagnostic => (.err, diagnostic.echo) := by
  induction diagnostics with
  | nil => rfl
  | cons diagnostic rest ih =>
      rw [List.flatMap_cons, writes_append, ih]
      rfl

theorem writes_listed (settings : Settings) (tokens : List Token) :
    writes (listed settings tokens) =
      if settings.printTokens.truth then
        tokens.map fun token => (.out, token.listing ++ ['\n'])
      else [] := by
  unfold writes listed
  split
  · rw [List.filterMap_map, ← List.filterMap_eq_map]
    rfl
  · rfl

theorem writes_sourceEntries (settings : Settings) (source : Text) :
    writes (sourceEntries settings source) =
      ((diagnostics source).map fun diagnostic => (.err, diagnostic.echo)) ++
        if settings.printTokens.truth then
          (tokens source).map fun token => (.out, token.listing ++ ['\n'])
        else [] := by
  rw [sourceEntries, writes_append, writes_noticed, ← writes_listed]
  rfl

end LoxLex.Run
