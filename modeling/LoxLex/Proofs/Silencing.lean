import LoxLex.Proofs.Listing
import LoxLex.Proofs.Prompt

/-! Runs without their listing.

A run that lists no tokens does what the run that lists them does, and its console has all the
entries of the other one but those that list tokens.  This is said of two actions side by side:
started on consoles that differ in such entries only, they end alike, on such consoles again.
-/

namespace LoxLex.Run

open Program

/-- The entry lists a token of some source text. -/
def Entry.IsToken (entry : Entry) : Prop :=
  ∃ source, ∃ token ∈ tokens source, entry = .text .out token.entry

open scoped Classical in
/-- The entries that list no tokens. -/
noncomputable def unlisted (entries : List Entry) : List Entry :=
  entries.filter fun entry => ¬ entry.IsToken

noncomputable def Console.unlisted (console : Console) : Console :=
  { console with written := Run.unlisted console.written }

/-- The second action is the first one without the entries that list tokens. -/
def Silences {α : Type} (shown hidden : Action α) : Prop :=
  ∀ console, hidden console.unlisted = match shown console with
    | .ok value after => .ok value after.unlisted
    | .error escape after => .error escape after.unlisted

section Entries

variable {entry : Entry} {entries : List Entry} {text : Text}

theorem unlisted_append (front back : List Entry) :
    unlisted (front ++ back) = unlisted front ++ unlisted back :=
  List.filter_append ..

theorem unlisted_reverse (entries : List Entry) :
    unlisted entries.reverse = (unlisted entries).reverse :=
  List.filter_reverse

theorem unlisted_eq_self (other : ∀ entry ∈ entries, ¬ entry.IsToken) :
    unlisted entries = entries :=
  List.filter_eq_self.mpr (by simpa using other)

theorem unlisted_singleton (other : ¬ entry.IsToken) : unlisted [entry] = [entry] :=
  unlisted_eq_self fun _ member => List.mem_singleton.mp member ▸ other

theorem unlisted_eq_nil (tokens : ∀ entry ∈ entries, entry.IsToken) : unlisted entries = [] :=
  List.filter_eq_nil_iff.mpr (by simpa using tokens)

theorem not_isToken_log (record : Log.Record) : ¬ (Entry.log record).IsToken := nofun

theorem not_isToken_err (text : Text) : ¬ (Entry.text .err text).IsToken := nofun

/-- What lists a token starts with the name of a kind. -/
theorem not_isToken_out {c : Char} (other : Kind.isNameChar c = false) (rest : Text) :
    ¬ (Entry.text .out (c :: rest)).IsToken := by
  rintro ⟨source, token, _, same⟩
  injection same with _ content
  have front := token.entry_append []
  rw [List.append_nil, ← content] at front
  obtain ⟨d, more, named⟩ := List.exists_cons_of_ne_nil token.kind.name_ne_nil
  have nameChar := token.kind.isNameChar_of_mem_name d (named ▸ List.mem_cons_self)
  rw [named] at front
  rw [← (List.cons.inj front).1, other] at nameChar
  contradiction

theorem unlisted_noticed (diagnostics : List Diagnostic) :
    unlisted (diagnostics.flatMap noticed) = diagnostics.flatMap noticed := by
  refine unlisted_eq_self fun entry member => ?_
  obtain ⟨diagnostic, _, noticed⟩ := List.mem_flatMap.mp member
  rcases List.mem_cons.mp noticed with rfl | echo
  · exact not_isToken_log _
  · rw [List.mem_singleton.mp echo]
    exact not_isToken_err _

theorem unlisted_listed (settings : Settings) (source : Text) :
    unlisted (listed settings (tokens source)) = [] := by
  refine unlisted_eq_nil fun entry member => ?_
  unfold listed at member
  split at member
  · obtain ⟨token, found, rfl⟩ := List.mem_map.mp member
    exact ⟨source, token, found, rfl⟩
  · contradiction

end Entries

namespace Silences

variable {α β : Type} {shown hidden : Action α} {settings silent : Settings}

theorem pure (value : α) : Silences (pure value) (pure value) := fun _ => rfl

theorem throw (escape : Escape) :
    Silences (throw escape : Action α) (throw escape : Action α) := fun _ => rfl

theorem bind {next silentNext : α → Action β} (first : Silences shown hidden)
    (rest : ∀ value, Silences (next value) (silentNext value)) :
    Silences (shown >>= next) (hidden >>= silentNext) := by
  intro console
  have started := first console
  cases ran : shown console with
  | ok value after =>
      rw [ran] at started
      rw [bind_ok ran, bind_ok started]
      exact rest value after
  | error escape after =>
      rw [ran] at started
      rw [bind_error ran, bind_error started]

/-- Actions that add to the console, the second one all but what lists tokens. -/
theorem of_extend {value : α} {errors : List Diagnostic} {entries : List Entry}
    (full : ∀ console, shown console = .ok value (console.extend errors entries))
    (less : ∀ console, hidden console = .ok value (console.extend errors (unlisted entries))) :
    Silences shown hidden := by
  intro console
  rw [full, less]
  refine congrArg (EStateM.Result.ok value) ?_
  simp only [Console.extend, Console.unlisted, unlisted_append, unlisted_reverse]

theorem write {entry : Entry} (other : ¬ entry.IsToken) :
    Silences (Run.write entry) (Run.write entry) := by
  have added (console : Console) : Run.write entry console = .ok () (console.extend [] [entry]) :=
    rfl
  exact of_extend added (by rwa [unlisted_singleton other])

theorem forgetErrors : Silences Run.forgetErrors Run.forgetErrors := fun _ => rfl

/-- What is done next may depend on the errors of the console. -/
theorem errors (next : List Diagnostic → Action β)
    (rest : ∀ errors, Silences (next errors) (next errors)) :
    Silences (get >>= fun console => next console.errors)
      (get >>= fun console => next console.errors) :=
  fun console => rest console.errors console

theorem promptStatus : Silences Run.promptStatus Run.promptStatus := by
  intro console
  rw [promptStatus_eq, promptStatus_eq]
  rfl

theorem untilInterrupted {shown hidden : Action Status} (inside : Silences shown hidden) :
    Silences (Program.untilInterrupted shown) (Program.untilInterrupted hidden) := by
  intro console
  have ended := inside console
  cases ran : shown console with
  | ok status after =>
      rw [ran] at ended
      simp only [Program.untilInterrupted, ran, ended]
  | error escape after =>
      rw [ran] at ended
      simp only [Program.untilInterrupted, ran, ended]
      cases escape with
      | interrupted => exact (write (not_isToken_err ['\n'])).bind (fun _ => pure _) after
      | nulInPath => rfl
      | malformed fault => rfl

section Settings

variable (quiet : silent.printTokens.truth = false)

include quiet

theorem runSource (settings : Settings) (source : Text) :
    Silences (Run.runSource settings source) (Run.runSource silent source) := by
  refine of_extend (runSource_eq settings source) fun console => ?_
  rw [runSource_eq]
  have none : listed silent (tokens source) = [] := if_neg (ne_true_of_eq_false quiet)
  have record := unlisted_singleton (not_isToken_log (scannedRecord (tokens source)))
  have less : unlisted (sourceEntries settings source) = sourceEntries silent source := by
    rw [sourceEntries, sourceEntries, ← List.singleton_append, unlisted_append, unlisted_append,
      unlisted_noticed, unlisted_listed, record, none, List.append_nil]
  rw [less]

theorem runFile (settings : Settings) (channel : Text) (disk : Disk) (path : Text) :
    Silences (Run.runFile channel disk settings path) (Run.runFile channel disk silent path) := by
  unfold Run.runFile
  cases disk.load path with
  | ok source =>
      let next (errors : List Diagnostic) : Action Status :=
        if errors.isEmpty then Pure.pure .success
        else writeLog (fileRecord channel path errors.length) >>= fun _ => Pure.pure .dataError
      refine (runSource quiet settings source).bind fun _ => errors next fun errors => ?_
      unfold next
      split
      · exact pure _
      · exact (write (not_isToken_log _)).bind fun _ => pure _
  | error failure =>
    cases failure with
    | refused reason => exact (write (not_isToken_err _)).bind fun _ => pure _
    | nulInPath => exact throw _
    | malformed fault => exact throw _

variable (prompts : silent.prompt = settings.prompt)
  (resets : silent.resetErrorsPerLine = settings.resetErrorsPerLine)

include resets

theorem answerLine (line : Text) :
    Silences (Run.answerLine settings line) (Run.answerLine silent line) := by
  unfold Run.answerLine
  rw [resets]
  refine (runSource quiet settings line).bind fun _ => ?_
  split
  · exact forgetErrors
  · exact pure ()

include prompts

theorem promptLines (plainPrompt : ¬ (Entry.text .out settings.prompt.plain).IsToken)
    (limit : Option Nat) (lines : List Text) :
    Silences (Run.promptLines settings limit lines) (Run.promptLines silent limit lines) := by
  have prompted : Silences (writePrompt settings) (writePrompt silent) := by
    unfold writePrompt
    rw [prompts]
    exact write plainPrompt
  -- The read is interrupted in both runs or in neither, since they have the same limit.
  induction lines generalizing limit with
  | nil =>
      have ending : Silences (writeText .out ['\n']) (writeText .out ['\n']) :=
        write (not_isToken_out rfl [])
      unfold Run.promptLines
      refine prompted.bind fun _ => ?_
      dsimp only
      split
      · exact (throw _).bind fun _ => ending
      · exact ending
  | cons line rest ih =>
      have answer := (answerLine quiet resets line).bind fun _ => ih (limit.map (· - 1))
      unfold Run.promptLines
      refine prompted.bind fun _ => ?_
      dsimp only
      split
      · exact (throw _).bind fun _ => answer
      · exact answer

theorem runPrompt (plainPrompt : ¬ (Entry.text .out settings.prompt.plain).IsToken)
    (limit : Option Nat) (input : Text) :
    Silences (Run.runPrompt settings limit input) (Run.runPrompt silent limit input) :=
  (promptLines quiet prompts resets plainPrompt limit (Text.lines input)).bind fun _ =>
    promptStatus

end Settings

/-- The program with and without its listing. -/
theorem action (invocation : Invocation) (around : Surroundings) (options : CommandLine.Options) :
    Silences (Program.action invocation around { options with noTokens := false })
      (Program.action invocation around { options with noTokens := true }) := by
  let settings := settingsOf { options with noTokens := false }
  let silent := settingsOf { options with noTokens := true }
  have quiet : silent.printTokens.truth = false := rfl
  have prompts : silent.prompt = settings.prompt := rfl
  have resets : silent.resetErrorsPerLine = settings.resetErrorsPerLine := rfl
  have prompt : ¬ (Entry.text .out settings.prompt.plain).IsToken :=
    not_isToken_out (rfl : Kind.isNameChar '>' = false) [' ']
  unfold Program.action
  cases options.scripts with
  | nil =>
      exact untilInterrupted
        (runPrompt quiet prompts resets prompt around.limit around.input)
  | cons path more =>
    cases more with
    | nil => exact untilInterrupted (runFile quiet settings invocation.channel around.disk path)
    | cons other rest => exact (write (not_isToken_err _)).bind fun _ => pure _

end Silences

theorem outcome_unlisted {α : Type} {shown hidden : Action α} (silences : Silences shown hidden) :
    outcome hidden = ⟨unlisted (outcome shown).written, (outcome shown).result⟩ := by
  have ended := silences {}
  have start : Console.unlisted {} = {} := rfl
  rw [start] at ended
  cases ran : shown {} with
  | ok value after =>
      rw [ran] at ended
      rw [outcome_ok ran, outcome_ok ended, unlisted_reverse]
      rfl
  | error escape after =>
      rw [ran] at ended
      rw [outcome_error ran, outcome_error ended, unlisted_reverse]
      rfl

end LoxLex.Run
