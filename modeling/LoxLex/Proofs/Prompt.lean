import LoxLex.Program
import LoxLex.Proofs.Console

namespace LoxLex.Run

/-- What is shown for one line of a session, from the prompt on. -/
def exchange (prompt : Text) (listing : Bool) (line : Text) : List (Stream × Text) :=
  (.out, prompt) :: ((diagnostics line).map fun diagnostic => (.err, diagnostic.text ++ ['\n'])) ++
    if listing then (tokens line).map fun token => (.out, token.listing ++ ['\n']) else []

def answered (settings : Settings) (console : Console) (line : Text) : Console :=
  let after := console.extend (diagnostics line)
    (.text .out settings.prompt.plain :: sourceEntries settings line)
  if settings.resetErrorsPerLine.truth then { after with errors := [] } else after

section Session

variable {settings : Settings} {console : Console} {line : Text} {lines rest : List Text}
  {limit : Option Nat} {n : Nat}

theorem writePrompt_eq (settings : Settings) (console : Console) :
    writePrompt settings console =
      .ok () (console.extend [] [.text .out settings.prompt.plain]) := rfl

theorem promptLines_stopped (settings : Settings) (lines : List Text) (console : Console) :
    promptLines settings (some 0) lines console =
      .error .interrupted (console.extend [] [.text .out settings.prompt.plain]) := by
  cases lines <;> rfl

theorem promptLines_end (settings : Settings) (console : Console) :
    promptLines settings none [] console =
      .ok () (console.extend [] [.text .out settings.prompt.plain, .text .out ['\n']]) := rfl

theorem answerLine_eq (settings : Settings) (line : Text) (console : Console) :
    answerLine settings line (console.extend [] [.text .out settings.prompt.plain]) =
      .ok () (answered settings console line) := by
  unfold answerLine answered
  rw [bind_ok (runSource_eq ..), Console.extend_extend]
  split <;> rfl

theorem promptLines_cons (reading : limit ≠ some 0) (line : Text) (rest : List Text)
    (console : Console) :
    promptLines settings limit (line :: rest) console =
      promptLines settings (limit.map (· - 1)) rest (answered settings console line) := by
  rw [promptLines, bind_ok (writePrompt_eq ..)]
  simp only [reading, if_false]
  exact bind_ok (answerLine_eq ..)

theorem promptLines_ended (settings : Settings) (lines : List Text) (console : Console) :
    promptLines settings none lines console =
      .ok () ((lines.foldl (answered settings) console).extend []
        [.text .out settings.prompt.plain, .text .out ['\n']]) := by
  induction lines generalizing console with
  | nil => exact promptLines_end settings console
  | cons line rest ih =>
      rw [promptLines_cons (by simp)]
      exact ih _

theorem promptLines_interrupted (settings : Settings) (console : Console)
    (within : n ≤ lines.length) :
    promptLines settings (some n) lines console =
      .error .interrupted (((lines.take n).foldl (answered settings) console).extend []
        [.text .out settings.prompt.plain]) := by
  induction lines generalizing n console with
  | nil =>
      obtain rfl : n = 0 := Nat.le_zero.mp within
      exact promptLines_stopped settings [] console
  | cons line rest ih =>
      cases n with
      | zero => exact promptLines_stopped settings (line :: rest) console
      | succ n =>
          rw [promptLines_cons (by simp)]
          exact ih _ (Nat.le_of_succ_le_succ within)

end Session

section Views

variable {settings : Settings} {console : Console}

theorem answered_written (settings : Settings) (console : Console) (line : Text) :
    (answered settings console line).written =
      (.text .out settings.prompt.plain :: sourceEntries settings line).reverse ++
        console.written := by
  unfold answered
  split <;> rfl

theorem exchange_eq (settings : Settings) (line : Text) :
    writes (.text .out settings.prompt.plain :: sourceEntries settings line) =
      exchange settings.prompt.plain settings.printTokens.truth line := by
  have shown := writes_sourceEntries settings line
  rw [exchange, ← List.singleton_append, writes_append, shown]
  rfl

theorem writes_answered (settings : Settings) (lines : List Text) (console : Console) :
    writes (lines.foldl (answered settings) console).written.reverse =
      writes console.written.reverse ++
        lines.flatMap (exchange settings.prompt.plain settings.printTokens.truth) := by
  induction lines generalizing console with
  | nil => simp
  | cons line rest ih =>
      rw [List.foldl_cons, ih, answered_written, List.reverse_append, List.reverse_reverse,
        writes_append, exchange_eq, List.flatMap_cons, List.append_assoc]

theorem errors_forgotten (forgets : settings.resetErrorsPerLine.truth = true)
    (lines : List Text) (none : console.errors = []) :
    (lines.foldl (answered settings) console).errors = [] := by
  induction lines generalizing console with
  | nil => exact none
  | cons line rest ih =>
      apply ih
      simp [answered, forgets]

theorem errors_kept (keeps : settings.resetErrorsPerLine.truth = false) (lines : List Text)
    (console : Console) :
    (lines.foldl (answered settings) console).errors =
      (lines.flatMap diagnostics).reverse ++ console.errors := by
  induction lines generalizing console with
  | nil => rfl
  | cons line rest ih =>
      rw [List.foldl_cons, ih]
      simp [answered, keeps, Console.extend]

theorem errors_eq_nil_iff (settings : Settings) (lines : List Text) :
    (lines.foldl (answered settings) {}).errors = [] ↔
      ¬ (settings.resetErrorsPerLine.truth = false ∧ ∃ line ∈ lines, diagnostics line ≠ []) := by
  cases resets : settings.resetErrorsPerLine.truth with
  | true => simp [errors_forgotten resets]
  | false => simp [errors_kept resets]

end Views

theorem promptStatus_eq (console : Console) :
    promptStatus console =
      .ok (if console.errors.isEmpty then .success else .dataError) console := by
  change (if console.errors.isEmpty then (pure .success : Action Status) else pure .dataError)
    console = _
  split <;> rfl

/-- What a session to the end of its input shows, and its status. -/
theorem runPrompt_ended (settings : Settings) (input : Text) :
    let ended := outcome (runPrompt settings none input)
    writes ended.written =
        (Text.lines input).flatMap (exchange settings.prompt.plain settings.printTokens.truth) ++
          [(.out, settings.prompt.plain), (.out, ['\n'])] ∧
      ended.result =
        .ok (if settings.resetErrorsPerLine.truth = false ∧
          ∃ line ∈ Text.lines input, diagnostics line ≠ [] then .dataError else .success) := by
  intro ended
  have answers := promptLines_ended settings (Text.lines input) {}
  have finished : ended = _ := outcome_ok ((bind_ok answers).trans (promptStatus_eq _))
  rw [finished]
  constructor
  · rw [writes_extend, writes_answered]
    rfl
  · simp only [Console.extend, List.reverse_nil, List.nil_append, List.isEmpty_iff,
      errors_eq_nil_iff, ite_not]

theorem runPrompt_interrupted (settings : Settings) {input : Text} {n : Nat}
    (within : n ≤ (Text.lines input).length) :
    runPrompt settings (some n) input {} =
      .error .interrupted ((((Text.lines input).take n).foldl (answered settings) {}).extend []
        [.text .out settings.prompt.plain]) := by
  rw [runPrompt, bind_error (promptLines_interrupted settings {} within)]

theorem untilInterrupted_eq {action : Action Status} {console : Console}
    (stopped : action {} = .error .interrupted console) :
    outcome (Program.untilInterrupted action) =
      ⟨console.written.reverse ++ [.text .err ['\n']], .ok .success⟩ := by
  have caught : Program.untilInterrupted action {} =
      .ok .success (console.extend [] [.text .err ['\n']]) := by
    rw [Program.untilInterrupted, stopped]
    rfl
  rw [outcome_ok caught]
  simp [Console.extend]

/-- What the program does without a script, when the prompt is interrupted. -/
theorem run_interrupted (invocation : Program.Invocation) (disk : Disk) {input : Text} {n : Nat}
    {arguments : List Text} {options : CommandLine.Options}
    (parsed : CommandLine.parse arguments = .ok options) (prompts : options.scripts = [])
    (within : n ≤ (Text.lines input).length) :
    Program.run invocation ⟨disk, input, some n⟩ arguments =
      ⟨transcript options.verbose
          ((outcome (runPrompt (Program.settingsOf options) (some n) input)).written ++
            [.text .err ['\n']]),
        .ok (invocation.finish .success)⟩ := by
  have stopped := runPrompt_interrupted (Program.settingsOf options) within
  have chosen : Program.action invocation ⟨disk, input, some n⟩ options =
      Program.untilInterrupted (runPrompt (Program.settingsOf options) (some n) input) := by
    rw [Program.action, prompts]
  rw [Program.run, parsed, outcome_error stopped]
  simp only [chosen, untilInterrupted_eq stopped]
  rfl

/-- A session shows the exchanges of its lines one after another, and then a last prompt;
its status tells whether diagnostics were kept.  Interrupted after some lines, it has
shown just these, and the program ends with success. -/
theorem prompt_session (settings : Settings) (input : Text) :
    let shown := exchange settings.prompt.plain settings.printTokens.truth
    let ended := outcome (runPrompt settings none input)
    writes ended.written =
        (Text.lines input).flatMap shown ++ [(.out, settings.prompt.plain), (.out, ['\n'])] ∧
      ended.result.map Status.code =
        .ok (if settings.resetErrorsPerLine.truth = false ∧
          ∃ line ∈ Text.lines input, diagnostics line ≠ [] then 65 else 0) ∧
      ∀ n ≤ (Text.lines input).length,
        let stopped := outcome (runPrompt settings (some n) input)
        writes stopped.written =
            ((Text.lines input).take n).flatMap shown ++ [(.out, settings.prompt.plain)] ∧
          stopped.result = .error .interrupted ∧
          ∀ (invocation : Program.Invocation) (disk : Disk) (arguments : List Text)
            (options : CommandLine.Options), CommandLine.parse arguments = .ok options →
            options.scripts = [] → settings = Program.settingsOf options →
            settings.resetErrorsPerLine.truth = true ∧
              Program.run invocation ⟨disk, input, some n⟩ arguments =
                ⟨transcript options.verbose (stopped.written ++ [.text .err ['\n']]),
                  .ok (invocation.finish .success)⟩ ∧
              (invocation.finish .success).code = 0 := by
  intro shown ended
  obtain ⟨written, result⟩ := runPrompt_ended settings input
  refine ⟨written, ?_, fun n within => ?_⟩
  · rw [result, Except.map]
    split <;> rfl
  · rw [outcome_error (runPrompt_interrupted settings within)]
    refine ⟨?_, rfl, ?_⟩
    · rw [writes_extend, writes_answered]
      rfl
    · rintro invocation disk arguments options parsed prompts rfl
      have interrupted := run_interrupted invocation disk parsed prompts within
      rw [outcome_error (runPrompt_interrupted _ within)] at interrupted
      refine ⟨rfl, interrupted, ?_⟩
      cases invocation <;> rfl

theorem prompt_session_interrupted_by_verbose_run :
    let input : Text := ['1', ' ', '@', '\n', '"']
    let settings : Settings := { logLevel := .text "DEBUG".toList }
    let stopped := outcome (runPrompt settings (some 1) input)
    1 ≤ (Text.lines input).length ∧ CommandLine.parse [['-', 'v']] = .ok { verbose := true } ∧
      writes stopped.written =
        [['1', ' ', '@', '\n']].flatMap (exchange ['>', ' '] true) ++ [(.out, ['>', ' '])] ∧
      stopped.result = .error .interrupted ∧
      Program.run .called ⟨fun _ => .error .notFound, input, some 1⟩ [['-', 'v']] =
        ⟨transcript true (stopped.written ++ [.text .err ['\n']]), .ok (.returned 0)⟩ := by
  intro input settings stopped
  have within : 1 ≤ (Text.lines input).length := by decide
  have parsed : CommandLine.parse [['-', 'v']] = .ok { verbose := true } := rfl
  obtain ⟨written, result, ends⟩ := (prompt_session settings input).2.2 1 within
  obtain ⟨_, interrupted, _⟩ :=
    ends .called (fun _ => .error .notFound) [['-', 'v']] _ parsed rfl rfl
  exact ⟨within, parsed, written, result, interrupted⟩

end LoxLex.Run
