import LoxLex.Proofs.Silencing

namespace LoxLex

open Run Program

/-- A step that commutes with a map makes the fold commute with it. -/
theorem foldlM_map {α β ε : Type} {step : α → β → Except ε α} {turn : α → α}
    (turns : ∀ state item, step (turn state) item = (step state item).map turn)
    (items : List β) (state : α) :
    items.foldlM step (turn state) = (items.foldlM step state).map turn := by
  induction items generalizing state with
  | nil => rfl
  | cons item rest ih =>
      rw [List.foldlM_cons, List.foldlM_cons, turns]
      cases step state item with
      | error reason => rfl
      | ok after => exact ih after

namespace CommandLine

/-- A change to the options that is the same before and behind every argument. -/
structure Commutes (turn : Options → Options) : Prop where
  flag : ∀ options flag, applyFlag (turn options) flag = (applyFlag options flag).map turn
  operand : ∀ options argument,
    turn { options with scripts := options.scripts ++ [argument] } =
      { turn options with scripts := (turn options).scripts ++ [argument] }

def Progress.turned (turn : Options → Options) (progress : Progress) : Progress :=
  { progress with options := turn progress.options }

theorem Progress.advance_option (progress : Progress) (argument : Text) (flag : Flag)
    (isShort : Bool) (value : Option Text) :
    progress.advance argument (.option flag isShort value) =
      (flagsOf flag isShort value).mapError .usage >>= fun flags =>
        flags.foldlM applyFlag progress.options >>= fun options =>
          pure { progress.endGroup with options := options } := rfl

def Progress.advanceAll (progress : Progress) (readings : List (Text × Reading)) :
    Except Stop Progress :=
  readings.foldlM (fun progress item => progress.advance item.1 item.2) progress

/-- The options at the end of the arguments, if none is left over. -/
def Progress.finish (progress : Progress) : Except Stop Options :=
  if progress.leftovers.isEmpty then .ok progress.options
  else .error (.usage (.unrecognized progress.leftovers))

theorem parse_eq (arguments : List Text) :
    parse arguments = (readAll arguments).mapError .usage >>= fun readings =>
      Progress.advanceAll {} readings >>= Progress.finish := rfl

section Turn

variable {turn : Options → Options}

theorem commutes_noTokens : Commutes fun options => { options with noTokens := true } where
  flag _ flag := by cases flag <;> rfl
  operand _ _ := rfl

theorem commutes_verbose : Commutes fun options => { options with verbose := true } where
  flag _ flag := by cases flag <;> rfl
  operand _ _ := rfl

theorem Progress.turned_endGroup (turn : Options → Options) (progress : Progress) :
    (progress.turned turn).endGroup = progress.endGroup.turned turn := by
  unfold endGroup turned
  split <;> rfl

theorem Progress.turned_advance (commutes : Commutes turn) (progress : Progress)
    (argument : Text) (reading : Reading) :
    (progress.turned turn).advance argument reading =
      (progress.advance argument reading).map (turned turn) := by
  cases reading with
  | operand =>
      refine congrArg Except.ok ?_
      unfold takeOperand turned
      dsimp only
      split
      · rfl
      · rw [commutes.operand]
  | separator =>
      refine congrArg Except.ok ?_
      unfold takeSeparator turned
      dsimp only
      split <;> rfl
  | unknown =>
      change Except.ok ((progress.turned turn).endGroup.leave argument) = _
      rw [turned_endGroup]
      rfl
  | option flag isShort value =>
      rw [advance_option, advance_option]
      cases (flagsOf flag isShort value).mapError Stop.usage with
      | error stop => rfl
      | ok flags =>
          change (flags.foldlM applyFlag (turn progress.options) >>= _) =
            (flags.foldlM applyFlag progress.options >>= _).map _
          rw [foldlM_map commutes.flag, turned_endGroup]
          cases flags.foldlM applyFlag progress.options with
          | error stop => rfl
          | ok options => rfl

theorem Progress.turned_advanceAll (commutes : Commutes turn) (progress : Progress)
    (readings : List (Text × Reading)) :
    (progress.turned turn).advanceAll readings =
      (progress.advanceAll readings).map (turned turn) :=
  foldlM_map (fun progress item => turned_advance commutes progress item.1 item.2) readings progress

theorem Progress.turned_finish (turn : Options → Options) (progress : Progress) :
    (progress.turned turn).finish = progress.finish.map turn := by
  unfold finish turned
  dsimp only
  split <;> rfl

/-- An argument that turns something on does so in front of any others, and does nothing else. -/
theorem parse_turned (commutes : Commutes turn) {spelling : Text} {flag : Flag} {isShort : Bool}
    (reads : readArgument spelling = .ok (.option flag isShort none))
    (single : spelling ≠ ['-', '-']) (turns : applyFlag {} flag = .ok (turn {}))
    (arguments : List Text) : parse (spelling :: arguments) = (parse arguments).map turn := by
  have first (readings : List (Text × Reading)) :
      Progress.advanceAll {} ((spelling, .option flag isShort none) :: readings) =
        (({} : Progress).turned turn).advanceAll readings := by
    change ((applyFlag {} flag >>= _) >>= _) >>= _ = _
    rw [turns]
    rfl
  rw [parse_eq, parse_eq, readAll, if_neg single, reads]
  cases readAll arguments with
  | error reason => rfl
  | ok readings =>
      change Progress.advanceAll {} (_ :: readings) >>= Progress.finish =
        Except.map turn (Progress.advanceAll {} readings >>= Progress.finish)
      rw [first, Progress.turned_advanceAll commutes]
      cases Progress.advanceAll {} readings with
      | error stop => rfl
      | ok progress => exact progress.turned_finish turn

end Turn

end CommandLine

namespace Run

/-- The part of a chunk that is for a stream. -/
def contribution (stream : Stream) (chunk : Stream × Text) : Text :=
  if chunk.1 = stream then chunk.2 else []

/-- Whether the entry is a log record. -/
def Entry.isRecord : Entry → Bool
  | .text _ _ => false
  | .log _ => true

section Texts

variable {stream : Stream} {entries : List Entry}

theorem contribution_empty {chunk : Stream × Text} (empty : chunk.2 = []) (stream : Stream) :
    contribution stream chunk = [] := by
  unfold contribution
  rw [empty, ite_self]

/-- Joining neighbours of one stream moves no text to the other. -/
theorem flatMap_joinChunk (stream : Stream) (chunk : Stream × Text)
    (chunks : List (Stream × Text)) :
    (joinChunk chunk chunks).flatMap (contribution stream) =
      contribution stream chunk ++ chunks.flatMap (contribution stream) := by
  unfold joinChunk
  split
  · rename_i empty
    rw [contribution_empty empty, List.nil_append]
  · cases chunks with
    | nil => rfl
    | cons next more =>
        dsimp only
        split
        · rename_i same
          rw [List.flatMap_cons, List.flatMap_cons, ← List.append_assoc]
          congr 1
          unfold contribution
          rw [same]
          split <;> rfl
        · rfl

theorem flatMap_transcript (verbose : Bool) (stream : Stream) (entries : List Entry) :
    (transcript verbose entries).flatMap (contribution stream) =
      streamText verbose stream entries := by
  unfold transcript
  induction entries with
  | nil => rfl
  | cons entry rest ih =>
      rw [List.map_cons, List.foldr_cons, flatMap_joinChunk, ih]
      rfl

theorem streamText_cons (verbose : Bool) (stream : Stream) (entry : Entry) (rest : List Entry) :
    streamText verbose stream (entry :: rest) =
      contribution stream (entry.shown verbose) ++ streamText verbose stream rest := rfl

/-- Entries that nothing is shown of on a stream can be left out. -/
theorem streamText_filter {verbose : Bool} {keeps : Entry → Bool}
    (silent : ∀ entry, keeps entry = false → contribution stream (entry.shown verbose) = [])
    (entries : List Entry) :
    streamText verbose stream (entries.filter keeps) = streamText verbose stream entries := by
  induction entries with
  | nil => rfl
  | cons entry rest ih =>
      rw [streamText_cons, List.filter_cons]
      cases kept : keeps entry with
      | true => rw [if_pos rfl, streamText_cons, ih]
      | false => rw [if_neg Bool.false_ne_true, silent entry kept, List.nil_append, ih]

theorem streamText_err_unlisted (verbose : Bool) (entries : List Entry) :
    streamText verbose .err (unlisted entries) = streamText verbose .err entries := by
  refine streamText_filter (fun entry dropped => ?_) entries
  obtain ⟨_, _, _, rfl⟩ : entry.IsToken := by simpa using dropped
  rfl

/-- Without logging, what is shown is what would be shown with it of all but the records. -/
theorem streamText_unlogged (stream : Stream) (entries : List Entry) :
    streamText false stream entries =
      streamText true stream (entries.filter (! ·.isRecord)) := by
  induction entries with
  | nil => rfl
  | cons entry rest ih =>
      cases entry with
      | text written content =>
          rw [streamText_cons, List.filter_cons_of_pos rfl, streamText_cons, ih]
          rfl
      | log record =>
          rw [streamText_cons, List.filter_cons_of_neg Bool.false_ne_true, ih,
            contribution_empty rfl stream]
          rfl

end Texts

section Level

variable (settings : Settings) (level : Value)

theorem promptLines_logLevel (limit : Option Nat) (lines : List Text) :
    promptLines { settings with logLevel := level } limit lines =
      promptLines settings limit lines := by
  induction lines generalizing limit with
  | nil => rfl
  | cons line rest ih =>
      unfold promptLines
      dsimp only
      rw [ih]
      rfl

theorem runPrompt_logLevel (limit : Option Nat) (input : Text) :
    runPrompt { settings with logLevel := level } limit input =
      runPrompt settings limit input := by
  unfold runPrompt
  rw [promptLines_logLevel]

end Level

end Run

namespace Program

/-- All that a run has written on a stream. -/
def Ending.text (ending : Ending) (stream : Stream) : Text :=
  ending.transcript.flatMap (contribution stream)

section Accepted

variable {invocation : Invocation} {around : Surroundings} {options : CommandLine.Options}
  {arguments : List Text}

/-- No action looks at the flag for logging. -/
theorem action_verbose (invocation : Invocation) (around : Surroundings)
    (options : CommandLine.Options) (verbose : Bool) :
    action invocation around { options with verbose := verbose } =
      action invocation around options := by
  unfold action
  cases options.scripts with
  | nil =>
      exact congrArg untilInterrupted
        (runPrompt_logLevel (settingsOf options) _ around.limit around.input)
  | cons path more =>
    cases more with
    | nil => rfl
    | cons other rest => rfl

theorem run_accepted (parsed : CommandLine.parse arguments = .ok options) :
    let went := outcome (action invocation around options)
    (run invocation around arguments).result = went.result.map invocation.finish ∧
      ∀ stream, (run invocation around arguments).text stream =
        streamText options.verbose stream went.written := by
  intro went
  rw [run, parsed]
  exact ⟨rfl, fun stream => flatMap_transcript options.verbose stream went.written⟩

/-- A run with its listing beside the same run without it. -/
theorem run_noTokens {plain quiet : List Text}
    (parsed : CommandLine.parse plain = .ok { options with noTokens := false })
    (quieted : CommandLine.parse quiet = .ok { options with noTokens := true }) :
    let shown := run invocation around plain
    let hidden := run invocation around quiet
    let entries := (outcome (action invocation around { options with noTokens := false })).written
    hidden.result = shown.result ∧ hidden.text .err = shown.text .err ∧
      shown.text .out = streamText options.verbose .out entries ∧
      hidden.text .out = streamText options.verbose .out (unlisted entries) := by
  intro shown hidden entries
  have silenced := outcome_unlisted (Silences.action invocation around options)
  obtain ⟨result, texts⟩ : shown.result = _ ∧ ∀ stream, shown.text stream = _ :=
    run_accepted parsed
  obtain ⟨quietResult, quietTexts⟩ : hidden.result = _ ∧ ∀ stream, hidden.text stream = _ :=
    run_accepted quieted
  rw [silenced] at quietResult quietTexts
  refine ⟨quietResult.trans result.symm, ?_, texts .out, quietTexts .out⟩
  rw [texts, quietTexts]
  exact streamText_err_unlisted options.verbose entries

/-- A run with log records shown beside the same run without. -/
theorem run_verbose {plain logged : List Text}
    (parsed : CommandLine.parse plain = .ok { options with verbose := false })
    (told : CommandLine.parse logged = .ok { options with verbose := true }) :
    let silent := run invocation around plain
    let loud := run invocation around logged
    let entries := (outcome (action invocation around options)).written
    loud.result = silent.result ∧ loud.text .out = silent.text .out ∧
      loud.text .err = streamText true .err entries ∧
      silent.text .err =
        streamText true .err (entries.filter fun entry => !entry.isRecord) := by
  intro silent loud entries
  obtain ⟨result, texts⟩ : silent.result = _ ∧ ∀ stream, silent.text stream = _ :=
    run_accepted parsed
  obtain ⟨loudResult, loudTexts⟩ : loud.result = _ ∧ ∀ stream, loud.text stream = _ :=
    run_accepted told
  rw [action_verbose] at result texts loudResult loudTexts
  have unlogged := streamText_unlogged .err entries
  refine ⟨loudResult.trans result.symm, ?_, loudTexts .err, (texts .err).trans unlogged⟩
  rw [texts, loudTexts, streamText_out, streamText_out]

end Accepted

/-- Each flag changes what it names.  Without tokens, a run ends as it does with them and writes
the same on the error stream, and its entries are those of the other run without the ones that
list tokens.  With logging, a run ends as it does without and writes the same on the output
stream, and what it writes on the error stream is from the same entries, now with the log
records.  In front of any arguments a flag turns on its option and does nothing else. -/
theorem flags_change_what_they_name (invocation : Invocation) (around : Surroundings)
    (options : CommandLine.Options) :
    let written (options : CommandLine.Options) :=
      (outcome (action invocation around options)).written
    (∀ plain quiet,
      CommandLine.parse plain = .ok { options with noTokens := false } →
      CommandLine.parse quiet = .ok { options with noTokens := true } →
      let shown := run invocation around plain
      let hidden := run invocation around quiet
      let entries := written { options with noTokens := false }
      hidden.result = shown.result ∧ hidden.text .err = shown.text .err ∧
        shown.text .out = streamText options.verbose .out entries ∧
        hidden.text .out = streamText options.verbose .out (unlisted entries)) ∧
    (∀ plain logged,
      CommandLine.parse plain = .ok { options with verbose := false } →
      CommandLine.parse logged = .ok { options with verbose := true } →
      let silent := run invocation around plain
      let told := run invocation around logged
      told.result = silent.result ∧ told.text .out = silent.text .out ∧
        told.text .err = streamText true .err (written options) ∧
        silent.text .err =
          streamText true .err ((written options).filter fun entry => !entry.isRecord)) ∧
    (¬ (Entry.text .out (settingsOf options).prompt.plain).IsToken ∧
      ¬ (Entry.text .out ['\n']).IsToken) ∧
    ∀ arguments,
      CommandLine.parse ("--no-tokens".toList :: arguments) =
        (CommandLine.parse arguments).map ({ · with noTokens := true }) ∧
      CommandLine.parse ("-v".toList :: arguments) =
        (CommandLine.parse arguments).map ({ · with verbose := true }) := by
  intro written
  refine ⟨fun _ _ => run_noTokens, fun _ _ => run_verbose,
    ⟨not_isToken_out (rfl : Kind.isNameChar '>' = false) [' '], not_isToken_out rfl []⟩,
    fun arguments => ⟨?_, ?_⟩⟩
  · exact CommandLine.parse_turned CommandLine.commutes_noTokens rfl (by decide) rfl arguments
  · exact CommandLine.parse_turned CommandLine.commutes_verbose rfl (by decide) rfl arguments

/-- A session that is interrupted at its second prompt, behind a line with a token and an error. -/
theorem flags_change_what_they_name_interrupted_session :
    let around : Surroundings := ⟨fun _ => .error .notFound, ['1', '@', '\n', '"'], some 1⟩
    let plain := run .called around []
    let quiet := run .called around ["--no-tokens".toList]
    let told := run .called around ["-v".toList]
    CommandLine.parse [] = .ok {} ∧
      CommandLine.parse ["--no-tokens".toList] = .ok { noTokens := true } ∧
      CommandLine.parse ["-v".toList] = .ok { verbose := true } ∧
      quiet.result = plain.result ∧ quiet.text .err = plain.text .err ∧
      quiet.text .out = "> > ".toList ∧ plain.text .out ≠ quiet.text .out ∧
      told.result = plain.result ∧ told.text .out = plain.text .out ∧
      told.text .err ≠ plain.text .err := by
  intro around plain quiet told
  have parsed : CommandLine.parse [] = .ok {} := rfl
  have quieted : CommandLine.parse ["--no-tokens".toList] = .ok { noTokens := true } := rfl
  have logged : CommandLine.parse ["-v".toList] = .ok { verbose := true } := rfl
  obtain ⟨noTokens, verbose, _⟩ := flags_change_what_they_name .called around {}
  obtain ⟨result, errors, _⟩ := noTokens _ _ parsed quieted
  obtain ⟨loudResult, outputs, _⟩ := verbose _ _ parsed logged
  exact ⟨parsed, quieted, logged, result, errors, by decide +kernel, by decide +kernel, loudResult,
    outputs, by decide +kernel⟩

end Program

end LoxLex
