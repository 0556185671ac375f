import LoxLex.Proofs.Joining
import LoxLex.Proofs.Script

namespace LoxLex.Run

/-- Without logging, a stream has the texts that are written to it. -/
theorem streamText_writes (stream : Stream) (entries : List Entry) :
    streamText false stream entries =
      (writes entries).flatMap fun chunk => if chunk.1 = stream then chunk.2 else [] := by
  induction entries with
  | nil => rfl
  | cons entry rest ih =>
      have step : streamText false stream (entry :: rest) =
          (if (entry.shown false).1 = stream then (entry.shown false).2 else []) ++
            streamText false stream rest := rfl
      cases entry with
      | text written content =>
          rw [step, ih]
          rfl
      | log entry =>
          have silent : (if Stream.err = stream then ([] : Text) else []) = [] := ite_self []
          rw [step, ih]
          exact congrArg (· ++ _) silent

section Refused

variable {disk : Disk} {path : Text}

theorem runFile_refused {reason : Files.OpenError} (channel : Text) (settings : Settings)
    (refused : disk.load path = .error (.refused reason)) :
    outcome (runFile channel disk settings path) =
      ⟨[.text .err (unreadable path reason)], .ok .noInput⟩ := by
  have ran : runFile channel disk settings path {} =
      .ok .noInput (Console.extend {} [] [.text .err (unreadable path reason)]) := by
    rw [runFile, refused]
    exact bind_ok (writeText_eq ..)
  rw [outcome_ok ran]
  rfl

theorem runFile_nulInPath (channel : Text) (settings : Settings)
    (stopped : disk.load path = .error .nulInPath) :
    outcome (runFile channel disk settings path) = ⟨[], .error .nulInPath⟩ := by
  have ran : runFile channel disk settings path {} = .error .nulInPath {} := by
    rw [runFile, stopped]
    rfl
  rw [outcome_error ran]
  rfl

theorem runFile_malformed {fault : Utf8.Fault} (channel : Text) (settings : Settings)
    (stopped : disk.load path = .error (.malformed fault)) :
    outcome (runFile channel disk settings path) = ⟨[], .error (.malformed fault)⟩ := by
  have ran : runFile channel disk settings path {} = .error (.malformed fault) {} := by
    rw [runFile, stopped]
    rfl
  rw [outcome_error ran]
  rfl

end Refused

section Loaded

variable {disk : Disk} {path source : Text}

theorem writes_runFile (channel : Text) (settings : Settings)
    (loaded : disk.load path = .ok source) :
    writes (outcome (runFile channel disk settings path)).written =
      ((diagnostics source).map fun diagnostic => (.err, diagnostic.text ++ ['\n'])) ++
        if settings.printTokens.truth then
          (tokens source).map fun token => (.out, token.listing ++ ['\n'])
        else [] := by
  rw [runFile_loaded settings loaded, writes_append, writes_fileEntries, List.append_nil,
    writes_sourceEntries]
  rfl

theorem streamText_err_runFile (channel : Text) (settings : Settings)
    (loaded : disk.load path = .ok source) :
    streamText false .err (outcome (runFile channel disk settings path)).written =
      (diagnostics source).flatMap fun diagnostic => diagnostic.text ++ ['\n'] := by
  rw [streamText_writes, writes_runFile channel settings loaded]
  split <;> simp [List.flatMap_append, List.flatMap_map]

theorem streamText_out_runFile (channel : Text) (settings : Settings)
    (loaded : disk.load path = .ok source) :
    streamText false .out (outcome (runFile channel disk settings path)).written =
      if settings.printTokens.truth then
        (tokens source).flatMap fun token => token.listing ++ ['\n']
      else [] := by
  rw [streamText_writes, writes_runFile channel settings loaded]
  split <;> simp [List.flatMap_append, List.flatMap_map]

theorem status_runFile (channel : Text) (settings : Settings)
    (loaded : disk.load path = .ok source) :
    (outcome (runFile channel disk settings path)).result.map Status.code =
      .ok (if diagnostics source = [] then 0 else 65) := by
  rw [runFile_loaded settings loaded]
  cases diagnostics source <;> rfl

end Loaded

/-- A run over a file, by what reading its path gives. -/
theorem file_run (channel : Text) (disk : Disk) (settings : Settings) (path : Text) :
    let run := outcome (runFile channel disk settings path)
    if '\x00' ∈ path then run = ⟨[], .error .nulInPath⟩
    else match disk path with
    | .error reason =>
      run.written = [.text .err ("Cannot read ".toList ++ path ++ ": ".toList ++
        (if reason.reason = [] then (LoadError.refused reason).message path else reason.reason) ++
        ['\n'])] ∧ run.result.map Status.code = .ok 66
    | .ok bytes => match Utf8.decode bytes with
      | .error fault => run = ⟨[], .error (.malformed fault)⟩
      | .ok text =>
        let source := Text.normaliseLineEnds text
        writes run.written =
          ((diagnostics source).map fun diagnostic => (.err, diagnostic.text ++ ['\n'])) ++
            (if settings.printTokens.truth then
              (tokens source).map fun token => (.out, token.listing ++ ['\n'])
            else []) ∧
        streamText false .err run.written =
          ((diagnostics source).flatMap fun diagnostic => diagnostic.text ++ ['\n']) ∧
        streamText false .out run.written =
          (if settings.printTokens.truth then
            (tokens source).flatMap fun token => token.listing ++ ['\n']
          else []) ∧
        (∃ found line, tokens source = found ++ [.endOfInput line]) ∧
        run.result.map Status.code = .ok (if diagnostics source = [] then 0 else 65) ∧
        (streamText false .err run.written = [] ↔ run.result.map Status.code = .ok 0) := by
  intro run
  split
  case isTrue nul => exact runFile_nulInPath channel settings (if_pos nul)
  case isFalse named =>
    split
    case h_1 reason read =>
      have ran := runFile_refused channel settings (disk.load_refused named read)
      exact ⟨congrArg Outcome.written ran, congrArg (Except.map Status.code ·.result) ran⟩
    case h_2 bytes read =>
      split
      case h_1 fault decoded =>
        exact runFile_malformed channel settings (disk.load_malformed named read decoded)
      case h_2 text decoded =>
        have loaded := disk.load_decoded named read decoded
        have shown := streamText_err_runFile channel settings loaded
        have status := status_runFile channel settings loaded
        refine ⟨writes_runFile channel settings loaded, shown,
          streamText_out_runFile channel settings loaded, ⟨_, _, tokensFrom_found 1 _⟩, status, ?_⟩
        rw [shown, status]
        cases diagnostics text.normaliseLineEnds <;> simp

/-- A run over a file has one of three statuses unless the file is there and is not text. -/
theorem file_run_status (channel : Text) (disk : Disk) (settings : Settings) (path : Text)
    (named : '\x00' ∉ path) :
    (∃ status, (outcome (runFile channel disk settings path)).result = .ok status ∧
        status.code ∈ [0, 65, 66]) ∧
      (∀ bytes, disk path = .ok bytes → ∃ text, Utf8.decode bytes = .ok text) ∨
    ∃ bytes fault, disk path = .ok bytes ∧ Utf8.decode bytes = .error fault ∧
      outcome (runFile channel disk settings path) = ⟨[], .error (.malformed fault)⟩ := by
  cases read : disk path with
  | error reason =>
      have ran := runFile_refused channel settings (disk.load_refused named read)
      exact .inl ⟨⟨.noInput, congrArg Outcome.result ran, by decide⟩, nofun⟩
  | ok bytes =>
    cases decoded : Utf8.decode bytes with
    | error fault =>
        exact .inr ⟨bytes, fault, rfl, decoded,
          runFile_malformed channel settings (disk.load_malformed named read decoded)⟩
    | ok text =>
        have ran : outcome (runFile channel disk settings path) = _ :=
          runFile_loaded settings (disk.load_decoded named read decoded)
        refine .inl ⟨⟨_, congrArg Outcome.result ran, ?_⟩, ?_⟩
        · cases (diagnostics text.normaliseLineEnds).isEmpty <;> decide
        · intro held same
          cases same
          exact ⟨text, decoded⟩

/-- A file with a token, one with a fault behind a token, and a path with no file. -/
theorem file_run_status_three_paths :
    let disk : Disk :=
      ((Files.Tree.write {} "token".toList [0x31]).write "fault".toList [0x31, 0x40]).read
    let run (path : Text) := outcome (runFile [] disk {} path)
    let ends (path : Text) := ∃ status, (run path).result = .ok status ∧ status.code ∈ [0, 65, 66]
    (ends "token".toList ∧ (run "token".toList).result = .ok .success) ∧
      (ends "fault".toList ∧ (run "fault".toList).result = .ok .dataError) ∧
      (ends "none".toList ∧ (run "none".toList).result = .ok .noInput) := by
  intro disk run ends
  have ends_of_decodes (path : Text) (named : '\x00' ∉ path)
      (decodes : ∀ bytes fault, disk path = .ok bytes → Utf8.decode bytes ≠ .error fault) :
      ends path := by
    rcases file_run_status [] disk {} path named with ⟨found, -⟩ | ⟨bytes, fault, held, bad, -⟩
    · exact found
    · exact absurd bad (decodes bytes fault held)
  have token : disk "token".toList = .ok [0x31] := by decide +kernel
  have fault : disk "fault".toList = .ok [0x31, 0x40] := by decide +kernel
  have none : disk "none".toList = .error .notFound := by decide +kernel
  have tokenDecoded : Utf8.decode [0x31] = .ok ['1'] := by decide +kernel
  have faultDecoded : Utf8.decode [0x31, 0x40] = .ok ['1', '@'] := by decide +kernel
  refine ⟨⟨ends_of_decodes _ (by decide) fun bytes _ held bad => ?_, by decide +kernel⟩,
    ⟨ends_of_decodes _ (by decide) fun bytes _ held bad => ?_, by decide +kernel⟩,
    ends_of_decodes _ (by decide) fun bytes _ held => ?_, by decide +kernel⟩
  · cases token.symm.trans held
    cases tokenDecoded.symm.trans bad
  · cases fault.symm.trans held
    cases faultDecoded.symm.trans bad
  · cases none.symm.trans held

/-- A file of one byte that starts no character is there and can be read, and the run over it
has no status. -/
theorem file_run_status_malformed_file :
    let disk : Disk := (Files.Tree.write {} "bad.lox".toList [0xff]).read
    '\x00' ∉ "bad.lox".toList ∧ disk "bad.lox".toList = .ok [0xff] ∧
      outcome (runFile [] disk {} "bad.lox".toList) =
        ⟨[], .error (.malformed ⟨0xff, 0, 1, .invalidStart⟩)⟩ ∧
      ¬ ∃ status, (outcome (runFile [] disk {} "bad.lox".toList)).result = .ok status ∧
        status.code ∈ [0, 65, 66] := by
  intro disk
  have named : '\x00' ∉ "bad.lox".toList := by decide
  have read : disk "bad.lox".toList = .ok [0xff] := by decide +kernel
  have decoded : Utf8.decode [0xff] = .error ⟨0xff, 0, 1, .invalidStart⟩ := by decide +kernel
  have ran := runFile_malformed [] {} (disk.load_malformed named read decoded)
  refine ⟨named, read, ran, ?_⟩
  rw [ran]
  intro ended
  obtain ⟨status, found, -⟩ := ended
  contradiction

end LoxLex.Run
