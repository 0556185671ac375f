import LoxLex.Proofs.Lines
import LoxLex.Proofs.Prompt
import LoxLex.Proofs.Script

namespace LoxLex.Run

def endEntry : Text := "EOF  null\n".toList

def echoed (diagnostics : List Diagnostic) : List (Stream × Text) :=
  diagnostics.map fun diagnostic => (.err, diagnostic.echo)

def shownOut (entries : List Text) : List (Stream × Text) := entries.map (.out, ·)

/-- A run over a file and a session that agree on a text, of which `shown` are the entries
that each line is listed as in front of its end of input. -/
structure Agreement (settings : Settings) (text : Text) (shown : Text → List Text)
    (filed prompted : Outcome Status) : Prop where
  listing : ∀ line, (tokens line).map Token.entry = shown line ++ [endEntry]
  session : writes prompted.written =
    ((Text.lines text).flatMap fun line =>
      (.out, settings.prompt.plain) :: echoed (diagnostics line) ++
        shownOut (shown line ++ [endEntry])) ++
      [(.out, settings.prompt.plain), (.out, ['\n'])]
  file : writes filed.written =
    (((Text.lines text).zipIdx 1).flatMap fun entry =>
      echoed ((diagnostics entry.1).map (Diagnostic.onLine entry.2))) ++
      shownOut ((Text.lines text).flatMap shown ++ [endEntry])
  status : ∃ status, filed.result = .ok status ∧
    (settings.resetErrorsPerLine.truth = false → prompted.result = .ok status)

section Agreement

variable {settings : Settings} {text : Text}

theorem entries_tokens (text : Text) :
    (tokens text).map Token.entry = foundEntries text ++ [endEntry] := by
  have found : tokens text = _ := tokensFrom_found 1 text
  rw [found, List.map_append]
  rfl

theorem writes_source_listing (listing : settings.printTokens.truth = true) (source : Text) :
    writes (sourceEntries settings source) =
      echoed (diagnostics source) ++ shownOut (foundEntries source ++ [endEntry]) := by
  rw [writes_sourceEntries, if_pos listing, ← entries_tokens, shownOut, List.map_map]
  rfl

theorem exchange_listing (prompt line : Text) :
    exchange prompt true line =
      (.out, prompt) :: echoed (diagnostics line) ++
        shownOut (foundEntries line ++ [endEntry]) := by
  rw [exchange, if_pos rfl, ← entries_tokens, shownOut, List.map_map]
  rfl

theorem echoed_lines (closed : ∀ line ∈ Text.lines text, Closed line) :
    echoed (diagnostics text) =
      ((Text.lines text).zipIdx 1).flatMap fun entry =>
        echoed ((diagnostics entry.1).map (Diagnostic.onLine entry.2)) := by
  rw [diagnostics_lines closed, echoed, List.map_flatMap]
  rfl

theorem diagnostics_isEmpty (closed : ∀ line ∈ Text.lines text, Closed line) :
    diagnostics text = [] ↔ ∀ line ∈ Text.lines text, diagnostics line = [] := by
  have numbered (property : Text → Prop) :
      (∀ entry ∈ (Text.lines text).zipIdx 1, property entry.1) ↔
        ∀ line ∈ Text.lines text, property line := by
    rw [← List.forall_mem_map, List.zipIdx_map_fst]
  rw [diagnostics_lines closed, List.flatMap_eq_nil_iff,
    ← numbered fun line => diagnostics line = []]
  simp only [List.map_eq_nil_iff]

end Agreement

/-- A file that holds the encoding of a text and a session over the text agree. -/
theorem prompt_agrees_with_file {settings : Settings} {disk : Disk} {path text : Text}
    (channel : Text) (unreturned : '\r' ∉ text)
    (closed : ∀ line ∈ Text.lines text, ∀ diagnostic ∈ diagnostics line,
      diagnostic.message ≠ "Unterminated string".toList)
    (listing : settings.printTokens.truth = true) (named : '\x00' ∉ path)
    (held : disk path = .ok (Utf8.encode text)) :
    ∃ shown, Agreement settings text shown (outcome (runFile channel disk settings path))
      (outcome (runPrompt settings none text)) := by
  have closedLines : ∀ line ∈ Text.lines text, Closed line :=
    fun line member => .of_diagnostics (closed line member)
  have loaded : disk.load path = .ok text := by
    rw [Disk.load_encoded named held, Text.normaliseLineEnds_unreturned unreturned]
  obtain ⟨prompted, promptStatus⟩ := runPrompt_ended settings text
  rw [runFile_loaded settings loaded]
  refine ⟨foundEntries, entries_tokens, ?_, ?_, ?_⟩
  · rw [prompted, listing, funext (exchange_listing settings.prompt.plain)]
  · rw [writes_append, writes_fileEntries, List.append_nil, writes_source_listing listing,
      echoed_lines closedLines, foundEntries_lines closedLines]
  · refine ⟨_, rfl, ?_⟩
    intro keeps
    rw [promptStatus]
    by_cases clean : diagnostics text = []
    · have cleanLines := (diagnostics_isEmpty closedLines).mp clean
      rw [if_neg (by simpa using fun _ => cleanLines), clean]
      rfl
    · have faulty := mt (diagnostics_isEmpty closedLines).mpr clean
      rw [if_pos ⟨keeps, by simpa using faulty⟩, if_neg (by simpa using clean)]

theorem prompt_agrees_with_file_after_fault :
    let text : Text := ['1', '.', '@', '\n', '"', 'a', '"', '/']
    let settings : Settings := { resetErrorsPerLine := .bool false }
    '\r' ∉ text ∧
      (∀ line ∈ Text.lines text, ∀ diagnostic ∈ diagnostics line,
        diagnostic.message ≠ "Unterminated string".toList) ∧
      settings.printTokens.truth = true ∧ '\x00' ∉ ['s'] ∧
      ∃ shown, Agreement settings text shown
        (outcome (runFile [] (fun _ => .ok (Utf8.encode text)) settings ['s']))
        (outcome (runPrompt settings none text)) := by
  intro text settings
  have unreturned : '\r' ∉ text := by decide
  have closed : ∀ line ∈ Text.lines text, ∀ diagnostic ∈ diagnostics line,
      diagnostic.message ≠ "Unterminated string".toList := by decide +kernel
  have named : '\x00' ∉ ['s'] := by decide
  exact ⟨unreturned, closed, rfl, named, prompt_agrees_with_file [] unreturned closed rfl named rfl⟩

end LoxLex.Run
