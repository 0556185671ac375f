import LoxLex.Proofs.Console
import LoxLex.Proofs.Encoding

namespace LoxLex

theorem Text.normaliseLineEnds_unreturned {text : Text} (unreturned : '\r' ∉ text) :
    normaliseLineEnds text = text := by
  induction text with
  | nil => rfl
  | cons c rest ih =>
      rw [normaliseLineEnds_other c rest (List.ne_of_not_mem_cons unreturned).symm,
        ih (List.not_mem_of_not_mem_cons unreturned)]

section Load

variable {path : Text} {bytes : List UInt8}

theorem Disk.load_refused {reason : Files.OpenError} (disk : Disk) (named : '\x00' ∉ path)
    (read : disk path = .error reason) : disk.load path = .error (.refused reason) := by
  rw [load, if_neg named, read]

theorem Disk.load_malformed {fault : Utf8.Fault} (disk : Disk) (named : '\x00' ∉ path)
    (read : disk path = .ok bytes) (decoded : Utf8.decode bytes = .error fault) :
    disk.load path = .error (.malformed fault) := by
  rw [load, if_neg named, read]
  simp only [sourceOfBytes, decoded]
  rfl

theorem Disk.load_decoded {text : Text} (disk : Disk) (named : '\x00' ∉ path)
    (read : disk path = .ok bytes) (decoded : Utf8.decode bytes = .ok text) :
    disk.load path = .ok text.normaliseLineEnds := by
  rw [load, if_neg named, read]
  simp only [sourceOfBytes, decoded]
  rfl

end Load

theorem Disk.load_encoded {disk : Disk} {path text : Text} (named : '\x00' ∉ path)
    (held : disk path = .ok (Utf8.encode text)) :
    disk.load path = .ok (Text.normaliseLineEnds text) :=
  disk.load_decoded named held (Utf8.decode_encode text)

namespace Run

variable {channel path source : Text} {disk : Disk}

/-- What is logged of a file with errors behind all that is shown of it. -/
def fileEntries (channel path : Text) (errors : List Diagnostic) : List Entry :=
  if errors.isEmpty then [] else [.log (fileRecord channel path errors.length)]

theorem runFile_eq (settings : Settings) (loaded : disk.load path = .ok source) :
    runFile channel disk settings path {} =
      .ok (if (diagnostics source).isEmpty then .success else .dataError)
        (Console.extend {} (diagnostics source)
          (sourceEntries settings source ++ fileEntries channel path (diagnostics source))) := by
  rw [runFile, loaded]
  refine (bind_ok (runSource_eq settings source {})).trans ?_
  let after : Console := Console.extend {} (diagnostics source) (sourceEntries settings source)
  have kept : after.errors = (diagnostics source).reverse := List.append_nil _
  have logged (entry : Log.Record) : after.extend [] [.log entry] =
      Console.extend {} (diagnostics source) (sourceEntries settings source ++ [.log entry]) := by
    rw [Console.extend_extend, List.append_nil]
  -- What is left of the run only reads how many errors the console has.
  change (if after.errors.isEmpty then (pure .success : Action Status)
    else writeLog (fileRecord channel path after.errors.length) >>= fun _ => pure .dataError)
      after = _
  rw [kept, List.isEmpty_reverse, List.length_reverse, fileEntries]
  cases (diagnostics source).isEmpty with
  | true =>
      simp only [if_true, List.append_nil]
      rfl
  | false =>
      simp only [Bool.false_eq_true, if_false]
      rw [← logged]
      rfl

theorem runFile_loaded (settings : Settings) (loaded : disk.load path = .ok source) :
    outcome (runFile channel disk settings path) =
      ⟨sourceEntries settings source ++ fileEntries channel path (diagnostics source),
        .ok (if (diagnostics source).isEmpty then .success else .dataError)⟩ := by
  rw [outcome_ok (runFile_eq settings loaded)]
  simp [Console.extend]

theorem writes_fileEntries (channel path : Text) (errors : List Diagnostic) :
    writes (fileEntries channel path errors) = [] := by
  unfold fileEntries
  split <;> rfl

end Run

end LoxLex
