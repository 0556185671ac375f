import LoxLex.Files.Scan
import LoxLex.Proofs.Decoding
import LoxLex.Proofs.LineEnds
import LoxLex.Reporter

namespace LoxLex

variable {ε σ : Type} {disk : Disk} {path : Text}

theorem Disk.scanInto_loaded {source : Text} (loaded : disk.load path = .ok source)
    (sink : Sink ε σ) :
    disk.scanInto sink path = EStateM.adaptExcept .inr (LoxLex.scanInto sink source) := by
  rw [scanInto, loaded]

theorem Disk.scanInto_failed {failure : LoadError} (failed : disk.load path = .error failure)
    (sink : Sink ε σ) (state : σ) :
    disk.scanInto sink path state = .error (.inl failure) state := by
  rw [scanInto, failed]
  rfl

/-- A file that holds the encoding of a text is scanned as the text with its line ends made
one; a file that holds no encoding is refused with nothing reported. -/
theorem scan_of_file (disk : Disk) (named : '\x00' ∉ path) :
    (∀ text, disk path = .ok (Utf8.encode text) → ∀ (sink : Sink ε σ) (state : σ),
      disk.scanInto sink path state =
        EStateM.adaptExcept .inr (scanInto sink (text.joinPairs.map Text.returnToFeed)) state) ∧
      ∀ bytes, disk path = .ok bytes → (∀ text, Utf8.encode text ≠ bytes) →
        ∃ fault : Utf8.Fault, fault.StandsIn bytes ∧ ∀ (sink : Sink ε σ) (state : σ),
          disk.scanInto sink path state = .error (.inl (.malformed fault)) state := by
  constructor
  · intro text held sink state
    have loaded := Disk.load_encoded named held
    rw [Text.normaliseLineEnds_eq] at loaded
    rw [Disk.scanInto_loaded loaded]
  · intro bytes held invalid
    obtain ⟨fault, decoded, stands⟩ := Utf8.decode_invalid invalid
    exact ⟨fault, stands, Disk.scanInto_failed (Disk.load_malformed disk named held decoded)⟩

/-- A file with a byte order mark and every kind of line end, and one that breaks off in a
character. -/
theorem scan_of_file_mixed_ends :
    let text : Text := ['\uFEFF', '"', '\r', '\r', '\n', '"', '\r', '@']
    let bytes : List UInt8 := [0x61, 0xE2, 0x82, 0x41]
    let disk : Disk := fun path => .ok (if path = ['s'] then Utf8.encode text else bytes)
    let sink : Sink Empty Reporter := Reporter.sink
    '\x00' ∉ ['s'] ∧ '\x00' ∉ ['t'] ∧ (∀ text, Utf8.encode text ≠ bytes) ∧
      disk.scanInto sink ['s'] {} = EStateM.adaptExcept .inr
        (scanInto sink ['\uFEFF', '"', '\n', '\n', '"', '\n', '@']) {} ∧
      ∃ fault : Utf8.Fault, fault.StandsIn bytes ∧
        disk.scanInto sink ['t'] {} = .error (.inl (.malformed fault)) {} := by
  intro text bytes disk sink
  have named : '\x00' ∉ ['s'] := by decide
  have other : '\x00' ∉ ['t'] := by decide
  have invalid (text : Text) : Utf8.encode text ≠ bytes := by
    intro same
    have decoded := Utf8.decode_encode text
    have broken : Utf8.decode bytes = .error ⟨0xE2, 1, 2, .invalidContinuation⟩ := by decide +kernel
    rw [same, broken] at decoded
    contradiction
  obtain ⟨fault, stands, refused⟩ := (scan_of_file disk other).2 bytes rfl invalid
  exact ⟨named, other, invalid, (scan_of_file disk named).1 text rfl sink {}, fault, stands,
    refused sink {}⟩

end LoxLex
