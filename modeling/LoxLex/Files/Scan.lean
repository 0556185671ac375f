import LoxLex.Files.Tree
import LoxLex.Sink
import LoxLex.Text.LineEnd
import LoxLex.Text.Utf8

namespace LoxLex

/-- What reading each path gives. -/
abbrev Disk := Text → Except Files.OpenError (List UInt8)

inductive LoadError where
  | refused (reason : Files.OpenError)
  | nulInPath
  | malformed (fault : Utf8.Fault)
deriving DecidableEq, Repr

def nulInPathMessage : Text := "embedded null byte".toList

def LoadError.message (path : Text) : LoadError → Text
  | refused reason =>
    "[Errno ".toList ++ Text.ofNat reason.code ++ "] ".toList ++ reason.reason ++ ": ".toList ++
      path.quoted
  | nulInPath => nulInPathMessage
  | malformed fault => fault.message

def sourceOfBytes (bytes : List UInt8) : Except Utf8.Fault Text :=
  (Utf8.decode bytes).map Text.normaliseLineEnds

def Disk.load (disk : Disk) (path : Text) : Except LoadError Text :=
  if '\x00' ∈ path then .error .nulInPath
  else match disk path with
    | .error reason => .error (.refused reason)
    | .ok bytes => (sourceOfBytes bytes).mapError .malformed

/-- Scans the text at a path into a sink, which is not called before the text is loaded. -/
def Disk.scanInto {ε σ : Type} (disk : Disk) (sink : Sink ε σ) (path : Text) :
    EStateM (LoadError ⊕ ε) σ (List Token) :=
  match disk.load path with
  | .error failure => throw (.inl failure)
  | .ok source => EStateM.adaptExcept .inr (LoxLex.scanInto sink source)

end LoxLex
