import LoxLex.Text.Quoted

namespace LoxLex.CommandLine

inductive Flag where
  | help
  | verbose
  | noTokens
deriving DecidableEq, Repr

namespace Flag

def spellings : List (Text × Flag) :=
  [("-h".toList, help), ("--help".toList, help), ("-v".toList, verbose),
   ("--verbose".toList, verbose), ("--no-tokens".toList, noTokens)]

def spelled? (text : Text) : Option Flag := spellings.lookup text

def label (flag : Flag) : Text :=
  List.intercalate ['/'] ((spellings.filter (·.2 = flag)).map Prod.fst)

end Flag

inductive UsageError where
  | ambiguous (argument : Text) (candidates : List Text)
  | ignoredValue (flag : Flag) (value : Text)
  | unrecognized (arguments : List Text)
deriving DecidableEq, Repr

def UsageError.message : UsageError → Text
  | ambiguous argument candidates =>
    "ambiguous option: ".toList ++ argument ++ " could match ".toList ++
      List.intercalate ", ".toList candidates
  | ignoredValue flag value =>
    "argument ".toList ++ flag.label ++ ": ignored explicit argument ".toList ++ value.quoted
  | unrecognized arguments => "unrecognized arguments: ".toList ++ List.intercalate [' '] arguments

inductive Stop where
  | help
  | usage (error : UsageError)
deriving DecidableEq, Repr

def usageLine : Text := "usage: lox [-h] [-v] [--no-tokens] [script ...]\n".toList

def helpText : Text :=
  usageLine ++ (
    "\n" ++
    "Scan Lox source and print its tokens\n" ++
    "\n" ++
    "positional arguments:\n" ++
    "  script         Script file to scan\n" ++
    "\n" ++
    "options:\n" ++
    "  -h, --help     show this help message and exit\n" ++
    "  -v, --verbose  Enable debug logging\n" ++
    "  --no-tokens    Do not print scanned tokens\n" ++
    "\n" ++
    "Examples:\n" ++
    "    lox                  # Interactive prompt\n" ++
    "    lox script.lox       # Scan a file\n" ++
    "    lox -v script.lox    # Scan with debug logging\n" ++
    "        \n").toList

def UsageError.report (error : UsageError) : Text :=
  usageLine ++ "lox: error: ".toList ++ error.message ++ ['\n']

end LoxLex.CommandLine
