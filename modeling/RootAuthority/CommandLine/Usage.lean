import RootAuthority.CommandLine.Arguments

/-!
# What the command line says about itself

The help in its two forms, the version, and the messages about wrong arguments.
-/

namespace RootAuthority.CommandLine

/-- The name of the program. -/
def programName : String := "mitm-ca"

/-- The line with name and version. -/
def versionText : String := programName ++ " 0.1.0\n"

/-- Lines of text, each of them ended. -/
def lines (ls : List String) : String := String.join (ls.map (· ++ "\n"))

/-- The line on how to call the program with some switches, or with any. -/
def usageLine (used : List Switch) : String :=
  "Usage: " ++ programName ++ (if used.isEmpty then " [OPTIONS]"
    else String.join (used.map fun s => " " ++ s.display))

/-- **Help** without explanations. -/
def shortHelp : String := lines
  ["Bootstrap and persistence of a self-signed root CA for TLS interception",
   "",
   usageLine [],
   "",
   "Options:",
   "  -c, --config <CONFIG>    Path to the configuration file (YAML). If not specified, built-in defaults are used",
   "  -d, --dir <DIR>          Directory holding the CA files. Overrides the configuration",
   "      --export-pem <FILE>  Also write the CA certificate as PEM to this file, for installing into a trust store",
   "  -h, --help               Print help (see more with '--help')",
   "  -V, --version            Print version"]

/-- **Help** with explanations. -/
def longHelp : String := lines
  ["Bootstrap the root CA used for TLS interception.",
   "",
   "Loads the CA certificate and private key from the user configuration directory, or generates and stores a new pair if they are missing or unusable.",
   "",
   usageLine [],
   "",
   "Options:",
   "  -c, --config <CONFIG>",
   "          Path to the configuration file (YAML). If not specified, built-in defaults are used",
   "",
   "  -d, --dir <DIR>",
   "          Directory holding the CA files. Overrides the configuration",
   "",
   "      --export-pem <FILE>",
   "          Also write the CA certificate as PEM to this file, for installing into a trust store",
   "",
   "  -h, --help",
   "          Print help (see a summary with '-h')",
   "",
   "  -V, --version",
   "          Print version"]

namespace ArgumentError

/-- What is wrong, in one line. -/
def summary : ArgumentError → String
  | unexpected argument _ _ => "unexpected argument '" ++ argument ++ "' found"
  | valueMissing s => "a value is required for '" ++ s.display ++ "' but none was supplied"
  | setTwice s => "the argument '" ++ s.display ++ "' cannot be used multiple times"
  | valueUnwanted value q =>
    "unexpected value '" ++ value ++ "' for '--" ++ q.name ++ "' found; no more were expected"

/-- The suggestion of another argument. -/
def tip : ArgumentError → List String
  | unexpected _ (some s) _ => ["", "  tip: a similar argument exists: '--" ++ s.name ++ "'"]
  | _ => []

/-- The reminder of how to call the program. -/
def usage : ArgumentError → List String
  | unexpected _ _ used => ["", usageLine used]
  | valueMissing _ => []
  | setTwice _ => ["", usageLine []]
  | valueUnwanted _ q => ["", usageLine [.inquiry q]]

/-- **The message about wrong arguments.** -/
def message (e : ArgumentError) : String :=
  lines (("error: " ++ e.summary) :: e.tip ++ e.usage ++ ["", "For more information, try '--help'."])

end ArgumentError

end RootAuthority.CommandLine
