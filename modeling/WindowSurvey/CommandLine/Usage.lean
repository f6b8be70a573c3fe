import WindowSurvey.CommandLine.Arguments
/-!
# What the command line tells its user

## Main definitions

* `Usage.help`, `Usage.version` — what can be asked for
* `Arguments.Stop.message` — the text for a command line that cannot be run
-/

namespace WindowSurvey

namespace Usage

/-- The name of the program and its version. -/
def version : String := "winpick 0.1.0"

/-- How the program is called. -/
def line : String := "Usage: winpick [OPTIONS] --frames <DIR>"

/-- What every option is for. -/
def options : List (String × String) :=
  [("-c, --config <FILE>", "YAML configuration file"),
    ("-f, --frames <DIR>", "Directory of recorded frames (PNG or JPEG), replayed in file-name order"),
    ("    --select <INDEX>", "Indices of detected windows to select (default: all)"),
    ("    --navigate <INDEX>", "Index of a selected window to switch to"),
    ("    --thumbnails <DIR>",
      "Write every detected region's thumbnail as PNG into this directory"),
    ("    --settle-ms <MS>",
      "Override the settle delay after each window switch, in milliseconds"),
    ("    --schema", "Print the JSON Schema of the report and exit"),
    ("-h, --help", "Print help"),
    ("-V, --version", "Print version")]

/-- One option, with what it is for in a column of its own. -/
def optionLine (option : String × String) : String :=
  "  " ++ option.1 ++ String.ofList (List.replicate (24 - option.1.length) ' ') ++ option.2

/-- The whole help. -/
def help : String :=
  "Detect windows in recorded remote-desktop frames, pick some and switch between them\n\n"
    ++ line ++ "\n\nOptions:\n" ++ String.intercalate "\n" (options.map optionLine)

end Usage

namespace Arguments

/-- An option as the user writes it. -/
def Name.written (n : Name) : String := "--" ++ n.long

namespace Stop

/-- Whether the user asked for the text, so that stopping is no mistake. -/
def isWanted : Stop → Bool
  | help => true
  | version => true
  | _ => false

/-- The mistake in one sentence. -/
def complaint : Stop → String
  | help => ""
  | version => ""
  | unknown word => "unexpected argument '" ++ word ++ "' found"
  | valueUnwanted option => "unexpected value for '" ++ option.written ++ "' found; no more were expected"
  | valueMissing option =>
    "a value is required for '" ++ (Name.setting option).written ++ "' but none was supplied"
  | repeated option =>
    "the argument '" ++ option.written ++ "' cannot be used multiple times"
  | notNumber option value =>
    "invalid value '" ++ value ++ "' for '" ++ (Name.setting option).written ++ "'"
  | framesMissing => "the following required arguments were not provided: --frames <DIR>"

/-- The text for the user. -/
def message : Stop → String
  | help => Usage.help ++ "\n"
  | version => Usage.version ++ "\n"
  | stop => "error: " ++ stop.complaint ++ "\n\n" ++ Usage.line ++ "\n\nFor more information, try '--help'.\n"

end Stop

end Arguments

end WindowSurvey
