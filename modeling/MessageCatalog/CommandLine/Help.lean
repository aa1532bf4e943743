import MessageCatalog.CommandLine.Invocation

/-!
# Help

The texts that explain the command line: what the program and its commands are for, and which
options they know. A command line that cannot be read gets one line on what is wrong with it.
-/

namespace MessageCatalog.CommandLine

def programName : String := "locl"

def programVersion : String := "0.1.0"

/-- What `--version` prints. -/
def versionText : String := programName ++ " " ++ programVersion ++ "\n"

/-- What the program is for. -/
def programPurpose : String := "Extract and convert $localize translations"

def Subcommand.purpose : Subcommand → String
  | extract => "Extract translations from your application"
  | convert => "Convert translation files from one format to another"

namespace Flag

/-- What the value of an option is called. -/
def valueName? : Flag → Option String
  | source => some "GLOB"
  | format => some "FORMAT"
  | outputPath => some "PATH"
  | locale => some "LOCALE"
  | config => some "PATH"
  | verbose | help | version => none

/-- What an option is for at a place. -/
def purpose (place : Place) : Flag → String
  | source =>
    match place with
    | .behind .convert =>
      "A glob pattern indicating what files to convert, e.g. \x60./src/i18n/*.xlf\x60"
    | _ =>
      "A glob pattern indicating what files to search for translations, e.g. " ++
        "\x60./dist/**/*.js\x60"
  | format =>
    "The format of the translation files to generate [json, xlf, xliff1, xlf2, xliff2, xmb, xtb]"
  | outputPath =>
    match place with
    | .behind .convert =>
      "A path to a file or a folder where the converted files will be written " ++
        "[aliases: --outputPath]"
    | _ =>
      "A path to a file or a folder where the translation files will be written " ++
        "[aliases: --outputPath]"
  | locale => "The locale for the extracted file, \"en\" by default"
  | config => "Path to a config file (defaults to the nearest .loclrc or .locl.json)"
  | verbose => "Print debug output"
  | help => "Print help"
  | version => "Print version"

/-- How an option is written. -/
def form (f : Flag) : String :=
  let letter := match f.letter? with
    | some c => "-" ++ String.ofList [c] ++ ", "
    | none => "    "
  let value := match f.valueName? with
    | some name => " <" ++ name ++ ">"
    | none => ""
  letter ++ "--" ++ f.longNames.headD "" ++ value

end Flag

/-- Two columns, the second aligned. -/
def columns (rows : List (String × String)) : String :=
  let width := (rows.map fun (left, _) => left.length).foldl max 0
  String.join (rows.map fun (left, right) =>
    "  " ++ left ++ String.ofList (List.replicate (width - left.length + 2) ' ') ++ right ++ "\n")

/-- The options of a place. -/
def optionTable (place : Place) : String :=
  "Options:\n" ++ columns (place.flags.map fun f => (f.form, f.purpose place))

/-- The help text about a place. -/
def helpText : Place → String
  | .before =>
    let commands := [Subcommand.extract, .convert].map fun c => (c.name, c.purpose)
    let help := (helpWord, "Print this message or the help of the given subcommand(s)")
    programPurpose ++ "\n\nUsage: " ++ programName ++ " [OPTIONS] <COMMAND>\n\nCommands:\n" ++
      columns (commands ++ [help]) ++ "\n" ++ optionTable .before
  | .behind command =>
    command.purpose ++ "\n\nUsage: " ++ programName ++ " " ++ command.name ++ " [OPTIONS]\n\n" ++
      optionTable (.behind command)

/-- What is wrong with a command line. -/
def Stop.complaint : Stop → String
  | help _ | version => ""
  | unknownOption name => "unexpected argument '" ++ name ++ "' found"
  | unexpectedValue name => "unexpected value for '" ++ name ++ "' found; no more were expected"
  | missingValue flag => "a value is required for '" ++ flag.form.trimAscii.toString ++
      "' but none was supplied"
  | repeatedOption flag => "the argument '" ++ flag.form.trimAscii.toString ++
      "' cannot be used multiple times"
  | unknownCommand name => "unrecognized subcommand '" ++ name ++ "'"
  | surplusWord text => "unexpected argument '" ++ text ++ "' found"
  | missingCommand => "'" ++ programName ++ "' requires a subcommand but one was not provided"

end MessageCatalog.CommandLine
