import MessageCatalog.Command.Options
import MessageCatalog.CommandLine.Flag

/-!
# Reading the command line

The words of a command line are options with their values and one command, and the first word that
does not fit in ends the reading. An option that asks for help or for the version ends it too.
-/

namespace MessageCatalog.CommandLine

/-! ## Words -/

/-- What a word is by its dashes. -/
inductive Word where
  /-- Two dashes alone, behind which no options stand. -/
  | separator
  | long (name : String) (value : Option String)
  | letters (cluster : List Char)
  | plain (text : String)
  deriving DecidableEq, Repr

/-- The word with the name and perhaps the value behind two dashes. -/
def Word.ofLong (text : List Char) : Word :=
  match Text.cutAt? ['='] text with
  | some (name, value) => .long (String.ofList name) (some (String.ofList value))
  | none => .long (String.ofList text) none

def Word.ofString (text : String) : Word :=
  match text.toList with
  | ['-'] => .plain text
  | ['-', '-'] => .separator
  | '-' :: '-' :: rest => .ofLong rest
  | '-' :: cluster => .letters cluster
  | _ => .plain text

/-! ## Options -/

/-- Why a reading ends early. -/
inductive Stop where
  | help (place : Place)
  | version
  | unknownOption (name : String)
  | unexpectedValue (name : String)
  | missingValue (flag : Flag)
  | repeatedOption (flag : Flag)
  | unknownCommand (name : String)
  | surplusWord (text : String)
  | missingCommand
  deriving DecidableEq, Repr

/-- The options given so far, with their values, oldest first. -/
abbrev Given := List (Flag × String)

namespace Given

/-- Take an option at a place. -/
def add (g : Given) (place : Place) (flag : Flag) (value : String) : Except Stop Given :=
  match flag with
  | .help => .error (.help place)
  | .version => .error .version
  | flag =>
    if !flag.isRepeatable && flag ∈ g.map Prod.fst then .error (.repeatedOption flag)
    else .ok (g ++ [(flag, value)])

/-- The values of an option. -/
def values (g : Given) (flag : Flag) : List String :=
  g.filterMap fun (f, value) => if f = flag then some value else none

/-- The value of an option, the last one if there are several. -/
def value? (g : Given) (flag : Flag) : Option String := (g.values flag).getLast?

def has (g : Given) (flag : Flag) : Bool := !(g.values flag).isEmpty

end Given

/-- Options that were read, and the one that still waits for its value, if any does. -/
structure Pending where
  given : Given
  waiting : Option Flag := none

/-- Read letters behind one dash. A letter that takes a value takes what stands behind it, with or
without a `=` between. -/
def readLetters (place : Place) (g : Given) : List Char → Except Stop Pending
  | [] => .ok ⟨g, none⟩
  | letter :: rest =>
    match place.ofLetter? letter with
    | none => .error (.unknownOption ("-" ++ String.ofList [letter]))
    | some flag =>
      if flag.takesValue then
        match rest with
        | [] => .ok ⟨g, some flag⟩
        | '=' :: value => return ⟨← g.add place flag (String.ofList value), none⟩
        | value => return ⟨← g.add place flag (String.ofList value), none⟩
      else do
        readLetters place (← g.add place flag "") rest

/-- Read an option by its long name. -/
def readLong (place : Place) (g : Given) (name : String) (value : Option String) :
    Except Stop Pending :=
  match place.ofLongName? name with
  | none => .error (.unknownOption ("--" ++ name))
  | some flag =>
    if flag.takesValue then
      match value with
      | some value => return ⟨← g.add place flag value, none⟩
      | none => .ok ⟨g, some flag⟩
    else
      match value with
      | some _ => .error (.unexpectedValue ("--" ++ name))
      | none => return ⟨← g.add place flag "", none⟩

/-- The value that a word is for an option that waits. -/
def Word.value? : Word → Option String
  | plain text => some text
  | _ => none

/-- Read the options of a place up to the first word that is none. Also gives the words from there
on, and whether they stand behind a separator. -/
def readOptions (place : Place) (p : Pending) :
    List String → Except Stop (Given × List String × Bool)
  | [] =>
    match p.waiting with
    | some flag => .error (.missingValue flag)
    | none => .ok (p.given, [], false)
  | text :: rest =>
    match p.waiting, Word.ofString text with
    | some flag, word =>
      match word.value? with
      | some value => do readOptions place ⟨← p.given.add place flag value, none⟩ rest
      | none => .error (.missingValue flag)
    | none, .separator => .ok (p.given, rest, true)
    | none, .long name value => do
      readOptions place (← readLong place p.given name value) rest
    | none, .letters cluster => do
      readOptions place (← readLetters place p.given cluster) rest
    | none, .plain _ => .ok (p.given, text :: rest, false)

/-! ## Whole command lines -/

/-- What a command line asks for. -/
structure Invocation where
  command : Subcommand
  options : Command.Options
  /-- The path of the configuration file, when one is named. -/
  config : Option String
  verbose : Bool
  deriving DecidableEq, Repr

/-- Read what stands behind a command; `outer` are the options before it. -/
def readBehind (outer : Given) (command : Subcommand) (words : List String) :
    Except Stop Invocation := do
  let (inner, rest, _) ← readOptions (.behind command) ⟨[], none⟩ words
  match rest with
  | word :: _ => throw (.surplusWord word)
  | [] =>
    return {
      command
      options := {
        source := inner.value? .source
        format := inner.value? .format
        outputPath := inner.value? .outputPath
        locales := inner.values .locale }
      config := inner.value? .config <|> outer.value? .config
      verbose := inner.has .verbose || outer.has .verbose }

/-- The word that asks for help like an option does. -/
def helpWord : String := "help"

/-- The help that is asked for by words behind the one that asks for it. -/
def helpAbout : List String → Stop
  | [] => .help .before
  | word :: _ =>
    match Subcommand.ofName? word with
    | some command => .help (.behind command)
    | none => if word = helpWord then .help .before else .unknownCommand word

/-- Read a command line. -/
def Invocation.read (words : List String) : Except Stop Invocation := do
  let (outer, rest, isSeparated) ← readOptions .before ⟨[], none⟩ words
  match rest with
  | [] => throw .missingCommand
  | word :: rest =>
    if isSeparated then throw (.surplusWord word)
    else
      match Subcommand.ofName? word with
      | some command => readBehind outer command rest
      | none => if word = helpWord then throw (helpAbout rest) else throw (.unknownCommand word)

end MessageCatalog.CommandLine
