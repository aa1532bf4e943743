import MessageCatalog.Path

/-!
# Names of bundles and of their output files

A bundle may be built for several language levels; such builds differ by `-es5` or `-es2015` in
their names. Only one build of a bundle is read, and the name of its output leaves the level out.
-/

namespace MessageCatalog.BundleName

/-- What the name of a build may have for its language level. -/
def levels : List (List Char) := ["-es5".toList, "-es2015".toList]

/-- The text without the first place where one of `marks` stands, and with `put` there instead. -/
def replaceFirst (marks : List (List Char)) (put : List Char) : List Char → List Char
  | [] => []
  | c :: text =>
    match marks.findSome? (Text.dropLead? · (c :: text)) with
    | some rest => put ++ rest
    | none => c :: replaceFirst marks put text

/-- What all builds of a bundle have in common. -/
def key (path : String) : String :=
  String.ofList (replaceFirst (levels.map (· ++ ['.'])) ['.'] path.toList)

/-- The paths of which no earlier one has the same key; `seen` are the keys before them. -/
def dedupFrom (seen : List String) : List String → List String
  | [] => []
  | path :: rest =>
    if key path ∈ seen then dedupFrom seen rest
    else path :: dedupFrom (key path :: seen) rest

/-- The first build of each bundle. -/
def dedup (paths : List String) : List String := dedupFrom [] paths

/-- A text without an ending, if it has that. -/
def dropEnding (ending text : List Char) : List Char :=
  match Text.dropLead? ending.reverse text.reverse with
  | some rest => rest.reverse
  | none => text

/-- The name of the file with the messages of a bundle in a locale. -/
def localized (source locale extension : String) : String :=
  let name := ((Path.fileName? source).getD "").toList
  let base := replaceFirst levels [] (dropEnding ".js".toList name)
  String.ofList base ++ "." ++ locale ++ "." ++ extension

/-- What is said about a file that would have the output of another file. -/
def collisionMessage (source target : String) : String :=
  "Skipping \"" ++ source ++ "\": output file \"" ++ target ++
    "\" was already generated from another file."

end MessageCatalog.BundleName
