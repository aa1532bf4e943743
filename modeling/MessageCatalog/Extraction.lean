import MessageCatalog.CallSite
import MessageCatalog.Location

/-!
# Extracting messages

The messages of source files are collected in order; of several messages with one id the first is
kept. A file in which the name of the tag does not stand is not read at all.
-/

namespace MessageCatalog

/-- The messages found so far, in order, and beside them the set of ids that were seen. -/
structure Extraction where
  messages : List Message := []
  seenIds : List String := []
  deriving DecidableEq, Repr

namespace Extraction

def ids (e : Extraction) : List String := e.messages.map (·.id)

/-- Take note of the id of a message, and add the message if the id was not seen before. -/
def add (e : Extraction) (m : Message) : Extraction where
  messages := if m.id ∈ e.seenIds then e.messages else e.messages ++ [m]
  seenIds := e.seenIds.insert m.id

/-- Add messages in order. -/
def addAll (e : Extraction) (messages : List Message) : Extraction :=
  messages.foldl add e

/-- What is said about a file that cannot be read as a script. -/
def refusalMessage (path : String) (r : Script.Refusal) : String :=
  "Unable to parse source file \"" ++ path ++ "\": " ++ r.message

/-- Take the outcome of a call site: its message, or an error. -/
def take (path : String) (state : Extraction × Diagnostics)
    (outcome : Except CallSiteError Message) : Extraction × Diagnostics :=
  match outcome with
  | .ok m => (state.1.add m, state.2)
  | .error e => (state.1, state.2.error (path ++ ": " ++ e.message))

/-- Take the outcomes of the call sites of a file that was read as a script, if it could be. -/
def takeScript (file : FileText) (state : Extraction × Diagnostics) :
    Except Script.Refusal Script.Node → Extraction × Diagnostics
  | .error refusal => (state.1, state.2.warn (refusalMessage file.path refusal))
  | .ok script => (CallSite.messages file.contents.toList script).foldl (take file.path) state

/-- Read a file and take the outcomes of its call sites. -/
def scan (e : Extraction) (file : FileText) (ds : Diagnostics) : Extraction × Diagnostics :=
  takeScript file (e, ds) (Script.read (.ofPath file.path) file.contents.toList)

/-- Whether the name of the tag stands in a file. -/
def mentionsTag (file : FileText) : Bool :=
  Text.contains CallSite.tagName.toList file.contents.toList

/-- Take the messages of a file, if there can be any. -/
def extract (e : Extraction) (file : FileText) (ds : Diagnostics) : Extraction × Diagnostics :=
  if mentionsTag file then e.scan file ds else (e, ds)

end Extraction

end MessageCatalog
