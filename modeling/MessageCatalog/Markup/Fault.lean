import MessageCatalog.Markup.Character
import MessageCatalog.Text

/-!
# What can be wrong with a document

A fault is a cause and, for all but three causes, the byte offset it is about. Its message shows
the offset as row and column, both counted from one.
-/

namespace MessageCatalog.Markup

/-- Why a document cannot be read. -/
inductive Cause where
  | noRoot
  | rootNotClosed
  | endOfInput
  | unknownToken
  | invalidName
  | unexpectedDeclaration
  | dashesInComment
  | sectionEndInText
  | invalidExternalId
  | malformedReference
  | referenceLoop
  | lessThanInValue
  | closeTagInEntity
  | xmlPrefixWrongUri
  | xmlUriWrongPrefix
  | xmlnsUri
  | xmlnsPrefix
  | expectedText (wanted : String)
  /-- A character was expected and another one stands there. -/
  | expectedChar (wanted found : Char)
  /-- One of a class of characters was expected and another one stands there. -/
  | expectedClass (wanted : String) (found : Char)
  | nonXmlChar (c : Char)
  | unknownEntity (name : String)
  | unknownPrefix (name : String)
  | duplicateNamespace (name : String)
  | duplicateAttribute (name : String)
  | wrongCloseTag (wanted found : String)
  deriving DecidableEq, Repr

/-- A cause and the byte offset it is about. -/
structure Fault where
  cause : Cause
  offset : Nat := 0
  deriving DecidableEq, Repr

/-- The form of a control character in a message. -/
def showControl (c : Char) : String :=
  if c.toNat = 0 then "'\\0'"
  else "'\\u\x7b" ++ String.ofList (Nat.toDigits 16 c.toNat) ++ "\x7d'"

/-- The message of a cause at a place. -/
def Cause.message (pos : String) : Cause → String
  | noRoot => "the document does not have a root node"
  | rootNotClosed => "the root node was opened but never closed"
  | endOfInput => "unexpected end of stream"
  | unknownToken => "unknown token at " ++ pos
  | invalidName => "invalid name token at " ++ pos
  | unexpectedDeclaration => "unexpected XML declaration at " ++ pos
  | dashesInComment => "comment at " ++ pos ++ " contains '--'"
  | sectionEndInText => "']]>' at " ++ pos ++ " is not allowed inside a character data"
  | invalidExternalId => "invalid ExternalID at " ++ pos
  | malformedReference => "malformed entity reference at " ++ pos
  | referenceLoop => "a possible entity reference loop is detected at " ++ pos
  | lessThanInValue => "unescaped '<' found at " ++ pos
  | closeTagInEntity => "unexpected close tag at " ++ pos
  | xmlPrefixWrongUri => "'xml' namespace prefix mapped to wrong URI at " ++ pos
  | xmlUriWrongPrefix => "the 'xml' namespace URI is used for not 'xml' prefix at " ++ pos
  | xmlnsUri => "the 'xmlns' URI is used at " ++ pos ++ ", but it must not be declared"
  | xmlnsPrefix => "the 'xmlns' prefix is used at " ++ pos ++ ", but it must not be"
  | expectedText wanted => "expected '" ++ wanted ++ "' at " ++ pos
  | expectedChar wanted found =>
    "expected '" ++ wanted.toString ++ "' not '" ++ (byteShown found).toString ++ "' at " ++ pos
  | expectedClass wanted found =>
    "expected " ++ wanted ++ " not '" ++ (byteShown found).toString ++ "' at " ++ pos
  | nonXmlChar c => "a non-XML character " ++ showControl c ++ " found at " ++ pos
  | unknownEntity name => "unknown entity reference '" ++ name ++ "' at " ++ pos
  | unknownPrefix name => "an unknown namespace prefix '" ++ name ++ "' at " ++ pos
  | duplicateNamespace name => "namespace '" ++ name ++ "' at " ++ pos ++ " is already defined"
  | duplicateAttribute name => "attribute '" ++ name ++ "' at " ++ pos ++ " is already defined"
  | wrongCloseTag wanted found =>
    "expected '" ++ wanted ++ "' tag, not '" ++ found ++ "' at " ++ pos

/-- The row and column behind the first `bytes` bytes of a text. -/
def rowAndColumn (row col bytes : Nat) : List Char → Nat × Nat
  | [] => (row, col)
  | c :: text =>
    if bytes = 0 then (row, col)
    else if c = '\n' then rowAndColumn (row + 1) 1 (bytes - 1) text
    else rowAndColumn row (col + 1) (bytes - c.utf8Size) text

/-- The message of a fault in the document `contents`. -/
def Fault.message (contents : String) (f : Fault) : String :=
  let (row, col) := rowAndColumn 1 1 f.offset contents.toList
  f.cause.message (toString row ++ ":" ++ toString col)

end MessageCatalog.Markup
