import MessageCatalog.FileFormat.Render
import MessageCatalog.Proofs.Markup.Calls

/-!
# The calls that write a file

Each format with markup writes its files by calls to a writer. The calls of a format are a list that
does not depend on the writer, so they can be followed from a new one: each end tag names the
element that it closes, and at the end nothing is open and no white space is preserved.
-/

namespace MessageCatalog

open Markup.Writer (Call Restores Finished LaidOut run)

/-- The calls that write the content of a message. -/
def Message.contentCalls (m : Message) (placeholder : Nat → String → Call) : List Call :=
  .text (m.parts.headD "") ::
    (m.placeholderNames.zip (m.parts.drop 1)).zipIdx.flatMap fun ((name, part), index) =>
      [placeholder index name, .text part]

namespace Message

variable {m : Message}

/-- The content of a message is written by a call for each of its texts and placeholders. -/
lemma writeContent_eq_run {placeholder : Markup.Writer → Nat → String → Markup.Writer}
    {call : Nat → String → Call}
    (h : ∀ w index name, placeholder w index name = (call index name).make w)
    (w : Markup.Writer) : m.writeContent placeholder w = w.run (m.contentCalls call) := by
  refine Markup.Writer.foldl_eq_run ?_ _ _
  rintro w ⟨⟨name, part⟩, index⟩
  exact congrArg (Markup.Writer.text · part) (h w index name)

/-- An element with the content of a message. -/
lemma writeElement_eq_run {placeholder : Markup.Writer → Nat → String → Markup.Writer}
    {call : Nat → String → Call}
    (h : ∀ w index name, placeholder w index name = (call index name).make w)
    (w : Markup.Writer) (element : String) (attributes : List (String × Option String)) :
    (m.writeContent placeholder (w.startTag element attributes { preserve := some true })).endTag
        element { preserve := some false } =
      w.run (Call.preserved element attributes (m.contentCalls call)) := by
  rw [Markup.Writer.run_preserved, writeContent_eq_run h]

/-- The calls for the content restore everything when those for the placeholders do. -/
lemma restores_contentCalls {call : Nat → String → Call}
    (h : ∀ index name, Restores true [call index name]) : Restores true (m.contentCalls call) := by
  refine (Restores.text _).append (Restores.flatMap ?_ _)
  rintro ⟨⟨name, part⟩, index⟩
  exact (h index name).append (.text part)

end Message

namespace FileFormat

variable {m : Message}

/-! ## XTB and XMB -/

namespace Xtb

/-- The call that writes a placeholder. -/
def placeholderCall (_index : Nat) (name : String) : Call :=
  .startTag "ph" [("name", some name)] { selfClosing := true }

/-- The calls that write a message as an element with this name. -/
def messageCalls (element : String) (m : Message) : List Call :=
  Call.preserved element
    [("id", some m.id), ("desc", some m.description), ("meaning", some m.meaning)]
    (m.contentCalls placeholderCall)

/-- The calls that write a file. -/
def calls (messages : List Message) (locale : String) : List Call :=
  .raw preamble ::
    Call.block rootName [("lang", some locale)] (messages.flatMap (messageCalls messageName))

/-- A message is written by its calls. -/
lemma writeMessage_eq_run (element : String) (w : Markup.Writer) (m : Message) :
    writeMessage element w m = w.run (messageCalls element m) := by
  have placeholder (w : Markup.Writer) (index : Nat) (name : String) :
      writePlaceholder w index name = (placeholderCall index name).make w := rfl
  exact Message.writeElement_eq_run placeholder w element _

/-- An XTB file is written by its calls. -/
lemma writeFile_eq_run (messages : List Message) (locale : String) :
    writeFile messages locale = run {} (calls messages locale) := by
  rw [calls, ← List.singleton_append, Markup.Writer.run_append, Markup.Writer.run_block, writeFile,
    Markup.Writer.foldl_eq_run (writeMessage_eq_run messageName)]
  rfl

/-- The calls for a message close what they open. -/
lemma restores_messageCalls (element : String) (m : Message) :
    Restores false (messageCalls element m) :=
  (Message.restores_contentCalls fun _ _ => .leaf _ _).preserved _ _

/-- The calls for an XTB file close what they open. -/
lemma restores_calls (messages : List Message) (locale : String) :
    Restores false (calls messages locale) :=
  (Restores.raw preamble).append
    ((Restores.flatMap (restores_messageCalls messageName) messages).block _ _)

end Xtb

namespace Xmb

/-- The calls that write a file. -/
def calls (messages : List Message) : List Call :=
  .raw preamble :: Call.block rootName [] (messages.flatMap (Xtb.messageCalls messageName))

/-- An XMB file is written by its calls. -/
lemma writeFile_eq_run (messages : List Message) :
    writeFile messages = run {} (calls messages) := by
  rw [calls, ← List.singleton_append, Markup.Writer.run_append, Markup.Writer.run_block, writeFile,
    Markup.Writer.foldl_eq_run (Xtb.writeMessage_eq_run messageName)]
  rfl

/-- The calls for an XMB file close what they open. -/
lemma restores_calls (messages : List Message) : Restores false (calls messages) :=
  (Restores.raw preamble).append
    ((Restores.flatMap (Xtb.restores_messageCalls messageName) messages).block _ _)

end Xmb

/-! ## XLIFF -/

namespace Xliff1

/-- The call that writes a placeholder. -/
def placeholderCall (_index : Nat) (name : String) : Call :=
  .startTag "x" [("id", some name)] { selfClosing := true }

/-- The calls that write the content of a message as an element. -/
def textCalls (element : String) (m : Message) : List Call :=
  Call.preserved element [] (m.contentCalls placeholderCall)

/-- The calls that write a note, unless it is empty. -/
def noteCalls (kind value : String) : List Call :=
  if value.isEmpty then []
  else Call.preserved "note" [("priority", some "1"), ("from", some kind)] [.text value]

/-- The calls that write the unit of a message. -/
def unitCalls (isTarget : Bool) (m : Message) : List Call :=
  Call.block "trans-unit" [("id", some m.id), ("datatype", some "html")]
    ((if isTarget then [] else textCalls "source" m) ++ textCalls "target" m ++
      noteCalls "description" m.description ++ noteCalls "meaning" m.meaning)

/-- The calls that write a file. -/
def calls (messages : List Message) (locale : String) (isTarget : Bool) : List Call :=
  Call.block "xliff" [("version", some version), ("xmlns", some xmlns)]
    (Call.block "file"
      [("source-language", if isTarget then none else some locale),
        ("target-language", some locale), ("datatype", some "plaintext")]
      (Call.block "body" [] (messages.flatMap (unitCalls isTarget))))

/-- The content of a message is written as an element by its calls. -/
lemma writeText_eq_run (w : Markup.Writer) (element : String) (m : Message) :
    writeText w element m = w.run (textCalls element m) := by
  have placeholder (w : Markup.Writer) (index : Nat) (name : String) :
      writePlaceholder w index name = (placeholderCall index name).make w := rfl
  exact Message.writeElement_eq_run placeholder w element []

/-- A note is written by its call, or by none when it is empty. -/
lemma writeNote_eq_run (w : Markup.Writer) (kind value : String) :
    writeNote w kind value = w.run (noteCalls kind value) := by
  rw [writeNote, noteCalls]
  split
  case isTrue => rfl
  case isFalse =>
    rw [Markup.Writer.run_preserved]
    rfl

/-- A unit of XLIFF 1.2 is written by its calls. -/
lemma writeUnit_eq_run (isTarget : Bool) (w : Markup.Writer) (m : Message) :
    writeUnit isTarget w m = w.run (unitCalls isTarget m) := by
  rw [unitCalls, Markup.Writer.run_block, writeUnit, Markup.Writer.run_append,
    Markup.Writer.run_append, Markup.Writer.run_append, writeNote_eq_run, writeNote_eq_run,
    writeText_eq_run, writeText_eq_run]
  cases isTarget <;> rfl

/-- An XLIFF 1.2 file is written by its calls. -/
lemma writeFile_eq_run (messages : List Message) (locale : String) (isTarget : Bool) :
    writeFile messages locale isTarget = run {} (calls messages locale isTarget) := by
  rw [calls, Markup.Writer.run_block, Markup.Writer.run_block, Markup.Writer.run_block, writeFile,
    Markup.Writer.foldl_eq_run (writeUnit_eq_run isTarget)]

/-- The calls for the content of a message close what they open. -/
lemma restores_textCalls (element : String) (m : Message) : Restores false (textCalls element m) :=
  (Message.restores_contentCalls fun _ _ => .leaf _ _).preserved _ _

/-- The calls for a note close what they open. -/
lemma restores_noteCalls (kind value : String) : Restores false (noteCalls kind value) :=
  ((Restores.text value).preserved _ _).nilOr

/-- The calls for a unit close what they open, with a source or without. -/
lemma restores_unitCalls (isTarget : Bool) (m : Message) :
    Restores false (unitCalls isTarget m) := by
  have source : Restores false (if isTarget then [] else textCalls "source" m) :=
    (restores_textCalls "source" m).nilOr
  have texts := source.append (restores_textCalls "target" m)
  have notes := (texts.append (restores_noteCalls "description" m.description)).append
    (restores_noteCalls "meaning" m.meaning)
  exact notes.block _ _

/-- The calls for an XLIFF 1.2 file close what they open. -/
lemma restores_calls (messages : List Message) (locale : String) (isTarget : Bool) :
    Restores false (calls messages locale isTarget) :=
  (((Restores.flatMap (restores_unitCalls isTarget) messages).block _ _).block _ _).block _ _

end Xliff1

namespace Xliff2

/-- The call that writes a placeholder. -/
def placeholderCall (substitutions : List String) (index : Nat) (name : String) : Call :=
  .startTag "ph"
    [("id", some (toString (index + 1))), ("equiv", some name), ("disp", substitutions[index]?)]
    { selfClosing := true }

/-- The calls that write the content of a message as an element. -/
def textCalls (element : String) (m : Message) : List Call :=
  Call.preserved element [] (m.contentCalls (placeholderCall m.substitutions))

/-- The calls that write the unit of a message. -/
def unitCalls (isTarget : Bool) (m : Message) : List Call :=
  Call.block "unit" [("id", some m.id)]
    (Call.block "segment" []
      ((if isTarget then [] else textCalls "source" m) ++ textCalls "target" m))

/-- The calls that write a file. -/
def calls (messages : List Message) (locale : String) (isTarget : Bool) : List Call :=
  Call.block "xliff"
    [("version", some version), ("xmlns", some xmlns), ("srcLang", some locale),
      ("trgLang", some locale)]
    (Call.block "file" [] (messages.flatMap (unitCalls isTarget)))

/-- The content of a message is written as an element by its calls. -/
lemma writeText_eq_run (w : Markup.Writer) (element : String) (m : Message) :
    writeText w element m = w.run (textCalls element m) := by
  have placeholder (w : Markup.Writer) (index : Nat) (name : String) :
      writePlaceholder m.substitutions w index name =
        (placeholderCall m.substitutions index name).make w := rfl
  exact Message.writeElement_eq_run placeholder w element []

/-- A unit of XLIFF 2.0 is written by its calls. -/
lemma writeUnit_eq_run (isTarget : Bool) (w : Markup.Writer) (m : Message) :
    writeUnit isTarget w m = w.run (unitCalls isTarget m) := by
  rw [unitCalls, Markup.Writer.run_block, Markup.Writer.run_block, writeUnit,
    Markup.Writer.run_append, writeText_eq_run, writeText_eq_run]
  cases isTarget <;> rfl

/-- An XLIFF 2.0 file is written by its calls. -/
lemma writeFile_eq_run (messages : List Message) (locale : String) (isTarget : Bool) :
    writeFile messages locale isTarget = run {} (calls messages locale isTarget) := by
  rw [calls, Markup.Writer.run_block, Markup.Writer.run_block, writeFile,
    Markup.Writer.foldl_eq_run (writeUnit_eq_run isTarget)]

/-- The calls for the content of a message close what they open. -/
lemma restores_textCalls (element : String) (m : Message) : Restores false (textCalls element m) :=
  (Message.restores_contentCalls fun _ _ => .leaf _ _).preserved _ _

/-- The calls for a unit close what they open, with a source or without. -/
lemma restores_unitCalls (isTarget : Bool) (m : Message) :
    Restores false (unitCalls isTarget m) := by
  have source : Restores false (if isTarget then [] else textCalls "source" m) :=
    (restores_textCalls "source" m).nilOr
  exact ((source.append (restores_textCalls "target" m)).block _ _).block _ _

/-- The calls for an XLIFF 2.0 file close what they open. -/
lemma restores_calls (messages : List Message) (locale : String) (isTarget : Bool) :
    Restores false (calls messages locale isTarget) :=
  ((Restores.flatMap (restores_unitCalls isTarget) messages).block _ _).block _ _

end Xliff2

/-- Whatever calls came before, a call to a writer is laid out, and where white space is preserved
before and behind it, its markup is all that is added. In every format with markup the writer of a
file is what calls make of a new one that close all that they opened, each end tag naming the
element that it closes. -/
theorem calls_laid_out_and_closed :
    (∀ before call, LaidOut (run {} before) call (run {} (before ++ [call]))) ∧
      (∀ before call, (run {} before).preserving = true →
        (run {} (before ++ [call])).preserving = true →
          (run {} (before ++ [call])).output = (run {} before).output ++ call.markup) ∧
      ∀ messages locale isTarget,
        Finished (Xliff1.writeFile messages locale isTarget)
            (Xliff1.calls messages locale isTarget) ∧
          Finished (Xliff2.writeFile messages locale isTarget)
            (Xliff2.calls messages locale isTarget) ∧
          Finished (Xmb.writeFile messages) (Xmb.calls messages) ∧
          Finished (Xtb.writeFile messages locale) (Xtb.calls messages locale) := by
  refine ⟨Markup.Writer.laidOut_run, fun before call => ?_, fun messages locale isTarget => ?_⟩
  · exact (Markup.Writer.laidOut_run before call).output_of_preserving
  · exact ⟨(Xliff1.restores_calls messages locale isTarget).finished
        (Xliff1.writeFile_eq_run messages locale isTarget),
      (Xliff2.restores_calls messages locale isTarget).finished
        (Xliff2.writeFile_eq_run messages locale isTarget),
      (Xmb.restores_calls messages).finished (Xmb.writeFile_eq_run messages),
      (Xtb.restores_calls messages locale).finished (Xtb.writeFile_eq_run messages locale)⟩

/-- A placeholder between texts with blanks at their ends. -/
theorem calls_laid_out_and_closed_target :
    let before := [.startTag "target" [] { preserve := some true }, .text " a "]
    let call := Call.startTag "x" [] { selfClosing := true }
    (run {} before).preserving = true ∧ (run {} (before ++ [call])).preserving = true ∧
      (run {} before).output = "<target> a " ∧
      (run {} (before ++ [call])).output = "<target> a " ++ "<x/>" := by
  have added := calls_laid_out_and_closed.2.1
    [.startTag "target" [] { preserve := some true }, .text " a "]
    (.startTag "x" [] { selfClosing := true }) rfl rfl
  exact ⟨rfl, rfl, by decide, added⟩

end FileFormat

end MessageCatalog
