import Mathlib.Data.List.Induction
import MessageCatalog.Proofs.Markup.Layout

/-!
# Calls to a writer

A writer is changed by calls. Whatever calls came before, the indent is two blanks for each open
element, and a call adds to the output its markup, with white space around a tag only where none is
preserved (`LaidOut`). Calls that close what they open, each element by its name, leave nothing of
the writer changed but its output (`Restores`).
-/

namespace MessageCatalog.Markup.Writer

/-- A call to a writer. -/
inductive Call where
  | raw (markup : String)
  | text (content : String)
  | startTag (name : String) (attributes : List (String × Option String)) (style : TagStyle)
  | endTag (name : String) (style : TagStyle)
  deriving DecidableEq, Repr

namespace Call

/-- What a call makes of a writer. -/
def make (w : Writer) : Call → Writer
  | raw markup => w.raw markup
  | text content => w.text content
  | startTag name attributes style => w.startTag name attributes style
  | endTag name style => w.endTag name style

/-- What a call writes, without the white space around it. -/
def markup : Call → String
  | raw markup => markup
  | text content => escape content
  | startTag name attributes style => startTagText name attributes style
  | endTag name _ => "</" ++ name ++ ">"

/-- White space next to what a call writes: there is some next to a tag, unless it is preserved. -/
def space (preserving : Bool) (white : String) : Call → String
  | startTag _ _ _ | endTag _ _ => if preserving then "" else white
  | _ => ""

/-- The elements around the tag of a call: an end tag stands where its element does. -/
def around (stack : List String) : Call → List String
  | endTag _ _ => stack.drop 1
  | _ => stack

/-- The elements that are open behind a call. -/
def openAfter (stack : List String) : Call → List String
  | startTag name _ style => if style.selfClosing then stack else name :: stack
  | endTag _ _ => stack.drop 1
  | _ => stack

/-- Whether white space is preserved behind a call. -/
def preservingAfter (preserving : Bool) : Call → Bool
  | startTag _ _ style | endTag _ style => style.preserve.getD preserving
  | _ => preserving

/-- Whether a call may be made while these elements are open: an end tag has to name the innermost
of them. -/
def Fits (stack : List String) : Call → Prop
  | endTag name _ => stack.head? = some name
  | _ => True

end Call

/-- What calls make of a writer, one after the other. -/
def run (w : Writer) (calls : List Call) : Writer :=
  calls.foldl Call.make w

/-- Calls are made one after the other. -/
lemma run_append (w : Writer) (first later : List Call) :
    w.run (first ++ later) = (w.run first).run later :=
  List.foldl_append

/-! ## Layout -/

/-- The indent inside this many elements. -/
def blanks (depth : Nat) : String :=
  String.ofList (List.replicate (2 * depth) ' ')

/-- The indent grows by one step for each element. -/
lemma blanks_succ (depth : Nat) : blanks (depth + 1) = blanks depth ++ indentStep := by
  rw [blanks, Nat.mul_succ, List.replicate_add, String.ofList_append]
  rfl

/-- Taking back a step gives the indent of the element around, of which the outermost has none. -/
lemma lessIndent_blanks (depth : Nat) : lessIndent (blanks depth) = blanks (depth - 1) := by
  cases depth with
  | zero => rfl
  | succ depth => rw [blanks_succ, lessIndent_append, Nat.add_sub_cancel]

/-- How a writer is changed by a call. -/
structure LaidOut (w : Writer) (call : Call) (w' : Writer) : Prop where
  stack : w'.stack = call.openAfter w.stack
  preserving : w'.preserving = call.preservingAfter w.preserving
  indent : w'.indent = blanks w'.stack.length
  /-- A tag is written behind the indent of its own depth, unless white space is preserved before
  it, and it ends the line, unless white space is preserved behind it. -/
  output : w'.output = w.output ++
    (call.space w.preserving (blanks (call.around w.stack).length) ++ call.markup ++
      call.space w'.preserving "\n")

/-- Where white space is preserved, a call writes its markup and nothing else. -/
lemma LaidOut.output_of_preserving {w w' : Writer} {call : Call} (h : LaidOut w call w')
    (before : w.preserving = true) (after : w'.preserving = true) :
    w'.output = w.output ++ call.markup := by
  have none (white : String) : call.space true white = "" := by cases call <;> rfl
  rw [h.output, before, after, none, none, String.empty_append, String.append_empty]

/-! ## The four calls -/

/-- After a tag the line ends, unless white space is preserved from there on. -/
lemma settle_eq (w : Writer) (style : TagStyle) :
    w.settle style = { w with
      output := w.output ++ if style.preserve.getD w.preserving then "" else "\n"
      preserving := style.preserve.getD w.preserving } := by
  rw [settle]
  cases style.preserve.getD w.preserving with
  | true => simp only [if_true, String.append_empty]
  | false => rfl

/-- A start tag is written between the white space that the flags around it ask for. -/
lemma startTag_eq (w : Writer) (name : String) (attributes : List (String × Option String))
    (style : TagStyle) :
    w.startTag name attributes style =
      { output := w.output ++ ((if w.preserving then "" else w.indent) ++
          startTagText name attributes style ++
            if style.preserve.getD w.preserving then "" else "\n")
        indent := if style.selfClosing then w.indent else w.indent ++ indentStep
        stack := if style.selfClosing then w.stack else name :: w.stack
        preserving := style.preserve.getD w.preserving } := by
  rw [startTag, settle_eq]
  cases style.selfClosing <;> simp [lead, String.append_assoc]

/-- An end tag is written between the white space that the flags around it ask for, with the indent
of its element. -/
lemma endTag_eq (w : Writer) (name : String) (style : TagStyle) :
    w.endTag name style =
      { output := w.output ++ ((if w.preserving then "" else lessIndent w.indent) ++
          ("</" ++ name ++ ">") ++ if style.preserve.getD w.preserving then "" else "\n")
        indent := lessIndent w.indent
        stack := w.stack.drop 1
        preserving := style.preserve.getD w.preserving } := by
  rw [endTag, settle_eq]
  simp only [lead, String.append_assoc]

/-- A call lays out what it writes, if the indent before it is that of the open elements. -/
lemma laidOut_make {w : Writer} (h : w.indent = blanks w.stack.length) (call : Call) :
    LaidOut w call (call.make w) := by
  cases call with
  | raw markup => exact ⟨rfl, rfl, h, by simp [Call.make, raw, Call.space, Call.markup]⟩
  | text content => exact ⟨rfl, rfl, h, by simp [Call.make, text, raw, Call.space, Call.markup]⟩
  | startTag name attributes style =>
    rw [Call.make, startTag_eq, h]
    refine ⟨rfl, rfl, ?_, rfl⟩
    cases style.selfClosing with
    | true => rfl
    | false => exact (blanks_succ w.stack.length).symm
  | endTag name style =>
    have less : lessIndent (blanks w.stack.length) = blanks (w.stack.drop 1).length := by
      rw [lessIndent_blanks, List.length_drop]
    rw [Call.make, endTag_eq, h, less]
    exact ⟨rfl, rfl, rfl, rfl⟩

/-- After any calls the indent is that of the open elements. -/
lemma indent_run (calls : List Call) :
    (run {} calls).indent = blanks (run {} calls).stack.length := by
  induction calls using List.reverseRecOn with
  | nil => rfl
  | append_singleton calls call ih =>
    rw [run_append]
    exact (laidOut_make ih call).indent

/-- Whatever calls came before, a call is laid out. -/
lemma laidOut_run (before : List Call) (call : Call) :
    LaidOut (run {} before) call (run {} (before ++ [call])) := by
  rw [run_append]
  exact laidOut_make (indent_run before) call

/-! ## Closed elements -/

/-- Each end tag names the element that is innermost when the call is made. -/
def Closes : (w : Writer) → List Call → Prop
  | _, [] => True
  | w, call :: calls => call.Fits w.stack ∧ Closes (call.make w) calls

/-- Calls close what they open when the first of them do and the later ones do after them. -/
lemma closes_append {w : Writer} {first later : List Call} :
    w.Closes (first ++ later) ↔ w.Closes first ∧ (w.run first).Closes later := by
  induction first generalizing w with
  | nil => exact (iff_of_eq (true_and _)).symm
  | cons call first ih =>
    rw [List.cons_append, Closes, Closes, ih, and_assoc]
    rfl

/-- Calls that close what they open, and leave nothing changed but the output; `preserving` says
whether white space is preserved around them. -/
def Restores (preserving : Bool) (calls : List Call) : Prop :=
  ∀ w : Writer, w.preserving = preserving →
    w.Closes calls ∧ ∃ output, w.run calls = { w with output }

/-- The calls that write an element on lines of its own. -/
def Call.block (name : String) (attributes : List (String × Option String))
    (inside : List Call) : List Call :=
  .startTag name attributes {} :: (inside ++ [.endTag name {}])

/-- The calls that write an element around content with preserved white space. -/
def Call.preserved (name : String) (attributes : List (String × Option String))
    (inside : List Call) : List Call :=
  .startTag name attributes { preserve := some true } ::
    (inside ++ [.endTag name { preserve := some false }])

/-- The calls for an element on lines are those inside it between its tags. -/
lemma run_block (w : Writer) (name : String) (attributes : List (String × Option String))
    (inside : List Call) :
    w.run (Call.block name attributes inside) =
      ((w.startTag name attributes).run inside).endTag name :=
  run_append (w.startTag name attributes) inside [.endTag name {}]

/-- The calls for an element that preserves white space are those inside it between its tags. -/
lemma run_preserved (w : Writer) (name : String) (attributes : List (String × Option String))
    (inside : List Call) :
    w.run (Call.preserved name attributes inside) =
      ((w.startTag name attributes { preserve := some true }).run inside).endTag name
        { preserve := some false } :=
  run_append (w.startTag name attributes { preserve := some true }) inside
    [.endTag name { preserve := some false }]

/-- Calls that are made for each of some things are made for one after the other. -/
lemma foldl_eq_run {α : Type} {f : Writer → α → Writer} {calls : α → List Call}
    (h : ∀ w a, f w a = w.run (calls a)) (as : List α) (w : Writer) :
    as.foldl f w = w.run (as.flatMap calls) := by
  induction as generalizing w with
  | nil => rfl
  | cons a as ih => rw [List.foldl_cons, List.flatMap_cons, run_append, h, ih]

namespace Restores

variable {preserving inner : Bool} {calls later : List Call}

/-- No calls restore everything. -/
lemma nil : Restores preserving [] := fun w _ => ⟨trivial, w.output, rfl⟩

/-- Calls that restore everything restore it one after the other. -/
lemma append (h : Restores preserving calls) (hlater : Restores preserving later) :
    Restores preserving (calls ++ later) := by
  intro w hw
  obtain ⟨closes, output, e⟩ := h w hw
  obtain ⟨closesLater, all, e'⟩ := hlater { w with output } hw
  refine ⟨closes_append.2 ⟨closes, e ▸ closesLater⟩, all, ?_⟩
  rw [run_append, e, e']

/-- Calls for each of some items restore everything when those for each item do. -/
lemma flatMap {α : Type} {f : α → List Call} (h : ∀ a, Restores preserving (f a)) (as : List α) :
    Restores preserving (as.flatMap f) := by
  induction as with
  | nil => exact nil
  | cons a as ih =>
    rw [List.flatMap_cons]
    exact (h a).append ih

/-- Calls that may be left out. -/
lemma nilOr {p : Prop} [Decidable p] (h : Restores preserving calls) :
    Restores preserving (if p then [] else calls) := by
  split
  case isTrue => exact nil
  case isFalse => exact h

/-- Markup that is written as it is opens nothing. -/
lemma raw (markup : String) : Restores preserving [.raw markup] :=
  fun _ _ => ⟨⟨trivial, trivial⟩, _, rfl⟩

/-- Text opens nothing. -/
lemma text (content : String) : Restores preserving [.text content] :=
  fun _ _ => ⟨⟨trivial, trivial⟩, _, rfl⟩

/-- An element that closes itself and says nothing about white space. -/
lemma leaf (name : String) (attributes : List (String × Option String)) :
    Restores preserving [.startTag name attributes { selfClosing := true }] :=
  fun _ _ => ⟨⟨trivial, trivial⟩, _, rfl⟩

/-- An element around calls, whose end tag takes back what its start tag says about white space. -/
lemma element (h : Restores inner calls) (name : String)
    (attributes : List (String × Option String)) {first last : TagStyle}
    (opens : first.selfClosing = false) (enter : first.preserve.getD preserving = inner)
    (leave : last.preserve.getD inner = preserving) :
    Restores preserving (.startTag name attributes first :: (calls ++ [.endTag name last])) := by
  intro w hw
  let opened := w.startTag name attributes first
  have start : opened = { opened with
      indent := w.indent ++ indentStep, stack := name :: w.stack, preserving := inner } := by
    simp only [opened, startTag_eq, opens, hw, enter, Bool.false_eq_true, if_false]
  have stack : opened.stack = name :: w.stack := by rw [start]
  have indent : opened.indent = w.indent ++ indentStep := by rw [start]
  have flag : opened.preserving = inner := by rw [start]
  obtain ⟨closes, output, e⟩ := h opened flag
  have run : w.run (.startTag name attributes first :: (calls ++ [.endTag name last])) =
      (opened.run calls).endTag name last := run_append opened calls [.endTag name last]
  refine ⟨⟨trivial, closes_append.2 ⟨closes, ?_, trivial⟩⟩, ?_⟩
  · change Call.Fits (opened.run calls).stack (.endTag name last)
    rw [e, Call.Fits, stack]
    rfl
  · refine ⟨((opened.run calls).endTag name last).output, ?_⟩
    rw [run, e, endTag_eq, stack, indent, flag, leave, lessIndent_append, ← hw]
    rfl

/-- An element on lines of its own restores everything when the calls inside it do. -/
lemma block (h : Restores false calls) (name : String)
    (attributes : List (String × Option String)) :
    Restores false (Call.block name attributes calls) :=
  h.element name attributes rfl rfl rfl

/-- An element that preserves white space restores everything when the calls inside it do. -/
lemma preserved (h : Restores true calls) (name : String)
    (attributes : List (String × Option String)) :
    Restores false (Call.preserved name attributes calls) :=
  h.element name attributes rfl rfl rfl

end Restores

/-- A writer after calls that closed all that they opened, each end tag naming the element that it
closes. -/
structure Finished (w : Writer) (calls : List Call) : Prop where
  made : w = run {} calls
  stack : w.stack = []
  indent : w.indent = ""
  preserving : w.preserving = false
  closes : Closes {} calls

/-- What such calls make of a new writer is finished. -/
lemma Restores.finished {w : Writer} {calls : List Call} (h : Restores false calls)
    (made : w = run {} calls) : w.Finished calls := by
  obtain ⟨closes, output, e⟩ := h {} rfl
  rw [made]
  exact ⟨rfl, by rw [e], by rw [e], by rw [e], closes⟩

end MessageCatalog.Markup.Writer
