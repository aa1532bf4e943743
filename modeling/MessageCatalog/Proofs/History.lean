import Mathlib.Data.List.Induction
import MessageCatalog.Proofs.Extraction

/-!
# Extraction over any history

A collection of messages is changed by calls: messages that were found elsewhere are added, and
files are looked at. Whatever calls came before, a call adds the messages that it offers and whose
ids are new, in order, and says what is wrong. So the collection is what is left of all messages
offered when each id is taken once, and a call site without a message leaves nothing but its error.
-/

namespace MessageCatalog.Extraction

/-! ## Call sites of a file -/

/-- The call sites of a file in the order in which they are visited. None is visited in a file in
which the name of the tag does not stand, or that cannot be read as a script. -/
def callSites (file : FileText) : List (Except CallSiteError Template) :=
  if mentionsTag file then
    match Script.read (.ofPath file.path) file.contents.toList with
    | .ok script => CallSite.sites file.contents.toList false false script
    | .error _ => []
  else []

/-- What is said about a file that cannot be read as a script. -/
def refusals (file : FileText) : Diagnostics :=
  if mentionsTag file then
    match Script.read (.ofPath file.path) file.contents.toList with
    | .ok _ => []
    | .error refusal => Diagnostics.warn [] (refusalMessage file.path refusal)
  else []

/-- A file that is read, or need not be, and in which these call sites are visited. -/
structure HasSites (file : FileText) (sites : List (Except CallSiteError Template)) : Prop where
  read : refusals file = []
  sites : callSites file = sites

/-- Take the call sites of the file at a path. -/
def takeSites (path : String) (sites : List (Except CallSiteError Template))
    (state : Extraction × Diagnostics) : Extraction × Diagnostics :=
  (sites.map CallSite.message).foldl (take path) state

/-- The call sites of a file offer their messages, and the faulty ones are complained about. -/
lemma takeSites_eq (path : String) (sites : List (Except CallSiteError Template))
    (e : Extraction) (ds : Diagnostics) :
    takeSites path sites (e, ds) =
      (e.addAll (offered (sites.map CallSite.message)),
        ds ++ faults path (sites.map CallSite.message)) :=
  foldl_take path _ e ds

/-- A file is looked at call site by call site, when it can be read. -/
lemma extract_eq_takeSites (e : Extraction) (file : FileText) (ds : Diagnostics) :
    e.extract file ds = takeSites file.path (callSites file) (e, ds ++ refusals file) := by
  rw [extract, callSites, refusals]
  split
  case isFalse =>
    rw [List.append_nil]
    rfl
  case isTrue =>
    rw [scan]
    cases Script.read (.ofPath file.path) file.contents.toList with
    | error refusal => rfl
    | ok script =>
      rw [List.append_nil]
      rfl

/-- Only a file that was read has call sites. -/
lemma refusals_eq_nil {file : FileText} (h : callSites file ≠ []) : refusals file = [] := by
  rw [callSites] at h
  rw [refusals]
  split at h
  case isFalse absent => exact if_neg absent
  case isTrue named =>
    rw [if_pos named]
    split at h
    case h_1 => rfl
    case h_2 => exact absurd rfl h

/-! ## Calls -/

/-- A call that changes a collection. -/
inductive Call where
  /-- Add messages that were found elsewhere. -/
  | add (messages : List Message)
  /-- Look at a file. -/
  | extract (file : FileText)

namespace Call

/-- What a call makes of a collection and of the diagnostics. -/
def run (state : Extraction × Diagnostics) : Call → Extraction × Diagnostics
  | add messages => (state.1.addAll messages, state.2)
  | extract file => state.1.extract file state.2

/-- The messages that a call offers, in order. -/
def offers : Call → List Message
  | add messages => messages
  | extract file => offered ((callSites file).map CallSite.message)

/-- What a call has to say. -/
def complaints : Call → Diagnostics
  | add _ => []
  | extract file => refusals file ++ faults file.path ((callSites file).map CallSite.message)

/-- A call adds what it offers, and says what it has to say, whatever came before it. -/
lemma run_eq (state : Extraction × Diagnostics) (call : Call) :
    call.run state = (state.1.addAll call.offers, state.2 ++ call.complaints) := by
  obtain ⟨e, ds⟩ := state
  cases call with
  | add messages => exact congrArg (_, ·) (List.append_nil ds).symm
  | extract file =>
    rw [run, extract_eq_takeSites, takeSites_eq, List.append_assoc]
    rfl

end Call

/-- What calls make of a collection and of the diagnostics, one after the other. -/
def runAll (calls : List Call) (state : Extraction × Diagnostics) : Extraction × Diagnostics :=
  calls.foldl Call.run state

/-- Calls add up what each of them offers and complains about. -/
lemma runAll_eq (calls : List Call) (e : Extraction) (ds : Diagnostics) :
    runAll calls (e, ds) =
      (e.addAll (calls.flatMap Call.offers), ds ++ calls.flatMap Call.complaints) := by
  induction calls generalizing e ds with
  | nil => exact congrArg (e, ·) (List.append_nil ds).symm
  | cons call calls ih =>
    have first : runAll (call :: calls) (e, ds) = runAll calls (call.run (e, ds)) := rfl
    rw [first, Call.run_eq, ih, List.flatMap_cons, List.flatMap_cons, addAll_append,
      List.append_assoc]

/-! ## The first message with each id -/

/-- Messages without those whose id an earlier one has. -/
def firstOfEach (messages : List Message) : List Message :=
  (messages.zipIdx.filter fun entry =>
    entry.1.id ∉ (messages.take entry.2).map Message.id).map Prod.fst

/-- The last message is one of the first of each id when its id is new. -/
lemma firstOfEach_concat (messages : List Message) (m : Message) :
    firstOfEach (messages ++ [m]) =
      firstOfEach messages ++ if m.id ∈ messages.map Message.id then [] else [m] := by
  -- What stands before a message is not changed by one at the end.
  have front : messages.zipIdx.filter
      (fun entry => entry.1.id ∉ ((messages ++ [m]).take entry.2).map Message.id) =
        messages.zipIdx.filter fun entry =>
          entry.1.id ∉ (messages.take entry.2).map Message.id := by
    refine List.filter_congr fun entry h => ?_
    have place : entry.2 ≤ messages.length := by
      have bound := List.snd_lt_of_mem_zipIdx h
      omega
    rw [List.take_append_of_le_length place]
  rw [firstOfEach, List.zipIdx_append, List.filter_append, List.map_append, front, Nat.zero_add,
    List.zipIdx_cons, List.zipIdx_nil, ← firstOfEach]
  by_cases seen : m.id ∈ messages.map Message.id
  · rw [if_pos seen, List.filter_cons_of_neg (by simpa using seen)]
    rfl
  · rw [if_neg seen, List.filter_cons_of_pos (by simpa using seen)]
    rfl

/-- An empty collection takes the first message with each id. -/
lemma messages_addAll_empty (messages : List Message) :
    (addAll {} messages).messages = firstOfEach messages := by
  induction messages using List.reverseRecOn with
  | nil => rfl
  | append_singleton messages m ih =>
    have seen : m.id ∈ (addAll {} messages).seenIds ↔ m.id ∈ messages.map Message.id := by
      rw [mem_seenIds_addAll]
      exact or_iff_right List.not_mem_nil
    have step : addAll {} (messages ++ [m]) = (addAll {} messages).add m :=
      addAll_append {} messages [m]
    rw [step, firstOfEach_concat, add, ih]
    by_cases h : m.id ∈ messages.map Message.id
    · rw [if_pos (seen.2 h), if_pos h, List.append_nil]
    · rw [if_neg (fun there => h (seen.1 there)), if_neg h]

/-- What was found stays at the front of what is found. -/
lemma prefix_messages_addAll (e : Extraction) (messages : List Message) :
    e.messages <+: (e.addAll messages).messages := by
  induction messages generalizing e with
  | nil => exact List.prefix_rfl
  | cons m messages ih =>
    refine List.IsPrefix.trans ?_ (ih (e.add m))
    rw [add]
    split
    case isTrue => exact List.prefix_rfl
    case isFalse => exact List.prefix_append _ _

/-! ## A call site without a message -/

section

variable {path : String} {sites later : List (Except CallSiteError Template)}
  {site : Except CallSiteError Template} {fault : CallSiteError}

/-- A call site without a message offers nothing. -/
lemma offered_drop (h : CallSite.message site = .error fault) :
    offered ((sites ++ site :: later).map CallSite.message) =
      offered ((sites ++ later).map CallSite.message) := by
  have none : (CallSite.message site).toOption = none := by rw [h]; rfl
  rw [offered, offered, List.map_append, List.map_append, List.map_cons, List.filterMap_append,
    List.filterMap_append, List.filterMap_cons_none none]

/-- A call site without a message leaves one error, at its place. -/
lemma faults_insert (h : CallSite.message site = .error fault) :
    faults path ((sites ++ site :: later).map CallSite.message) =
      faults path (sites.map CallSite.message) ++
        ⟨.error, path ++ ": " ++ fault.message⟩ :: faults path (later.map CallSite.message) := by
  rw [List.map_append, List.map_cons, h, faults, List.flatMap_append, List.flatMap_cons]
  rfl

/-- Faults are listed site by site. -/
lemma faults_append :
    faults path ((sites ++ later).map CallSite.message) =
      faults path (sites.map CallSite.message) ++ faults path (later.map CallSite.message) := by
  rw [List.map_append, faults, List.flatMap_append]
  rfl

/-- A file offers what it does without the call site. -/
lemma offers_extract {file : FileText} (visited : callSites file = sites ++ site :: later)
    (h : CallSite.message site = .error fault) :
    (Call.extract file).offers = offered ((sites ++ later).map CallSite.message) := by
  rw [← offered_drop h, ← visited]
  rfl

/-- What is said about a file has the error of the call site at its place. -/
lemma complaints_extract {file : FileText} (visited : callSites file = sites ++ site :: later)
    (h : CallSite.message site = .error fault) :
    (Call.extract file).complaints = faults file.path (sites.map CallSite.message) ++
      ⟨.error, file.path ++ ": " ++ fault.message⟩ ::
        faults file.path (later.map CallSite.message) := by
  have read : refusals file = [] := refusals_eq_nil (by rw [visited]; simp)
  rw [← faults_insert h, ← visited]
  exact congrArg (· ++ _) read

/-- Looking at a file between other calls is taking its call sites. -/
lemma runAll_extract {file : FileText} (h : HasSites file sites) (before after : List Call)
    (state : Extraction × Diagnostics) :
    runAll (before ++ .extract file :: after) state =
      runAll after (takeSites file.path sites (runAll before state)) := by
  have split : runAll (before ++ .extract file :: after) state =
      runAll after (Call.run (runAll before state) (.extract file)) := List.foldl_append
  rw [split, Call.run, extract_eq_takeSites, h.read, h.sites, List.append_nil]

/-- Calls with a call site that has no message say what they say without it and its error, and do
the same to the messages. -/
lemma runAll_without {file : FileText} (visited : callSites file = sites ++ site :: later)
    (h : CallSite.message site = .error fault) (before after : List Call) (e : Extraction)
    (ds : Diagnostics) :
    ∃ front back,
      (runAll (before ++ .extract file :: after) (e, ds)).2 =
        front ++ ⟨.error, file.path ++ ": " ++ fault.message⟩ :: back ∧
      runAll after (takeSites file.path (sites ++ later) (runAll before (e, ds))) =
        ((runAll (before ++ .extract file :: after) (e, ds)).1, front ++ back) := by
  refine ⟨ds ++ before.flatMap Call.complaints ++ faults file.path (sites.map CallSite.message),
    faults file.path (later.map CallSite.message) ++ after.flatMap Call.complaints, ?_, ?_⟩
  · rw [runAll_eq, List.flatMap_append, List.flatMap_append, List.flatMap_cons, List.flatMap_cons,
      complaints_extract visited h]
    simp only [List.append_assoc, List.cons_append]
  · rw [runAll_eq, takeSites_eq, runAll_eq, runAll_eq, ← addAll_append, ← addAll_append,
      List.flatMap_append, List.flatMap_cons, offers_extract visited h, faults_append]
    simp only [List.append_assoc]

end

/-- Whatever calls were made of a new collection, no two of its messages have one id, and the ids
that were seen are theirs; a further call adds to the end of the messages and of the diagnostics;
and the messages are those offered so far, without those whose id was offered before. A call site
without a message leaves one error, which starts with the path of its file. Without the call site,
and so with any other text of the file that has all the other ones, everything else is the same. -/
theorem runs_of_any_history (calls : List Call) (ds : Diagnostics) :
    let s := runAll calls ({}, ds)
    s.1.ids.Nodup ∧ (∀ id, id ∈ s.1.seenIds ↔ id ∈ s.1.ids) ∧
      (∀ call : Call,
        s.1.messages <+: (call.run s).1.messages ∧ s.2 <+: (call.run s).2) ∧
      s.1.messages = firstOfEach (calls.flatMap Call.offers) ∧
      ∀ before file after sites site later fault,
        calls = before ++ .extract file :: after → callSites file = sites ++ site :: later →
        CallSite.message site = .error fault →
          ∃ front back, s.2 = front ++ ⟨.error, file.path ++ ": " ++ fault.message⟩ :: back ∧
            runAll after (takeSites file.path (sites ++ later) (runAll before ({}, ds))) =
              (s.1, front ++ back) ∧
            ∀ other : FileText, other.path = file.path → HasSites other (sites ++ later) →
              runAll (before ++ .extract other :: after) ({}, ds) = (s.1, front ++ back) := by
  intro s
  -- what calls come to is all that they offer and complain of, in whichever call it stands
  have state : s = (addAll {} (calls.flatMap Call.offers), ds ++ calls.flatMap Call.complaints) :=
    runAll_eq calls {} ds
  have consistent : s.1.Consistent := by
    rw [state]
    exact Consistent.empty.addAll _
  refine ⟨consistent.nodup, consistent.seen, ?appends, ?first, ?without⟩
  case appends =>
    intro call
    rw [Call.run_eq]
    exact ⟨prefix_messages_addAll s.1 call.offers, List.prefix_append _ _⟩
  case first =>
    rw [state]
    exact messages_addAll_empty _
  case without =>
    rintro before file after sites site later fault rfl visited invalid
    obtain ⟨front, back, told, left⟩ := runAll_without visited invalid before after {} ds
    refine ⟨front, back, told, left, fun other path rest => ?_⟩
    rw [runAll_extract rest, path]
    exact left

/-- A script with a call site whose block is left open. -/
def halfClosed : FileText :=
  ⟨"main.js", "$localize`Hi` + $localize`:open` + $localize`:@@hi:Hi`"⟩

/-- The script without that call site. -/
def allClosed : FileText := ⟨"main.js", "$localize`Hi` + $localize`:@@hi:Hi`"⟩

/-- A file with an open block between two messages, and the same file without it. -/
theorem runs_of_any_history_halfClosed :
    callSites halfClosed =
      [.ok (.ofCooked ["Hi"])] ++ .ok (.ofCooked [":open"]) :: [.ok (.ofCooked [":@@hi:Hi"])] ∧
    HasSites allClosed ([.ok (.ofCooked ["Hi"])] ++ [.ok (.ofCooked [":@@hi:Hi"])]) ∧
    let s := runAll [.add [{ id := "hi" }], .extract halfClosed] ({}, [])
    ∃ front back,
      s.2 = front ++ ⟨.error, "main.js: Unterminated $localize metadata block in \":open\"."⟩ ::
        back ∧
      runAll [.add [{ id := "hi" }], .extract allClosed] ({}, []) = (s.1, front ++ back) := by
  have visited : callSites halfClosed =
      [.ok (.ofCooked ["Hi"])] ++ .ok (.ofCooked [":open"]) ::
        [.ok (.ofCooked [":@@hi:Hi"])] := by decide +kernel
  have others : HasSites allClosed ([.ok (.ofCooked ["Hi"])] ++ [.ok (.ofCooked [":@@hi:Hi"])]) :=
    ⟨by decide +kernel, by decide +kernel⟩
  have invalid : CallSite.message (.ok (.ofCooked [":open"])) =
      .error (.block ⟨":open"⟩) := by decide +kernel
  obtain ⟨-, -, -, -, without⟩ :=
    runs_of_any_history [.add [{ id := "hi" }], .extract halfClosed] []
  obtain ⟨front, back, told, -, left⟩ :=
    without [.add [{ id := "hi" }]] halfClosed [] _ _ _ _ rfl visited invalid
  exact ⟨visited, others, front, back, told, left allClosed rfl others⟩

end MessageCatalog.Extraction
