import Mathlib.Tactic.NormNum
import PiAdaptative.Foundations.Outcome
import PiAdaptative.WorkerTranscripts.Measures

/-!
# Transcript pages

A page of a worker transcript visits entries from a cursor on, consumes at most so many messages
and closes before one that does not fit beside the others.  Following the cursors reads every
message once; a page may leave a message out whose persisted line, but not the message, is too long.
-/

namespace PiAdaptative.WorkerTranscripts

def MAX_WORKER_TRANSCRIPT_PAGE_MESSAGES : Nat := 64

def MAX_WORKER_TRANSCRIPT_PAGE_BYTES : Nat := 128 * 1024

inductive EntryPayload where
  | resident
  /-- On disk, in a line of so many bytes, or at an unknown place. -/
  | cold (lineBytes : Option Nat)

/-- A session entry, as far as transcripts read it. -/
structure WorkerSessionEntry where
  type : String
  message : Json
  payload : EntryPayload

def messageRole (message : Json) : String :=
  match message.field "role" with
  | some (.str role) => role
  | _ => ""

def isCoreConversationMessageRole (role : String) : Bool :=
  ["user", "assistant", "toolResult", "custom"].contains role

def isWireNativeAgentMessageRole (role : String) : Bool :=
  ["user", "assistant", "toolResult"].contains role

def rawWorkerTranscriptMessage (entry : WorkerSessionEntry) : Option Json :=
  if entry.type = "message" ∧ isCoreConversationMessageRole (messageRole entry.message) = true then
    some entry.message
  else none

/-- The message of an entry where it is wire-native. -/
def wireNativeMessage (entry : WorkerSessionEntry) : Option Json :=
  (rawWorkerTranscriptMessage entry).filter fun message =>
    isWireNativeAgentMessageRole (messageRole message)

def getRawTranscript (entries : List WorkerSessionEntry) : List Json :=
  entries.filterMap wireNativeMessage

structure PageOptions where
  cursor : Nat
  maxMessages : Nat
  maxBytes : Nat
  inspection : Bool

/-- What a page has gathered so far. -/
structure PageState where
  messages : List Json
  consumedMessages : Nat
  omittedMessages : Nat
  serializedBytes : Nat
  pageClosed : Bool
  nextEntryCursor : Nat

structure WorkerConversationTranscriptPage where
  cursor : Nat
  messages : List Json
  nextCursor : Option Nat
  omittedMessages : Nat
  serializedBytes : Nat

structure PageLimits where
  maxMessages : Nat
  maxBytes : Nat
  someMessage : 1 ≤ maxMessages
  messagesBounded : maxMessages ≤ MAX_WORKER_TRANSCRIPT_PAGE_MESSAGES
  bracketsFit : 2 ≤ maxBytes
  bytesBounded : maxBytes ≤ MAX_WORKER_TRANSCRIPT_PAGE_BYTES

/-- Messages that a page holds or counts as omitted, each omitted one beyond the limit. -/
inductive Sifted (numberBytes : Rat → Nat) (limit : Nat) : List Json → List Json → Nat → Prop
  | nil : Sifted numberBytes limit [] [] 0
  | kept {message : Json} {taken messages : List Json} {omitted : Nat}
      (rest : Sifted numberBytes limit taken messages omitted) :
      Sifted numberBytes limit (message :: taken) (message :: messages) omitted
  | omitted {message : Json} {taken messages : List Json} {omitted : Nat}
      (large : limit < message.size numberBytes)
      (rest : Sifted numberBytes limit taken messages omitted) :
      Sifted numberBytes limit (message :: taken) messages (omitted + 1)

structure PageWithin (numberBytes : Rat → Nat) (limits : PageLimits)
    (page : WorkerConversationTranscriptPage) : Prop where
  messages : page.messages.length + page.omittedMessages ≤ limits.maxMessages
  bytes : page.serializedBytes ≤ limits.maxBytes
  exact : page.serializedBytes = (Json.arr page.messages).size numberBytes

/-- Pages that hold or count every message once and in order. -/
inductive PagesCover (numberBytes : Rat → Nat) :
    List Json → List (PageLimits × WorkerConversationTranscriptPage) → Prop
  | nil : PagesCover numberBytes [] []
  | page {limits : PageLimits} {page : WorkerConversationTranscriptPage} {taken rest : List Json}
      {pages : List (PageLimits × WorkerConversationTranscriptPage)}
      (within : PageWithin numberBytes limits page)
      (sifted : Sifted numberBytes (limits.maxBytes - 2) taken page.messages page.omittedMessages)
      (others : PagesCover numberBytes rest pages) :
      PagesCover numberBytes (taken ++ rest) ((limits, page) :: pages)

/-- Whether the persisted line of an entry is too long, or not known. -/
def LongLine (limit : Nat) : EntryPayload → Prop
  | .resident => False
  | .cold none => True
  | .cold (some lineBytes) => limit < lineBytes

/-- Entries a page visited, with the messages it holds and the number it left out. -/
inductive Visited (numberBytes : Rat → Nat) (limit : Nat) :
    List WorkerSessionEntry → List Json → Nat → Prop
  | nil : Visited numberBytes limit [] [] 0
  | skipped {entry : WorkerSessionEntry} {seen : List WorkerSessionEntry} {messages : List Json}
      {omitted : Nat} (none : wireNativeMessage entry = none)
      (rest : Visited numberBytes limit seen messages omitted) :
      Visited numberBytes limit (entry :: seen) messages omitted
  | kept {entry : WorkerSessionEntry} {seen : List WorkerSessionEntry} {messages : List Json}
      {omitted : Nat} {message : Json} (native : wireNativeMessage entry = some message)
      (short : ¬LongLine limit entry.payload)
      (rest : Visited numberBytes limit seen messages omitted) :
      Visited numberBytes limit (entry :: seen) (message :: messages) omitted
  | omitted {entry : WorkerSessionEntry} {seen : List WorkerSessionEntry} {messages : List Json}
      {omitted : Nat} {message : Json} (native : wireNativeMessage entry = some message)
      (large : LongLine limit entry.payload ∨ limit < message.size numberBytes)
      (rest : Visited numberBytes limit seen messages omitted) :
      Visited numberBytes limit (entry :: seen) messages (omitted + 1)

variable {numberBytes : Rat → Nat}

variable {seen : List WorkerSessionEntry} {entry : WorkerSessionEntry} {limit : Nat}

theorem Visited.cons {added messages : List Json} {one omitted : Nat}
    (first : Visited numberBytes limit [entry] added one)
    (rest : Visited numberBytes limit seen messages omitted) :
    Visited numberBytes limit (entry :: seen) (added ++ messages) (one + omitted) := by
  cases first with
  | skipped none tail =>
      cases tail
      simpa using Visited.skipped none rest
  | kept native short tail =>
      cases tail
      simpa using Visited.kept native short rest
  | omitted native large tail =>
      cases tail
      rw [Nat.zero_add, Nat.add_comm]
      exact Visited.omitted native large rest

/-- What holds of a page while it gathers. -/
structure PageState.Sound (numberBytes : Rat → Nat) (options : PageOptions) (state : PageState) :
    Prop where
  consumed : state.consumedMessages = state.messages.length + state.omittedMessages
  few : state.consumedMessages ≤ options.maxMessages
  exact : state.serializedBytes = (Json.arr state.messages).size numberBytes
  small : state.serializedBytes ≤ options.maxBytes

variable {options : PageOptions} {message : Json}

variable {state : PageState}

theorem isSafeInteger_natCast {number : Nat} :
    isSafeInteger (number : Rat) = true ↔ number ≤ 9007199254740991 := by
  exact decide_eq_true_iff

variable {entries : List WorkerSessionEntry}

/-- Pages that visited every entry once and in order. -/
inductive Passed (numberBytes : Rat → Nat) :
    List WorkerSessionEntry → List (PageLimits × WorkerConversationTranscriptPage) → Prop
  | nil : Passed numberBytes [] []
  | page {limits : PageLimits} {page : WorkerConversationTranscriptPage}
      {seen rest : List WorkerSessionEntry}
      {pages : List (PageLimits × WorkerConversationTranscriptPage)}
      (within : PageWithin numberBytes limits page)
      (visited : Visited numberBytes (limits.maxBytes - 2) seen page.messages page.omittedMessages)
      (others : Passed numberBytes rest pages) :
      Passed numberBytes (seen ++ rest) ((limits, page) :: pages)

/-- No persisted line is longer than its message where the message fits the largest page. -/
def LinesFit (numberBytes : Rat → Nat) (entries : List WorkerSessionEntry) : Prop :=
  ∀ entry ∈ entries, ∀ message, wireNativeMessage entry = some message →
    message.size numberBytes + 2 ≤ MAX_WORKER_TRANSCRIPT_PAGE_BYTES →
    ¬LongLine (message.size numberBytes) entry.payload

theorem LongLine.mono {limit smaller : Nat} {payload : EntryPayload}
    (long : LongLine limit payload) (less : smaller ≤ limit) : LongLine smaller payload := by
  cases payload with
  | resident => exact long
  | cold lineBytes =>
      cases lineBytes with
      | none => trivial
      | some bytes => exact Nat.lt_of_le_of_lt less long

theorem getRawTranscript_cons_none (none : wireNativeMessage entry = none) :
    getRawTranscript (entry :: entries) = getRawTranscript entries := by
  rw [getRawTranscript, List.filterMap_cons_none none, getRawTranscript]

theorem getRawTranscript_cons_some (native : wireNativeMessage entry = some message) :
    getRawTranscript (entry :: entries) = message :: getRawTranscript entries := by
  rw [getRawTranscript, List.filterMap_cons_some native, getRawTranscript]

variable {omitted : Nat} {messages : List Json}

/-- Where lines fit, a page leaves out only messages that do not fit it. -/
theorem Visited.sifted (small : limit + 2 ≤ MAX_WORKER_TRANSCRIPT_PAGE_BYTES)
    (fit : LinesFit numberBytes seen) (visited : Visited numberBytes limit seen messages omitted) :
    Sifted numberBytes limit (getRawTranscript seen) messages omitted := by
  induction visited with
  | nil => exact .nil
  | skipped none rest ih =>
      rw [getRawTranscript_cons_none none]
      exact ih fun entry member => fit entry (List.mem_cons_of_mem _ member)
  | kept native short rest ih =>
      rw [getRawTranscript_cons_some native]
      exact .kept (ih fun entry member => fit entry (List.mem_cons_of_mem _ member))
  | omitted native large rest ih =>
      rename_i entry seen messages omitted message
      rw [getRawTranscript_cons_some native]
      refine .omitted ?_ (ih fun entry member => fit entry (List.mem_cons_of_mem _ member))
      rcases large with long | beyond
      · by_contra fits
        have within := Nat.not_lt.mp fits
        exact fit _ List.mem_cons_self message native (by omega) (long.mono within)
      · exact beyond

theorem Visited.length (visited : Visited numberBytes limit seen messages omitted) :
    (getRawTranscript seen).length = messages.length + omitted := by
  induction visited with
  | nil => rfl
  | skipped none rest ih => rw [getRawTranscript_cons_none none, ih]
  | kept native short rest ih =>
      rw [getRawTranscript_cons_some native, List.length_cons, List.length_cons, ih]
      omega
  | omitted native large rest ih =>
      rw [getRawTranscript_cons_some native, List.length_cons, ih]
      omega

theorem Sifted.length {taken messages : List Json}
    (sifted : Sifted numberBytes limit taken messages omitted) :
    taken.length = messages.length + omitted := by
  induction sifted with
  | nil => rfl
  | kept rest ih =>
      rw [List.length_cons, List.length_cons, ih]
      omega
  | omitted large rest ih =>
      rw [List.length_cons, ih]
      omega

/-- A page of one message that leaves it out for its line counts it as beyond the limit. -/
theorem Visited.large (visited : Visited numberBytes limit seen messages omitted)
    (sifted : Sifted numberBytes limit (getRawTranscript seen) messages omitted)
    (single : messages.length + omitted ≤ 1) :
    ∀ entry ∈ seen, ∀ message, wireNativeMessage entry = some message →
      LongLine limit entry.payload → limit < message.size numberBytes := by
  have others : ∀ {rest : List WorkerSessionEntry} {entry : WorkerSessionEntry} {message : Json},
      getRawTranscript rest = [] → entry ∈ rest → wireNativeMessage entry ≠ some message := by
    intro rest entry message none member native
    have held : message ∈ getRawTranscript rest := List.mem_filterMap.mpr ⟨entry, member, native⟩
    rw [none] at held
    cases held
  induction visited with
  | nil => simp
  | skipped none rest ih =>
      rw [getRawTranscript_cons_none none] at sifted
      intro entry member message native long
      rcases List.mem_cons.mp member with rfl | later
      · rw [none] at native
        cases native
      · exact ih sifted single entry later message native long
  | kept native short rest ih =>
      intro entry member message found long
      rw [List.length_cons] at single
      have empty := List.eq_nil_of_length_eq_zero (rest.length.trans (by omega))
      rcases List.mem_cons.mp member with rfl | later
      · exact absurd long short
      · exact absurd found (others empty later)
  | omitted native large rest ih =>
      intro entry member message found long
      have empty := List.eq_nil_of_length_eq_zero (rest.length.trans (by omega))
      rcases List.mem_cons.mp member with rfl | later
      · obtain rfl := Option.some.inj (native.symm.trans found)
        rw [getRawTranscript_cons_some native] at sifted
        cases sifted with
        | kept inner =>
            simp only [List.length_cons] at single
            omega
        | omitted beyond inner => exact beyond
      · exact absurd found (others empty later)

theorem Passed.covers {entries : List WorkerSessionEntry}
    {pages : List (PageLimits × WorkerConversationTranscriptPage)}
    (fit : LinesFit numberBytes entries) (passed : Passed numberBytes entries pages) :
    PagesCover numberBytes (getRawTranscript entries) pages := by
  induction passed with
  | nil => exact .nil
  | page within visited others ih =>
      rename_i limits page seen rest pages
      have bounded := limits.bytesBounded
      have brackets := limits.bracketsFit
      rw [getRawTranscript, List.filterMap_append]
      exact .page within
        (visited.sifted (by omega) fun entry member => fit entry (List.mem_append_left _ member))
        (ih fun entry member => fit entry (List.mem_append_right _ member))

/-- Pages of one message each that cover a transcript leave out no message for its line alone. -/
theorem Passed.large {limits : PageLimits} (single : limits.maxMessages = 1)
    {entries : List WorkerSessionEntry}
    {pages : List (PageLimits × WorkerConversationTranscriptPage)}
    (passed : Passed numberBytes entries pages) (same : ∀ page ∈ pages, page.1 = limits)
    (cover : PagesCover numberBytes (getRawTranscript entries) pages) :
    ∀ entry ∈ entries, ∀ message, wireNativeMessage entry = some message →
      LongLine (limits.maxBytes - 2) entry.payload →
      limits.maxBytes - 2 < message.size numberBytes := by
  induction passed with
  | nil => simp
  | page within visited others ih =>
      rename_i chosen page seen rest pages
      obtain rfl : chosen = limits := same (chosen, page) (by simp)
      rw [getRawTranscript, List.filterMap_append] at cover
      generalize whole : List.filterMap wireNativeMessage seen ++
        List.filterMap wireNativeMessage rest = all at cover
      cases cover with
      | page within sifted tail =>
          rename_i taken left
          have lengths : (List.filterMap wireNativeMessage seen).length = taken.length :=
            visited.length.trans sifted.length.symm
          obtain ⟨rfl, rfl⟩ := List.append_inj whole lengths
          intro entry member message native long
          rcases List.mem_append.mp member with now | later
          · exact visited.large sifted (single ▸ within.messages) entry now message native long
          · exact ih (fun page member => same page (List.mem_cons_of_mem _ member)) tail entry later
              message native long

end PiAdaptative.WorkerTranscripts
