import PiAdaptative.Foundations.Json
import PiAdaptative.Foundations.OrderedMap
import PiAdaptative.TextProtocol.LiveFilter

/-!
# Transient records

A transient is a text of a kind that is current for a request.  It is kept in the durable history as
a record that is appended when the text changes; a slot that must stand at the end of the history is
appended again, as a pointer when its text is the same.
-/

namespace PiAdaptative.TransientRecords

open TextProtocol (Text units)

def TRANSIENT_RECORD_SUPERSEDING_NOTE : Text := units
  ("\n\n(This record supersedes any earlier message of the same kind in this conversation. If one " ++
    "appears above, it is stale - only the LAST occurrence of a given kind is current.)")

inductive CustomContent where
  | text (text : Text)
  | blocks (blocks : List Json)

structure CustomMessage where
  customType : Text
  content : CustomContent
  display : Bool
  details : Option Json
  timestamp : Nat

/-- A message; those of another role than `custom` are not looked into. -/
inductive AgentMessage where
  | custom (message : CustomMessage)
  | other (message : Json)

structure TransientRecordPayload where
  v : Rat
  k : String
  /-- The other fields of the record. -/
  fields : List (String × Json) := []

structure TransientRecordSlot where
  kind : Text
  content : Option Text
  clearedText : Option Text := none
  trailing : Bool := false
  cumulative : Bool := false
  record : Option TransientRecordPayload := none
  header : Option Text := none

/-- `details[name] === true` on details that may be missing or no object. -/
def isMarked (details : Option Json) (name : String) : Bool :=
  match details.bind (·.field name) with
  | some (.bool true) => true
  | _ => false

def isSupersedingRecordDetails (details : Option Json) : Bool := isMarked details "superseding"

def isPointerRecord : AgentMessage → Bool
  | .custom message => isMarked message.details "pointer"
  | .other _ => false

def fnv1aHash32 (text : Text) : UInt32 :=
  text.foldl (fun hash unit => (hash ^^^ unit.toUInt32) * 0x01000193) 0x811c9dc5

/-- The time stamp of a record, in milliseconds: the hash of its text. -/
def deterministicRecordTimestamp (content : Text) : Nat := (fnv1aHash32 content).toNat

def createCustomMessage (customType text : Text) (display : Bool) (details : Json)
    (timestamp : Nat) : AgentMessage :=
  .custom { customType, content := .text text, display, details := some details, timestamp }

/-- A pointer record names its kind by the header of the slot, cut to 80 units. -/
def buildPointerRecord (kind header : Text) : AgentMessage :=
  let name := if header.length > 80 then header.take 77 ++ units "..." else header
  let text := name ++ units " unchanged; the last full record of this kind above is current."
  createCustomMessage kind text false (.obj [("pointer", .bool true)])
    (deterministicRecordTimestamp text)

def payloadField (record : Option TransientRecordPayload) : List (String × Json) :=
  Json.optionalField "record"
    (record.map fun payload => .obj ([("v", .num payload.v), ("k", .str payload.k)] ++ payload.fields))

def buildTransientRecord (kind content : Text) (cumulative : Bool)
    (record : Option TransientRecordPayload) : AgentMessage :=
  if cumulative then
    createCustomMessage kind content false (.obj (("cumulative", .bool true) :: payloadField record))
      (deterministicRecordTimestamp content)
  else
    let text := content ++ TRANSIENT_RECORD_SUPERSEDING_NOTE
    createCustomMessage kind text false (.obj (("superseding", .bool true) :: payloadField record))
      (deterministicRecordTimestamp text)

/-- `text.slice(0, text.length - count)`: an index below zero counts from the end. -/
def sliceOff (text : Text) (count : Nat) : Text :=
  if count ≤ text.length then text.take (text.length - count)
  else text.take (text.length - (count - text.length))

def durableTransientContent : AgentMessage → Option Text
  | .other _ => none
  | .custom message =>
      match message.content with
      | .blocks _ => none
      | .text text =>
          if isSupersedingRecordDetails message.details then
            some (sliceOff text TRANSIENT_RECORD_SUPERSEDING_NOTE.length)
          else if TRANSIENT_RECORD_SUPERSEDING_NOTE.isSuffixOf text then
            some (sliceOff text TRANSIENT_RECORD_SUPERSEDING_NOTE.length)
          else some text

/-- The last content of each kind: `none` for a message that has no text. -/
abbrev KindContents := OrderedMap Text (Option Text)

def indexMessage (byKind : KindContents) (message : AgentMessage) : KindContents :=
  match message with
  | .custom custom =>
      if isPointerRecord message then byKind
      else byKind.set custom.customType (durableTransientContent message)
  | .other _ => byKind

/-- The index of a history, whose messages are known by reference. -/
structure TransientContentIndex (ρ : Type) where
  count : Nat
  processed : List ρ
  byKind : KindContents

section

variable {ρ : Type} [DecidableEq ρ]

/-- The indexes by the first message of their history. -/
abbrev TransientContentIndexes (ρ : Type) [DecidableEq ρ] := OrderedMap ρ (TransientContentIndex ρ)

/-- The index that a history may go on from. -/
def reusableIndex (indexes : TransientContentIndexes ρ) (first : ρ) (messages : List ρ) :
    TransientContentIndex ρ :=
  match indexes.get? first with
  | none => { count := 0, processed := [], byKind := .empty }
  | some index =>
      if index.count ≤ messages.length ∧
          index.processed.take index.count = messages.take index.count then index
      else { count := 0, processed := [], byKind := .empty }

/-- Index the messages that came since the last call. -/
def transientContentIndex (message : ρ → AgentMessage) (indexes : TransientContentIndexes ρ)
    (messages : List ρ) : TransientContentIndexes ρ × KindContents :=
  match messages with
  | [] => (indexes, .empty)
  | first :: _ =>
      let index := reusableIndex indexes first messages
      let byKind := (messages.drop index.count).foldl (fun byKind reference =>
        indexMessage byKind (message reference)) index.byKind
      let next := if index.count < messages.length then
          { count := messages.length, processed := messages, byKind }
        else { index with byKind }
      (indexes.set first next, byKind)

def lastDurableTransientContent (message : ρ → AgentMessage) (indexes : TransientContentIndexes ρ)
    (messages : List ρ) (kind : Text) : TransientContentIndexes ρ × Option Text :=
  let indexed := transientContentIndex message indexes messages
  (indexed.1, (indexed.2.get? kind).join)

/-- A slot with its last content and the content it should have. -/
structure SlotState where
  slot : TransientRecordSlot
  lastContent : Option Text
  nextContent : Option Text
  nextRecord : Option TransientRecordPayload

/-- The state of a slot whose last content is known. -/
def slotState (slot : TransientRecordSlot) (lastContent : Option Text) : SlotState where
  slot
  lastContent
  nextContent := slot.content.or (if lastContent.isSome then slot.clearedText else none)
  nextRecord := if slot.content.isSome then slot.record else none

def resolveSlotContent (message : ρ → AgentMessage) (indexes : TransientContentIndexes ρ)
    (messages : List ρ) (slot : TransientRecordSlot) : TransientContentIndexes ρ × SlotState :=
  let last := lastDurableTransientContent message indexes messages slot.kind
  (last.1, slotState slot last.2)

def resolveSlots (message : ρ → AgentMessage) (indexes : TransientContentIndexes ρ)
    (messages : List ρ) : List TransientRecordSlot → TransientContentIndexes ρ × List SlotState
  | [] => (indexes, [])
  | slot :: slots =>
      let resolved := resolveSlotContent message indexes messages slot
      let others := resolveSlots message resolved.1 messages slots
      (others.1, resolved.2 :: others.2)

/-- The record of an informational slot, when its content changed. -/
def informationalRecord (state : SlotState) : List AgentMessage :=
  match state.nextContent with
  | none => []
  | some content =>
      if state.lastContent = some content then []
      else [buildTransientRecord state.slot.kind content state.slot.cumulative state.nextRecord]

/-- Whether a trailing slot is live or just being cleared. -/
def SlotState.active (state : SlotState) : Bool :=
  state.nextContent.isSome &&
    (state.slot.content.isSome || decide (state.nextContent ≠ state.lastContent))

def customKind : AgentMessage → Option Text
  | .custom message => some message.customType
  | .other _ => none

def tailKinds (messages : List AgentMessage) (count : Nat) : List (Option Text) :=
  (messages.drop (messages.length - count)).map customKind

def SlotState.fullRecord (state : SlotState) : AgentMessage :=
  buildTransientRecord state.slot.kind (state.nextContent.getD []) false state.nextRecord

def TransientRecordSlot.pointer (slot : TransientRecordSlot) : AgentMessage :=
  buildPointerRecord slot.kind (slot.header.getD slot.kind)

/-- The records that bring the active trailing slots to the end of a history. -/
def trailingRecords (messages : List AgentMessage) (trailingState : List SlotState) :
    List AgentMessage :=
  let active := trailingState.filter SlotState.active
  if active.isEmpty then []
  else
    let expectedTailKinds := active.map fun state => some state.slot.kind
    if active.any fun state => decide (state.nextContent ≠ state.lastContent) then
      active.map SlotState.fullRecord
    else if tailKinds messages active.length ≠ expectedTailKinds then
      active.map fun state => state.slot.pointer
    else []

def reconcileTransientRecords (message : ρ → AgentMessage) (indexes : TransientContentIndexes ρ)
    (durableMessages : List ρ) (slots : List TransientRecordSlot) :
    TransientContentIndexes ρ × List AgentMessage :=
  let informational :=
    resolveSlots message indexes durableMessages (slots.filter fun slot => !slot.trailing)
  let newRecords := informational.2.flatMap informationalRecord
  let trailing :=
    resolveSlots message informational.1 durableMessages (slots.filter (·.trailing))
  (trailing.1,
    newRecords ++ trailingRecords (durableMessages.map message ++ newRecords) trailing.2)

end

end PiAdaptative.TransientRecords
