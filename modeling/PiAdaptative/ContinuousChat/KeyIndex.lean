import PiAdaptative.ContinuousChat.RecordProjection
import PiAdaptative.Foundations.LinearProbing
import PiAdaptative.Foundations.Paging

/-!
# The key index

The key index of the permanent chat is a hash table in a file: a header with the capacity and the
count, and a slot of two six-byte numbers for each index.  Entries are placed by linear probing, in
the file itself where the table has room, or in a new file whose pages pass through a bounded cache.
-/

namespace PiAdaptative.ContinuousChat

open Paging (overwrite pageOf)

/-- A six-byte digest of a source key. -/
abbrev KeyDigest := BitVec 48

structure ContinuousChatKeyEntry where
  digest : KeyDigest
  id : Nat
  deriving DecidableEq

structure ContinuousChatKeysHeader where
  capacity : Nat
  count : Nat
  deriving DecidableEq

/-- The numbers of a slot.  An empty slot holds zeros. -/
structure KeySlot where
  digest : KeyDigest
  idPlusOne : Nat
  deriving DecidableEq

structure KeysFile where
  header : ContinuousChatKeysHeader
  slots : List KeySlot
  deriving DecidableEq

def CONTINUOUS_CHAT_MAX_MESSAGES : Nat := 2 ^ 48 - 1

def KEYS_SLOT_BYTES : Nat := 12

def KEYS_MIN_CAPACITY : Nat := 1024

def KEYS_PAGE_SLOTS : Nat := 4096

def KEYS_PAGE_BYTES : Nat := KEYS_PAGE_SLOTS * KEYS_SLOT_BYTES

def KEYS_CACHED_PAGES : Nat := 8 * 1024 * 1024 / KEYS_PAGE_BYTES

def emptySlot : KeySlot where
  digest := 0
  idPlusOne := 0

/-- A `ContinuousChatCorruptError`. -/
def corrupt (filePath message : String) : RuntimeError := .plain s!"{message}: {filePath}"

/-- The number that `writeUIntLE` writes in six bytes. -/
def sixBytes (value : Nat) : Outcome Nat := do
  throwPlainIf (2 ^ 48 ≤ value) "The value of \"value\" is out of range."
  return value

def writeSlot (entry : ContinuousChatKeyEntry) : Outcome KeySlot := do
  let idPlusOne ← sixBytes (entry.id + 1)
  return {
    digest := entry.digest
    idPlusOne }

/-- The probes of `emptyKeysSlot` that are left, from an index. -/
def emptyKeysSlotFrom {σ : Type} (read : Nat → σ → Outcome (KeySlot × σ)) (capacity : Nat)
    (filePath : String) : Nat → Nat → σ → Outcome (Nat × σ)
  | 0, _, _ => .error (corrupt filePath "Key index is full")
  | probes + 1, index, state => do
      let (slot, state) ← read index state
      if slot.idPlusOne = 0 then return (index, state)
      else emptyKeysSlotFrom read capacity filePath probes ((index + 1) % capacity) state

def emptyKeysSlot {σ : Type} (digest : KeyDigest) (capacity : Nat)
    (read : Nat → σ → Outcome (KeySlot × σ)) (filePath : String) (state : σ) : Outcome (Nat × σ) :=
  emptyKeysSlotFrom read capacity filePath capacity (digest.toNat % capacity) state

def keysHasRoom (header : ContinuousChatKeysHeader) (added : Nat) : Bool :=
  (header.count + added) * 2 ≤ header.capacity

/-- `readFileRangeInto`, on the slots of a file. -/
def readRange (filePath : String) (slots : List KeySlot) (start count : Nat) :
    Outcome (List KeySlot) :=
  if start + count ≤ slots.length then .ok ((slots.drop start).take count)
  else .error (.plain s!"Incomplete positioned I/O: {filePath}")

def readKeysSlot (filePath : String) (index : Nat) (slots : List KeySlot) :
    Outcome (KeySlot × List KeySlot) :=
  match slots[index]? with
  | some slot => .ok (slot, slots)
  | none => .error (.plain s!"Incomplete positioned I/O: {filePath}")

/-- The loop of `insertKeysEntries`. -/
def placeEntries (filePath : String) (capacity : Nat) :
    List ContinuousChatKeyEntry → List KeySlot → Outcome (List KeySlot)
  | [], slots => .ok slots
  | entry :: entries, slots => do
      let (index, slots) ← emptyKeysSlot entry.digest capacity (readKeysSlot filePath) filePath slots
      let slot ← writeSlot entry
      placeEntries filePath capacity entries (slots.set index slot)

def insertKeysEntries (filePath : String) (file : KeysFile) (header : ContinuousChatKeysHeader)
    (entries : List ContinuousChatKeyEntry) : Outcome KeysFile := do
  let slots ← placeEntries filePath header.capacity entries file.slots
  let count ← sixBytes (header.count + entries.length)
  return {
    header := {
      capacity := file.header.capacity
      count }
    slots }

structure KeysPage where
  slots : List KeySlot
  dirty : Bool

/-- `KeysPageCache`, with the slots of its file. -/
structure KeysPageCache where
  file : List KeySlot
  pages : OrderedMap Nat KeysPage

namespace KeysPageCache

def flushPage (cache : KeysPageCache) (ordinal : Nat) (page : KeysPage) : KeysPageCache :=
  if page.dirty then
    { file := overwrite cache.file (ordinal * KEYS_PAGE_SLOTS) page.slots
      pages := cache.pages.set ordinal { page with dirty := false } }
  else cache

/-- The cache with a place for another page. -/
def evict (cache : KeysPageCache) : KeysPageCache :=
  if KEYS_CACHED_PAGES ≤ cache.pages.size then
    match cache.pages.entries.head? with
    | some oldest =>
        let flushed := cache.flushPage oldest.1 oldest.2
        { flushed with pages := flushed.pages.erase oldest.1 }
    | none => cache
  else cache

def page (filePath : String) (capacity : Nat) (cache : KeysPageCache) (index : Nat) :
    Outcome (KeysPage × KeysPageCache) :=
  let ordinal := index / KEYS_PAGE_SLOTS
  match cache.pages.get? ordinal with
  | some cached =>
      .ok (cached, { cache with pages := (cache.pages.erase ordinal).set ordinal cached })
  | none => do
      let cache := cache.evict
      let count := min KEYS_PAGE_SLOTS (capacity - ordinal * KEYS_PAGE_SLOTS)
      let slots ← readRange filePath cache.file (ordinal * KEYS_PAGE_SLOTS) count
      let page : KeysPage := {
        slots
        dirty := false }
      return (page, { cache with pages := cache.pages.set ordinal page })

def read (filePath : String) (capacity : Nat) (index : Nat) (cache : KeysPageCache) :
    Outcome (KeySlot × KeysPageCache) := do
  let (page, cache) ← cache.page filePath capacity index
  match page.slots[index % KEYS_PAGE_SLOTS]? with
  | some slot => return (slot, cache)
  | none => .error (.plain "Attempt to access memory outside buffer bounds")

def write (filePath : String) (capacity : Nat) (index : Nat) (entry : ContinuousChatKeyEntry)
    (cache : KeysPageCache) : Outcome KeysPageCache := do
  let (page, cache) ← cache.page filePath capacity index
  let slot ← writeSlot entry
  let written : KeysPage := {
    slots := page.slots.set (index % KEYS_PAGE_SLOTS) slot
    dirty := true }
  return { cache with pages := cache.pages.set (index / KEYS_PAGE_SLOTS) written }

end KeysPageCache

/-- The rows of one chunk of `rebuildKeysIndex`, from an id on. -/
def placeRows (filePath : String) (capacity : Nat) :
    Nat → List KeyDigest → KeysPageCache → Outcome KeysPageCache
  | _, [], cache => .ok cache
  | id, digest :: rows, cache => do
      let (slot, cache) ← emptyKeysSlot digest capacity (KeysPageCache.read filePath capacity)
        filePath cache
      let cache ← cache.write filePath capacity slot {
        digest
        id }
      placeRows filePath capacity (id + 1) rows cache

/-- The key index with the digests of the message index that it is derived from. -/
structure KeysState where
  messageIndex : Option (List KeyDigest)
  keys : Option KeysFile
  deriving DecidableEq

namespace KeysState

def messages (state : KeysState) : List KeyDigest := state.messageIndex.getD []

/-- A state in which no message was indexed. -/
def start : KeysState where
  messageIndex := none
  keys := none

/-- The message index with some messages appended. -/
def append (state : KeysState) (digests : List KeyDigest) : KeysState :=
  { state with messageIndex := some (state.messages ++ digests) }

end KeysState

def keyEntries : Nat → List KeyDigest → List ContinuousChatKeyEntry
  | _, [] => []
  | id, digest :: digests => { digest, id } :: keyEntries (id + 1) digests

end PiAdaptative.ContinuousChat
