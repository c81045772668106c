import PiAdaptative.Foundations.PrefixFolds
import PiAdaptative.Session.BranchCopies
import PiAdaptative.SessionEvidence.EvidenceIndex

/-!
# The caches of a session manager

The manager remembers the latest custom entry of a branch by type, the custom entries of a branch by
types, the parent inputs of its entries and their evidence index.  The caches know the map of entries
they were filled from by its identity, and their leaf or how many entries they have read.
-/

namespace PiAdaptative.BranchCaches

open Session SessionEvidence

def MAX_LATEST_CUSTOM_ENTRY_CACHE_TYPES : Nat := 32

/-! ## State -/

/-- The latest entry of a type on the branch of a leaf. -/
structure LatestMatch where
  leafId : Option String
  found : Option SessionEntry

structure LatestCustomEntryCache where
  byId : Nat
  perType : OrderedMap String LatestMatch

/-- The entries of some types on the branch of a leaf; `types` says what was asked. -/
structure BranchEntries where
  leafId : Option String
  entries : List SessionEntry
  types : List String

structure BranchCustomEntriesCache where
  byId : Nat
  perKey : OrderedMap String BranchEntries

/-- What was read from the entries of a map; `session` says of which session. -/
structure SourceCache (σ : Type) where
  byId : Nat
  session : Nat
  read : PrefixFold σ

/-- A session manager.  `byId` is the identity of its map of entries, and `session` counts the
sessions it has shown. -/
structure CachedManager where
  byId : Nat
  session : Nat
  entries : List SessionEntry
  leafId : Option String
  latestCustomEntryCache : Option LatestCustomEntryCache
  branchCustomEntriesCache : Option BranchCustomEntriesCache
  parentInputReceipts : Option (SourceCache (OrderedMap String PersistedParentInput))
  parentEvidenceCache : Option (SourceCache SessionEntryEvidenceIndex)

/-! ## Walks -/

def isCustom (customType : String) (entry : SessionEntry) : Bool :=
  match entry.body with
  | .custom present _ => present = customType
  | _ => false

def isCustomOf (customTypes : List String) (entry : SessionEntry) : Bool :=
  customTypes.any fun customType => isCustom customType entry

/-- How the walk for a latest entry ends. -/
inductive Search where
  | entry (entry : SessionEntry)
  | cachedLeaf
  | nothing

/-- Walk an ancestry to the cached leaf or to a custom entry of the type. -/
def searchLatest (lookup : Lookup) (customType : String) (cachedLeafId : Option String) :
    Nat → Option SessionEntry → Outcome Search
  | _, none => .ok .nothing
  | 0, some entry => .error (invalidSessionParentCycle entry.id)
  | remaining + 1, some entry =>
      if cachedLeafId = some entry.id then .ok .cachedLeaf
      else if isCustom customType entry = true then .ok (.entry entry)
      else searchLatest lookup customType cachedLeafId remaining (parentEntry lookup entry)

/-- Walk an ancestry to the cached leaf, keeping the custom entries of the types and whether the leaf
was met.  A walk longer than its map would not end. -/
def collectCustom (lookup : Lookup) (customTypes : List String) (cachedLeafId : Option String) :
    Nat → Option SessionEntry → Outcome (List SessionEntry × Bool)
  | _, none => .ok ([], false)
  | 0, some entry => .error (invalidSessionParentCycle entry.id)
  | remaining + 1, some entry =>
      if cachedLeafId = some entry.id then .ok ([], true)
      else do
        let (older, resumed) ←
          collectCustom lookup customTypes cachedLeafId remaining (parentEntry lookup entry)
        return (if isCustomOf customTypes entry then entry :: older else older, resumed)

def leafEntry (entries : List SessionEntry) (leafId : Option String) : Option SessionEntry :=
  (truthy leafId).bind (entriesById entries)

/-! ## Parent inputs -/

/-- Take the input an entry may hold. -/
def takeReceipt (env : Platform) (deliveries : OrderedMap String PersistedParentInput)
    (entry : SessionEntry) : Outcome (OrderedMap String PersistedParentInput) := do
  match ← parentInputOf env entry with
  | none => return deliveries
  | some input => do
      throwPlainIf (deliveries.has input.metadata.deliveryId = true)
        "Duplicate parent input delivery requires inspection."
      return deliveries.set input.metadata.deliveryId input

namespace CachedManager

def initial : CachedManager where
  byId := 0
  session := 0
  entries := []
  leafId := none
  latestCustomEntryCache := none
  branchCustomEntriesCache := none
  parentInputReceipts := none
  parentEvidenceCache := none

variable (manager : CachedManager)

/-! ## Changes of the session -/

def append (entry : SessionEntry) : CachedManager :=
  { manager with
    entries := manager.entries ++ [entry]
    leafId := some entry.id }

/-- `newSession` empties the map of entries in place. -/
def newSession : CachedManager :=
  { manager with
    session := manager.session + 1
    entries := []
    leafId := none
    latestCustomEntryCache := none
    branchCustomEntriesCache := none }

/-- A read file or a branch copy brings a map of its own. -/
def adopt (entries : List SessionEntry) : CachedManager :=
  { manager with
    byId := manager.byId + 1
    session := manager.session + 1
    entries
    leafId := entries.getLast?.map SessionEntry.id
    latestCustomEntryCache := none
    branchCustomEntriesCache := none }

/-! ## Custom entries of the branch -/

def findLatestCustomEntry (customType : String) (start : Option SessionEntry)
    (cached : Option LatestMatch) : Outcome (Option SessionEntry) := do
  match ← searchLatest (entriesById manager.entries) customType (cached.bind LatestMatch.leafId)
      (manager.entries.length + 1) start with
  | .entry entry => return some entry
  | .cachedLeaf => return cached.bind LatestMatch.found
  | .nothing => return none

def latestCustomEntryCacheForIndex : LatestCustomEntryCache :=
  match manager.latestCustomEntryCache with
  | some cache => if cache.byId = manager.byId then cache else fresh
  | none => fresh
where
  fresh : LatestCustomEntryCache :=
    { byId := manager.byId
      perType := .empty }

/-- Drop the oldest type where the cache holds too many. -/
def evictOldest (perType : OrderedMap String LatestMatch) : OrderedMap String LatestMatch :=
  if MAX_LATEST_CUSTOM_ENTRY_CACHE_TYPES < perType.size then
    match perType.keys.head? with
    | some oldest => perType.erase oldest
    | none => perType
  else perType

/-- Look for the latest entry of the leaf and remember it. -/
def refreshLatest (customType : String) (cache : LatestCustomEntryCache)
    (cached : Option LatestMatch) : Outcome (Option SessionEntry) × CachedManager :=
  match manager.findLatestCustomEntry customType (leafEntry manager.entries manager.leafId)
      cached with
  | .error error => (.error error, { manager with latestCustomEntryCache := some cache })
  | .ok found =>
      (.ok found, { manager with
        latestCustomEntryCache := some { cache with
          perType := evictOldest ((cache.perType.erase customType).set customType
            { leafId := manager.leafId
              found }) } })

def getLatestCustomEntryOnBranch (customType : String) (fromId : Option String) :
    Outcome (Option SessionEntry) × CachedManager :=
  match fromId with
  | some id =>
      (manager.findLatestCustomEntry customType (entriesById manager.entries id) none, manager)
  | none =>
      let cache := manager.latestCustomEntryCacheForIndex
      match cache.perType.get? customType with
      | none => manager.refreshLatest customType cache none
      | some cached =>
          if cached.leafId = manager.leafId then
            (.ok cached.found, { manager with latestCustomEntryCache := some cache })
          else manager.refreshLatest customType cache (some cached)

/-- `customTypes.join("\u0000")`. -/
def typesKey (customTypes : List String) : String := "\x00".intercalate customTypes

def branchCustomEntriesCacheForIndex : BranchCustomEntriesCache :=
  match manager.branchCustomEntriesCache with
  | some cache => if cache.byId = manager.byId then cache else fresh
  | none => fresh
where
  fresh : BranchCustomEntriesCache :=
    { byId := manager.byId
      perKey := .empty }

/-- Walk the branch of the leaf to the cached leaf and remember its entries. -/
def refreshEntries (customTypes : List String) (cache : BranchCustomEntriesCache)
    (cached : Option BranchEntries) : Outcome (List SessionEntry) × CachedManager :=
  match collectCustom (entriesById manager.entries) customTypes (cached.bind BranchEntries.leafId)
      (manager.entries.length + 1) (leafEntry manager.entries manager.leafId) with
  | .error error => (.error error, { manager with branchCustomEntriesCache := some cache })
  | .ok (appended, resumed) =>
      let before := if resumed then (cached.map BranchEntries.entries).getD [] else []
      let entries := before ++ appended.reverse
      (.ok entries, { manager with
        branchCustomEntriesCache := some { cache with
          perKey := cache.perKey.set (typesKey customTypes)
            { leafId := manager.leafId
              entries
              types := customTypes } } })

def getCustomEntriesOnBranch (customTypes : List String) :
    Outcome (List SessionEntry) × CachedManager :=
  let cache := manager.branchCustomEntriesCacheForIndex
  match cache.perKey.get? (typesKey customTypes) with
  | none => manager.refreshEntries customTypes cache none
  | some cached =>
      if cached.leafId = manager.leafId then
        (.ok cached.entries, { manager with branchCustomEntriesCache := some cache })
      else manager.refreshEntries customTypes cache (some cached)

/-! ## Sources of parent inputs -/

/-- The cache of the current map, or a new one where the map is another or has fewer entries than
were read. -/
def currentSource {σ : Type} (start : σ) (cache : Option (SourceCache σ)) : SourceCache σ :=
  match cache with
  | some cache =>
      if cache.byId ≠ manager.byId ∨ manager.entries.length < cache.read.count then fresh
      else cache
  | none => fresh
where
  fresh : SourceCache σ :=
    { byId := manager.byId
      session := manager.session
      read := { count := 0, state := start } }

/-- Read the entries that the cache of a source has not read. -/
def readSource {σ : Type} (step : σ → SessionEntry → Outcome σ) (start : σ)
    (cache : Option (SourceCache σ)) : Outcome σ × SourceCache σ :=
  let current := manager.currentSource start cache
  let read := current.read.catchUp step manager.entries
  (read.2, { current with
    session := manager.session
    read := read.1 })

/-- `_parentInputReceipt`. -/
def getParentInput (env : Platform) (deliveryId : String) :
    Outcome (Option PersistedParentInput) × CachedManager :=
  let source := manager.readSource (takeReceipt env) .empty manager.parentInputReceipts
  (source.1.map fun deliveries => deliveries.get? deliveryId,
    { manager with parentInputReceipts := some source.2 })

/-- `getParentInputConsumptionSource`, as the index that its queries read. -/
def getParentInputConsumptionSource (env : Platform) :
    Outcome SessionEntryEvidenceIndex × CachedManager :=
  let source := manager.readSource (SessionEntryEvidenceIndex.add env) .empty
    manager.parentEvidenceCache
  (source.1, { manager with parentEvidenceCache := some source.2 })

end CachedManager

/-! ## Operations -/

inductive BranchOperation where
  | append (entry : SessionEntry)
  | branch (branchFromId : String)
  | resetLeaf
  | newSession
  /-- A reload, or a branch copy that replaces the session, with the entries it brings. -/
  | adopt (entries : List SessionEntry)
  | getLatestCustomEntryOnBranch (customType : String) (fromId : Option String)
  | getCustomEntriesOnBranch (customTypes : List String)
  | getParentInput (deliveryId : String)
  | getParentInputConsumptionSource

/-- The manager performs an operation. -/
inductive CacheStep (env : Platform) (before : CachedManager) :
    BranchOperation → CachedManager → Prop
  | append {entry : SessionEntry} (named : entry.id ≠ "")
      (fresh : ∀ other ∈ before.entries, other.id ≠ entry.id)
      (follows : ∀ parentId, entry.parentId = some parentId →
        ∃ parent ∈ before.entries, parent.id = parentId) :
      CacheStep env before (.append entry) (before.append entry)
  | branch {branchFromId : String}
      (present : ∃ entry ∈ before.entries, entry.id = branchFromId) :
      CacheStep env before (.branch branchFromId) { before with leafId := some branchFromId }
  | resetLeaf : CacheStep env before .resetLeaf { before with leafId := none }
  | newSession : CacheStep env before .newSession before.newSession
  | adopt {entries : List SessionEntry} {copy : SessionManager}
      (indexed : SessionManager.buildIndex entries = .ok copy) :
      CacheStep env before (.adopt entries) (before.adopt entries)
  | getLatestCustomEntryOnBranch (customType : String) (fromId : Option String) :
      CacheStep env before (.getLatestCustomEntryOnBranch customType fromId)
        (before.getLatestCustomEntryOnBranch customType fromId).2
  | getCustomEntriesOnBranch (customTypes : List String) :
      CacheStep env before (.getCustomEntriesOnBranch customTypes)
        (before.getCustomEntriesOnBranch customTypes).2
  | getParentInput (deliveryId : String) :
      CacheStep env before (.getParentInput deliveryId) (before.getParentInput env deliveryId).2
  | getParentInputConsumptionSource :
      CacheStep env before .getParentInputConsumptionSource
        (before.getParentInputConsumptionSource env).2

/-! ## Fresh walks -/

/-- The latest entry of a type that a walk from an entry meets. -/
def freshLatest (entries : List SessionEntry) (start : Option SessionEntry) (customType : String) :
    Outcome (Option SessionEntry) := do
  let line ← visitSessionAncestry (entriesById entries) (entries.length + 1) start
  return line.find? (isCustom customType)

/-- The entries of some types that a walk from an entry meets, the oldest first. -/
def freshEntries (entries : List SessionEntry) (start : Option SessionEntry)
    (customTypes : List String) : Outcome (List SessionEntry) := do
  let line ← visitSessionAncestry (entriesById entries) (entries.length + 1) start
  return (line.filter (isCustomOf customTypes)).reverse

/-- The input of a delivery that a walk over all entries meets. -/
def freshParentInput (env : Platform) (entries : List SessionEntry) (deliveryId : String) :
    Outcome (Option PersistedParentInput) := do
  let deliveries ← entries.foldlM (takeReceipt env) .empty
  return deliveries.get? deliveryId

def freshIndex (env : Platform) (entries : List SessionEntry) :
    Outcome SessionEntryEvidenceIndex :=
  entries.foldlM (SessionEntryEvidenceIndex.add env) .empty

/-- A query answers what a fresh walk over the current session and branch answers. -/
def Serves (env : Platform) (manager : CachedManager) : BranchOperation → Prop
  | .getLatestCustomEntryOnBranch customType none =>
      (manager.getLatestCustomEntryOnBranch customType none).1 =
        freshLatest manager.entries (leafEntry manager.entries manager.leafId) customType
  | .getLatestCustomEntryOnBranch customType (some id) =>
      (manager.getLatestCustomEntryOnBranch customType (some id)).1 =
        freshLatest manager.entries (entriesById manager.entries id) customType
  | .getCustomEntriesOnBranch customTypes =>
      (manager.getCustomEntriesOnBranch customTypes).1 =
        freshEntries manager.entries (leafEntry manager.entries manager.leafId) customTypes
  | .getParentInput deliveryId =>
      (manager.getParentInput env deliveryId).1 =
        freshParentInput env manager.entries deliveryId
  | .getParentInputConsumptionSource =>
      (manager.getParentInputConsumptionSource env).1 = freshIndex env manager.entries
  | _ => True

/-! ## Undisturbed operations -/

/-- The cache of a source was not read from an earlier session of the same map. -/
def SourceCurrent {σ : Type} (manager : CachedManager) (cache : Option (SourceCache σ)) : Prop :=
  ∀ held, cache = some held → held.byId = manager.byId → 0 < held.read.count →
    held.read.count ≤ manager.entries.length → held.session = manager.session

/-- What is remembered under the key of some types was asked for the same types. -/
def KeyAgrees (manager : CachedManager) (customTypes : List String) : Prop :=
  ∀ cache cached, manager.branchCustomEntriesCache = some cache → cache.byId = manager.byId →
    cache.perKey.get? (CachedManager.typesKey customTypes) = some cached →
      ∀ customType, customType ∈ cached.types ↔ customType ∈ customTypes

/-- An operation that no cache disturbs: a drawn id that no entry names as its missing parent, a key
that was asked for the same types, a source that was not read from an earlier session. -/
def Undisturbed (manager : CachedManager) : BranchOperation → Prop
  | .append entry => ∀ other ∈ manager.entries, other.parentId ≠ some entry.id
  | .getCustomEntriesOnBranch customTypes => KeyAgrees manager customTypes
  | .getParentInput _ => SourceCurrent manager manager.parentInputReceipts
  | .getParentInputConsumptionSource => SourceCurrent manager manager.parentEvidenceCache
  | _ => True

end PiAdaptative.BranchCaches
