import Mathlib.Data.Nat.Bits
import PiAdaptative.Foundations.JsonTexts
import PiAdaptative.Session.ParentInputs

/-!
# Evidence keys

An entry states evidence about requests, wakes and deliveries.  Every partial query that a stated
item answers is a key of the entry; the keys of an entry and the query it answers are the same thing.
-/

namespace PiAdaptative.SessionEvidence

open Session

inductive EntryType where
  | message | thinkingLevelChange | modelChange | compaction | branchSummary | custom | label
  | sessionInfo | customMessage | requestSnapshot | providerRequestTerminal | foregroundToolStart
  | foregroundToolTerminal | compactionStart | compactionEnd
  deriving DecidableEq, Repr

def EntryType.text : EntryType → String
  | .message => "message"
  | .thinkingLevelChange => "thinking_level_change"
  | .modelChange => "model_change"
  | .compaction => "compaction"
  | .branchSummary => "branch_summary"
  | .custom => "custom"
  | .label => "label"
  | .sessionInfo => "session_info"
  | .customMessage => "custom_message"
  | .requestSnapshot => "request_snapshot"
  | .providerRequestTerminal => "provider_request_terminal"
  | .foregroundToolStart => "foreground_tool_start"
  | .foregroundToolTerminal => "foreground_tool_terminal"
  | .compactionStart => "compaction_start"
  | .compactionEnd => "compaction_end"

/-- A field that a query may fix. -/
inductive EvidenceField where
  | customType | requestId | wakeId | deliveryId
  deriving DecidableEq, Repr

/-- A query over the evidence of entries, or an item that an entry states. -/
structure ParentInputEvidenceQuery where
  type : EntryType
  customType : Option String := none
  requestId : Option String := none
  wakeId : Option String := none
  deliveryId : Option String := none
  deriving DecidableEq, Repr

variable {query item : ParentInputEvidenceQuery}

namespace ParentInputEvidenceQuery

/-- `query[field]`. -/
def get (query : ParentInputEvidenceQuery) : EvidenceField → Option String
  | .customType => query.customType
  | .requestId => query.requestId
  | .wakeId => query.wakeId
  | .deliveryId => query.deliveryId

/-- `query[field] = value`. -/
def set (query : ParentInputEvidenceQuery) (field : EvidenceField) (value : Option String) :
    ParentInputEvidenceQuery :=
  match field with
  | .customType => { query with customType := value }
  | .requestId => { query with requestId := value }
  | .wakeId => { query with wakeId := value }
  | .deliveryId => { query with deliveryId := value }

@[simp]
theorem type_set (query : ParentInputEvidenceQuery) (field : EvidenceField)
    (value : Option String) : (query.set field value).type = query.type := by
  cases field <;> rfl

@[simp]
theorem get_set (query : ParentInputEvidenceQuery) (field other : EvidenceField)
    (value : Option String) :
    (query.set field value).get other = if other = field then value else query.get other := by
  cases field <;> cases other <;> rfl

theorem ext_get {query other : ParentInputEvidenceQuery} (types : query.type = other.type)
    (fields : ∀ field, query.get field = other.get field) : query = other := by
  obtain ⟨type, customType, requestId, wakeId, deliveryId⟩ := query
  have custom : customType = _ := fields .customType
  have request : requestId = _ := fields .requestId
  have wake : wakeId = _ := fields .wakeId
  have delivery : deliveryId = _ := fields .deliveryId
  subst types custom request wake delivery
  rfl

/-- Whether an item has the type of the query and every field the query fixes. -/
def answeredBy (query item : ParentInputEvidenceQuery) : Bool :=
  query.type = item.type &&
    [EvidenceField.customType, .requestId, .wakeId, .deliveryId].all fun field =>
      (query.get field).isNone || query.get field = item.get field

theorem answeredBy_eq_true :
    query.answeredBy item = true ↔ query.type = item.type ∧
      ∀ field, query.get field = none ∨ query.get field = item.get field := by
  simp only [answeredBy, Bool.and_eq_true, decide_eq_true_eq, List.all_eq_true, Bool.or_eq_true,
    Option.isNone_iff_eq_none]
  refine and_congr_right fun _ => ⟨fun every field => every field ?_, fun every field _ => every field⟩
  cases field <;> simp

end ParentInputEvidenceQuery

def entryType : EntryBody → EntryType
  | .message .. => .message
  | .thinkingLevelChange .. => .thinkingLevelChange
  | .modelChange .. => .modelChange
  | .compaction .. => .compaction
  | .branchSummary .. => .branchSummary
  | .custom .. => .custom
  | .label .. => .label
  | .sessionInfo .. => .sessionInfo
  | .customMessage .. => .customMessage
  | .requestSnapshot .. => .requestSnapshot
  | .providerRequestTerminal .. => .providerRequestTerminal
  | .foregroundToolStart .. => .foregroundToolStart
  | .foregroundToolTerminal .. => .foregroundToolTerminal
  | .compactionStart .. => .compactionStart
  | .compactionEnd .. => .compactionEnd

/-- An item and one like it for each of the deliveries. -/
def withDeliveries (item : ParentInputEvidenceQuery) (inputs : List ParentWakeInput) :
    List ParentInputEvidenceQuery :=
  item :: inputs.map fun input => { item with deliveryId := some input.deliveryId }

/-- What a custom entry or custom message states. -/
def customEvidence (env : Platform) (entry : SessionEntry) (base : ParentInputEvidenceQuery) :
    Outcome (List ParentInputEvidenceQuery) := do
  match ← parentWakeOf env entry with
  | some wake => return withDeliveries { base with wakeId := some wake.wakeId } wake.inputs
  | none =>
      match ← parentInputRequestBindingOf entry with
      | some (.wake requestId wakeId) =>
          return [{ base with requestId := some requestId, wakeId := some wakeId }]
      | some (.owner requestId _ _ inputs) =>
          return withDeliveries { base with requestId := some requestId } inputs
      | none =>
          match ← parentWakeSettlementOf entry with
          | some settlement =>
              return [{ base with
                requestId := some settlement.requestId
                wakeId := some settlement.wakeId }]
          | none =>
              match ← parentInputConsumptionOf entry with
              | some consumed =>
                  return withDeliveries { base with requestId := some consumed.requestId }
                    consumed.inputs
              | none => return []

def parentInputEvidenceMetadata (env : Platform) (entry : SessionEntry) :
    Outcome (List ParentInputEvidenceQuery) :=
  match entry.body with
  | .requestSnapshot requestId _ => .ok [{ type := entryType entry.body, requestId := some requestId }]
  | .providerRequestTerminal requestId _ _ =>
      .ok [{ type := entryType entry.body, requestId := some requestId }]
  | .custom customType _ | .customMessage customType _ _ _ =>
      customEvidence env entry { type := entryType entry.body, customType := some customType }
  | _ => .ok []

/-- The code units of a key's JSON text, in the order that JavaScript compares texts. -/
abbrev EvidenceKey := List Nat

def fieldText : Option String → List Char
  | none => ['n', 'u', 'l', 'l']
  | some text => JsonTexts.quote text

def evidenceKey (query : ParentInputEvidenceQuery) : EvidenceKey :=
  codeUnits (String.ofList ('[' :: (JsonTexts.quote query.type.text ++ ',' ::
    (fieldText query.customType ++ ',' :: (fieldText query.requestId ++ ',' ::
      (fieldText query.wakeId ++ ',' :: (fieldText query.deliveryId ++ [']'])))))))

/-- The query that the bits of a mask select from an item, lowest bit first. -/
def maskedQuery (item : ParentInputEvidenceQuery) :
    List EvidenceField → Nat → ParentInputEvidenceQuery
  | [], _ => { type := item.type }
  | field :: fields, mask =>
      let query := maskedQuery item fields (mask / 2)
      if mask % 2 = 1 then query.set field (item.get field) else query

def presentFields (item : ParentInputEvidenceQuery) : List EvidenceField :=
  [EvidenceField.customType, .requestId, .wakeId, .deliveryId].filter fun field =>
    (item.get field).isSome

/-- The keys of every query over the fields of an item. -/
def itemKeys (item : ParentInputEvidenceQuery) : List EvidenceKey :=
  (List.range (2 ^ (presentFields item).length)).map fun mask =>
    evidenceKey (maskedQuery item (presentFields item) mask)

def evidenceKeys (env : Platform) (entry : SessionEntry) : Outcome (List EvidenceKey) := do
  let items ← parentInputEvidenceMetadata env entry
  return (items.flatMap itemKeys).eraseDups

theorem text_inj {type other : EntryType} (same : type.text = other.text) : type = other := by
  cases type <;> cases other <;> first | rfl | simp [EntryType.text] at same

theorem fieldText_append_inj {field other : Option String} {rest later : List Char}
    (same : fieldText field ++ rest = fieldText other ++ later) : field = other ∧ rest = later := by
  cases field with
  | none =>
      cases other with
      | none => exact ⟨rfl, List.append_cancel_left same⟩
      | some text => exact absurd (List.cons.inj same).1 (by decide)
  | some text =>
      cases other with
      | none => exact absurd (List.cons.inj same).1 (by decide)
      | some text =>
          obtain ⟨texts, rests⟩ := JsonTexts.quote_append_inj same
          exact ⟨congrArg some texts, rests⟩

theorem evidenceKey_inj {query other : ParentInputEvidenceQuery}
    (same : evidenceKey query = evidenceKey other) : query = other := by
  have chars := String.ofList_injective (JsonTexts.codeUnits_inj same)
  obtain ⟨types, rest⟩ := JsonTexts.quote_append_inj (List.cons.inj chars).2
  obtain ⟨custom, rest⟩ := fieldText_append_inj (List.cons.inj rest).2
  obtain ⟨request, rest⟩ := fieldText_append_inj (List.cons.inj rest).2
  obtain ⟨wake, rest⟩ := fieldText_append_inj (List.cons.inj rest).2
  obtain ⟨delivery, -⟩ := fieldText_append_inj (List.cons.inj rest).2
  refine ParentInputEvidenceQuery.ext_get (text_inj types) fun field => ?_
  cases field
  · exact custom
  · exact request
  · exact wake
  · exact delivery

theorem maskedQuery_answered (item : ParentInputEvidenceQuery) (fields : List EvidenceField)
    (mask : Nat) :
    (maskedQuery item fields mask).type = item.type ∧ ∀ field,
      (maskedQuery item fields mask).get field = none ∨
        (maskedQuery item fields mask).get field = item.get field := by
  induction fields generalizing mask with
  | nil =>
      refine ⟨rfl, fun field => .inl ?_⟩
      cases field <;> rfl
  | cons first fields ih =>
      obtain ⟨types, rest⟩ := ih (mask / 2)
      simp only [maskedQuery]
      split
      · refine ⟨by rw [ParentInputEvidenceQuery.type_set, types], fun field => ?_⟩
        rw [ParentInputEvidenceQuery.get_set]
        split
        · next same => exact .inr (by rw [same])
        · exact rest field
      · exact ⟨types, rest⟩

/-- Some mask selects exactly the fields that a query fixes. -/
theorem exists_mask (fields : List EvidenceField) (nodup : fields.Nodup)
    (agrees : ∀ field, query.get field = none ∨ query.get field = item.get field) :
    ∃ mask < 2 ^ fields.length, (maskedQuery item fields mask).type = item.type ∧ ∀ field,
      (maskedQuery item fields mask).get field =
        if field ∈ fields then query.get field else none := by
  induction fields with
  | nil =>
      refine ⟨0, by simp, rfl, fun field => ?_⟩
      cases field <;> rfl
  | cons first fields ih =>
      obtain ⟨absent, rest⟩ := List.nodup_cons.mp nodup
      obtain ⟨mask, bound, types, selected⟩ := ih rest
      cases fixed : query.get first with
      | none =>
          refine ⟨2 * mask, by rw [List.length_cons, Nat.pow_succ]; omega, ?_⟩
          have even : maskedQuery item (first :: fields) (2 * mask) = maskedQuery item fields mask := by
            simp [maskedQuery]
          rw [even]
          refine ⟨types, fun field => ?_⟩
          rw [selected]
          by_cases same : field = first
          · subst same
            simp [absent, fixed]
          · simp [same]
      | some value =>
          refine ⟨2 * mask + 1, by rw [List.length_cons, Nat.pow_succ]; omega, ?_⟩
          have odd : maskedQuery item (first :: fields) (2 * mask + 1) =
              (maskedQuery item fields mask).set first (item.get first) := by
            have half : (2 * mask + 1) / 2 = mask := by omega
            have last : (2 * mask + 1) % 2 = 1 := by omega
            simp only [maskedQuery, half, last, if_true]
          rw [odd]
          refine ⟨by rw [ParentInputEvidenceQuery.type_set, types], fun field => ?_⟩
          rw [ParentInputEvidenceQuery.get_set, selected]
          by_cases same : field = first
          · subst same
            rcases agrees field with none | equal
            · simp [fixed] at none
            · simp [equal]
          · simp [same]

theorem evidenceKey_mem_itemKeys :
    evidenceKey query ∈ itemKeys item ↔ query.answeredBy item = true := by
  rw [ParentInputEvidenceQuery.answeredBy_eq_true, itemKeys, List.mem_map]
  constructor
  · rintro ⟨mask, -, same⟩
    obtain rfl := evidenceKey_inj same
    exact maskedQuery_answered item _ mask
  · rintro ⟨types, agrees⟩
    have nodup : (presentFields item).Nodup := List.Nodup.filter _ (by decide)
    obtain ⟨mask, bound, sameType, selected⟩ := exists_mask (presentFields item) nodup agrees
    refine ⟨mask, List.mem_range.mpr bound, congrArg evidenceKey ?_⟩
    refine ParentInputEvidenceQuery.ext_get (by rw [sameType, types]) fun field => ?_
    rw [selected]
    split
    · rfl
    · next absent =>
        rcases agrees field with none | equal
        · exact none.symm
        · have missing : item.get field = none := by
            by_contra present
            refine absent (List.mem_filter.mpr ⟨?_, Option.isSome_iff_ne_none.mpr present⟩)
            cases field <;> simp
          rw [equal, missing]

/-- Whether an entry states evidence that answers a query. -/
def entryAnswers (env : Platform) (query : ParentInputEvidenceQuery) (entry : SessionEntry) : Bool :=
  match parentInputEvidenceMetadata env entry with
  | .ok items => items.any query.answeredBy
  | .error _ => false

variable {keys : List EvidenceKey}

/-- The keys of an entry are those of the queries it answers. -/
theorem evidenceKey_mem_evidenceKeys {env : Platform} {entry : SessionEntry}
    {query : ParentInputEvidenceQuery} (read : evidenceKeys env entry = .ok keys) :
    evidenceKey query ∈ keys ↔ entryAnswers env query entry = true := by
  obtain ⟨items, metadata, same⟩ := bind_eq_ok.mp read
  obtain rfl := Except.ok.inj same
  rw [entryAnswers, metadata, List.mem_eraseDups, List.mem_flatMap]
  simp only [evidenceKey_mem_itemKeys, List.any_eq_true]

theorem nodup_eraseDups {α : Type} [BEq α] [LawfulBEq α] : ∀ elements : List α,
    elements.eraseDups.Nodup
  | [] => by simp
  | element :: elements => by
      rw [List.eraseDups_cons, List.nodup_cons]
      refine ⟨fun member => ?_, nodup_eraseDups _⟩
      simpa using (List.mem_filter.mp (List.mem_eraseDups.mp member)).2
  termination_by elements => elements.length
  decreasing_by exact Nat.lt_succ_of_le (List.length_filter_le _ _)

/-- An entry has no key twice. -/
theorem nodup_evidenceKeys {env : Platform} {entry : SessionEntry}
    (read : evidenceKeys env entry = .ok keys) : keys.Nodup := by
  obtain ⟨items, -, same⟩ := bind_eq_ok.mp read
  obtain rfl := Except.ok.inj same
  exact nodup_eraseDups _

end PiAdaptative.SessionEvidence
