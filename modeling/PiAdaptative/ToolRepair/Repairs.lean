import PiAdaptative.ToolRepair.Transforms

/-!
# Repairs of tool arguments

A failed call is repaired on a clone of its arguments.  A pass renames misspelt properties, then
applies to each issue the first mode that makes something of the value found at its path; up to
three passes are made until the whole arguments pass.
-/

namespace PiAdaptative.ToolRepair

open JsonEdits ToolValidation

structure AppliedToolRepair where
  name : ToolRepairModeName
  path : String
  deriving DecidableEq

def MAX_REPAIR_PASSES : Nat := 3

variable (host : Host)

/-- `resolveRepairPathTarget`: the location of the container and the step to the value. -/
def resolveRepairPathTarget (target : Json) : List String → Option (Location × Step)
  | [] => none
  | [segment] => (stepOf host target segment).map fun step => ([], step)
  | segment :: rest =>
      (stepOf host target segment).bind fun step =>
        (child target step).bind fun inner =>
          (resolveRepairPathTarget inner rest).map fun found => (step :: found.1, found.2)

/-- `container[key] = value`; an array grows where it is too short. -/
def assign : Json → Step → Json → Json
  | .arr elements, .index place, value =>
      if place < elements.length then .arr (elements.set place value)
      else .arr (elements ++ List.replicate (place - elements.length) .null ++ [value])
  | container, step, value => putChild container step value

def setValueAtPath (target : Json) (path : List String) (value : Json) : Option Json :=
  (resolveRepairPathTarget host target path).bind fun found =>
    updateAt (fun container => some (assign container found.2 value)) found.1 target

def deleteValueAtPath (target : Json) (path : List String) : Option Json :=
  (resolveRepairPathTarget host target path).bind fun found =>
    updateAt (fun container => some (Change.dropChild container found.2)) found.1 target

def PROPERTY_ALIAS_GROUPS : List (List String) :=
  [["replacementContent", "newText", "replacement_content", "new_text"],
    ["targetContent", "targetText", "oldText", "target_content", "target_text", "old_text"],
    ["startLine", "start_line"],
    ["endLine", "end_line"],
    ["path", "file_path", "filePath", "filename", "file"],
    ["edits", "changes", "replacements"]]

/-- `Object.assign`. -/
def assignAll (fields added : List (String × Json)) : List (String × Json) :=
  added.foldl (fun fields field => putField field.1 field.2 fields) fields

/-- The properties that a schema declares itself. -/
def ownProperties (schema : Json) : List (String × Json) :=
  match schema.field "properties" with
  | some (.obj properties) =>
      properties.filter fun property => isRecord (some property.2) && property.1 != "__proto__"
  | _ => []

variable {name : String}

theorem sizeOf_lt_of_field {schema value : Json} (found : schema.field name = some value) :
    sizeOf value < sizeOf schema := by
  cases schema with
  | obj fields =>
      have listed : ∀ listed : List (String × Json), listed.lookup name = some value →
          sizeOf value < sizeOf listed := by
        intro listed
        induction listed with
        | nil => nofun
        | cons field rest ih =>
            obtain ⟨key, held⟩ := field
            intro found
            rw [List.lookup_cons] at found
            simp only [List.cons.sizeOf_spec, Prod.mk.sizeOf_spec]
            split at found
            · cases found
              omega
            · have smaller := ih found
              omega
      have smaller := listed fields found
      simp only [Json.obj.sizeOf_spec]
      omega
  | null | bool | num | str | arr => cases found

theorem sizeOf_lt_of_mem_elementsOf {schema item : Json} (mem : item ∈ elementsOf schema name) :
    sizeOf item < sizeOf schema := by
  unfold elementsOf at mem
  split at mem
  next elements found =>
    have smaller := sizeOf_lt_of_field found
    have inside := List.sizeOf_lt_of_mem mem
    simp only [Json.arr.sizeOf_spec] at smaller
    omega
  · cases mem

def combinedSchemas (schema : Json) : List Json :=
  elementsOf schema "allOf" ++ elementsOf schema "anyOf" ++ elementsOf schema "oneOf"

theorem sizeOf_lt_of_mem_combinedSchemas {schema item : Json}
    (mem : item ∈ combinedSchemas schema) : sizeOf item < sizeOf schema := by
  simp only [combinedSchemas, List.mem_append] at mem
  rcases mem with (mem | mem) | mem <;> exact sizeOf_lt_of_mem_elementsOf mem

def collectSchemaProperties (schema : Json) : List (String × Json) :=
  (combinedSchemas schema).attach.foldl (fun properties item =>
    if isRecord (some item.1) then assignAll properties (collectSchemaProperties item.1)
    else properties) (assignAll [] (ownProperties schema))
termination_by sizeOf schema
decreasing_by exact sizeOf_lt_of_mem_combinedSchemas item.2

theorem mem_putField {value : Json} {fields : List (String × Json)} {field : String × Json}
    (mem : field ∈ putField name value fields) : field ∈ fields ∨ field = (name, value) := by
  induction fields with
  | nil => exact .inr (List.mem_singleton.mp mem)
  | cons first rest ih =>
      unfold putField at mem
      split at mem
      · rcases List.mem_cons.mp mem with same | later
        · exact .inr same
        · exact .inl (List.mem_cons_of_mem _ later)
      · rcases List.mem_cons.mp mem with rfl | later
        · exact .inl List.mem_cons_self
        · exact (ih later).imp (List.mem_cons_of_mem _) id

theorem mem_assignAll {fields added : List (String × Json)} {field : String × Json}
    (mem : field ∈ assignAll fields added) : field ∈ fields ∨ field ∈ added := by
  induction added generalizing fields with
  | nil => exact .inl mem
  | cons first rest ih =>
      rcases ih mem with before | later
      · rcases mem_putField before with before | rfl
        · exact .inl before
        · exact .inr List.mem_cons_self
      · exact .inr (List.mem_cons_of_mem _ later)

/-- A collected schema is a part of the schema. -/
theorem sizeOf_lt_of_mem_collectSchemaProperties {schema : Json} {property : String × Json}
    (mem : property ∈ collectSchemaProperties schema) : sizeOf property.2 < sizeOf schema := by
  induction schema using collectSchemaProperties.induct generalizing property with
  | case1 schema ih =>
      have own : ∀ field ∈ assignAll [] (ownProperties schema), sizeOf field.2 < sizeOf schema := by
        intro field memField
        have listed := (mem_assignAll memField).resolve_left nofun
        unfold ownProperties at listed
        split at listed
        next properties found =>
          have inside := List.sizeOf_lt_of_mem (List.mem_of_mem_filter listed)
          have smaller := sizeOf_lt_of_field found
          simp only [Json.obj.sizeOf_spec] at smaller
          obtain ⟨name, value⟩ := field
          simp only [Prod.mk.sizeOf_spec] at inside
          simp only
          omega
        · cases listed
      rw [collectSchemaProperties] at mem
      revert mem own
      generalize assignAll [] (ownProperties schema) = start
      induction (combinedSchemas schema).attach generalizing start with
      | nil => exact fun mem own => own property mem
      | cons item items ihItems =>
          intro mem own
          refine ihItems _ mem ?_
          intro field memField
          dsimp only at memField
          split at memField
          · rcases mem_assignAll memField with before | collected
            · exact own field before
            · exact (ih item collected).trans (sizeOf_lt_of_mem_combinedSchemas item.2)
          · exact own field memField

def findAliasCanonicalKey (key : String) (schemaKeys : List String) : Option String :=
  (PROPERTY_ALIAS_GROUPS.filter fun group => group.contains key).findSome? fun group =>
    group.find? fun targetKey => targetKey != key && schemaKeys.contains targetKey

/-- The key of a schema that a key spells in another case or with underscores. -/
def canonicalKey (schemaKeys : List String) (key : String) : Option String :=
  let lower := host.toLowerCase key
  let stripped := String.ofList (lower.toList.filter fun unit => unit != '_')
  (schemaKeys.find? fun candidate => host.toLowerCase candidate == lower).or
    (schemaKeys.find? fun candidate => host.toLowerCase candidate == stripped)

/-- A key that is not empty and that a record lacks. -/
def freeKey (fields : List (String × Json)) (key : Option String) : Option String :=
  key.filter fun key => key != "" && !inRecord key fields

/-- The new name of a key, with the name of its repair. -/
def renameOf (schemaProps fields : List (String × Json)) (key : String) :
    Option (ToolRepairModeName × String) :=
  let schemaKeys := schemaProps.map Prod.fst
  if inRecord key schemaProps then none
  else ((freeKey fields (canonicalKey host schemaKeys key)).map fun canonical =>
      (.propertyCaseNormalize, canonical)).or
    ((freeKey fields (findAliasCanonicalKey key schemaKeys)).map fun canonical =>
      (.propertyAliasNormalize, canonical))

/-- One round of the loop over the keys of a record. -/
def renameKey (schemaProps : List (String × Json)) (path : List String)
    (state : List (String × Json) × List AppliedToolRepair) (key : String) :
    List (String × Json) × List AppliedToolRepair :=
  match renameOf host schemaProps state.1 key, state.1.lookup key with
  | some (name, canonical), some value =>
      (deleteField key (putField canonical value state.1),
        state.2 ++ [{ name, path := formatRepairPath (path ++ [canonical]) }])
  | _, _ => state

/-- The value with its own misspelt properties renamed. -/
def renameProperties (value schema : Json) (path : List String) :
    Json × List AppliedToolRepair :=
  match value with
  | .obj fields =>
      let renamed := (fields.map Prod.fst).foldl
        (renameKey host (collectSchemaProperties schema) path) (fields, [])
      (.obj renamed.1, renamed.2)
  | _ => (value, [])

/-- A value below another one, as the normalization visits it. -/
structure Visit where
  step : Step
  segment : String
  schema : Json

/-- The values that the normalization visits, in their order. -/
def visitsOf (value schema : Json) : List Visit :=
  match value with
  | .arr elements =>
      match recordField schema "items" with
      | some items => (List.range elements.length).map fun index =>
          { step := .index index, segment := toString index, schema := items }
      | none => []
  | .obj _ => (collectSchemaProperties schema).map fun property =>
      { step := .key property.1, segment := property.1, schema := property.2 }
  | _ => []

theorem sizeOf_lt_of_mem_visitsOf {value schema : Json} {visit : Visit}
    (mem : visit ∈ visitsOf value schema) : sizeOf visit.schema < sizeOf schema := by
  unfold visitsOf at mem
  split at mem
  next elements =>
    split at mem
    next items found =>
      obtain ⟨index, _, rfl⟩ := List.mem_map.mp mem
      unfold recordField at found
      split at found
      next fields stated =>
        cases found
        exact sizeOf_lt_of_field stated
      · cases found
    · cases mem
  next fields =>
    obtain ⟨property, listed, rfl⟩ := List.mem_map.mp mem
    exact sizeOf_lt_of_mem_collectSchemaProperties listed
  · cases mem

/-- `normalizePropertyCaseAtPath`: the value after it, with the repairs. -/
def normalizePropertyCaseAtPath (value schema : Json) (path : List String) :
    Json × List AppliedToolRepair :=
  (visitsOf value schema).attach.foldl (fun state visit =>
    match child state.1 visit.1.step with
    | none => state
    | some inner =>
        let normalized :=
          normalizePropertyCaseAtPath inner visit.1.schema (path ++ [visit.1.segment])
        (putChild state.1 visit.1.step normalized.1, state.2 ++ normalized.2))
    (renameProperties host value schema path)
termination_by sizeOf schema
decreasing_by exact sizeOf_lt_of_mem_visitsOf visit.2

def normalizePropertyCase (args schema : Json) : Json × List AppliedToolRepair :=
  if isRecord (some args) && isRecord (some schema) then
    normalizePropertyCaseAtPath host args schema []
  else (args, [])

/-- The objects of a process, none of which is a part of another one. -/
abbrev Memory := List Json

/-- `structuredClone` of an object, and where the clone is. -/
def structuredClone (memory : Memory) (original : Nat) : Memory × Nat :=
  (memory ++ [memory.getD original .null], memory.length)

/-- The variables of `repairToolArguments`. -/
structure RepairState where
  memory : Memory
  candidate : Nat
  repairsApplied : List ToolRepairModeName
  repairs : List AppliedToolRepair

namespace RepairState

def value (state : RepairState) : Json := state.memory.getD state.candidate .null

/-- The candidate modified in place. -/
def write (state : RepairState) (value : Json) : RepairState :=
  { state with memory := state.memory.set state.candidate value }

/-- A new object as the candidate. -/
def renew (state : RepairState) (value : Json) : RepairState :=
  { state with
    memory := state.memory ++ [value]
    candidate := state.memory.length }

def report (state : RepairState) (repairs : List AppliedToolRepair) : RepairState :=
  { state with
    repairsApplied := state.repairsApplied ++ repairs.map AppliedToolRepair.name
    repairs := state.repairs ++ repairs }

end RepairState

def applyTransform (state : RepairState) (issue : ToolRepairIssue) (mode : ToolRepairModeName) :
    Option RepairState :=
  match transformValue host issue mode with
  | none | some (.set none) => none
  | some .delete => (deleteValueAtPath host state.value issue.path).map state.write
  | some (.set (some value)) =>
      if issue.path = [] then if isRecord (some value) then some (state.renew value) else none
      else (setValueAtPath host state.value issue.path value).map state.write

def refreshIssueValue (candidate : Json) (issue : ToolRepairIssue) : ToolRepairIssue :=
  { issue with value := getValueAtPath host candidate issue.path }

/-- The state after the first mode of an issue that applies. -/
def repairIssue (state : RepairState) (issue : ToolRepairIssue) : Option RepairState :=
  if issue.modes.contains .nullRequiredBounce then none
  else
    let currentIssue := refreshIssueValue host state.value issue
    currentIssue.modes.findSome? fun mode =>
      (applyTransform host state currentIssue mode).map fun next =>
        next.report [{ name := mode, path := formatRepairPath currentIssue.path }]

/-- The state after some issues, and whether it was transformed. -/
def repairIssues (state : RepairState) (issues : List ToolRepairIssue) : RepairState × Bool :=
  issues.foldl (fun found issue =>
    match repairIssue host found.1 issue with
    | none => found
    | some next => (next, true)) (state, false)

/-- What the validator and its caller answer for a candidate. -/
structure Validation where
  /-- `checkWholeArgs`. -/
  checkWholeArgs : Json → Bool
  /-- `validationErrorsForCandidate`; `none` is a failure of the validator. -/
  validationErrors : Json → Option (List ValidationErrorLike)

structure ToolRepairResult where
  args : Json
  repairsApplied : List ToolRepairModeName
  repairs : List AppliedToolRepair

def RepairState.result (state : RepairState) : ToolRepairResult where
  args := state.value
  repairsApplied := state.repairsApplied
  repairs := state.repairs

/-- The state after the properties of the candidate were normalized. -/
def normalized (schema : Json) (state : RepairState) : RepairState :=
  let made := normalizePropertyCase host state.value schema
  (state.write made.1).report made.2

/-- The passes of `repairToolArguments` that are left. -/
def repairPasses (validation : Validation) (toolName : String) (schema : Json) :
    Nat → List ValidationErrorLike → RepairState → Option ToolRepairResult × Memory
  | 0, _, state => (none, state.memory)
  | passes + 1, errors, state =>
      let renamed := normalized host schema state
      let hasRenamed := (normalizePropertyCase host state.value schema).2 ≠ []
      if hasRenamed ∧ validation.checkWholeArgs renamed.value = true then
        (some renamed.result, renamed.memory)
      else
        let currentErrors :=
          if hasRenamed then (validation.validationErrors renamed.value).getD errors else errors
        let issues := analyzeToolArgumentErrors host toolName schema renamed.value currentErrors
        let repaired := repairIssues host renamed issues
        if validation.checkWholeArgs repaired.1.value then
          (some repaired.1.result, repaired.1.memory)
        else if repaired.2 = false then (none, repaired.1.memory)
        else match validation.validationErrors repaired.1.value with
          | none | some [] => (none, repaired.1.memory)
          | some nextErrors =>
              repairPasses validation toolName schema passes nextErrors repaired.1

/-- `repairToolArguments` of the object at a place of the memory. -/
def repairToolArguments (validation : Validation) (toolName : String) (schema : Json)
    (memory : Memory) (args : Nat) (errors : List ValidationErrorLike) :
    Option ToolRepairResult × Memory :=
  let clone := structuredClone memory args
  repairPasses host validation toolName schema MAX_REPAIR_PASSES errors {
    memory := clone.1
    candidate := clone.2
    repairsApplied := []
    repairs := [] }

end PiAdaptative.ToolRepair
