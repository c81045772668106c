import PiAdaptative.ToolRepair.Repairs

/-!
# What repairs change

Every reported repair is one edit of the arguments, at the location that its path spells and of the
value found there at that moment.  The result is made of the arguments by these edits alone, so
what no edit concerns is found unchanged where the renamings and removals move it.
-/

namespace PiAdaptative.ToolRepair

open JsonEdits ToolValidation

variable {host : Host}

/-- A segment of a path that stands for a step. -/
inductive Spells (host : Host) : String → Step → Prop where
  | key (name : String) : Spells host name (.key name)
  | index {segment : String} {place : Nat} (named : arrayIndex host segment = some place) :
      Spells host segment (.index place)
  | counted (place : Nat) : Spells host (toString place) (.index place)

/-- A report, below a base path, of an edit of a value. -/
inductive Justified (host : Host) (base : List String) (before : Json) :
    AppliedToolRepair → Edit → Prop where
  | renamed {name : ToolRepairModeName} {path : List String} {location : Location}
      {old new : String}
      (mode : name = .propertyCaseNormalize ∨ name = .propertyAliasNormalize)
      (spelled : List.Forall₂ (Spells host) path (location ++ [.key new])) :
      Justified host base before { name, path := formatRepairPath (base ++ path) }
        { location, change := .rename old new }
  | set {mode : ToolRepairModeName} {path : List String} {location : Location}
      {issue : ToolRepairIssue} {new : Json}
      (spelled : List.Forall₂ (Spells host) path location)
      (found : (valueAt before location).isSome) (current : issue.value = valueAt before location)
      (made : transformValue host issue mode = some (.set (some new))) :
      Justified host base before { name := mode, path := formatRepairPath (base ++ path) }
        { location, change := .replace new }
  | removed {mode : ToolRepairModeName} {path : List String} {location : Location} {step : Step}
      {issue : ToolRepairIssue}
      (spelled : List.Forall₂ (Spells host) path (location ++ [step]))
      (found : (valueAt before (location ++ [step])).isSome)
      (current : issue.value = valueAt before (location ++ [step]))
      (made : transformValue host issue mode = some .delete) :
      Justified host base before { name := mode, path := formatRepairPath (base ++ path) }
        { location, change := .drop step }

/-- Reports of edits that make one value of another one, each of the value that the earlier ones
left. -/
inductive Reported (host : Host) (base : List String) :
    Json → List AppliedToolRepair → List Edit → Json → Prop where
  | nil (value : Json) : Reported host base value [] [] value
  | cons {before between after : Json} {report : AppliedToolRepair}
      {reports : List AppliedToolRepair} {edit : Edit} {edits : List Edit}
      (justified : Justified host base before report edit)
      (applied : edit.apply before = some between)
      (rest : Reported host base between reports edits after) :
      Reported host base before (report :: reports) (edit :: edits) after

variable {report : AppliedToolRepair}

namespace Reported

variable {base : List String} {before between after : Json}
  {reports more : List AppliedToolRepair} {edits others : List Edit}

theorem append (first : Reported host base before reports edits between)
    (second : Reported host base between more others after) :
    Reported host base before (reports ++ more) (edits ++ others) after := by
  induction first with
  | nil => exact second
  | cons justified applied _ ih => exact .cons justified applied (ih second)

theorem single {edit : Edit} (justified : Justified host base before report edit)
    (applied : edit.apply before = some after) : Reported host base before [report] [edit] after :=
  .cons justified applied (.nil after)

theorem applyAll_eq (reported : Reported host base before reports edits after) :
    applyAll edits before = some after := by
  induction reported with
  | nil => rfl
  | cons _ applied _ ih =>
      rw [applyAll, List.foldlM_cons, applied]
      exact ih

end Reported

variable {step : Step} {segment : String}

theorem Justified.under {base : List String} {container inner : Json} {edit : Edit}
    (found : child container step = some inner) (spelled : Spells host segment step)
    (justified : Justified host (base ++ [segment]) inner report edit) :
    Justified host base container report (edit.under step) := by
  have below (location : Location) :
      valueAt container (step :: location) = valueAt inner location := by
    rw [valueAt_cons, found, Option.bind_some]
  cases justified with
  | renamed mode rest =>
      rw [List.append_assoc]
      exact @Justified.renamed _ _ _ _ _ (step :: _) _ _ mode (.cons spelled rest)
  | @set _ _ location _ _ rest present current made =>
      rw [List.append_assoc]
      exact .set (.cons spelled rest) (by rwa [below]) (by rwa [below]) made
  | @removed _ _ location last _ rest present current made =>
      rw [List.append_assoc]
      exact @Justified.removed _ _ _ _ _ (step :: location) _ _ (.cons spelled rest)
        (by rwa [List.cons_append, below]) (by rwa [List.cons_append, below]) made

variable {reports : List AppliedToolRepair} {edits : List Edit}

/-- Reports about a part of a value are reports about the value. -/
theorem Reported.under {base : List String} {container inner after : Json}
    (found : child container step = some inner) (spelled : Spells host segment step)
    (reported : Reported host (base ++ [segment]) inner reports edits after) :
    Reported host base container reports (edits.map (Edit.under step))
      (putChild container step after) := by
  induction reported generalizing container with
  | nil value =>
      rw [putChild_of_child found]
      exact .nil container
  | @cons before between after report reports edit edits justified applied _ ih =>
      have foundNext : child (putChild container step between) step = some between := by
        rw [child_putChild found, if_pos rfl]
      have rest := ih foundNext
      rw [putChild_putChild] at rest
      refine .cons (justified.under found spelled) ?_ rest
      rw [Edit.apply_under found, applied, Option.map_some]

theorem renameOf_eq_some {schemaProps fields : List (String × Json)} {key canonical : String}
    {name : ToolRepairModeName}
    (found : renameOf host schemaProps fields key = some (name, canonical)) :
    (name = .propertyCaseNormalize ∨ name = .propertyAliasNormalize) ∧
      fields.lookup canonical = none := by
  have absent {option : Option String} (free : freeKey fields option = some canonical) :
      fields.lookup canonical = none := by
    have unused := (Option.filter_eq_some_iff.mp free).2
    simp only [inRecord, Bool.and_eq_true, Bool.not_eq_true', Bool.or_eq_false_iff] at unused
    exact Option.isSome_eq_false_iff.mp unused.2.1 |> Option.isNone_iff_eq_none.mp
  unfold renameOf at found
  split at found
  · cases found
  · rcases Option.or_eq_some_iff.mp found with made | ⟨_, made⟩
    · obtain ⟨key, free, same⟩ := Option.map_eq_some_iff.mp made
      cases same
      exact ⟨.inl rfl, absent free⟩
    · obtain ⟨key, free, same⟩ := Option.map_eq_some_iff.mp made
      cases same
      exact ⟨.inr rfl, absent free⟩

theorem renameKey_reported (host : Host) (schemaProps : List (String × Json)) (path : List String)
    (state : List (String × Json) × List AppliedToolRepair) (key : String) :
    ∃ reports edits, (renameKey host schemaProps path state key).2 = state.2 ++ reports ∧
      Reported host path (.obj state.1) reports edits
        (.obj (renameKey host schemaProps path state key).1) := by
  unfold renameKey
  split
  next name canonical value renamed found =>
    obtain ⟨mode, absent⟩ := renameOf_eq_some renamed
    refine ⟨_, [{ location := [], change := .rename key canonical }], rfl, .single ?_ ?_⟩
    · exact @Justified.renamed _ _ _ _ [canonical] [] _ _ mode (.cons (.key canonical) .nil)
    · simp [Edit.apply, updateAt, Change.apply, absent, found]
  · exact ⟨[], [], (List.append_nil _).symm, .nil _⟩

theorem foldl_renameKey_reported (host : Host) (schemaProps : List (String × Json))
    (path keys : List String) (state : List (String × Json) × List AppliedToolRepair) :
    ∃ reports edits,
      (keys.foldl (renameKey host schemaProps path) state).2 = state.2 ++ reports ∧
        Reported host path (.obj state.1) reports edits
          (.obj (keys.foldl (renameKey host schemaProps path) state).1) := by
  induction keys generalizing state with
  | nil => exact ⟨[], [], (List.append_nil _).symm, .nil _⟩
  | cons key keys ih =>
      obtain ⟨first, firstEdits, firstSame, firstReported⟩ :=
        renameKey_reported host schemaProps path state key
      obtain ⟨rest, restEdits, restSame, restReported⟩ :=
        ih (renameKey host schemaProps path state key)
      refine ⟨first ++ rest, firstEdits ++ restEdits, ?_, firstReported.append restReported⟩
      rw [List.foldl_cons, restSame, firstSame, List.append_assoc]

theorem renameProperties_reported (host : Host) (value schema : Json) (path : List String) :
    ∃ edits, Reported host path value (renameProperties host value schema path).2 edits
      (renameProperties host value schema path).1 := by
  cases value with
  | obj fields =>
      obtain ⟨reports, edits, same, reported⟩ := foldl_renameKey_reported host
        (collectSchemaProperties schema) path (fields.map Prod.fst) (fields, [])
      refine ⟨edits, ?_⟩
      simp only [renameProperties, same, List.nil_append]
      exact reported
  | null | bool | num | str | arr => exact ⟨[], .nil _⟩

theorem spells_of_mem_visitsOf {value schema : Json} {visit : Visit}
    (mem : visit ∈ visitsOf value schema) : Spells host visit.segment visit.step := by
  unfold visitsOf at mem
  split at mem
  · split at mem
    · obtain ⟨index, _, rfl⟩ := List.mem_map.mp mem
      exact .counted index
    · cases mem
  · obtain ⟨property, _, rfl⟩ := List.mem_map.mp mem
    exact .key property.1
  · cases mem

theorem normalizePropertyCaseAtPath_eq (value schema : Json) (path : List String) :
    normalizePropertyCaseAtPath host value schema path =
      (visitsOf value schema).foldl (fun state visit =>
        match child state.1 visit.step with
        | none => state
        | some inner =>
            let normalized :=
              normalizePropertyCaseAtPath host inner visit.schema (path ++ [visit.segment])
            (putChild state.1 visit.step normalized.1, state.2 ++ normalized.2))
        (renameProperties host value schema path) := by
  rw [normalizePropertyCaseAtPath]
  exact List.foldl_attach (f := fun (state : Json × List AppliedToolRepair) (visit : Visit) =>
    match child state.1 visit.step with
    | none => state
    | some inner =>
        let normalized :=
          normalizePropertyCaseAtPath host inner visit.schema (path ++ [visit.segment])
        (putChild state.1 visit.step normalized.1, state.2 ++ normalized.2))

theorem normalizePropertyCaseAtPath_reported (host : Host) (value schema : Json)
    (path : List String) :
    ∃ edits, Reported host path value (normalizePropertyCaseAtPath host value schema path).2 edits
      (normalizePropertyCaseAtPath host value schema path).1 := by
  induction value, schema, path using normalizePropertyCaseAtPath.induct with
  | case1 value schema path ih =>
      rw [normalizePropertyCaseAtPath]
      have start := renameProperties_reported host value schema path
      revert start
      generalize renameProperties host value schema path = state
      induction (visitsOf value schema).attach generalizing state with
      | nil => exact id
      | cons visit visits ihVisits =>
          rintro ⟨edits, reported⟩
          rw [List.foldl_cons]
          apply ihVisits
          split
          · exact ⟨edits, reported⟩
          next inner found =>
            obtain ⟨innerEdits, innerReported⟩ := ih visit inner
            exact ⟨_, reported.append
              (innerReported.under found (spells_of_mem_visitsOf visit.2))⟩

theorem normalizePropertyCase_reported (host : Host) (args schema : Json) :
    ∃ edits, Reported host [] args (normalizePropertyCase host args schema).2 edits
      (normalizePropertyCase host args schema).1 := by
  unfold normalizePropertyCase
  split
  · exact normalizePropertyCaseAtPath_reported host args schema []
  · exact ⟨[], .nil args⟩

variable {value : Json}

theorem spells_of_stepOf (taken : stepOf host value segment = some step) :
    Spells host segment step := by
  cases value with
  | arr elements =>
      obtain ⟨place, named, rfl⟩ := Option.map_eq_some_iff.mp taken
      exact .index named
  | obj fields =>
      cases taken
      exact .key segment
  | null | bool | num | str => cases taken

/-- A path at which a value is found is resolved to the location it spells. -/
theorem resolveRepairPathTarget_of_found {value found : Json} {path : List String}
    (present : getValueAtPath host value path = some found) (below : path ≠ []) :
    ∃ front step, resolveRepairPathTarget host value path = some (front, step) ∧
      List.Forall₂ (Spells host) path (front ++ [step]) ∧
      valueAt value (front ++ [step]) = some found := by
  induction path generalizing value with
  | nil => exact absurd rfl below
  | cons segment rest ih =>
      obtain ⟨inner, reached, presentInner⟩ := Option.bind_eq_some_iff.mp present
      obtain ⟨step, taken, foundInner⟩ := Option.bind_eq_some_iff.mp reached
      have spelled := spells_of_stepOf taken
      cases rest with
      | nil =>
          cases presentInner
          refine ⟨[], step, ?_, .cons spelled .nil, ?_⟩
          · rw [resolveRepairPathTarget, taken, Option.map_some]
          · rw [List.nil_append, valueAt_cons, foundInner]
            rfl
      | cons next rest =>
          obtain ⟨front, last, resolved, spelledRest, presentRest⟩ := ih presentInner nofun
          refine ⟨step :: front, last, ?_, .cons spelled spelledRest, ?_⟩
          · rw [resolveRepairPathTarget, taken, Option.bind_some, foundInner, Option.bind_some,
              resolved, Option.map_some]
            nofun
          · rw [List.cons_append, valueAt_cons, foundInner]
            exact presentRest

theorem assign_of_child {container old : Json} (found : child container step = some old)
    (value : Json) : assign container step value = putChild container step value := by
  rcases container with _ | _ | _ | _ | elements | fields <;> rcases step with name | place <;>
    first
    | rfl
    | skip
  have inside : place < elements.length := (List.getElem?_eq_some_iff.mp found).choose
  simp [assign, putChild, inside]

section Resolved

variable {value old : Json} {path : List String} {front : Location} {step : Step}
  (resolved : resolveRepairPathTarget host value path = some (front, step))
  (present : valueAt value (front ++ [step]) = some old)

include resolved present

theorem setValueAtPath_of_resolved (new : Json) :
    setValueAtPath host value path new =
      Edit.apply { location := front ++ [step], change := .replace new } value := by
  rw [valueAt_append] at present
  obtain ⟨container, presentFront, presentLast⟩ := Option.bind_eq_some_iff.mp present
  obtain ⟨inner, found, _⟩ := Option.bind_eq_some_iff.mp presentLast
  rw [setValueAtPath, resolved, Option.bind_some, Edit.apply, updateAt_append]
  refine updateAt_congr presentFront ?_
  simp [updateAt, found, Change.apply, assign_of_child found]

theorem deleteValueAtPath_of_resolved :
    deleteValueAtPath host value path =
      Edit.apply { location := front, change := .drop step } value := by
  rw [valueAt_append] at present
  obtain ⟨container, presentFront, presentLast⟩ := Option.bind_eq_some_iff.mp present
  obtain ⟨inner, found, _⟩ := Option.bind_eq_some_iff.mp presentLast
  rw [deleteValueAtPath, resolved, Option.bind_some, Edit.apply]
  refine updateAt_congr presentFront ?_
  simp [Change.apply, found]

end Resolved

namespace RepairState

@[simp]
theorem value_report (state : RepairState) (repairs : List AppliedToolRepair) :
    (state.report repairs).value = state.value :=
  rfl

theorem value_write {state : RepairState} (inside : state.candidate < state.memory.length)
    (value : Json) : (state.write value).value = value := by
  simp [write, RepairState.value, inside]

theorem value_renew (state : RepairState) (value : Json) : (state.renew value).value = value := by
  simp [renew, RepairState.value]

end RepairState

/-- A state whose candidate was made of the arguments by the repairs it lists, in objects that the
memory did not have before. -/
structure Explained (host : Host) (memory : Memory) (args : Json) (state : RepairState) :
    Prop where
  fresh : memory.length ≤ state.candidate
  inside : state.candidate < state.memory.length
  kept : ∀ place < memory.length, state.memory[place]? = memory[place]?
  names : state.repairsApplied = state.repairs.map AppliedToolRepair.name
  reported : ∃ edits, Reported host [] args state.repairs edits state.value

namespace Explained

variable {memory : Memory} {args : Json} {state : RepairState}

theorem write (explained : Explained host memory args state)
    (made : Reported host [] state.value reports edits value) :
    Explained host memory args ((state.write value).report reports) where
  fresh := explained.fresh
  inside := by simpa [RepairState.write, RepairState.report] using explained.inside
  kept := by
    intro place early
    have apart : state.candidate ≠ place := by
      have fresh := explained.fresh
      omega
    simpa [RepairState.write, RepairState.report, List.getElem?_set_ne apart] using
      explained.kept place early
  names := by simp [RepairState.write, RepairState.report, explained.names]
  reported := by
    obtain ⟨before, reported⟩ := explained.reported
    rw [RepairState.value_report, RepairState.value_write explained.inside]
    exact ⟨_, reported.append made⟩

theorem renew (explained : Explained host memory args state)
    (made : Reported host [] state.value reports edits value) :
    Explained host memory args ((state.renew value).report reports) where
  fresh := (explained.fresh.trans_lt explained.inside).le
  inside := by simp [RepairState.renew, RepairState.report]
  kept := by
    intro place early
    have within : place < state.memory.length :=
      early.trans_le (explained.fresh.trans_lt explained.inside).le
    simpa [RepairState.renew, RepairState.report, List.getElem?_append_left within] using
      explained.kept place early
  names := by simp [RepairState.renew, RepairState.report, explained.names]
  reported := by
    obtain ⟨before, reported⟩ := explained.reported
    rw [RepairState.value_report, RepairState.value_renew]
    exact ⟨_, reported.append made⟩

variable {issue : ToolRepairIssue}

section

variable (explained : Explained host memory args state)
include explained

/-- A transform that applies is one reported edit of the value at the issue's path. -/
theorem applyTransform {next : RepairState} {mode : ToolRepairModeName}
    (current : issue.value = getValueAtPath host state.value issue.path)
    (applied : applyTransform host state issue mode = some next) :
    Explained host memory args
      (next.report [{ name := mode, path := formatRepairPath issue.path }]) := by
  unfold ToolRepair.applyTransform at applied
  split at applied
  · cases applied
  · cases applied
  next made =>
    obtain ⟨value, deleted, rfl⟩ := Option.map_eq_some_iff.mp applied
    have below : issue.path ≠ [] := by
      intro root
      rw [root] at deleted
      cases deleted
    cases present : issue.value with
    | none => cases (transformValue_missing host present mode).symm.trans made
    | some old =>
        obtain ⟨front, step, resolved, spelled, found⟩ :=
          resolveRepairPathTarget_of_found (current.symm.trans present) below
        rw [deleteValueAtPath_of_resolved resolved found] at deleted
        exact explained.write (.single (.removed spelled (by rw [found]; rfl)
          (present.trans found.symm) made) deleted)
  next value made =>
    cases present : issue.value with
    | none => cases (transformValue_missing host present mode).symm.trans made
    | some old =>
        split at applied
        next root =>
          split at applied
          · cases applied
            have whole : issue.value = valueAt state.value [] := by
              rw [current, root]
              rfl
            have spelled : List.Forall₂ (Spells host) issue.path [] := by
              rw [root]
              exact .nil
            exact explained.renew (.single (.set spelled rfl whole made) rfl)
          · cases applied
        next below =>
          obtain ⟨changed, written, rfl⟩ := Option.map_eq_some_iff.mp applied
          obtain ⟨front, step, resolved, spelled, found⟩ :=
            resolveRepairPathTarget_of_found (current.symm.trans present) below
          rw [setValueAtPath_of_resolved resolved found] at written
          exact explained.write (.single (.set spelled (by rw [found]; rfl)
            (present.trans found.symm) made) written)

theorem repairIssue {next : RepairState} (repaired : repairIssue host state issue = some next) :
    Explained host memory args next := by
  unfold ToolRepair.repairIssue at repaired
  split at repaired
  · cases repaired
  · obtain ⟨mode, _, made⟩ := List.exists_of_findSome?_eq_some repaired
    obtain ⟨between, applied, rfl⟩ := Option.map_eq_some_iff.mp made
    exact explained.applyTransform rfl applied

theorem repairIssues (issues : List ToolRepairIssue) :
    Explained host memory args (repairIssues host state issues).1 := by
  unfold ToolRepair.repairIssues
  generalize false = transformed
  induction issues generalizing state transformed with
  | nil => exact explained
  | cons issue issues ih =>
      rw [List.foldl_cons]
      cases repaired : ToolRepair.repairIssue host state issue with
      | none => exact ih explained transformed
      | some next => exact ih (explained.repairIssue repaired) true

theorem normalized (schema : Json) : Explained host memory args (normalized host schema state) := by
  obtain ⟨edits, reported⟩ := normalizePropertyCase_reported host state.value schema
  exact explained.write reported

end

end Explained

/-- What the passes return is the result of a state that the repairs explain and that passes. -/
theorem repairPasses_explained {validation : Validation} {toolName : String} {schema : Json}
    {memory after : Memory} {args : Json} {passes : Nat} {errors : List ValidationErrorLike}
    {state : RepairState} {result : ToolRepairResult}
    (explained : Explained host memory args state)
    (repaired : repairPasses host validation toolName schema passes errors state =
      (some result, after)) :
    ∃ final, Explained host memory args final ∧
      validation.checkWholeArgs final.value = true ∧ result = final.result ∧
      after = final.memory := by
  induction passes generalizing errors state with
  | zero => cases repaired
  | succ passes ih =>
      have named := explained.normalized schema
      unfold repairPasses at repaired
      dsimp only at repaired
      split at repaired
      next passed =>
        cases repaired
        exact ⟨_, named, passed.2, rfl, rfl⟩
      generalize analyzeToolArgumentErrors host toolName schema _ _ = issues at repaired
      have mended := named.repairIssues issues
      split at repaired
      next passed =>
        cases repaired
        exact ⟨_, mended, passed, rfl, rfl⟩
      split at repaired
      · cases repaired
      split at repaired
      · cases repaired
      · cases repaired
      · exact ih mended repaired

/-- What is returned passes; the caller's object is as before; and the result is made of the
arguments by reported edits, each of the value at its path, that leave every value that none of them
concerns where they move it, and from which every other value of the result stems. -/
theorem repair_changes_only_what_it_reports {host : Host} {validation : Validation}
    {toolName : String} {schema args : Json} {memory after : Memory} {place : Nat}
    {errors : List ValidationErrorLike} {result : ToolRepairResult}
    (given : memory[place]? = some args)
    (repaired : repairToolArguments host validation toolName schema memory place errors =
      (some result, after)) :
    validation.checkWholeArgs result.args = true ∧
      (∀ other < memory.length, after[other]? = memory[other]?) ∧
      result.repairsApplied = result.repairs.map AppliedToolRepair.name ∧
      ∃ edits, Reported host [] args result.repairs edits result.args ∧
        (∀ location value, valueAt args location = some value →
          (∃ moved, follow edits location = some moved ∧
            valueAt result.args moved = some value) ∨ Meets edits location) ∧
        (∀ location value, valueAt result.args location = some value →
          (∃ origin, follow edits origin = some location ∧
            valueAt args origin = some value) ∨ Stems edits location) := by
  have cloned : memory.getD place .null = args := by
    rw [List.getD_eq_getElem?_getD, given, Option.getD_some]
  have start : Explained host memory args {
      memory := (structuredClone memory place).1
      candidate := (structuredClone memory place).2
      repairsApplied := []
      repairs := [] } := {
    fresh := le_rfl
    inside := by simp [structuredClone]
    kept := fun other early => List.getElem?_append_left early
    names := rfl
    reported := ⟨[], by
      simp only [RepairState.value, structuredClone, cloned]
      rw [List.getD_eq_getElem?_getD, List.getElem?_concat_length, Option.getD_some]
      exact .nil args⟩ }
  obtain ⟨final, explained, passed, rfl, rfl⟩ := repairPasses_explained start repaired
  obtain ⟨edits, reported⟩ := explained.reported
  exact ⟨passed, explained.kept, explained.names, edits, reported,
    fun location value present => exists_moved reported.applyAll_eq present,
    fun location value present => exists_origin reported.applyAll_eq present⟩

/-- A host that reads the numbers of the example. -/
def countHost : Host where
  number text := if text = "5" then some 5 else none
  toLowerCase text := if text = "Count" then "count" else text
  parse _ := none

def countSchema : Json :=
  .obj [("properties", .obj [("count", .obj [("type", .str "number")])])]

def countValidation : Validation where
  checkWholeArgs args := match args.field "count" with
    | some (.num _) => true
    | _ => false
  validationErrors _ := some [{ instancePath := "/count", keyword := "type" }]

/-- A misspelt property whose number is quoted. -/
def quotedCount : Json := .obj [("Count", .str "5")]

theorem collectSchemaProperties_countSchema :
    collectSchemaProperties countSchema = [("count", .obj [("type", .str "number")])] := by
  rw [collectSchemaProperties]
  rfl

theorem normalizePropertyCase_quotedCount :
    normalizePropertyCase countHost quotedCount countSchema =
      (.obj [("count", .str "5")], [{ name := .propertyCaseNormalize, path := "count" }]) := by
  have renamed : renameProperties countHost quotedCount countSchema [] =
      (.obj [("count", .str "5")], [{ name := .propertyCaseNormalize, path := "count" }]) := by
    rw [quotedCount, renameProperties, collectSchemaProperties_countSchema]
    rfl
  have visited : visitsOf quotedCount countSchema =
      [{ step := .key "count", segment := "count", schema := .obj [("type", .str "number")] }] := by
    rw [quotedCount, visitsOf, collectSchemaProperties_countSchema]
    rfl
  have number : normalizePropertyCaseAtPath countHost (.str "5")
      (.obj [("type", .str "number")]) ["count"] = (.str "5", []) := by
    rw [normalizePropertyCaseAtPath]
    rfl
  have whole : normalizePropertyCaseAtPath countHost quotedCount countSchema [] =
      (.obj [("count", .str "5")], [{ name := .propertyCaseNormalize, path := "count" }]) := by
    rw [normalizePropertyCaseAtPath_eq, visited, renamed, List.foldl_cons, List.foldl_nil]
    simp only [child, List.lookup_cons, beq_self_eq_true, List.nil_append, number, putChild,
      putField, if_true, List.append_nil]
  exact whole

theorem quoted_count_is_repaired : ∃ result after,
    repairToolArguments countHost countValidation "count" countSchema [quotedCount] 0 [] =
        (some result, after) ∧
      countValidation.checkWholeArgs result.args = true ∧ after[0]? = some quotedCount := by
  have returned : (repairToolArguments countHost countValidation "count" countSchema
      [quotedCount] 0 []).1.isSome = true := by
    simp only [repairToolArguments, structuredClone, MAX_REPAIR_PASSES]
    rw [repairPasses]
    have value : RepairState.value {
        memory := [quotedCount] ++ [[quotedCount].getD 0 .null]
        candidate := [quotedCount].length
        repairsApplied := []
        repairs := [] } = quotedCount := rfl
    simp only [normalized, value, normalizePropertyCase_quotedCount]
    decide +kernel
  obtain ⟨result, found⟩ := Option.isSome_iff_exists.mp returned
  have repaired : repairToolArguments countHost countValidation "count" countSchema [quotedCount] 0
      [] = (some result, (repairToolArguments countHost countValidation "count" countSchema
        [quotedCount] 0 []).2) := Prod.ext found rfl
  have framed := repair_changes_only_what_it_reports rfl repaired
  exact ⟨result, _, repaired, framed.1, framed.2.1 0 (by decide)⟩

end PiAdaptative.ToolRepair
