import PiAdaptative.Foundations.Spans
import PiAdaptative.TextProtocol.Envelopes
import Std.Data.String.ToNat

/-!
# Calls of a finished text

The envelopes of a text that can be read as calls may overlap.  A largest set of them that does not
overlap becomes the calls, and everything else of the text stays prose.
-/

namespace PiAdaptative.TextProtocol

open Patterns
open Patterns.Pattern

/-- `ToolCall` as the protocol builds it, over a type of argument values. -/
structure ToolCall (ν : Type) where
  id : Text
  name : Text
  arguments : ν
  rawArguments : Option ν
  errorMessage : Option Text

/-- How argument values are built and read, and the readings of bodies that are not plain JSON. -/
structure ArgumentValues (ν : Type) where
  /-- `parseJsonValue`, with the diagnostic of a text that is not JSON. -/
  parseJsonValue : Text → ν ⊕ ν
  /-- `isRecord`. -/
  isRecord : ν → Bool
  property : ν → Text → Option ν
  asText : ν → Option Text
  ofText : Text → ν
  ofRecord : List (Text × ν) → ν
  /-- `parseArgKeyValueBody`. -/
  parseArgKeyValueBody : Text → Option (Text × ν)
  /-- `extractNameFromMalformedJson`. -/
  extractNameFromMalformedJson : Text → Option Text

variable {ν : Type} (values : ArgumentValues ν)

/-- The names that every object inherits. -/
def inheritedNames : List Text :=
  ["constructor", "__defineGetter__", "__defineSetter__", "hasOwnProperty", "__lookupGetter__",
    "__lookupSetter__", "isPrototypeOf", "propertyIsEnumerable", "toString", "valueOf",
    "__proto__", "toLocaleString"].map units

def coerceArguments (value : ν) : ν × Option ν :=
  if values.isRecord value then (value, none)
  else (value, some (values.ofRecord [(units "value", value)]))

def textToolErrorMessage (name : Text) (names : List Text) : Option Text :=
  if name ∈ names then none
  else some (units "Unknown tool \"" ++ name ++ units "\". Valid tools: " ++
    (units ", ").intercalate names ++ units ".")

def textToolCallId (idPrefix : Text) (index : Nat) : Text :=
  idPrefix ++ units "-" ++ units index.repr

def parsePiCallEnvelope (envelope : EnvelopeMatch) (names : List Text) (index : Nat)
    (idPrefix : Text) : Option (ToolCall ν) :=
  match envelope.name with
  | none | some [] => none
  | some name =>
      let parsed := values.parseJsonValue envelope.body
      let arguments := match parsed with
        | .inl value => coerceArguments values value
        | .inr diagnostic => (values.ofText (trimText envelope.body), some (values.ofRecord
            [(units "text", values.ofText (trimText envelope.body)),
              (units "parseDiagnostic", diagnostic)]))
      some {
        id := textToolCallId idPrefix index
        name := name
        arguments := arguments.1
        rawArguments := arguments.2
        errorMessage := textToolErrorMessage name names }

/-- The pattern of a text that opens or closes another function. -/
def anotherFunction : Pattern UInt16 :=
  sequence [fixed "<", optional (fixed "/"), fixedInAnyCase FUNCTION_TAG, boundary isWordUnit]

def paramPattern : Pattern UInt16 :=
  sequence [fixed "<param", nameAttribute, group 3 (many isAnyUnit false), fixed "</param",
    many isSpace true, fixed ">"]

/-- The parameters read so far and the end of the last, after one more. -/
def withParam (body : Text) (params : List (Text × Text)) (cursor : Nat) (param : Match UInt16) :
    Option (List (Text × Text) × Nat) :=
  let name := unescapeAttribute (param.groups 2)
  if trimText (slice body cursor param.index) ≠ [] then none
  else if name = [] ∨ name ∈ inheritedNames ∨ name ∈ params.map (·.1) then none
  else some (params ++ [(name, unescapeXmlText (trimText (param.groups 3)))], param.finish)

def parseFunctionXmlEnvelope (envelope : EnvelopeMatch) (names : List Text) (index : Nat)
    (idPrefix : Text) : Option (ToolCall ν) :=
  match envelope.name with
  | none | some [] => none
  | some name =>
      if (exec anotherFunction envelope.body 0).isSome then none
      else
        ((matchAll paramPattern envelope.body).foldlM
          (fun read param => withParam envelope.body read.1 read.2 param) ([], 0)).bind
          fun (params, cursor) =>
            if trimText (envelope.body.drop cursor) ≠ [] ∨ params = [] then none
            else some {
              id := textToolCallId idPrefix index
              name := name
              arguments := values.ofRecord (params.map fun param => (param.1, values.ofText param.2))
              rawArguments := none
              errorMessage := textToolErrorMessage name names }

/-- The call of a body that is no record of JSON. -/
def parseOtherBody (envelope : EnvelopeMatch) (diagnostic : Option ν) (names : List Text)
    (index : Nat) (idPrefix : Text) : Option (ToolCall ν) :=
  let keyed := match envelope.kind with
    | .tool_call => values.parseArgKeyValueBody envelope.body
    | _ => none
  match keyed with
  | some (name, arguments) => some {
      id := textToolCallId idPrefix index
      name := name
      arguments := arguments
      rawArguments := none
      errorMessage := textToolErrorMessage name names }
  | none =>
      (values.extractNameFromMalformedJson envelope.body).bind fun name =>
        if name = [] then none
        else some {
          id := textToolCallId idPrefix index
          name := name
          arguments := values.ofText (trimText envelope.body)
          rawArguments := some (values.ofRecord
            ((units "text", values.ofText (trimText envelope.body)) ::
              diagnostic.toList.map fun found => (units "parseDiagnostic", found)))
          errorMessage := textToolErrorMessage name names }

/-- The call of a body that is a record of JSON. -/
def parseRecordBody (parsed : ν) (names : List Text) (index : Nat) (idPrefix : Text) :
    Option (ToolCall ν) :=
  let tool := values.property parsed (units "tool")
  let wrappedTool := tool.filter values.isRecord
  let toolText := tool.filter fun tool => (values.asText tool).isSome
  let nameValue := ((values.property parsed (units "name")).or toolText).or
    (wrappedTool.bind fun tool => values.property tool (units "name"))
  let argsValue := (((values.property parsed (units "arguments")).or
    (values.property parsed (units "args"))).or
      (wrappedTool.bind fun tool => values.property tool (units "arguments"))).or
        (wrappedTool.bind fun tool => values.property tool (units "args"))
  (nameValue.bind values.asText).map fun name =>
    let arguments := coerceArguments values (argsValue.getD (values.ofRecord []))
    { id := textToolCallId idPrefix index
      name := name
      arguments := arguments.1
      rawArguments := arguments.2
      errorMessage := textToolErrorMessage name names }

def parseEnvelope (envelope : EnvelopeMatch) (names : List Text) (index : Nat)
    (idPrefix : Text) : Option (ToolCall ν) :=
  match envelope.kind with
  | .pi_call => parsePiCallEnvelope values envelope names index idPrefix
  | .function_xml => parseFunctionXmlEnvelope values envelope names index idPrefix
  | _ =>
      match values.parseJsonValue envelope.body with
      | .inr diagnostic => parseOtherBody values envelope (some diagnostic) names index idPrefix
      | .inl parsed =>
          if values.isRecord parsed then parseRecordBody values parsed names index idPrefix
          else parseOtherBody values envelope none names index idPrefix

/-- `ParsedMatch`, whose `match` is its envelope. -/
structure ParsedMatch (ν : Type) where
  envelope : EnvelopeMatch
  call : ToolCall ν

def byEndThenStart (first second : ParsedMatch ν) : Bool :=
  first.envelope.finish < second.envelope.finish ||
    (first.envelope.finish == second.envelope.finish &&
      first.envelope.start ≤ second.envelope.start)

/-- The start of an entry's envelope. -/
def ParsedMatch.start (entry : ParsedMatch ν) : Int := entry.envelope.start

/-- The end of an entry's envelope. -/
def ParsedMatch.finish (entry : ParsedMatch ν) : Int := entry.envelope.finish

/-- The entries that `selectNonOverlappingParsedMatches` keeps, in the order of their ends. -/
def kept (entries : List (ParsedMatch ν)) : List (ParsedMatch ν) :=
  Spans.greedy ParsedMatch.start ParsedMatch.finish (-1) (entries.mergeSort byEndThenStart)

def selectNonOverlappingParsedMatches (entries : List (ParsedMatch ν)) : List (ParsedMatch ν) :=
  (kept entries).mergeSort fun first second => first.envelope.start ≤ second.envelope.start

/-- The pieces of a text before, between and after some spans, from a cursor on. -/
def remainingPieces (text : Text) (cursor : Nat) : List EnvelopeMatch → List Text
  | [] => [text.drop cursor]
  | envelope :: rest =>
      slice text cursor envelope.start :: remainingPieces text envelope.finish rest

def remainingText (text : Text) (envelopes : List EnvelopeMatch) : Text :=
  (remainingPieces text 0 envelopes).flatten

inductive TextToolProtocolParseFailure where
  | overlap
  | unrecognized
  deriving DecidableEq

structure ParsedTextToolCalls (ν : Type) where
  calls : List (ToolCall ν)
  text : Text
  attempted : Bool
  failure : Option TextToolProtocolParseFailure

structure TextToolProtocolParseOptions where
  callIdPrefix : Option Text
  callIndexOffset : Option Nat

/-- `hasOverlap`, with the end of the envelope before. -/
def hasOverlap (previousEnd : Int) : List EnvelopeMatch → Bool
  | [] => false
  | envelope :: rest =>
      if (envelope.start : Int) < previousEnd then true else hasOverlap envelope.finish rest

/-- The prefix of the ids of a text's calls. -/
def idPrefixOf (options : TextToolProtocolParseOptions) : Text :=
  match options.callIdPrefix.map trimText with
  | none | some [] => units "text-tool"
  | some given => given

/-- The envelopes of a text that can be read, each with its call. -/
def parsedMatches (text : Text) (knownTools : List Text) (options : TextToolProtocolParseOptions) :
    List (ParsedMatch ν) :=
  (findToolEnvelopes text).zipIdx.filterMap fun (envelope, index) =>
    (parseEnvelope values envelope knownTools.eraseDups (options.callIndexOffset.getD 0 + index + 1)
      (idPrefixOf options)).map fun call => { envelope, call }

/-- The envelopes of a text that become its calls. -/
def selectedMatches (text : Text) (knownTools : List Text)
    (options : TextToolProtocolParseOptions) : List (ParsedMatch ν) :=
  if knownTools = [] then [] else selectNonOverlappingParsedMatches
    (parsedMatches values text knownTools options)

/-- `parseTextToolCalls`, with the names of the known tools. -/
def parseTextToolCalls (text : Text) (knownTools : List Text)
    (options : TextToolProtocolParseOptions) : ParsedTextToolCalls ν :=
  if knownTools = [] then { calls := [], text, attempted := false, failure := none }
  else if findToolEnvelopes text = [] then
    { calls := [], text, attempted := false, failure := none }
  else
    let selected := selectNonOverlappingParsedMatches (parsedMatches values text knownTools options)
    if selected = [] then {
      calls := []
      text := text
      attempted := true
      failure := some (if hasOverlap (-1) (findToolEnvelopes text) then .overlap
        else .unrecognized) }
    else {
      calls := selected.map (·.call)
      text := trimText (remainingText text (selected.map (·.envelope)))
      attempted := true
      failure := none }

/-- The spans of two entries do not overlap. -/
def ParsedMatch.Disjoint (first second : ParsedMatch ν) : Prop :=
  first.envelope.finish ≤ second.envelope.start ∨ second.envelope.finish ≤ first.envelope.start

/-- A list of spans and pieces of text, read in order. -/
def interleaved : List Text → List Text → Text
  | piece :: pieces, span :: spans => piece ++ span ++ interleaved pieces spans
  | pieces, [] => pieces.flatten
  | [], spans => spans.flatten

theorem kept_subperm (entries : List (ParsedMatch ν)) : (kept entries).Subperm entries :=
  (Spans.greedy_sublist _ _).subperm.trans (List.mergeSort_perm _ _).subperm

variable {entries : List (ParsedMatch ν)}

theorem kept_pairwise (proper : ∀ entry ∈ entries, entry.envelope.start < entry.envelope.finish) :
    (kept entries).Pairwise fun first second =>
      first.envelope.finish ≤ second.envelope.start := by
  have before : (kept entries).Pairwise (Spans.Before ParsedMatch.start ParsedMatch.finish) :=
    Spans.greedy_pairwise fun entry mem =>
      Int.ofNat_lt.mpr (proper entry ((List.mergeSort_perm _ _).mem_iff.mp mem))
  exact before.imp fun before => Int.ofNat_le.mp before

theorem selectNonOverlappingParsedMatches_eq_kept
    (proper : ∀ entry ∈ entries, entry.envelope.start < entry.envelope.finish) :
    selectNonOverlappingParsedMatches entries = kept entries := by
  refine List.mergeSort_of_pairwise ((kept_pairwise proper).imp_of_mem ?_)
  intro first second mem _ before
  have nonempty := proper first ((kept_subperm entries).subset mem)
  exact decide_eq_true (by omega)

theorem mergeSort_byEnd (entries : List (ParsedMatch ν)) :
    (entries.mergeSort byEndThenStart).Pairwise fun first second =>
      first.finish ≤ second.finish := by
  have sorted : (entries.mergeSort byEndThenStart).Pairwise fun first second =>
      byEndThenStart first second = true := List.pairwise_mergeSort
    (by simp only [byEndThenStart, Bool.or_eq_true, Bool.and_eq_true, decide_eq_true_eq,
          beq_iff_eq]
        omega)
    (by simp only [byEndThenStart, Bool.or_eq_true, Bool.and_eq_true, decide_eq_true_eq,
          beq_iff_eq]
        omega) entries
  refine sorted.imp fun ordered => Int.ofNat_le.mpr ?_
  simp only [byEndThenStart, Bool.or_eq_true, Bool.and_eq_true, decide_eq_true_eq,
    beq_iff_eq] at ordered
  omega

theorem length_le_length_kept {entries selection : List (ParsedMatch ν)}
    (proper : ∀ entry ∈ entries, entry.envelope.start < entry.envelope.finish)
    (among : selection.Subperm entries) (disjoint : selection.Pairwise ParsedMatch.Disjoint) :
    selection.length ≤ (kept entries).length := by
  have sorted := (List.mergeSort_perm entries byEndThenStart)
  refine Spans.length_le_length_greedy_of_subperm
    (fun entry mem => Int.ofNat_lt.mpr (proper entry (sorted.mem_iff.mp mem))) ?_
    (mergeSort_byEnd entries) (among.trans sorted.symm.subperm) (disjoint.imp ?_)
  · intro entry _
    simp only [ParsedMatch.start]
    omega
  · exact fun apart => apart.imp Int.ofNat_le.mpr Int.ofNat_le.mpr

theorem slice_append_drop {text : Text} {start finish : Nat} (ordered : start ≤ finish) :
    slice text start finish ++ text.drop finish = text.drop start := by
  have split : text.drop finish = (text.drop start).drop (finish - start) := by
    rw [List.drop_drop, Nat.add_sub_cancel' ordered]
  rw [split, slice, List.take_append_drop]

theorem interleaved_remainingPieces {text : Text} {cursor : Nat} {envelopes : List EnvelopeMatch}
    (proper : ∀ envelope ∈ envelopes, envelope.start < envelope.finish)
    (begins : ∀ envelope ∈ envelopes, cursor ≤ envelope.start)
    (ordered : envelopes.Pairwise fun first second => first.finish ≤ second.start) :
    interleaved (remainingPieces text cursor envelopes)
      (envelopes.map fun envelope => slice text envelope.start envelope.finish) =
        text.drop cursor := by
  induction envelopes generalizing cursor with
  | nil => simp [remainingPieces, interleaved]
  | cons envelope rest ih =>
      obtain ⟨after, orderedRest⟩ := List.pairwise_cons.mp ordered
      have nonempty := proper envelope List.mem_cons_self
      have remaining := ih (fun entry mem => proper entry (List.mem_cons_of_mem envelope mem))
        after orderedRest
      simp only [remainingPieces, List.map_cons, interleaved, remaining]
      rw [List.append_assoc, slice_append_drop nonempty.le,
        slice_append_drop (begins envelope List.mem_cons_self)]

theorem ofNat_toUInt16_of_isDigit {char : Char} (digit : char.isDigit = true) :
    Char.ofNat char.toNat.toUInt16.toNat = char := by
  have small : char.toNat < 2 ^ 16 := by
    have most : char.val.toNat ≤ 57 := UInt32.le_iff_toNat_le.mp (of_decide_eq_true
      (Bool.and_eq_true_iff.mp digit).2)
    exact Nat.lt_of_le_of_lt most (by decide)
  have same : char.toNat.toUInt16.toNat = char.toNat := by
    exact UInt16.toNat_ofNat_of_lt small
  rw [same, Char.ofNat_toNat]

theorem map_ofNat_units_repr (number : Nat) :
    (units number.repr).map (fun unit => Char.ofNat unit.toNat) = number.repr.toList := by
  rw [units, List.map_map]
  refine (List.map_congr_left fun char mem => ?_).trans (List.map_id _)
  rw [Nat.toList_repr] at mem
  exact ofNat_toUInt16_of_isDigit (Nat.isDigit_of_mem_toDigits (by decide) (by decide) mem)

theorem units_repr_injective {first second : Nat}
    (same : units first.repr = units second.repr) : first = second := by
  have texts : first.repr.toList = second.repr.toList := by
    rw [← map_ofNat_units_repr, ← map_ofNat_units_repr, same]
  exact Nat.repr_injective (String.toList_injective texts)

variable {idPrefix : Text}

theorem textToolCallId_injective {first second : Nat}
    (same : textToolCallId idPrefix first = textToolCallId idPrefix second) : first = second := by
  exact units_repr_injective (List.append_cancel_left same)

variable {call : ToolCall ν} {envelope : EnvelopeMatch} {names : List Text} {index : Nat}

theorem parsePiCallEnvelope_id
    (parsed : parsePiCallEnvelope values envelope names index idPrefix = some call) :
    call.id = textToolCallId idPrefix index := by
  simp only [parsePiCallEnvelope] at parsed
  split at parsed
  · cases parsed
  · cases parsed
  · cases parsed
    rfl

theorem parseFunctionXmlEnvelope_id
    (parsed : parseFunctionXmlEnvelope values envelope names index idPrefix = some call) :
    call.id = textToolCallId idPrefix index := by
  simp only [parseFunctionXmlEnvelope] at parsed
  split at parsed
  · cases parsed
  · cases parsed
  · split at parsed
    · cases parsed
    · obtain ⟨⟨params, cursor⟩, _, built⟩ := Option.bind_eq_some_iff.mp parsed
      split at built
      · cases built
      · cases built
        rfl

theorem parseOtherBody_id {diagnostic : Option ν}
    (parsed : parseOtherBody values envelope diagnostic names index idPrefix = some call) :
    call.id = textToolCallId idPrefix index := by
  simp only [parseOtherBody] at parsed
  split at parsed
  · cases parsed
    rfl
  · obtain ⟨name, _, built⟩ := Option.bind_eq_some_iff.mp parsed
    split at built
    · cases built
    · cases built
      rfl

theorem parseRecordBody_id {parsed : ν}
    (built : parseRecordBody values parsed names index idPrefix = some call) :
    call.id = textToolCallId idPrefix index := by
  obtain ⟨name, _, rfl⟩ := Option.map_eq_some_iff.mp built
  rfl

theorem parseEnvelope_id (parsed : parseEnvelope values envelope names index idPrefix = some call) :
    call.id = textToolCallId idPrefix index := by
  simp only [parseEnvelope] at parsed
  split at parsed
  · exact parsePiCallEnvelope_id values parsed
  · exact parseFunctionXmlEnvelope_id values parsed
  · split at parsed
    · exact parseOtherBody_id values parsed
    · split at parsed
      · exact parseRecordBody_id values parsed
      · exact parseOtherBody_id values parsed

variable {values}
variable {text : Text} {knownTools : List Text} {options : TextToolProtocolParseOptions}

theorem mem_parsedMatches {entry : ParsedMatch ν}
    (mem : entry ∈ parsedMatches values text knownTools options) :
    entry.envelope.Within text := by
  obtain ⟨⟨envelope, index⟩, memFound, parsed⟩ := List.mem_filterMap.mp mem
  obtain ⟨call, _, rfl⟩ := Option.map_eq_some_iff.mp parsed
  exact findToolEnvelopes_within (List.fst_mem_of_mem_zipIdx memFound)

theorem parsedMatches_ids_nodup :
    (parsedMatches values text knownTools options).Pairwise fun first second =>
      first.call.id ≠ second.call.id := by
  have numbers : (findToolEnvelopes text).zipIdx.Pairwise fun first second =>
      first.2 ≠ second.2 := by
    refine List.pairwise_map.mp ?_
    rw [List.zipIdx_map_snd]
    exact List.nodup_range'
  refine List.pairwise_filterMap.mpr (numbers.imp ?_)
  rintro ⟨envelope, index⟩ ⟨otherEnvelope, otherIndex⟩ distinct first parsedFirst second
    parsedSecond same
  obtain ⟨call, parsed, rfl⟩ := Option.map_eq_some_iff.mp parsedFirst
  obtain ⟨other, parsedOther, rfl⟩ := Option.map_eq_some_iff.mp parsedSecond
  have ids := textToolCallId_injective
    ((parseEnvelope_id values parsed).symm.trans (same.trans (parseEnvelope_id values parsedOther)))
  exact distinct (by simp only; omega)

theorem selectedMatches_eq_kept :
    selectedMatches values text knownTools options =
      if knownTools = [] then [] else kept (parsedMatches values text knownTools options) := by
  simp only [selectedMatches]
  split
  · rfl
  · exact selectNonOverlappingParsedMatches_eq_kept fun entry mem => (mem_parsedMatches mem).1

theorem selectedMatches_subperm :
    (selectedMatches values text knownTools options).Subperm
      (parsedMatches values text knownTools options) := by
  rw [selectedMatches_eq_kept]
  split
  · exact List.nil_subperm
  · exact kept_subperm _

theorem selectedMatches_pairwise :
    (selectedMatches values text knownTools options).Pairwise fun first second =>
      first.envelope.finish ≤ second.envelope.start := by
  rw [selectedMatches_eq_kept]
  split
  · exact List.Pairwise.nil
  · exact kept_pairwise fun entry mem => (mem_parsedMatches mem).1

theorem selectedMatches_ids_nodup :
    ((selectedMatches values text knownTools options).map fun entry => entry.call.id).Nodup := by
  obtain ⟨chosen, same, among⟩ : (selectedMatches values text knownTools options).Subperm
      (parsedMatches values text knownTools options) := selectedMatches_subperm
  have distinct : (chosen.map fun entry => entry.call.id).Nodup :=
    List.pairwise_map.mpr (parsedMatches_ids_nodup.sublist among)
  exact (same.map _).nodup_iff.mp distinct

@[simp]
theorem selectNonOverlappingParsedMatches_nil :
    selectNonOverlappingParsedMatches ([] : List (ParsedMatch ν)) = [] := by
  simp [selectNonOverlappingParsedMatches, kept, Spans.greedy]

theorem parsedMatches_eq_nil (absent : findToolEnvelopes text = []) :
    parsedMatches values text knownTools options = [] := by
  simp [parsedMatches, absent]

theorem parseTextToolCalls_calls :
    (parseTextToolCalls values text knownTools options).calls =
      (selectedMatches values text knownTools options).map (·.call) := by
  simp only [parseTextToolCalls, selectedMatches]
  split
  · rfl
  split
  next absent => simp [parsedMatches_eq_nil absent]
  split
  next unselected => rw [unselected]; rfl
  · rfl

theorem parseTextToolCalls_text :
    (parseTextToolCalls values text knownTools options).text =
      if selectedMatches values text knownTools options = [] then text
      else trimText (remainingText text
        ((selectedMatches values text knownTools options).map (·.envelope))) := by
  simp only [parseTextToolCalls, selectedMatches]
  split
  · rfl
  split
  next absent => simp [parsedMatches_eq_nil absent]
  split <;> rfl

/-- Selection is optimal, and a text is exactly its prose and the envelopes of its calls. -/
theorem envelope_selection_is_optimal_and_exact {entries : List (ParsedMatch ν)}
    (proper : ∀ entry ∈ entries, entry.envelope.start < entry.envelope.finish)
    (values : ArgumentValues ν) (text : Text) (knownTools : List Text)
    (options : TextToolProtocolParseOptions) :
    ((selectNonOverlappingParsedMatches entries).Subperm entries ∧
      (selectNonOverlappingParsedMatches entries).Pairwise ParsedMatch.Disjoint ∧
      (selectNonOverlappingParsedMatches entries).Pairwise (fun first second =>
        first.envelope.start < second.envelope.start) ∧
      ∀ selection : List (ParsedMatch ν), selection.Subperm entries →
        selection.Pairwise ParsedMatch.Disjoint →
          selection.length ≤ (selectNonOverlappingParsedMatches entries).length) ∧
    (let selected := selectedMatches values text knownTools options
      let envelopes := selected.map (·.envelope)
      interleaved (remainingPieces text 0 envelopes)
          (envelopes.map fun envelope => slice text envelope.start envelope.finish) = text ∧
        (parseTextToolCalls values text knownTools options).calls = selected.map (·.call) ∧
        (parseTextToolCalls values text knownTools options).text =
          (if selected = [] then text else trimText (remainingText text envelopes)) ∧
        ((parseTextToolCalls values text knownTools options).calls.map (·.id)).Nodup) := by
  refine ⟨?_, ?_, parseTextToolCalls_calls, parseTextToolCalls_text, ?_⟩
  · rw [selectNonOverlappingParsedMatches_eq_kept proper]
    have ordered := kept_pairwise proper
    refine ⟨kept_subperm entries, ordered.imp Or.inl, ordered.imp_of_mem ?_,
      fun selection among disjoint => length_le_length_kept proper among disjoint⟩
    intro first second mem _ before
    have nonempty := proper first ((kept_subperm entries).subset mem)
    omega
  · have within (envelope : EnvelopeMatch) (mem : envelope ∈
        (selectedMatches values text knownTools options).map (·.envelope)) :
        envelope.Within text := by
      obtain ⟨entry, memEntry, rfl⟩ := List.mem_map.mp mem
      exact mem_parsedMatches (selectedMatches_subperm.subset memEntry)
    exact interleaved_remainingPieces (fun envelope mem => (within envelope mem).1)
      (fun envelope _ => Nat.zero_le envelope.start)
      (List.pairwise_map.mpr selectedMatches_pairwise)
  · rw [parseTextToolCalls_calls, List.map_map]
    exact selectedMatches_ids_nodup

/-- A call in a fence, with the two envelopes found for it. -/
def nestedMatches : List (ParsedMatch Unit) :=
  let call : ToolCall Unit := {
    id := units "text-tool-1"
    name := units "read"
    arguments := ()
    rawArguments := none
    errorMessage := none }
  [{ envelope := { kind := .fenced_json, start := 0, finish := 60, name := none, body := [] }
     call },
   { envelope := { kind := .tool_call, start := 8, finish := 50, name := none, body := [] }
     call := { call with id := units "text-tool-2" } }]

def unitValues : ArgumentValues Unit where
  parseJsonValue _ := .inl ()
  isRecord _ := true
  property _ _ := none
  asText _ := none
  ofText _ := ()
  ofRecord _ := ()
  parseArgKeyValueBody _ := none
  extractNameFromMalformedJson _ := none

theorem nested_selection_is_optimal :
    (selectNonOverlappingParsedMatches nestedMatches).Pairwise ParsedMatch.Disjoint ∧
      (nestedMatches.take 1).length ≤ (selectNonOverlappingParsedMatches nestedMatches).length := by
  have proper : ∀ entry ∈ nestedMatches, entry.envelope.start < entry.envelope.finish := by
    decide +kernel
  have selected := (envelope_selection_is_optimal_and_exact proper unitValues [] []
    { callIdPrefix := none, callIndexOffset := none }).1
  refine ⟨selected.2.1, selected.2.2.2 (nestedMatches.take 1) ?_ (List.pairwise_singleton _ _)⟩
  exact (List.take_sublist 1 nestedMatches).subperm

end PiAdaptative.TextProtocol
