import Mathlib.Data.List.Sort
import PiAdaptative.Foundations.Bisection
import PiAdaptative.Foundations.Json
import PiAdaptative.Foundations.Outcome
import PiAdaptative.SourceEdits.LineEndings

/-!
# Planned edits

Each edit of a list is located in the LF-normalized content: exactly, then with typographic
characters and trailing blanks normalized, then without regard to the indent of its lines.  A plan
holds the spans found, in the order of the content.
-/

namespace PiAdaptative.SourceEdits

open TextProtocol (Text isSpace)
open Delimiters (indexOf)

structure EditRange where
  startLine : Rat
  endLine : Rat
  deriving DecidableEq

structure Edit where
  oldText : Text
  newText : Text
  range : Option EditRange

structure PlannedEdit where
  editIndex : Nat
  matchIndex : Nat
  matchLength : Nat
  newText : Text
  expectedText : Text
  deriving DecidableEq

structure EditMatchPlan where
  baseLength : Nat
  editCount : Nat
  edits : List PlannedEdit
  deriving DecidableEq

/-- What the planner takes from its surroundings. -/
structure EditHost where
  /-- `text.normalize("NFKC")`. -/
  nfkc : Text → Text
  /-- `formatEditFailureContext`. -/
  formatEditFailureContext : Text → Text → Option EditRange → String

/-- A host whose compatibility normalization changes nothing. -/
def plainHost : EditHost where
  nfkc := id
  formatEditFailureContext := fun _ _ _ => ""

/-- `text.slice(start, finish)`. -/
def slice {α : Type} (text : List α) (start finish : Nat) : List α := (text.take finish).drop start

/-- `content.indexOf(oldText, start)`. -/
def indexFrom (content oldText : Text) (start : Nat) : Option Nat :=
  (indexOf oldText (content.drop start)).map (· + start)

def isIndent (unit : UInt16) : Bool := unit == 32 || unit == 9

/-- The blanks of `[^\S\n]`. -/
def isBlank (unit : UInt16) : Bool := isSpace unit && unit != 10

/-- The first unit of a surrogate pair. -/
def isHighSurrogate (unit : UInt16) : Bool := 0xD800 ≤ unit && unit ≤ 0xDBFF

/-- The second unit of a surrogate pair. -/
def isLowSurrogate (unit : UInt16) : Bool := 0xDC00 ≤ unit && unit ≤ 0xDFFF

/-- The code points of a text, each as its units. -/
def codePoints : Text → List Text
  | [] => []
  | [unit] => [[unit]]
  | unit :: next :: rest =>
      if isHighSurrogate unit && isLowSurrogate next then [unit, next] :: codePoints rest
      else [unit] :: codePoints (next :: rest)

/-- `text.isWellFormed()`. -/
def isWellFormed (text : Text) : Bool :=
  (codePoints text).all fun point =>
    point.length == 2 || !point.any fun unit => isHighSurrogate unit || isLowSurrogate unit

/-- The replacements of quotes, dashes and spaces. -/
def plainUnit (unit : UInt16) : UInt16 :=
  if [0x2018, 0x2019, 0x201A, 0x201B].contains unit then 39
  else if [0x201C, 0x201D, 0x201E, 0x201F].contains unit then 34
  else if [0x2010, 0x2011, 0x2012, 0x2013, 0x2014, 0x2015, 0x2212].contains unit then 45
  else if [0xA0, 0x202F, 0x205F, 0x3000].contains unit || (0x2002 ≤ unit && unit ≤ 0x200A) then 32
  else unit

def normalizeFuzzyCharacters (host : EditHost) (text : Text) : Text :=
  (host.nfkc text).map plainUnit

/-- `text.replace(/[^\S\n]+(?=\n|$)/gu, "")`. -/
def stripTrailing : Text → Text
  | [] => []
  | unit :: rest =>
      let stripped := stripTrailing rest
      if isBlank unit && (stripped.headD 10 == 10) then stripped else unit :: stripped

def normalizeForFuzzyMatch (host : EditHost) (text : Text) : Text :=
  stripTrailing (normalizeFuzzyCharacters host text)

/-- The loop of `getLineStarts`. -/
def lineStartsFrom (index : Nat) : Text → List Nat
  | [] => []
  | unit :: rest =>
      if unit = 10 then (index + 1) :: lineStartsFrom (index + 1) rest
      else lineStartsFrom (index + 1) rest

def getLineStarts (content : Text) : List Nat := 0 :: lineStartsFrom 0 content

structure LineColumn where
  lineIndex : Nat
  column : Nat
  deriving DecidableEq

/-- `lineColumnAt`, with the upper bound of the search one higher. -/
def lineColumnAt (lineStarts : List Nat) (index : Nat) : LineColumn :=
  let after := Bisection.bisect (fun low high => (low + high - 1) / 2)
    (fun line => index < lineStarts.getD line 0) lineStarts.length 0 lineStarts.length
  { lineIndex := after - 1
    column := index - lineStarts.getD (after - 1) 0 }

def lineTextAt (content : Text) (lineStarts : List Nat) (lineIndex : Nat) : Text :=
  let start := lineStarts.getD lineIndex content.length
  let nextStart := lineStarts.getD (lineIndex + 1) content.length
  let finish :=
    if start < nextStart && content[nextStart - 1]? == some 10 then nextStart - 1 else nextStart
  slice content start finish

/-- The boundaries of the code points of a line. -/
def boundaries (line : Text) : List Nat :=
  (codePoints line).scanl (fun index point => index + point.length) 0

def normalizedColumnToOriginalColumn (host : EditHost) (line : Text) (normalizedColumn : Nat) :
    Nat :=
  if normalizedColumn = 0 then 0
  else
    let bounds := boundaries line
    let low := Bisection.bisect (fun low high => (low + high) / 2)
      (fun middle => normalizedColumn ≤
        (normalizeForFuzzyMatch host (line.take (bounds.getD middle 0))).length)
      bounds.length 1 (bounds.length - 1)
    bounds.getD low line.length

/-- `mapFuzzySpanToOriginal`, as the start and the end of the span. -/
def mapFuzzySpanToOriginal (host : EditHost) (originalContent : Text)
    (originalLineStarts fuzzyLineStarts : List Nat) (normalizedIndex normalizedLength : Nat) :
    Nat × Nat :=
  let start := lineColumnAt fuzzyLineStarts normalizedIndex
  let finish := lineColumnAt fuzzyLineStarts (normalizedIndex + normalizedLength)
  let startLine := lineTextAt originalContent originalLineStarts start.lineIndex
  let endLine := lineTextAt originalContent originalLineStarts finish.lineIndex
  (originalLineStarts.getD start.lineIndex originalContent.length +
      normalizedColumnToOriginalColumn host startLine start.column,
    originalLineStarts.getD finish.lineIndex originalContent.length +
      normalizedColumnToOriginalColumn host endLine finish.column)

/-- The loop of `collapseLeadingIndent`: the units kept with their places. -/
def collapseFrom : Bool → Nat → Text → List (UInt16 × Nat)
  | _, _, [] => []
  | leading, index, unit :: rest =>
      if leading && isIndent unit then collapseFrom true (index + 1) rest
      else (unit, index) :: collapseFrom (unit == 10) (index + 1) rest

def collapseLeadingIndent (text : Text) : Text × List Nat :=
  let kept := collapseFrom true 0 text
  (kept.map Prod.fst, kept.map Prod.snd)

structure MatchWindow where
  start : Nat
  finish : Nat
  deriving DecidableEq

def collapsedWindow (indexMap : List Nat) (original : MatchWindow) (collapsedLength : Nat) :
    MatchWindow :=
  let start := (indexMap.takeWhile (· < original.start)).length
  let finish := start + ((indexMap.drop start).takeWhile (· < original.finish)).length
  { start
    finish := min finish collapsedLength }

def includeLeadingIndent (content : Text) : Nat → Nat
  | 0 => 0
  | index + 1 =>
      if (content[index]?.map isIndent).getD false then includeLeadingIndent content index
      else index + 1

def findWithin (content oldText : Text) (window : MatchWindow) : Option Nat :=
  if oldText.length = 0 ∨ window.finish < window.start + oldText.length then none
  else
    match indexFrom content oldText window.start with
    | some index => if index + oldText.length ≤ window.finish then some index else none
    | none => none

/-- The loop of `countExactOccurrences`. -/
def countFrom (content oldText : Text) : Nat → Nat → Nat
  | 0, _ => 0
  | fuel + 1, searchFrom =>
      if searchFrom + oldText.length ≤ content.length then
        match indexFrom content oldText searchFrom with
        | none => 0
        | some index => 1 + countFrom content oldText fuel (index + 1)
      else 0

def countExactOccurrences (content oldText : Text) : Nat :=
  if oldText.length = 0 then 0 else countFrom content oldText (content.length + 1) 0

def getNotFoundError (host : EditHost) (path : String) (editIndex totalEdits : Nat)
    (content oldText : Text) (range : Option EditRange) : RuntimeError :=
  let rangeSuffix := match range with
    | some range => s!" within lines {range.startLine.num}-{range.endLine.num}"
    | none => ""
  let mismatch :=
    if totalEdits = 1 then
      s!"Could not find the exact text in {path}{rangeSuffix}. The old text must match exactly " ++
        "including all whitespace and newlines."
    else
      s!"Could not find edits[{editIndex}] in {path}{rangeSuffix}. The oldText must match " ++
        "exactly including all whitespace and newlines."
  let currentContext := host.formatEditFailureContext content oldText range
  .plain (s!"{mismatch} The edit batch is atomic. No replacements were written." ++
    if currentContext = "" then " Re-read the narrow target range before retrying."
    else "\n" ++ currentContext)

def getDuplicateError (path : String) (editIndex totalEdits occurrences : Nat) : String :=
  if totalEdits = 1 then
    s!"Found {occurrences} occurrences of the text in {path}. The text must be unique. " ++
      "Please provide more context to make it unique."
  else
    s!"Found {occurrences} occurrences of edits[{editIndex}] in {path}. Each oldText must be " ++
      "unique. Please provide more context to make it unique."

def getEmptyOldTextError (path : String) (editIndex totalEdits : Nat) : String :=
  if totalEdits = 1 then s!"oldText must not be empty in {path}."
  else s!"edits[{editIndex}].oldText must not be empty in {path}."

def getNoChangeError (path : String) (totalEdits : Nat) : String :=
  if totalEdits = 1 then
    s!"No changes made to {path}. The replacement produced identical content. This might " ++
      "indicate an issue with special characters or the text not existing as expected."
  else s!"No changes made to {path}. The replacements produced identical content."

def validateRange (range : Option EditRange) (lineStarts : List Nat) (contentLength : Nat)
    (path : String) (editIndex totalEdits : Nat) : Outcome MatchWindow :=
  match range with
  | none => .ok { start := 0, finish := contentLength }
  | some range => do
      let label := if totalEdits = 1 then "range" else s!"edits[{editIndex}].range"
      throwPlainIf (!isSafeInteger range.startLine ∨ !isSafeInteger range.endLine ∨
          range.startLine < 1 ∨ range.endLine < range.startLine)
        (s!"{label} in {path} must contain inclusive positive line numbers with " ++
          "startLine <= endLine.")
      throwPlainIf ((lineStarts.length : Rat) < range.endLine)
        s!"{label} in {path} exceeds the file's {lineStarts.length} lines."
      return {
        start := lineStarts.getD (range.startLine.num.toNat - 1) contentLength
        finish := lineStarts.getD range.endLine.num.toNat contentLength }

/-- Where an edit is found and what is written there. -/
structure LocatedEdit where
  matchIndex : Nat
  matchLength : Nat
  newText : Text
  occurrences : Nat

/-- The match without regard to the indent of lines. -/
def locateIndented (content oldText newText : Text) (exactWindow : MatchWindow) :
    Option LocatedEdit := do
  let (collapsed, indexMap) := collapseLeadingIndent content
  let oldCollapsed := (collapseLeadingIndent oldText).1
  guard (oldCollapsed ≠ [])
  let indentWindow := collapsedWindow indexMap exactWindow collapsed.length
  let indentIndex ← findWithin collapsed oldCollapsed indentWindow
  let origStart ← indexMap[indentIndex]?
  let origLast ← indexMap[indentIndex + oldCollapsed.length - 1]?
  let indentStart := includeLeadingIndent content origStart
  return {
    matchIndex := indentStart
    matchLength := origLast + 1 - indentStart
    newText :=
      if indentStart < origStart ∧ (oldText.head?.map isIndent).getD false = false then
        slice content indentStart origStart ++ newText.dropWhile isIndent
      else newText
    occurrences := countExactOccurrences collapsed oldCollapsed }

/-- The match of an edit with its occurrences. -/
def locateEdit (host : EditHost) (content : Text) (path : String) (totalEdits editIndex : Nat)
    (range : Option EditRange) (oldText newText : Text) : Outcome LocatedEdit := do
  let exactWindow ←
    validateRange range (getLineStarts content) content.length path editIndex totalEdits
  match findWithin content oldText exactWindow with
  | some matchIndex =>
      return {
        matchIndex
        matchLength := oldText.length
        newText
        occurrences := countExactOccurrences content oldText }
  | none => do
      let fuzzyContent := normalizeForFuzzyMatch host content
      let fuzzyOldText := normalizeForFuzzyMatch host oldText
      let fuzzyWindow ← validateRange range (getLineStarts fuzzyContent) fuzzyContent.length path
        editIndex totalEdits
      match findWithin fuzzyContent fuzzyOldText fuzzyWindow with
      | some fuzzyIndex =>
          let (start, finish) := mapFuzzySpanToOriginal host content (getLineStarts content)
            (getLineStarts fuzzyContent) fuzzyIndex fuzzyOldText.length
          return {
            matchIndex := start
            matchLength := finish - start
            newText
            occurrences := countExactOccurrences fuzzyContent fuzzyOldText }
      | none =>
          match locateIndented content oldText newText exactWindow with
          | some located => return located
          | none => .error (getNotFoundError host path editIndex totalEdits content oldText range)

/-- The loop body of `planEditsToNormalizedContent`. -/
def planEdit (host : EditHost) (normalizedContent : Text) (path : String) (totalEdits : Nat)
    (editIndex : Nat) (sourceEdit : Edit) : Outcome PlannedEdit := do
  let oldText := normalizeToLF sourceEdit.oldText
  let newText := normalizeToLF sourceEdit.newText
  throwPlainIf (isWellFormed newText = false ∨ 0 ∈ newText)
    (s!"Invalid replacement Unicode in {path}; encoding-preserving text edits cannot insert " ++
      "malformed or NUL-bearing text.")
  throwPlainIf (oldText.length = 0) (getEmptyOldTextError path editIndex totalEdits)
  let located ←
    locateEdit host normalizedContent path totalEdits editIndex sourceEdit.range oldText newText
  throwPlainIf (1 < located.occurrences)
    (getDuplicateError path editIndex totalEdits located.occurrences)
  return {
    editIndex
    matchIndex := located.matchIndex
    matchLength := located.matchLength
    newText := located.newText
    expectedText := slice normalizedContent located.matchIndex
      (located.matchIndex + located.matchLength) }

def rangesOverlap (previous current : PlannedEdit) : Bool :=
  current.matchIndex < previous.matchIndex + previous.matchLength

def firstOverlap : List PlannedEdit → Option (PlannedEdit × PlannedEdit)
  | previous :: current :: rest =>
      if rangesOverlap previous current then some (previous, current)
      else firstOverlap (current :: rest)
  | _ => none

def planEditsToNormalizedContent (host : EditHost) (normalizedContent : Text) (edits : List Edit)
    (path : String) : Outcome EditMatchPlan := do
  let matchedEdits ←
    mapOutcomeFrom (planEdit host normalizedContent path edits.length) 0 edits
  let sorted := matchedEdits.insertionSort fun first second =>
    first.matchIndex ≤ second.matchIndex
  match firstOverlap sorted with
  | some (previous, current) =>
      .error (.plain
        (s!"edits[{previous.editIndex}] and edits[{current.editIndex}] overlap in {path}. " ++
          "Merge them into one edit or target disjoint regions."))
  | none =>
      return {
        baseLength := normalizedContent.length
        editCount := edits.length
        edits := sorted }

/-- Spans follow one another from a place on. -/
def InOrder : Nat → List PlannedEdit → Prop
  | _, [] => True
  | place, edit :: rest =>
      place ≤ edit.matchIndex ∧ InOrder (edit.matchIndex + edit.matchLength) rest

theorem inOrder_of_firstOverlap {edits : List PlannedEdit} (free : firstOverlap edits = none)
    {place : Nat} (begins : ∀ edit ∈ edits.head?, place ≤ edit.matchIndex) :
    InOrder place edits := by
  induction edits generalizing place with
  | nil => trivial
  | cons edit rest ih =>
      refine ⟨begins edit rfl, ?_⟩
      cases rest with
      | nil => trivial
      | cons next rest =>
          unfold firstOverlap at free
          by_cases overlap : rangesOverlap edit next = true
          · rw [if_pos overlap] at free
            cases free
          · rw [if_neg overlap] at free
            refine ih free fun _ first => ?_
            obtain rfl := Option.some.inj first
            simpa [rangesOverlap] using overlap

variable {host : EditHost} {content : Text} {path : String}

/-- A plan holds the located edits in the order of the content. -/
theorem planEdits_eq_ok {edits : List Edit} {plan : EditMatchPlan}
    (planned : planEditsToNormalizedContent host content edits path = .ok plan) :
    plan.baseLength = content.length ∧ InOrder 0 plan.edits ∧
      ∃ matched, mapOutcomeFrom (planEdit host content path edits.length) 0 edits = .ok matched ∧
        plan.edits.Perm matched := by
  unfold planEditsToNormalizedContent at planned
  rw [bind_eq_ok] at planned
  obtain ⟨matched, located, planned⟩ := planned
  dsimp only at planned
  cases overlap : firstOverlap (matched.insertionSort fun first second =>
      first.matchIndex ≤ second.matchIndex) with
  | some pair =>
      rw [overlap] at planned
      cases planned
  | none =>
      rw [overlap] at planned
      cases planned
      exact ⟨rfl, inOrder_of_firstOverlap overlap fun _ _ => Nat.zero_le _, matched, located,
        List.perm_insertionSort _ _⟩

/-- Every planned edit is the plan of an edit of the list. -/
theorem planEdit_of_mem {edits : List Edit} {plan : EditMatchPlan}
    (planned : planEditsToNormalizedContent host content edits path = .ok plan)
    {edit : PlannedEdit} (member : edit ∈ plan.edits) :
    ∃ index sourceEdit, edits[index]? = some sourceEdit ∧
      planEdit host content path edits.length index sourceEdit = .ok edit := by
  obtain ⟨-, -, matched, located, perm⟩ := planEdits_eq_ok planned
  obtain ⟨index, sourceEdit, there, made⟩ := mapOutcomeFrom_mem located (perm.mem_iff.mp member)
  exact ⟨index, sourceEdit, there, by rwa [Nat.zero_add] at made⟩

variable {totalEdits editIndex : Nat}

theorem planEdit_eq_ok {sourceEdit : Edit} {edit : PlannedEdit}
    (planned : planEdit host content path totalEdits editIndex sourceEdit = .ok edit) :
    ∃ located, locateEdit host content path totalEdits editIndex sourceEdit.range
        (normalizeToLF sourceEdit.oldText) (normalizeToLF sourceEdit.newText) = .ok located ∧
      located.occurrences ≤ 1 ∧ edit = {
        editIndex
        matchIndex := located.matchIndex
        matchLength := located.matchLength
        newText := located.newText
        expectedText := slice content located.matchIndex
          (located.matchIndex + located.matchLength) } := by
  unfold planEdit at planned
  simp only [bind_eq_ok, throwPlainIf_eq_ok, pure_eq_ok, exists_unit] at planned
  obtain ⟨-, -, located, found, single, rfl⟩ := planned
  exact ⟨located, found, Nat.le_of_not_lt single, rfl⟩

/-- The written text of a located edit is the new text, or the new text behind an indent of the
content. -/
theorem locateEdit_newText {range : Option EditRange} {oldText newText : Text}
    {located : LocatedEdit}
    (found : locateEdit host content path totalEdits editIndex range oldText newText = .ok located)
    {unit : UInt16} (member : unit ∈ located.newText) : unit ∈ content ∨ unit ∈ newText := by
  unfold locateEdit at found
  rw [bind_eq_ok] at found
  obtain ⟨exactWindow, -, found⟩ := found
  cases exact : findWithin content oldText exactWindow with
  | some matchIndex =>
      rw [exact] at found
      cases found
      exact .inr member
  | none =>
      rw [exact] at found
      rw [bind_eq_ok] at found
      obtain ⟨fuzzyWindow, -, found⟩ := found
      cases fuzzy : findWithin (normalizeForFuzzyMatch host content)
          (normalizeForFuzzyMatch host oldText) fuzzyWindow with
      | some fuzzyIndex =>
          rw [fuzzy] at found
          cases found
          exact .inr member
      | none =>
          rw [fuzzy] at found
          cases indented : locateIndented content oldText newText exactWindow with
          | none =>
              rw [indented] at found
              cases found
          | some result =>
              rw [indented] at found
              cases found
              unfold locateIndented at indented
              simp only [Option.bind_eq_bind, Option.bind_eq_some_iff, Option.pure_def,
                Option.some.injEq] at indented
              obtain ⟨-, -, indentIndex, -, origStart, -, origLast, -, rfl⟩ := indented
              split at member
              · rcases List.mem_append.mp member with indent | written
                · exact .inl (List.mem_of_mem_take (List.mem_of_mem_drop indent))
                · exact .inr ((List.dropWhile_suffix _).subset written)
              · exact .inr member

end PiAdaptative.SourceEdits
