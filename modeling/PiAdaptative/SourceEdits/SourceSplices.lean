import PiAdaptative.SourceEdits.EditPlans

/-!
# Splices of the source

A plan made on the LF-normalized content is carried out in the source itself.  A cursor turns the
places of the content into places of the source, the text between the spans stays as it is, and the
line feeds of a replacement are written as the line endings that the span held.
-/

namespace PiAdaptative.SourceEdits

open TextProtocol (Text)

structure AppliedEditsResult where
  baseContent : Text
  newContent : Text
  deriving DecidableEq

structure EditSourceSplice where
  start : Nat
  finish : Nat
  replacement : Text
  deriving DecidableEq

/-- The result of `applyEditMatchPlanToSource`. -/
structure AppliedSource extends AppliedEditsResult where
  sourceContent : Text
  splices : List EditSourceSplice
  deriving DecidableEq

/-- The parts that `applyEditMatchPlan` joins. -/
def replaceSpans (normalizedContent : Text) : Nat → List PlannedEdit → Text
  | sourceIndex, [] => normalizedContent.drop sourceIndex
  | sourceIndex, edit :: rest =>
      slice normalizedContent sourceIndex edit.matchIndex ++ edit.newText ++
        replaceSpans normalizedContent (edit.matchIndex + edit.matchLength) rest

def applyEditMatchPlan (normalizedContent : Text) (plan : EditMatchPlan) (path : String) :
    Outcome AppliedEditsResult := do
  throwPlainIf (normalizedContent.length ≠ plan.baseLength)
    s!"The validated edit plan for {path} is stale because the source length changed."
  match plan.edits.find? fun edit =>
      !edit.expectedText.isPrefixOf (normalizedContent.drop edit.matchIndex) with
  | some edit =>
      .error (.plain s!"The validated edit plan for {path} is stale at edits[{edit.editIndex}].")
  | none => do
      let newContent := replaceSpans normalizedContent 0 plan.edits
      throwPlainIf (normalizedContent = newContent) (getNoChangeError path plan.editCount)
      return {
        baseContent := normalizedContent
        newContent }

/-- Where the source is read while the content is passed. -/
structure SourceCursor where
  sourceIndex : Nat
  normalizedIndex : Nat
  previousEnding : Text

/-- The loop body of `advance`. -/
def advanceOne (source : Text) (cursor : SourceCursor) : SourceCursor :=
  let normalizedIndex := cursor.normalizedIndex + 1
  match source[cursor.sourceIndex]? with
  | some 13 =>
      if source[cursor.sourceIndex + 1]? = some 10 then
        { sourceIndex := cursor.sourceIndex + 2
          normalizedIndex
          previousEnding := [13, 10] }
      else
        { sourceIndex := cursor.sourceIndex + 1
          normalizedIndex
          previousEnding := [13] }
  | some 10 =>
      { sourceIndex := cursor.sourceIndex + 1
        normalizedIndex
        previousEnding := [10] }
  | _ =>
      { sourceIndex := cursor.sourceIndex + 1
        normalizedIndex
        previousEnding := cursor.previousEnding }

def advance (source : Text) (target : Nat) (cursor : SourceCursor) : SourceCursor :=
  (advanceOne source)^[target - cursor.normalizedIndex] cursor

/-- `newText.replace(/\n/g, () => endings[endingIndex++] ?? fallback)`. -/
def writeEndings (fallback : Text) : List Text → Text → Text
  | _, [] => []
  | endings, unit :: rest =>
      if unit = 10 then endings.headD fallback ++ writeEndings fallback endings.tail rest
      else unit :: writeEndings fallback endings rest

/-- The loop of `applyEditMatchPlanToSource`: the source spliced from a place, and its splices. -/
def spliceSource (source : Text) :
    SourceCursor → Nat → List PlannedEdit → Text × List EditSourceSplice
  | _, copiedThrough, [] => (source.drop copiedThrough, [])
  | cursor, copiedThrough, edit :: rest =>
      let opened := advance source edit.matchIndex cursor
      let closed := advance source (edit.matchIndex + edit.matchLength) opened
      let endings := lineEndings (slice source opened.sourceIndex closed.sourceIndex)
      let fallback := endings.getLast?.getD opened.previousEnding
      let replacement := writeEndings fallback endings edit.newText
      let later := spliceSource source closed closed.sourceIndex rest
      (slice source copiedThrough opened.sourceIndex ++ replacement ++ later.1,
        { start := opened.sourceIndex
          finish := closed.sourceIndex
          replacement } :: later.2)

def applyEditMatchPlanToSource (source : Text) (plan : EditMatchPlan) (path : String) :
    Outcome AppliedSource := do
  let applied ← applyEditMatchPlan (normalizeToLF source) plan path
  let firstEnding := (lineEndings source).head?.getD [10]
  let spliced := spliceSource source
    { sourceIndex := 0
      normalizedIndex := 0
      previousEnding := firstEnding } 0 plan.edits
  return {
    toAppliedEditsResult := applied
    sourceContent := spliced.1
    splices := spliced.2 }

theorem slice_append_drop {α : Type} (text : List α) {start finish : Nat}
    (ordered : start ≤ finish) : slice text start finish ++ text.drop finish = text.drop start := by
  calc (text.take finish).drop start ++ text.drop finish
      = (text.take finish).drop start ++ (text.drop start).drop (finish - start) := by
        rw [List.drop_drop, Nat.add_sub_cancel' ordered]
    _ = text.drop start := by rw [List.drop_take, List.take_append_drop]

theorem map_slice {α β : Type} (convert : α → β) (text : List α) (start finish : Nat) :
    (slice text start finish).map convert = slice (text.map convert) start finish := by
  unfold slice
  rw [List.map_drop, List.map_take]

theorem slice_part {α : Type} (text : List α) (start finish : Nat) :
    slice text start finish <:+: text :=
  (List.drop_suffix _ _).isInfix.trans (List.take_prefix _ _).isInfix

/-- The line ending found last before a place of the content, or else the first of the source. -/
def nearbyEnding (pieces : List Text) (place : Nat) : Text :=
  ((pieces.take place).filter isEnding).getLast?.getD ((pieces.filter isEnding).head?.getD [10])

theorem nearbyEnding_succ {pieces : List Text} {place : Nat} {chunk : Text}
    (there : pieces[place]? = some chunk) :
    nearbyEnding pieces (place + 1) =
      if isEnding chunk then chunk else nearbyEnding pieces place := by
  unfold nearbyEnding
  rw [List.take_add_one, there, Option.toList_some, List.filter_append]
  by_cases ending : isEnding chunk = true
  · rw [List.filter_cons_of_pos ending, List.filter_nil, List.getLast?_concat, if_pos ending]
    rfl
  · rw [List.filter_cons_of_neg ending, List.filter_nil, List.append_nil, if_neg ending]

/-- A cursor stands at a place of the content. -/
structure StandsAt (source : Text) (place : Nat) (cursor : SourceCursor) : Prop where
  normalized : cursor.normalizedIndex = place
  ahead : source.drop cursor.sourceIndex = ((chunks source).drop place).flatten
  ending : cursor.previousEnding = nearbyEnding (chunks source) place

variable {cursor : SourceCursor} {source : Text}

theorem advanceOne_at_end (ahead : source.drop cursor.sourceIndex = []) :
    advanceOne source cursor = {
      sourceIndex := cursor.sourceIndex + 1
      normalizedIndex := cursor.normalizedIndex + 1
      previousEnding := cursor.previousEnding } := by
  have none : source[cursor.sourceIndex]? = none :=
    List.getElem?_eq_none (List.drop_eq_nil_iff.mp ahead)
  unfold advanceOne
  rw [none]

/-- A step passes one chunk of the source. -/
theorem advanceOne_at_chunk {source chunk rest : Text}
    (ahead : source.drop cursor.sourceIndex = chunk ++ rest) (isChunk : IsChunk chunk)
    (apart : chunk = [13] → rest.head? ≠ some 10) :
    advanceOne source cursor = {
      sourceIndex := cursor.sourceIndex + chunk.length
      normalizedIndex := cursor.normalizedIndex + 1
      previousEnding := if isEnding chunk then chunk else cursor.previousEnding } := by
  have first : source[cursor.sourceIndex]? = (chunk ++ rest).head? := by
    rw [← ahead, List.head?_drop]
  have second : source[cursor.sourceIndex + 1]? = (chunk ++ rest)[1]? := by
    rw [← ahead, List.getElem?_drop]
  unfold advanceOne
  rcases isChunk with rfl | ⟨unit, rfl⟩
  · rw [first, second]
    rfl
  · by_cases carriage : unit = 13
    · subst carriage
      have other : source[cursor.sourceIndex + 1]? ≠ some 10 := by
        rw [second, List.getElem?_append_right (by simp), List.length_singleton, Nat.sub_self,
          ← List.head?_eq_getElem?]
        exact apart rfl
      rw [first]
      simp only [List.cons_append, List.head?_cons]
      rw [if_neg other, if_pos (by decide)]
      rfl
    · by_cases feed : unit = 10
      · subst feed
        rw [first]
        rfl
      · have single : isEnding [unit] = false := by simp [isEnding, carriage, feed]
        rw [first]
        simp [carriage, feed, single]

theorem StandsAt.step {place : Nat} (stands : StandsAt source place cursor) :
    StandsAt source (place + 1) (advanceOne source cursor) := by
  cases left : (chunks source).drop place with
  | nil =>
      have ahead : source.drop cursor.sourceIndex = [] := by
        rw [stands.ahead, left, List.flatten_nil]
      have whole : (chunks source).length ≤ place := List.drop_eq_nil_iff.mp left
      rw [advanceOne_at_end ahead]
      refine ⟨congrArg (· + 1) stands.normalized, ?_, ?_⟩
      · rw [List.drop_eq_nil_iff.mpr (Nat.le_succ_of_le (List.drop_eq_nil_iff.mp ahead)),
          List.drop_eq_nil_iff.mpr (Nat.le_succ_of_le whole), List.flatten_nil]
      · rw [stands.ending]
        unfold nearbyEnding
        rw [List.take_of_length_le whole, List.take_of_length_le (Nat.le_succ_of_le whole)]
  | cons chunk rest =>
      have ahead : source.drop cursor.sourceIndex = chunk ++ rest.flatten := by
        rw [stands.ahead, left, List.flatten_cons]
      have there : (chunks source)[place]? = some chunk := by
        rw [← List.head?_drop, left, List.head?_cons]
      have later : (chunks source).drop (place + 1) = rest := by
        rw [← List.drop_drop, left, List.drop_one, List.tail_cons]
      have chain : (chunk :: rest).IsChain Apart := left ▸ (chunks_apart source).drop place
      have isChunk : ∀ piece ∈ chunk :: rest, IsChunk piece := fun piece member =>
        isChunk_of_mem_chunks (List.mem_of_mem_drop (left ▸ member))
      have apart : chunk = [13] → rest.flatten.head? ≠ some 10 := by
        intro carriage feed
        cases rest with
        | nil => simp at feed
        | cons next rest =>
            refine (List.isChain_cons.mp chain).1 next rfl ⟨carriage, ?_⟩
            rcases isChunk next (by simp) with rfl | ⟨unit, rfl⟩
            · simp at feed
            · simpa using feed
      rw [advanceOne_at_chunk ahead (isChunk chunk (by simp)) apart]
      refine ⟨congrArg (· + 1) stands.normalized, ?_, ?_⟩
      · rw [later, ← List.drop_drop, ahead, List.drop_left]
      · rw [nearbyEnding_succ there, ← stands.ending]

theorem lt_advanceOne (source : Text) (cursor : SourceCursor) :
    cursor.sourceIndex < (advanceOne source cursor).sourceIndex := by
  unfold advanceOne
  split
  · split <;> dsimp only <;> omega
  · dsimp only
    omega
  · dsimp only
    omega

theorem le_advance (source : Text) (target : Nat) (cursor : SourceCursor) :
    cursor.sourceIndex ≤ (advance source target cursor).sourceIndex := by
  unfold advance
  generalize target - cursor.normalizedIndex = steps
  induction steps generalizing cursor with
  | zero => exact Nat.le_refl _
  | succ steps ih =>
      exact Nat.le_trans (Nat.le_of_lt (lt_advanceOne source cursor)) (ih _)

theorem StandsAt.advance {place target : Nat} (stands : StandsAt source place cursor)
    (ordered : place ≤ target) : StandsAt source target (advance source target cursor) := by
  unfold SourceEdits.advance
  rw [stands.normalized]
  obtain ⟨steps, rfl⟩ := Nat.exists_eq_add_of_le ordered
  rw [Nat.add_sub_cancel_left]
  clear ordered
  induction steps generalizing place cursor with
  | zero => exact stands
  | succ steps ih =>
      rw [Function.iterate_succ_apply, Nat.add_comm steps, ← Nat.add_assoc]
      exact ih stands.step

theorem standsAt_start (source : Text) :
    StandsAt source 0 {
      sourceIndex := 0
      normalizedIndex := 0
      previousEnding := (lineEndings source).head?.getD [10] } := by
  refine ⟨rfl, ?_, ?_⟩
  · rw [List.drop_zero, List.drop_zero, flatten_chunks]
  · rw [lineEndings_eq]
    rfl

/-- The source between two places of the content. -/
theorem slice_between {first second : Nat} {opened closed : SourceCursor}
    (atFirst : StandsAt source first opened) (atSecond : StandsAt source second closed)
    (ordered : first ≤ second) (indices : opened.sourceIndex ≤ closed.sourceIndex) :
    slice source opened.sourceIndex closed.sourceIndex =
      (slice (chunks source) first second).flatten := by
  refine (List.append_left_inj (source.drop closed.sourceIndex)).mp ?_
  rw [slice_append_drop source indices, atFirst.ahead, atSecond.ahead, ← List.flatten_append,
    slice_append_drop _ ordered]

end PiAdaptative.SourceEdits
