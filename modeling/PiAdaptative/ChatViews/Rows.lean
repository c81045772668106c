import PiAdaptative.ChatViews.Tiling

/-!
# Rows of a view

What a model reads of a view: its lines while they fit, and past high water the lines of an ever
coarser tiling, until they fit or nothing is left to collapse.
-/

namespace PiAdaptative.ChatViews

open DyadicBlocks

structure RenderedLine extends Block where
  text : String
  bytes : Nat
  built : Bool

def renderedLine (coordinate : ContinuousChatNodeCoordinate) (text : String) (built : Bool) :
    RenderedLine :=
  { coordinate with text, bytes := lineBytes text, built }

def renderedLineFor (nodes : NodeMap) (reason : String)
    (coordinate : ContinuousChatNodeCoordinate) : Except String RenderedLine :=
  match nodes coordinate with
  | none => do
      let text ← renderContinuousChatPendingLine coordinate reason
      .ok (renderedLine coordinate text false)
  | some node => do
      let text ← renderContinuousChatViewLine coordinate node
      .ok (renderedLine coordinate text true)

def rowBytes (rows : List RenderedLine) : Nat := (rows.map (·.bytes)).sum

/-- The rows of a pass, the last first, with their bytes and whether any were collapsed. -/
structure Pass where
  next : List RenderedLine
  total : Nat
  collapsed : Bool

/-- The last two rows of a pass collapse into their parent, again and again, until low water. -/
def collapseLast (lowBytes : Nat) (nodes : NodeMap) (total : Nat) (collapsed : Bool) :
    List RenderedLine → Except String Pass
  | right :: left :: rest =>
      if lowBytes < total then
        match parent left.toBlock right.toBlock with
        | none => .ok { next := right :: left :: rest, total, collapsed }
        | some joined =>
            match renderedLineFor nodes CONTINUOUS_CHAT_NOT_MERGED joined with
            | .error reason => .error reason
            | .ok merged =>
                collapseLast lowBytes nodes (total + merged.bytes - left.bytes - right.bytes) true
                  (merged :: rest)
      else .ok { next := right :: left :: rest, total, collapsed }
  | next => .ok { next, total, collapsed }
termination_by next => next.length

def collapsePass (lowBytes : Nat) (nodes : NodeMap) (pass : Pass) :
    List RenderedLine → Except String Pass
  | [] => .ok pass
  | row :: rows => do
      let after ← collapseLast lowBytes nodes pass.total pass.collapsed (row :: pass.next)
      collapsePass lowBytes nodes after rows

variable {nodes : NodeMap}

variable {next : List RenderedLine}

variable {lowBytes total : Nat}

variable {collapsed : Bool}

theorem collapseLast_short (short : ∀ right left rest, next = right :: left :: rest → False) :
    collapseLast lowBytes nodes total collapsed next = .ok { next, total, collapsed } := by
  rw [collapseLast.eq_def]
  split
  next right left rest => exact (short right left rest rfl).elim
  · rfl

variable {after : Pass}

/-- Rows are either left as they are or get fewer. -/
theorem collapseLast_cases (made : collapseLast lowBytes nodes total collapsed next = .ok after) :
    after = { next, total, collapsed } ∨
      after.collapsed = true ∧ after.next.length < next.length := by
  induction total, collapsed, next using collapseLast.induct lowBytes nodes with
  | case1 total collapsed right left rest exceeding apart =>
      rw [collapseLast, if_pos exceeding, apart] at made
      cases made
      exact .inl rfl
  | case2 total collapsed right left rest exceeding joined siblings reason failed =>
      rw [collapseLast, if_pos exceeding, siblings] at made
      simp only [failed] at made
      cases made
  | case3 total collapsed right left rest exceeding joined siblings merged rendered ih =>
      rw [collapseLast, if_pos exceeding, siblings] at made
      simp only [rendered] at made
      rcases ih made with rfl | ⟨shrunk, fewer⟩
      · exact .inr ⟨rfl, by simp⟩
      · refine .inr ⟨shrunk, fewer.trans_le ?_⟩
        simp
  | case4 total collapsed right left rest fits =>
      rw [collapseLast, if_neg fits] at made
      cases made
      exact .inl rfl
  | case5 total collapsed next short =>
      rw [collapseLast_short short] at made
      cases made
      exact .inl rfl

theorem collapsePass_cases {lowBytes : Nat} {pass after : Pass} {rows : List RenderedLine}
    (made : collapsePass lowBytes nodes pass rows = .ok after) :
    after = { pass with next := rows.reverse ++ pass.next } ∨
      after.collapsed = true ∧ after.next.length < rows.length + pass.next.length := by
  induction rows generalizing pass with
  | nil =>
      cases made
      exact .inl rfl
  | cons row rows ih =>
      simp only [collapsePass] at made
      cases last : collapseLast lowBytes nodes pass.total pass.collapsed (row :: pass.next) with
      | error reason =>
          rw [last] at made
          cases made
      | ok between =>
          rw [last] at made
          rcases collapseLast_cases last with rfl | ⟨shrunk, fewer⟩
          · rcases ih made with rfl | ⟨shrunk, fewer⟩
            · exact .inl (by simp)
            · refine .inr ⟨shrunk, ?_⟩
              simp only [List.length_cons] at fewer ⊢
              omega
          · simp only [List.length_cons] at fewer ⊢
            rcases ih made with rfl | ⟨shrunkLater, fewerLater⟩
            · refine .inr ⟨shrunk, ?_⟩
              simp only [List.length_append, List.length_reverse]
              omega
            · exact .inr ⟨shrunkLater, by omega⟩

theorem collapsePass_length {rows : List RenderedLine}
    (made : collapsePass lowBytes nodes { next := [], total, collapsed := false } rows = .ok after)
    (collapsed : after.collapsed = true) : after.next.length < rows.length := by
  rcases collapsePass_cases made with rfl | ⟨_, fewer⟩
  · cases collapsed
  · simpa using fewer

/-- Passes over the rows until they fit or nothing is left to collapse. -/
def collapseRows (lowBytes : Nat) (nodes : NodeMap) (total : Nat) (rows : List RenderedLine) :
    Except String (List RenderedLine) :=
  if lowBytes < total then
    match _made : collapsePass lowBytes nodes { next := [], total, collapsed := false } rows with
    | .error reason => .error reason
    | .ok pass =>
        if _collapsed : pass.collapsed = true then
          collapseRows lowBytes nodes pass.total pass.next.reverse
        else .ok pass.next.reverse
  else .ok rows
termination_by rows.length
decreasing_by
  rw [List.length_reverse]
  exact collapsePass_length _made _collapsed

def viewRows (state : ContinuousChatViewState) (nodes : NodeMap) :
    Except String (List RenderedLine) := do
  let rows ← state.entries.mapM fun entry =>
    renderedLineFor nodes CONTINUOUS_CHAT_NOT_SUMMARIZED entry.toBlock
  if rowBytes rows ≤ state.highBytes then .ok rows
  else collapseRows state.lowBytes nodes (rowBytes rows) rows

def rowBlocks (rows : List RenderedLine) : List Block := rows.map RenderedLine.toBlock

/-- A line of a safe block, as it is rendered. -/
def lineOf (nodes : NodeMap) (reason : String) (block : Block) : RenderedLine :=
  renderedLine block (lineText nodes reason block) (nodes block).isSome

@[simp]
theorem lineOf_toBlock (nodes : NodeMap) (reason : String) (block : Block) :
    (lineOf nodes reason block).toBlock = block :=
  rfl

theorem renderedLineFor_eq {block : Block} (reason : String) (safe : Safe block) :
    renderedLineFor nodes reason block = .ok (lineOf nodes reason block) := by
  cases built : nodes block with
  | some node =>
      simp only [renderedLineFor, built, renderContinuousChatViewLine,
        continuousChatNodeLabel_eq safe, lineOf, lineText]
      rfl
  | none =>
      simp only [renderedLineFor, built, renderContinuousChatPendingLine,
        continuousChatNodeLabel_eq safe, lineOf, lineText]
      rfl

/-- A pass with the rows still to come: together they tile the messages and cover the entries. -/
structure Collapsing (messages : Nat) (entries : List Block) (next rows : List RenderedLine)
    (total : Nat) : Prop where
  tiled : Tiles 0 (rowBlocks (next.reverse ++ rows)) messages
  coarsens : Coarsens (rowBlocks (next.reverse ++ rows)) entries
  total_eq : total = rowBytes (next.reverse ++ rows)

variable {messages lowBytes : Nat} {entries : List Block} {nodes : NodeMap}

variable {total : Nat}

variable {next rows : List RenderedLine}

theorem Collapsing.join (nodes : NodeMap) {left right : RenderedLine} {joined : Block}
    (few : messages ≤ MAX_SAFE_INTEGER)
    (collapsing : Collapsing messages entries (right :: left :: next) rows total)
    (siblings : parent left.toBlock right.toBlock = some joined) :
    ∃ merged, renderedLineFor nodes CONTINUOUS_CHAT_NOT_MERGED joined = .ok merged ∧
      Collapsing messages entries (merged :: next) rows
        (total + merged.bytes - left.bytes - right.bytes) := by
  have placed : (right :: left :: next).reverse ++ rows = next.reverse ++ left :: right :: rows := by
    simp
  have tiledPair : Tiles 0 (rowBlocks next.reverse ++ left.toBlock :: right.toBlock ::
      rowBlocks rows) messages := by
    simpa [rowBlocks, placed] using collapsing.tiled
  have coarsensPair : Coarsens (rowBlocks next.reverse ++ left.toBlock :: right.toBlock ::
      rowBlocks rows) entries := by
    simpa [rowBlocks, placed] using collapsing.coarsens
  have tiled := tiledPair.join siblings
  have safe : Safe joined := safe_of_tiles tiled few joined (by simp)
  refine ⟨lineOf nodes CONTINUOUS_CHAT_NOT_MERGED joined, renderedLineFor_eq _ safe, ?_⟩
  exact {
    tiled := by simpa [rowBlocks] using tiled
    coarsens := by simpa [rowBlocks] using coarsensPair.join siblings
    total_eq := by
      have total := collapsing.total_eq
      simp only [rowBytes, List.reverse_cons, List.append_assoc, List.map_append, List.map_cons,
        List.sum_append, List.sum_cons, List.map_nil, List.sum_nil] at total ⊢
      omega }

theorem collapseLast_ok (lowBytes : Nat) (nodes : NodeMap) (few : messages ≤ MAX_SAFE_INTEGER)
    (collapsed : Bool) (collapsing : Collapsing messages entries next rows total) :
    ∃ after, collapseLast lowBytes nodes total collapsed next = .ok after ∧
      Collapsing messages entries after.next rows after.total := by
  induction total, collapsed, next using collapseLast.induct lowBytes nodes with
  | case1 total collapsed right left rest exceeding apart =>
      refine ⟨⟨right :: left :: rest, total, collapsed⟩, ?_, collapsing⟩
      rw [collapseLast, if_pos exceeding, apart]
  | case2 total collapsed right left rest exceeding joined siblings reason failed =>
      obtain ⟨merged, rendered, _⟩ := collapsing.join nodes few siblings
      cases failed.symm.trans rendered
  | case3 total collapsed right left rest exceeding joined siblings merged rendered ih =>
      obtain ⟨other, renderedOther, later⟩ := collapsing.join nodes few siblings
      cases rendered.symm.trans renderedOther
      obtain ⟨after, made, kept⟩ := ih later
      refine ⟨after, ?_, kept⟩
      rw [collapseLast, if_pos exceeding, siblings]
      simp only [rendered]
      exact made
  | case4 total collapsed right left rest fits =>
      refine ⟨⟨right :: left :: rest, total, collapsed⟩, ?_, collapsing⟩
      rw [collapseLast, if_neg fits]
  | case5 total collapsed next short =>
      exact ⟨_, collapseLast_short short, collapsing⟩

theorem collapsePass_ok {pass : Pass} {rows : List RenderedLine}
    (few : messages ≤ MAX_SAFE_INTEGER)
    (collapsing : Collapsing messages entries pass.next rows pass.total) :
    ∃ after, collapsePass lowBytes nodes pass rows = .ok after ∧
      Collapsing messages entries after.next [] after.total := by
  induction rows generalizing pass with
  | nil => exact ⟨pass, rfl, collapsing⟩
  | cons row rows ih =>
      have started : Collapsing messages entries (row :: pass.next) rows pass.total := by
        have moved : (row :: pass.next).reverse ++ rows = pass.next.reverse ++ row :: rows := by
          simp
        exact ⟨moved ▸ collapsing.tiled, moved ▸ collapsing.coarsens, moved ▸ collapsing.total_eq⟩
      obtain ⟨between, last, kept⟩ := collapseLast_ok lowBytes nodes few pass.collapsed
        started
      obtain ⟨after, made, keptAfter⟩ := ih kept
      refine ⟨after, ?_, keptAfter⟩
      simp only [collapsePass, last]
      exact made

/-- Neighbours of the rows of a pass are no siblings. -/
def SettledBackwards (next : List RenderedLine) : Prop :=
  next.IsChain fun right left => parent left.toBlock right.toBlock = none

theorem collapseLast_settled {row : RenderedLine} (exceeding : lowBytes < total)
    (settled : SettledBackwards next)
    (made : collapseLast lowBytes nodes total collapsed (row :: next) = .ok after)
    (kept : after.collapsed = false) : SettledBackwards (row :: next) := by
  cases next with
  | nil => exact .singleton row
  | cons left rest =>
      rw [collapseLast, if_pos exceeding] at made
      cases siblings : parent left.toBlock row.toBlock with
      | none => exact .cons_cons siblings settled
      | some joined =>
          rw [siblings] at made
          simp only at made
          split at made
          · cases made
          · rcases collapseLast_cases made with rfl | ⟨shrunk, _⟩
            · cases kept
            · cases kept.symm.trans shrunk

theorem collapsePass_settled {pass after : Pass} {rows : List RenderedLine}
    (exceeding : lowBytes < pass.total) (settled : SettledBackwards pass.next)
    (made : collapsePass lowBytes nodes pass rows = .ok after)
    (kept : after.collapsed = false) :
    SettledBackwards (rows.reverse ++ pass.next) := by
  induction rows generalizing pass with
  | nil => exact settled
  | cons row rows ih =>
      simp only [collapsePass] at made
      cases last : collapseLast lowBytes nodes pass.total pass.collapsed (row :: pass.next) with
      | error reason =>
          rw [last] at made
          cases made
      | ok between =>
          rw [last] at made
          have keptBetween : between.collapsed = false := by
            rcases collapsePass_cases made with rfl | ⟨shrunk, _⟩
            · exact kept
            · cases kept.symm.trans shrunk
          have settledRow := collapseLast_settled exceeding settled last keptBetween
          rcases collapseLast_cases last with rfl | ⟨shrunk, _⟩
          · have later := @ih ⟨row :: pass.next, pass.total, pass.collapsed⟩ exceeding settledRow made
            simpa using later
          · cases keptBetween.symm.trans shrunk

theorem collapseRows_eq {rows : List RenderedLine} {pass : Pass} (exceeding : lowBytes < total)
    (made : collapsePass lowBytes nodes { next := [], total, collapsed := false } rows = .ok pass) :
    collapseRows lowBytes nodes total rows =
      if pass.collapsed = true then collapseRows lowBytes nodes pass.total pass.next.reverse
      else .ok pass.next.reverse := by
  rw [collapseRows, if_pos exceeding]
  split
  next failed => cases made.symm.trans failed
  next other madeOther =>
    cases made.symm.trans madeOther
    split <;> rfl

/-- What collapsing leaves of the rows of a view: it fits, or no two neighbours are siblings. -/
theorem collapseRows_ok (lowBytes : Nat) (nodes : NodeMap) {rows : List RenderedLine}
    (few : messages ≤ MAX_SAFE_INTEGER) (collapsing : Collapsing messages entries [] rows total) :
    ∃ after, collapseRows lowBytes nodes total rows = .ok after ∧
      Tiles 0 (rowBlocks after) messages ∧ Coarsens (rowBlocks after) entries ∧
      (rowBytes after ≤ lowBytes ∨ Settled (rowBlocks after)) := by
  induction total, rows using collapseRows.induct lowBytes nodes with
  | case1 total rows exceeding reason failed =>
      obtain ⟨pass, made, _⟩ := @collapsePass_ok messages lowBytes entries nodes
        { next := [], total, collapsed := false } rows few collapsing
      cases failed.symm.trans made
  | case2 total rows exceeding pass made collapsed ih =>
      obtain ⟨other, madeOther, kept⟩ := @collapsePass_ok messages lowBytes entries nodes
        { next := [], total, collapsed := false } rows few collapsing
      cases made.symm.trans madeOther
      obtain ⟨after, fitted, rest⟩ := ih
        ⟨by simpa using kept.tiled, by simpa using kept.coarsens, by simpa using kept.total_eq⟩
      refine ⟨after, ?_, rest⟩
      rw [collapseRows_eq exceeding made, if_pos collapsed]
      exact fitted
  | case3 total rows exceeding pass made kept =>
      have stays : pass = { next := rows.reverse ++ [], total, collapsed := false } :=
        (collapsePass_cases made).resolve_right fun shrunk => kept shrunk.1
      have settled := @collapsePass_settled lowBytes nodes
        { next := [], total, collapsed := false } pass rows exceeding .nil made (by simp [stays])
      refine ⟨rows, ?_, collapsing.tiled, collapsing.coarsens, .inr ?_⟩
      · rw [collapseRows_eq exceeding made, if_neg kept]
        simp [stays]
      · rw [Settled, rowBlocks, List.isChain_map]
        rw [SettledBackwards, List.append_nil, List.isChain_reverse] at settled
        exact settled
  | case4 total rows fits =>
      refine ⟨rows, by rw [collapseRows, if_neg fits], collapsing.tiled, collapsing.coarsens, ?_⟩
      have exactly : total = rowBytes rows := collapsing.total_eq
      exact .inl (by omega)

variable {state : ContinuousChatViewState}

theorem viewRows_ok (nodes : NodeMap) (tiled : Tiled state)
    (few : state.totalMessages ≤ MAX_SAFE_INTEGER) :
    ∃ rows, viewRows state nodes = .ok rows ∧
      Tiles 0 (rowBlocks rows) state.totalMessages ∧
      Coarsens (rowBlocks rows) (blocks state.entries) ∧
      (rowBlocks rows = blocks state.entries ∧ rowBytes rows ≤ state.highBytes ∨
        rowBytes rows ≤ state.lowBytes ∨ Settled (rowBlocks rows)) := by
  have lines : (state.entries.mapM fun entry =>
      renderedLineFor nodes CONTINUOUS_CHAT_NOT_SUMMARIZED entry.toBlock) =
        .ok (state.entries.map fun entry =>
          lineOf nodes CONTINUOUS_CHAT_NOT_SUMMARIZED entry.toBlock) :=
    mapM_eq_ok fun _ mem => renderedLineFor_eq _
      (safe_of_tiles tiled few _ (List.mem_map_of_mem mem))
  generalize known : (state.entries.map fun entry =>
    lineOf nodes CONTINUOUS_CHAT_NOT_SUMMARIZED entry.toBlock) = rows at lines
  have same : rowBlocks rows = blocks state.entries := by
    simp [← known, rowBlocks, blocks]
  have tiledRows : Tiles 0 (rowBlocks rows) state.totalMessages := same ▸ tiled
  have finest : Coarsens (rowBlocks rows) (blocks state.entries) := same ▸ Coarsens.refl _
  have run : viewRows state nodes = if rowBytes rows ≤ state.highBytes then .ok rows
      else collapseRows state.lowBytes nodes (rowBytes rows) rows := by
    simp only [viewRows, lines]
    rfl
  rw [run]
  split
  next fits => exact ⟨rows, rfl, tiledRows, finest, .inl ⟨same, fits⟩⟩
  · obtain ⟨after, collapsed, tiledAfter, coarser, bounded⟩ :=
      collapseRows_ok state.lowBytes nodes few ⟨tiledRows, finest, rfl⟩
    exact ⟨after, collapsed, tiledAfter, coarser, .inr bounded⟩

theorem refresh_ok (nodes : NodeMap) (fit : ContinuousChatViewFit) (tiled : Tiled state)
    (few : state.totalMessages ≤ MAX_SAFE_INTEGER) :
    ∃ after, refreshContinuousChatView state nodes fit = .ok after := by
  obtain ⟨merged, merges⟩ := exists_merged_refreshed nodes tiled few
  exact ⟨_, refreshContinuousChatView_eq fit tiled few merges⟩

/-- While fewer than two to the 53rd calls were made a view tiles the chat, is read back as it is
stored, settles in one refresh and is rendered within its bounds. -/
theorem view_tiles_the_chat (kind : ContinuousChatViewKind) {calls : List ViewCall}
    (few : calls.length < 2 ^ 53) (nodes : NodeMap) :
    Tiled (viewAfter kind calls) ∧
    validateCompletePartition (viewAfter kind calls) = .ok () ∧
    parseContinuousChatView (viewAfter kind calls).stored kind = some (viewAfter kind calls) ∧
    (∀ fit, ∃ after, refreshContinuousChatView (viewAfter kind calls) nodes fit = .ok after) ∧
    (calls.length + 1 < 2 ^ 53 → ∃ after, advanceContinuousChatView (viewAfter kind calls)
      (viewAfter kind calls).totalMessages nodes = .ok after) ∧
    (∀ first, refreshContinuousChatView (viewAfter kind calls) nodes .background = .ok first →
      ∃ second, refreshContinuousChatView first nodes .background = .ok second ∧
        second.entries = first.entries ∧ second.batchPending = first.batchPending) ∧
    ∃ rows, viewRows (viewAfter kind calls) nodes = .ok rows ∧
      Tiles 0 (rowBlocks rows) (viewAfter kind calls).totalMessages ∧
      Coarsens (rowBlocks rows) (blocks (viewAfter kind calls).entries) ∧
      (rowBlocks rows = blocks (viewAfter kind calls).entries ∧
          rowBytes rows ≤ (viewAfter kind calls).highBytes ∨
        rowBytes rows ≤ (viewAfter kind calls).lowBytes ∨
        Settled (rowBlocks rows) ∧ (rowBlocks rows).map Block.level =
          (viewAfter kind calls).totalMessages.bitIndices.reverse) := by
  have room : calls.length ≤ MAX_SAFE_INTEGER := Nat.le_of_lt_succ few
  have sound := sound_viewAfter kind room
  have safe := sound.messages_le.trans room
  refine ⟨sound.tiled, validateCompletePartition_eq sound.tiled safe, sound.parse room,
    fun fit => refresh_ok nodes fit sound.tiled safe, fun more => ?_, fun first made => ?_, ?_⟩
  · obtain ⟨after, made, _⟩ := sound.advance nodes (Nat.lt_of_succ_lt_succ more)
    exact ⟨after, made⟩
  · exact ⟨_, refresh_refresh sound.tiled safe made, rfl, rfl⟩
  · obtain ⟨rows, read, tiled, coarser, bounded⟩ := viewRows_ok nodes sound.tiled safe
    refine ⟨rows, read, tiled, coarser, bounded.imp_right fun bounded => bounded.imp_right ?_⟩
    exact fun settled => ⟨settled, levels_eq_bitIndices tiled settled⟩

theorem first_message_view_is_accepted :
    parseContinuousChatView (viewAfter .turn [.advance 0 fun _ => none]).stored .turn =
      some (viewAfter .turn [.advance 0 fun _ => none]) :=
  (@view_tiles_the_chat .turn [.advance 0 fun _ => none] (by decide) fun _ => none).2.2.1

theorem refresh_empty (revision : Nat) :
    (ViewCall.refresh (fun _ => none) .background).after
        { createContinuousChatView .turn with revision } =
      { createContinuousChatView .turn with revision := revision + 1 } :=
  rfl

theorem viewAfter_replicate (count : Nat) :
    viewAfter .turn (List.replicate count (.refresh (fun _ => none) .background)) =
      { createContinuousChatView .turn with revision := count } := by
  induction count with
  | zero => rfl
  | succ count ih =>
      rw [List.replicate_succ', viewAfter, List.foldl_append, ← viewAfter, ih]
      exact refresh_empty count

/-- Two to the 53rd refreshes leave a stored view that is not accepted. -/
theorem overcounted_view_is_refused :
    parseContinuousChatView
      (viewAfter .turn (List.replicate (2 ^ 53) (.refresh (fun _ => none) .background))).stored
      .turn = none := by
  rw [viewAfter_replicate]
  decide +kernel

end PiAdaptative.ChatViews
