import PiAdaptative.ChatViews.Views

/-!
# Views tile the chat

As long as the numbers of a view are safe integers its entries are an aligned tiling of the
messages, every line is that of the tree, and no function of the view throws.
-/

namespace PiAdaptative.ChatViews

open DyadicBlocks

/-- A block whose messages have safe numbers. -/
def Safe (block : Block) : Prop := block.first + block.size ≤ MAX_SAFE_INTEGER

def labelText (block : Block) : String := block.first.repr ++ "+" ++ block.size.repr

/-- The line of a safe block: its node's, or the pending one. -/
def lineText (nodes : NodeMap) (reason : String) (block : Block) : String :=
  match nodes block with
  | some node => labelText block ++ "|" ++ String.ofList (onOneLine node.text.toList)
  | none => labelText block ++ "|(" ++ reason ++ ": zoom it)"

def currentEntry (nodes : NodeMap) (block : Block) : ContinuousChatViewEntry :=
  { block with size := lineBytes (lineText nodes CONTINUOUS_CHAT_NOT_SUMMARIZED block) }

/-- Every entry has the line of the tree. -/
def Current (nodes : NodeMap) (entries : List ContinuousChatViewEntry) : Prop :=
  ∀ entry ∈ entries, entry = currentEntry nodes entry.toBlock

def blocks (entries : List ContinuousChatViewEntry) : List Block :=
  entries.map ContinuousChatViewEntry.toBlock

@[simp]
theorem currentEntry_toBlock (nodes : NodeMap) (block : Block) :
    (currentEntry nodes block).toBlock = block :=
  rfl

variable {block : Block}

section

variable (safe : Safe block)
include safe

theorem Safe.size_le : block.size ≤ MAX_SAFE_INTEGER :=
  (Nat.le_add_left _ _).trans safe

theorem Safe.first_le : block.first ≤ MAX_SAFE_INTEGER :=
  (Nat.le_add_right _ _).trans safe

theorem Safe.level_le : block.level ≤ 52 := by
  have less : 2 ^ block.level < 2 ^ 53 := Nat.lt_of_le_of_lt safe.size_le (by decide)
  exact Nat.le_of_lt_succ ((Nat.pow_lt_pow_iff_right Nat.one_lt_two).mp less)

theorem Safe.ordinal_le : block.ordinal ≤ MAX_SAFE_INTEGER :=
  (Nat.le_mul_of_pos_right _ block.size_pos).trans safe.first_le

theorem continuousChatNodeMessageCount_eq :
    continuousChatNodeMessageCount block.level = .ok block.size := by
  have size := safe.size_le
  simp only [Block.size] at size
  simp only [continuousChatNodeMessageCount, Nat.not_lt.mpr safe.level_le, Nat.not_lt.mpr size,
    if_false, Block.size]

theorem continuousChatNodeFirstMessage_eq :
    continuousChatNodeFirstMessage block = .ok block.first := by
  have first := safe.first_le
  simp only [continuousChatNodeFirstMessage, continuousChatNodeMessageCount_eq safe,
    Nat.not_lt.mpr safe.ordinal_le, if_false]
  exact if_neg (Nat.not_lt.mpr first)

theorem continuousChatNodeLabel_eq : continuousChatNodeLabel block = .ok (labelText block) := by
  simp only [continuousChatNodeLabel, continuousChatNodeFirstMessage_eq safe,
    continuousChatNodeMessageCount_eq safe]
  rfl

end

variable {nodes : NodeMap}

theorem entryForNode_eq {node : ContinuousChatTreeNode} (safe : Safe block)
    (built : nodes block = some node) :
    entryForNode block node = .ok (currentEntry nodes block) := by
  simp only [entryForNode, renderContinuousChatViewLine, continuousChatNodeLabel_eq safe,
    currentEntry, lineText, built]
  rfl

theorem entryForCoordinate_eq (nodes : NodeMap) (safe : Safe block) :
    entryForCoordinate nodes block = .ok (currentEntry nodes block) := by
  cases built : nodes block with
  | some node =>
      simp only [entryForCoordinate, built]
      exact entryForNode_eq safe built
  | none =>
      simp only [entryForCoordinate, built, renderContinuousChatPendingLine,
        continuousChatNodeLabel_eq safe, currentEntry, lineText]
      rfl

variable (chars : List Char)

theorem utf8ByteSize_ofList :
    (String.ofList chars).utf8ByteSize = (chars.map Char.utf8Size).sum := by
  induction chars with
  | nil => rfl
  | cons char rest ih =>
      have split : String.ofList (char :: rest) = String.singleton char ++ String.ofList rest := by
        simp
      rw [split, String.utf8ByteSize_append, String.utf8ByteSize_singleton, ih, List.map_cons,
        List.sum_cons]

theorem utf8ByteSize_ofList_le : (String.ofList chars).utf8ByteSize ≤ 4 * chars.length := by
  rw [utf8ByteSize_ofList]
  induction chars with
  | nil => exact Nat.le_refl 0
  | cons char rest ih =>
      have size := char.utf8Size_le_four
      simp only [List.map_cons, List.sum_cons, List.length_cons]
      omega

theorem sum_onOneLine_le :
    ((onOneLine chars).map Char.utf8Size).sum ≤ (chars.map Char.utf8Size).sum := by
  induction chars using onOneLine.induct with
  | case1 rest ih =>
      simp only [onOneLine, List.map_cons, List.sum_cons]
      have space : ' '.utf8Size ≤ '\n'.utf8Size := by decide
      omega
  | case2 rest ih =>
      simp only [onOneLine, List.map_cons, List.sum_cons]
      have space : ' '.utf8Size ≤ '\n'.utf8Size := by decide
      omega
  | case3 char rest notBoth notLine ih =>
      rw [onOneLine]
      · simp only [List.map_cons, List.sum_cons]
        omega
      · exact notBoth
      · exact notLine
  | case4 => exact Nat.le_refl _

theorem utf8ByteSize_repr_le {number : Nat} (safe : number ≤ MAX_SAFE_INTEGER) :
    number.repr.utf8ByteSize ≤ 64 := by
  have digits : (Nat.toDigits 10 number).length ≤ 16 :=
    (Nat.length_toDigits_le_iff (by decide) (by decide)).mpr
      (Nat.lt_of_le_of_lt safe (by decide))
  rw [Nat.repr_eq_ofList_toDigits]
  have bytes := utf8ByteSize_ofList_le (Nat.toDigits 10 number)
  omega

theorem labelText_le (safe : Safe block) : (labelText block).utf8ByteSize ≤ 129 := by
  have first := utf8ByteSize_repr_le safe.first_le
  have size := utf8ByteSize_repr_le safe.size_le
  have plus : "+".utf8ByteSize = 1 := by decide
  simp only [labelText, String.utf8ByteSize_append]
  omega

theorem onOneLine_le (text : String) :
    (String.ofList (onOneLine text.toList)).utf8ByteSize ≤ text.utf8ByteSize := by
  rw [utf8ByteSize_ofList]
  calc
    ((onOneLine text.toList).map Char.utf8Size).sum ≤ (text.toList.map Char.utf8Size).sum :=
      sum_onOneLine_le text.toList
    _ = text.utf8ByteSize := by rw [← utf8ByteSize_ofList, String.ofList_toList]

theorem lineBytes_le (safe : Safe block) (reason : String) :
    lineBytes (lineText nodes reason block) ≤
      256 + CONTINUOUS_CHAT_NODE_MAX_BYTES + reason.utf8ByteSize := by
  have label := labelText_le safe
  have newline : "\n".utf8ByteSize = 1 := by decide
  simp only [lineBytes, utf8Length, lineText, String.utf8ByteSize_append, newline]
  split
  next node built =>
    have text := (onOneLine_le node.text).trans node.bounded
    have bar : "|".utf8ByteSize = 1 := by decide
    simp only [String.utf8ByteSize_append, bar]
    omega
  · have opening : "|(".utf8ByteSize = 2 := by decide
    have closing : ": zoom it)".utf8ByteSize = 10 := by decide
    simp only [String.utf8ByteSize_append, opening, closing]
    omega

theorem currentEntry_size_le (safe : Safe block) :
    (currentEntry nodes block).size ≤ MAX_SAFE_INTEGER :=
  (lineBytes_le safe CONTINUOUS_CHAT_NOT_SUMMARIZED).trans (by decide +kernel)

theorem mapM_eq_ok {α β : Type} {f : α → Except String β} {g : α → β} {list : List α}
    (each : ∀ element ∈ list, f element = .ok (g element)) : list.mapM f = .ok (list.map g) := by
  induction list with
  | nil => rfl
  | cons element rest ih =>
      rw [List.mapM_cons, each element List.mem_cons_self,
        ih fun other mem => each other (List.mem_cons_of_mem element mem)]
      rfl

/-- Every block of a tiling of safely numbered messages is safe. -/
theorem safe_of_tiles {start finish : Nat} {tiling : List Block}
    (tiled : Tiles start tiling finish) (few : finish ≤ MAX_SAFE_INTEGER) :
    ∀ block ∈ tiling, Safe block :=
  fun _ mem => (tiled.end_le mem).trans few

variable {entries : List ContinuousChatViewEntry}

theorem messageAfter_eq {start finish : Nat} (tiled : Tiles start (blocks entries) finish)
    (few : finish ≤ MAX_SAFE_INTEGER) : messageAfter start entries = .ok finish := by
  induction entries generalizing start with
  | nil =>
      cases tiled
      rfl
  | cons entry rest ih =>
      have safe := safe_of_tiles tiled few entry.toBlock List.mem_cons_self
      obtain ⟨begins, rest⟩ := tiled
      simp only [messageAfter, continuousChatNodeFirstMessage_eq safe,
        continuousChatNodeMessageCount_eq safe]
      exact (if_neg (not_not.mpr begins)).trans (ih rest)

/-- The entries of a view tile its messages. -/
def Tiled (state : ContinuousChatViewState) : Prop :=
  Tiles 0 (blocks state.entries) state.totalMessages

variable {state : ContinuousChatViewState}

theorem validateCompletePartition_eq (tiled : Tiled state)
    (few : state.totalMessages ≤ MAX_SAFE_INTEGER) : validateCompletePartition state = .ok () := by
  simp only [validateCompletePartition, messageAfter_eq tiled few]
  exact if_neg (not_not.mpr rfl)

theorem mostDuePairFrom_ok (totalMessages index : Nat) (nodes : NodeMap)
    (selected : Option DuePair) (safe : ∀ block ∈ blocks entries, Safe block) :
    ∃ pair, mostDuePairFrom totalMessages nodes index selected entries = .ok pair := by
  induction entries generalizing index selected with
  | nil => exact ⟨selected, rfl⟩
  | cons left entries ih =>
      cases entries with
      | nil => exact ⟨selected, rfl⟩
      | cons right rest =>
          have safeRest := fun block mem => safe block (List.mem_cons_of_mem _ mem)
          simp only [mostDuePairFrom]
          split
          · exact ih _ _ safeRest
          · have safeLeft := safe left.toBlock List.mem_cons_self
            have safeRight := safeRest right.toBlock List.mem_cons_self
            simp only [dueOf, continuousChatNodeFirstMessage_eq safeRight,
              continuousChatNodeMessageCount_eq safeRight,
              continuousChatNodeMessageCount_eq safeLeft]
            exact ih _ _ safeRest

theorem splicePair_append (before after : List ContinuousChatViewEntry)
    (left right entry : ContinuousChatViewEntry) :
    splicePair (before ++ left :: right :: after) before.length entry =
      before ++ entry :: after := by
  simp [splicePair]

/-- What merging leaves: a tiling with current lines, in which nothing more is merged. -/
structure Merged (totalMessages lowBytes : Nat) (nodes : NodeMap)
    (entries merged : List ContinuousChatViewEntry) : Prop where
  merges : mergeDuePairs totalMessages lowBytes nodes entries = .ok merged
  tiled : Tiles 0 (blocks merged) totalMessages
  current : Current nodes merged
  done : mergeDuePairs totalMessages lowBytes nodes merged = .ok merged

theorem mergeDuePairs_of_none (lowBytes : Nat) {totalMessages : Nat}
    (unselected : mostDuePair totalMessages entries nodes = .ok none) :
    mergeDuePairs totalMessages lowBytes nodes entries = .ok entries := by
  rw [mergeDuePairs]
  split
  · split
    next failed => cases unselected.symm.trans failed
    · rfl
    next found => cases unselected.symm.trans found
  · rfl

variable {entry : ContinuousChatViewEntry} {totalMessages lowBytes : Nat}

theorem mergeDuePairs_of_some {selected : DuePair} (exceeding : lowBytes < entryBytes entries)
    (found : mostDuePair totalMessages entries nodes = .ok (some selected))
    (made : entryForNode selected.parent selected.node = .ok entry) :
    mergeDuePairs totalMessages lowBytes nodes entries =
      mergeDuePairs totalMessages lowBytes nodes (splicePair entries selected.index entry) := by
  rw [mergeDuePairs, if_pos exceeding]
  split
  next failed => cases found.symm.trans failed
  next none => cases found.symm.trans none
  next other otherFound =>
    cases found.symm.trans otherFound
    simp only [made]

/-- A selected pair gives way to its built parent. -/
theorem splicePair_selected {totalMessages : Nat} {selected : DuePair}
    (few : totalMessages ≤ MAX_SAFE_INTEGER) (tiled : Tiles 0 (blocks entries) totalMessages)
    (current : Current nodes entries)
    (found : mostDuePair totalMessages entries nodes = .ok (some selected)) :
    ∃ entry, entryForNode selected.parent selected.node = .ok entry ∧
      Tiles 0 (blocks (splicePair entries selected.index entry)) totalMessages ∧
      Current nodes (splicePair entries selected.index entry) := by
  obtain chosen | ⟨before, left, right, after, rfl, place, siblings, built⟩ :=
    mostDuePairFrom_eq_some found
  · cases chosen
  · have pair : Tiles 0 (blocks before ++ left.toBlock :: right.toBlock :: blocks after)
        totalMessages := by
      simpa [blocks] using tiled
    have joined := pair.join siblings
    have safe : Safe selected.parent := safe_of_tiles joined few _ (by simp)
    refine ⟨currentEntry nodes selected.parent, entryForNode_eq safe built, ?_⟩
    have index : selected.index = before.length := by omega
    rw [index, splicePair_append]
    refine ⟨by simpa [blocks] using joined, fun entry mem => ?_⟩
    rcases List.mem_append.mp mem with earlier | later
    · exact current entry (List.mem_append_left _ earlier)
    · rcases List.mem_cons.mp later with rfl | later
      · rfl
      · refine current entry (List.mem_append_right _ ?_)
        exact List.mem_cons_of_mem _ (List.mem_cons_of_mem _ later)

theorem exists_merged (few : totalMessages ≤ MAX_SAFE_INTEGER)
    (tiled : Tiles 0 (blocks entries) totalMessages) (current : Current nodes entries) :
    ∃ merged, Merged totalMessages lowBytes nodes entries merged := by
  induction entries using mergeDuePairs.induct totalMessages lowBytes nodes with
  | case1 entries exceeding reason failed =>
      obtain ⟨pair, found⟩ := mostDuePairFrom_ok totalMessages 0 nodes none
        (safe_of_tiles tiled few)
      cases failed.symm.trans found
  | case2 entries exceeding unselected =>
      have stays := mergeDuePairs_of_none lowBytes unselected
      exact ⟨entries, stays, tiled, current, stays⟩
  | case3 entries exceeding selected found reason failed =>
      obtain ⟨entry, made, _⟩ := splicePair_selected few tiled current found
      cases failed.symm.trans made
  | case4 entries exceeding selected found entry made ih =>
      obtain ⟨other, madeOther, tiledAfter, currentAfter⟩ :=
        splicePair_selected few tiled current found
      cases made.symm.trans madeOther
      obtain ⟨merged, later⟩ := ih tiledAfter currentAfter
      exact ⟨merged, { later with
        merges := (mergeDuePairs_of_some exceeding found made).trans later.merges }⟩
  | case5 entries low =>
      have stays : mergeDuePairs totalMessages lowBytes nodes entries = .ok entries := by
        rw [mergeDuePairs, if_neg low]
      exact ⟨entries, stays, tiled, current, stays⟩

def refreshedEntries (nodes : NodeMap) (state : ContinuousChatViewState) :
    List ContinuousChatViewEntry :=
  state.entries.map fun entry => currentEntry nodes entry.toBlock

@[simp]
theorem blocks_refreshedEntries (nodes : NodeMap) (state : ContinuousChatViewState) :
    blocks (refreshedEntries nodes state) = blocks state.entries := by
  simp [blocks, refreshedEntries]

theorem current_refreshedEntries (nodes : NodeMap) (state : ContinuousChatViewState) :
    Current nodes (refreshedEntries nodes state) := by
  intro entry mem
  obtain ⟨old, _, rfl⟩ := List.mem_map.mp mem
  rfl

theorem refreshedEntries_of_current (current : Current nodes state.entries) :
    refreshedEntries nodes state = state.entries :=
  (List.map_congr_left fun entry mem => (current entry mem).symm).trans (List.map_id _)

theorem mapM_entryForCoordinate (tiled : Tiled state)
    (few : state.totalMessages ≤ MAX_SAFE_INTEGER) :
    (state.entries.mapM fun entry => entryForCoordinate nodes entry.toBlock) =
      .ok (refreshedEntries nodes state) :=
  mapM_eq_ok fun _ mem => entryForCoordinate_eq nodes
    (safe_of_tiles tiled few _ (List.mem_map_of_mem mem))

theorem exists_merged_refreshed (nodes : NodeMap) (tiled : Tiled state)
    (few : state.totalMessages ≤ MAX_SAFE_INTEGER) :
    ∃ merged, Merged state.totalMessages state.lowBytes nodes (refreshedEntries nodes state)
      merged :=
  exists_merged few (by rw [blocks_refreshedEntries]; exact tiled)
    (current_refreshedEntries nodes state)

/-- Whether a refresh fits a view whose lines have some size. -/
def Fits (state : ContinuousChatViewState) (fit : ContinuousChatViewFit) (before : Nat) : Prop :=
  state.highBytes < before ∨ fit = .arrival ∧ state.batchPending = true

/-- Whether a refresh commits the merged entries. -/
def Commits (state : ContinuousChatViewState) (fit : ContinuousChatViewFit) (before after : Nat) :
    Prop :=
  fit = .arrival ∨ after ≤ max state.lowBytes (before - state.highBytes)

instance (state : ContinuousChatViewState) (fit : ContinuousChatViewFit) (before : Nat) :
    Decidable (Fits state fit before) :=
  inferInstanceAs (Decidable (_ ∨ _))

instance (state : ContinuousChatViewState) (fit : ContinuousChatViewFit) (before after : Nat) :
    Decidable (Commits state fit before after) :=
  inferInstanceAs (Decidable (_ ∨ _))

@[simp]
theorem fits_background {before : Nat} :
    Fits state .background before ↔ state.highBytes < before := by
  simp [Fits]

@[simp]
theorem commits_background {before after : Nat} :
    Commits state .background before after ↔
      after ≤ max state.lowBytes (before - state.highBytes) := by
  simp [Commits]

/-- The view that a refresh makes of its refreshed and its merged entries. -/
def refreshedView (state : ContinuousChatViewState) (fit : ContinuousChatViewFit)
    (entries merged : List ContinuousChatViewEntry) : ContinuousChatViewState :=
  let before := entryBytes entries
  let fitted := if Commits state fit before (entryBytes merged) then merged else entries
  if Fits state fit before then
    { state with
      revision := state.revision + 1
      entries := fitted
      batchPending := decide (state.lowBytes < entryBytes fitted) }
  else { state with revision := state.revision + 1, entries }

section

variable {state : ContinuousChatViewState} {nodes : NodeMap}
  {merged : List ContinuousChatViewEntry} {fit : ContinuousChatViewFit}

@[simp]
theorem refreshedView_totalMessages :
    (refreshedView state fit entries merged).totalMessages = state.totalMessages := by
  simp only [refreshedView]
  split <;> rfl

theorem refreshedView_entries (state : ContinuousChatViewState) (fit : ContinuousChatViewFit)
    (entries merged : List ContinuousChatViewEntry) :
    (refreshedView state fit entries merged).entries = merged ∨
      (refreshedView state fit entries merged).entries = entries := by
  simp only [refreshedView]
  split
  · split
    · exact .inl rfl
    · exact .inr rfl
  · exact .inr rfl

theorem tiled_refreshedView (fit : ContinuousChatViewFit) (tiled : Tiled state)
    (merges : Merged state.totalMessages state.lowBytes nodes (refreshedEntries nodes state)
      merged) :
    Tiled (refreshedView state fit (refreshedEntries nodes state) merged) := by
  rw [Tiled, refreshedView_totalMessages]
  rcases refreshedView_entries state fit (refreshedEntries nodes state) merged with same | same
  · rw [same]
    exact merges.tiled
  · rw [same, blocks_refreshedEntries]
    exact tiled

theorem current_refreshedView (fit : ContinuousChatViewFit)
    (merges : Merged state.totalMessages state.lowBytes nodes (refreshedEntries nodes state)
      merged) :
    Current nodes (refreshedView state fit (refreshedEntries nodes state) merged).entries := by
  rcases refreshedView_entries state fit (refreshedEntries nodes state) merged with same | same
  · rw [same]
    exact merges.current
  · rw [same]
    exact current_refreshedEntries nodes state

end

variable {entries merged : List ContinuousChatViewEntry}

theorem fittedEntries_eq (fit : ContinuousChatViewFit)
    (merges : Merged state.totalMessages state.lowBytes nodes entries merged) :
    fittedEntries state nodes fit entries =
      .ok (if Commits state fit (entryBytes entries) (entryBytes merged) then merged
        else entries) := by
  simp only [fittedEntries, merges.merges]
  by_cases commits : Commits state fit (entryBytes entries) (entryBytes merged)
  · rw [if_pos commits]
    exact if_pos commits
  · rw [if_neg commits]
    exact if_neg commits

theorem fittedView_eq (fit : ContinuousChatViewFit)
    (merges : Merged state.totalMessages state.lowBytes nodes entries merged) :
    fittedView state nodes fit entries = .ok (refreshedView state fit entries merged) := by
  simp only [fittedView, fittedEntries_eq fit merges]
  by_cases fits : Fits state fit (entryBytes entries)
  · rw [refreshedView, if_pos fits]
    exact if_pos fits
  · rw [refreshedView, if_neg fits]
    exact if_neg fits

theorem refreshContinuousChatView_eq
    {merged : List ContinuousChatViewEntry} (fit : ContinuousChatViewFit) (tiled : Tiled state)
    (few : state.totalMessages ≤ MAX_SAFE_INTEGER)
    (merges : Merged state.totalMessages state.lowBytes nodes (refreshedEntries nodes state)
      merged) :
    refreshContinuousChatView state nodes fit =
      .ok (refreshedView state fit (refreshedEntries nodes state) merged) := by
  have valid := validateCompletePartition_eq
    (tiled_refreshedView fit tiled merges)
    (by rw [refreshedView_totalMessages]; exact few)
  simp only [refreshContinuousChatView, mapM_entryForCoordinate tiled few]
  calc
    (fittedView state nodes fit (refreshedEntries nodes state) >>= fun view =>
        validateCompletePartition view >>= fun _ => Except.ok view) =
        (validateCompletePartition
          (refreshedView state fit (refreshedEntries nodes state) merged) >>= fun _ => .ok _) := by
      rw [fittedView_eq fit merges]
      rfl
    _ = .ok (refreshedView state fit (refreshedEntries nodes state) merged) := by
      rw [valid]
      rfl

/-- A second background refresh only counts a revision. -/
theorem refresh_refresh {state first : ContinuousChatViewState} (tiled : Tiled state)
    (few : state.totalMessages ≤ MAX_SAFE_INTEGER)
    (refreshed : refreshContinuousChatView state nodes .background = .ok first) :
    refreshContinuousChatView first nodes .background =
      .ok { first with revision := first.revision + 1 } := by
  obtain ⟨merged, merges⟩ := exists_merged_refreshed nodes tiled few
  have made := refreshContinuousChatView_eq .background tiled few merges
  cases made.symm.trans refreshed
  have tiledFirst := tiled_refreshedView .background tiled merges
  have same := refreshedEntries_of_current (current_refreshedView .background merges)
  have again (later : ContinuousChatViewState) (tiledLater : Tiled later)
      (messages : later.totalMessages = state.totalMessages)
      (low : later.lowBytes = state.lowBytes)
      (lines : refreshedEntries nodes later = later.entries)
      (entries : later.entries = merged ∨ later.entries = refreshedEntries nodes state) :
      refreshContinuousChatView later nodes .background =
        .ok (refreshedView later .background later.entries merged) := by
    have mergesLater : Merged later.totalMessages later.lowBytes nodes
        (refreshedEntries nodes later) merged := by
      rw [messages, low, lines]
      rcases entries with entries | entries
      · rw [entries]
        exact { merges with merges := merges.done }
      · rw [entries]
        exact merges
    rw [refreshContinuousChatView_eq .background tiledLater (by rw [messages]; exact few)
      mergesLater, lines]
  rw [again _ tiledFirst refreshedView_totalMessages (by simp only [refreshedView]; split <;> rfl)
    same (refreshedView_entries _ _ _ _)]
  by_cases fits : state.highBytes < entryBytes (refreshedEntries nodes state)
  · by_cases commits : entryBytes merged ≤
        max state.lowBytes (entryBytes (refreshedEntries nodes state) - state.highBytes)
    · simp only [refreshedView, fits_background, commits_background, if_pos fits, if_pos commits,
        ite_self]
    · simp only [refreshedView, fits_background, commits_background, if_pos fits, if_neg commits]
  · simp only [refreshedView, fits_background, commits_background, if_neg fits]

/-- A view after at most a number of calls. -/
structure Sound (kind : ContinuousChatViewKind) (calls : Nat) (state : ContinuousChatViewState) :
    Prop where
  kind_eq : state.kind = kind
  low_eq : state.lowBytes = (createContinuousChatView kind).lowBytes
  high_eq : state.highBytes = (createContinuousChatView kind).highBytes
  revision_le : state.revision ≤ calls
  messages_le : state.totalMessages ≤ calls
  tiled : Tiled state
  sizes : ∀ entry ∈ state.entries, entry.size ≤ MAX_SAFE_INTEGER

theorem sound_create (kind : ContinuousChatViewKind) :
    Sound kind 0 (createContinuousChatView kind) where
  kind_eq := rfl
  low_eq := rfl
  high_eq := rfl
  revision_le := Nat.le_refl 0
  messages_le := Nat.le_refl 0
  tiled := rfl
  sizes := fun _ mem => absurd mem List.not_mem_nil

variable {kind : ContinuousChatViewKind} {calls : Nat} {state : ContinuousChatViewState}
  {nodes : NodeMap}

theorem Sound.mono (sound : Sound kind calls state) : Sound kind (calls + 1) state :=
  { sound with
    revision_le := Nat.le_succ_of_le sound.revision_le
    messages_le := Nat.le_succ_of_le sound.messages_le }

theorem sizes_of_current (tiled : Tiles 0 (blocks entries) state.totalMessages)
    (few : state.totalMessages ≤ MAX_SAFE_INTEGER) (current : Current nodes entries) :
    ∀ entry ∈ entries, entry.size ≤ MAX_SAFE_INTEGER := by
  intro entry mem
  rw [current entry mem]
  exact currentEntry_size_le (safe_of_tiles tiled few _ (List.mem_map_of_mem mem))

/-- A refresh of a tiled view returns, and what it returns is sound after one more call. -/
theorem refresh_sound (fit : ContinuousChatViewFit) (kind_eq : state.kind = kind)
    (low_eq : state.lowBytes = (createContinuousChatView kind).lowBytes)
    (high_eq : state.highBytes = (createContinuousChatView kind).highBytes)
    (revision_le : state.revision ≤ calls) (messages_le : state.totalMessages ≤ calls + 1)
    (room : calls < MAX_SAFE_INTEGER) (tiled : Tiled state) :
    ∃ after, refreshContinuousChatView state nodes fit = .ok after ∧
      Sound kind (calls + 1) after := by
  have few : state.totalMessages ≤ MAX_SAFE_INTEGER := messages_le.trans room
  obtain ⟨merged, merges⟩ := exists_merged_refreshed nodes tiled few
  refine ⟨_, refreshContinuousChatView_eq fit tiled few merges, ?_⟩
  have tiledAfter := tiled_refreshedView fit tiled merges
  have kept : ∀ entries : List ContinuousChatViewEntry,
      (refreshedView state fit entries merged).kind = state.kind ∧
      (refreshedView state fit entries merged).lowBytes = state.lowBytes ∧
      (refreshedView state fit entries merged).highBytes = state.highBytes ∧
      (refreshedView state fit entries merged).revision = state.revision + 1 := by
    intro entries
    simp only [refreshedView]
    split <;> exact ⟨rfl, rfl, rfl, rfl⟩
  obtain ⟨keptKind, keptLow, keptHigh, counted⟩ := kept (refreshedEntries nodes state)
  exact {
    kind_eq := keptKind.trans kind_eq
    low_eq := keptLow.trans low_eq
    high_eq := keptHigh.trans high_eq
    revision_le := by rw [counted]; exact Nat.succ_le_succ revision_le
    messages_le := by rw [refreshedView_totalMessages]; exact messages_le
    tiled := tiledAfter
    sizes := sizes_of_current tiledAfter (by rw [refreshedView_totalMessages]; exact few)
      (current_refreshedView fit merges) }

section

variable (sound : Sound kind calls state)
include sound

theorem Sound.refresh (nodes : NodeMap) (room : calls < MAX_SAFE_INTEGER)
    (fit : ContinuousChatViewFit) :
    ∃ after, refreshContinuousChatView state nodes fit = .ok after ∧
      Sound kind (calls + 1) after :=
  refresh_sound fit sound.kind_eq sound.low_eq sound.high_eq sound.revision_le
    (Nat.le_succ_of_le sound.messages_le) room sound.tiled

/-- An arriving message is appended as a leaf. -/
theorem Sound.advance (nodes : NodeMap) (room : calls < MAX_SAFE_INTEGER) :
    ∃ after, advanceContinuousChatView state state.totalMessages nodes = .ok after ∧
      Sound kind (calls + 1) after := by
  have few : state.totalMessages < MAX_SAFE_INTEGER :=
    Nat.lt_of_le_of_lt sound.messages_le room
  have safeLeaf : Safe { level := 0, ordinal := state.totalMessages } := by
    simp only [Safe, Block.first, Block.size]
    omega
  have tiledLonger : Tiles 0
      (blocks (refreshedEntries nodes state ++
        [currentEntry nodes { level := 0, ordinal := state.totalMessages }]))
      (state.totalMessages + 1) := by
    rw [blocks, List.map_append, ← blocks, blocks_refreshedEntries]
    exact tiles_append.mpr ⟨state.totalMessages, sound.tiled, by simp [Block.first, Block.size]⟩
  have appended : advanceContinuousChatView state state.totalMessages nodes =
      refreshContinuousChatView
        { state with
          totalMessages := state.totalMessages + 1
          entries := refreshedEntries nodes state ++
            [currentEntry nodes { level := 0, ordinal := state.totalMessages }] } nodes .arrival := by
    have next : ¬(MAX_SAFE_INTEGER < state.totalMessages ∨
        state.totalMessages ≠ state.totalMessages) := by
      simp only [ne_eq, not_true_eq_false, or_false, not_lt]
      exact few.le
    rw [advanceContinuousChatView, if_neg next, mapM_entryForCoordinate sound.tiled few.le,
      entryForCoordinate_eq nodes safeLeaf]
    rfl
  rw [appended]
  exact refresh_sound .arrival sound.kind_eq sound.low_eq sound.high_eq sound.revision_le
    (Nat.succ_le_succ sound.messages_le) room tiledLonger

/-- Every call keeps a view sound, also one that throws. -/
theorem Sound.after (room : calls < MAX_SAFE_INTEGER) (call : ViewCall) :
    Sound kind (calls + 1) (call.after state) := by
  cases call with
  | refresh nodes fit =>
      obtain ⟨after, made, soundAfter⟩ := sound.refresh nodes room fit
      rw [ViewCall.after, ViewCall.apply, made]
      exact soundAfter
  | advance messageId nodes =>
      by_cases next : messageId = state.totalMessages
      · subst next
        obtain ⟨after, made, soundAfter⟩ := sound.advance nodes room
        rw [ViewCall.after, ViewCall.apply, made]
        exact soundAfter
      · have refused : advanceContinuousChatView state messageId nodes =
            .error "Continuous-chat view can only append its exact next message leaf." :=
          if_pos (.inr next)
        rw [ViewCall.after, ViewCall.apply, refused]
        exact sound.mono

theorem sound_foldl (more : List ViewCall) (room : calls + more.length ≤ MAX_SAFE_INTEGER) :
    Sound kind (calls + more.length) (more.foldl ViewCall.after state) := by
  induction more generalizing calls state with
  | nil => exact sound
  | cons call more ih =>
      rw [List.length_cons] at room
      have later := ih (sound.after (by omega) call) (by omega)
      rwa [List.length_cons, List.foldl_cons, Nat.add_comm more.length 1, ← Nat.add_assoc]

end

theorem sound_viewAfter (kind : ContinuousChatViewKind) {more : List ViewCall}
    (room : more.length ≤ MAX_SAFE_INTEGER) : Sound kind more.length (viewAfter kind more) := by
  have sound := sound_foldl (sound_create kind) more (by omega)
  rwa [Nat.zero_add] at sound

theorem isSafeInteger_natCast (number : Nat) :
    isSafeInteger (number : ℚ) = decide (number ≤ MAX_SAFE_INTEGER) := by
  exact decide_eq_decide.mpr Iff.rfl

theorem safeField_eq {value : Json} {name : String} {least number : Nat}
    (found : value.field name = some (.num number)) (enough : least ≤ number)
    (safe : number ≤ MAX_SAFE_INTEGER) : safeField value name least = some number := by
  have natural : (number : ℚ).num.toNat = number := by simp
  simp only [safeField, found, isSafeInteger_natCast, decide_eq_true safe, Nat.cast_le, enough,
    natural]
  rfl

theorem parseEntry_stored (safe : Safe entry.toBlock) (size : entry.size ≤ MAX_SAFE_INTEGER) :
    parseEntry entry.stored = some entry := by
  have level : safeField entry.stored "level" 0 = some entry.level :=
    safeField_eq rfl (Nat.zero_le _) (safe.level_le.trans (by decide))
  have ordinal : safeField entry.stored "ordinal" 0 = some entry.ordinal :=
    safeField_eq rfl (Nat.zero_le _) safe.ordinal_le
  have bytes : safeField entry.stored "size" 0 = some entry.size :=
    safeField_eq rfl (Nat.zero_le _) size
  simp only [ContinuousChatViewEntry.stored] at level ordinal bytes ⊢
  simp [parseEntry, level, ordinal, bytes]

theorem mapM_parseEntry (safe : ∀ block ∈ blocks entries, Safe block)
    (sizes : ∀ entry ∈ entries, entry.size ≤ MAX_SAFE_INTEGER) :
    (entries.map ContinuousChatViewEntry.stored).mapM parseEntry = some entries := by
  induction entries with
  | nil => rfl
  | cons entry rest ih =>
      have first := parseEntry_stored (safe entry.toBlock List.mem_cons_self)
        (sizes entry List.mem_cons_self)
      have later := ih (fun block mem => safe block (List.mem_cons_of_mem _ mem))
        fun other mem => sizes other (List.mem_cons_of_mem _ mem)
      rw [List.map_cons, List.mapM_cons, first, later]
      rfl

/-- A stored view that is sound is accepted as it is. -/
theorem Sound.parse (sound : Sound kind calls state) (room : calls ≤ MAX_SAFE_INTEGER) :
    parseContinuousChatView state.stored kind = some state := by
  obtain rfl := sound.kind_eq
  obtain ⟨low, high⟩ : 1 ≤ state.lowBytes ∧ state.lowBytes + 1 ≤ state.highBytes ∧
      state.highBytes ≤ MAX_SAFE_INTEGER := by
    rw [sound.low_eq, sound.high_eq]
    cases state.kind <;> decide
  have few := sound.messages_le.trans room
  have revision : safeField state.stored "revision" 0 = some state.revision :=
    safeField_eq rfl (Nat.zero_le _) (sound.revision_le.trans room)
  have messages : safeField state.stored "totalMessages" 0 = some state.totalMessages :=
    safeField_eq rfl (Nat.zero_le _) few
  have lowBytes : safeField state.stored "lowBytes" 1 = some state.lowBytes :=
    safeField_eq rfl low (by omega)
  have highBytes : safeField state.stored "highBytes" (state.lowBytes + 1) =
      some state.highBytes :=
    safeField_eq rfl high.1 high.2
  have entries := mapM_parseEntry (safe_of_tiles sound.tiled few) sound.sizes
  have kept : ¬(state.lowBytes ≠ (createContinuousChatView state.kind).lowBytes ∨
      state.highBytes ≠ (createContinuousChatView state.kind).highBytes) := by
    simp [sound.low_eq, sound.high_eq]
  have read : readView state.stored state.kind state.batchPending
      (state.entries.map ContinuousChatViewEntry.stored) = some state := by
    simp only [readView, revision, messages, lowBytes, highBytes, entries, Option.bind_eq_bind,
      Option.bind_some, if_neg kept, validateCompletePartition_eq sound.tiled few]
    rfl
  calc
    parseContinuousChatView state.stored state.kind =
        if (CONTINUOUS_CHAT_VIEW_SCHEMA_VERSION : ℚ) = CONTINUOUS_CHAT_VIEW_SCHEMA_VERSION ∧
          state.kind.text = state.kind.text then readView state.stored state.kind
            state.batchPending (state.entries.map ContinuousChatViewEntry.stored) else none := rfl
    _ = some state := by rw [if_pos ⟨rfl, rfl⟩, read]

end PiAdaptative.ChatViews
