import PiAdaptative.TranscriptFrontier.Views
import Mathlib.Data.List.TakeWhile

/-!
# What a view shows and hides

The items of a view tile what the selection covers, up to where the view stops.  Each visit of an
accepted node keeps this: a node that is not mixed adds one item, a mixed parent is told by its
children, and a mixed leaf is pointed at or is where the view stops.
-/

namespace PiAdaptative.TranscriptFrontier

/-- The source at a position of the lineage that a selected node covers. -/
def selectedSource (lookup : Lookup) (nodeIds : List String) (position : Nat) :
    Option TranscriptSourceRef :=
  nodeIds.findSome? fun id =>
    (lookup id).bind fun node =>
      (coveredSourceRefs lookup node).bind fun refs =>
        if node.fromIndex ≤ position then refs[position - node.fromIndex]? else none

/-- The nodes are known and each starts at or after a cursor, which then moves to its end. -/
def Chronological (lookup : Lookup) : Nat → List String → Prop
  | _, [] => True
  | cursor, id :: rest =>
    ∃ node, lookup id = some node ∧ cursor ≤ node.fromIndex ∧
      Chronological lookup node.toIndexExclusive rest

/-- The sources from a node's start on are these. -/
def ReadsAs (source : Nat → Option TranscriptSourceRef) (fromIndex : Nat)
    (refs : List TranscriptSourceRef) : Prop :=
  ∀ index < refs.length, source (fromIndex + index) = refs[index]?

variable {source : Nat → Option TranscriptSourceRef}

theorem ReadsAs.of_append {fromIndex : Nat} {front back : List TranscriptSourceRef}
    (reads : ReadsAs source fromIndex (front ++ back)) :
    ReadsAs source fromIndex front ∧ ReadsAs source (fromIndex + front.length) back := by
  constructor
  · intro index inside
    rw [reads index (by rw [List.length_append]; omega), List.getElem?_append_left inside]
  · intro index inside
    rw [Nat.add_assoc, reads (front.length + index) (by rw [List.length_append]; omega),
      List.getElem?_append_right (Nat.le_add_right _ _), Nat.add_sub_cancel_left]

variable {refs : List TranscriptSourceRef}

theorem ReadsAs.exists_ref {fromIndex position : Nat} (reads : ReadsAs source fromIndex refs)
    (starts : fromIndex ≤ position) (inside : position < fromIndex + refs.length) :
    ∃ ref ∈ refs, source position = some ref := by
  have within : position - fromIndex < refs.length := by omega
  refine ⟨refs[position - fromIndex], List.getElem_mem within, ?_⟩
  have read := reads _ within
  rwa [Nat.add_sub_cancel' starts, List.getElem?_eq_getElem within] at read

section Tiling

variable (lookup : Lookup) (standingOf : String → ActiveBranchEntryStanding)
  (source : Nat → Option TranscriptSourceRef)

/-- A node item covers only compacted sources, a visible stretch only visible ones. -/
def FrontierViewItem.Sound : FrontierViewItem → Prop
  | .node kept => ∃ refs, coveredSourceRefs lookup kept = some refs ∧
      ReadsAs source kept.fromIndex refs ∧ ∀ ref ∈ refs, standingOf ref.entryId = .compacted
  | .visible fromIndex toIndexExclusive =>
    ∀ position, fromIndex ≤ position → position < toIndexExclusive →
      ∃ ref, source position = some ref ∧ standingOf ref.entryId = .visible
  | .mixed _ _ _ _ => True

/-- The items are in order and hold every source before a cursor. -/
structure Tiles (items : List FrontierViewItem) (cursor : Nat) : Prop where
  ordered : items.Pairwise fun earlier later => earlier.toIndexExclusive ≤ later.fromIndex
  spans : ∀ item ∈ items, item.fromIndex < item.toIndexExclusive
  ends : ∀ item ∈ items, item.toIndexExclusive ≤ cursor
  sound : ∀ item ∈ items, item.Sound lookup standingOf source
  told : ∀ position < cursor, ∀ ref, source position = some ref →
    ∃ item ∈ items, item.Holds position

/-- The view stops at a selected node with a missing summary below it, or at a leaf with a source
off the branch. -/
def StopsAt (nodeIds : List String) (stop : Nat) : Prop :=
  (∃ id ∈ nodeIds, ∃ node, lookup id = some node ∧ node.fromIndex = stop ∧
    coveredSourceRefs lookup node = none) ∨
  ∃ id leaf position ref, lookup id = some leaf ∧ leaf.children = none ∧ leaf.fromIndex = stop ∧
    stop ≤ position ∧ position < leaf.toIndexExclusive ∧ source position = some ref ∧
    standingOf ref.entryId = .offBranch

variable {lookup standingOf source}

namespace Tiles

variable {items : List FrontierViewItem} {cursor : Nat}

/-- The cursor moves over positions without sources. -/
theorem advance (tiles : Tiles lookup standingOf source items cursor) {next : Nat}
    (after : cursor ≤ next) (bare : ∀ position, cursor ≤ position → position < next →
      source position = none) : Tiles lookup standingOf source items next :=
  { tiles with
    ends := fun item member => (tiles.ends item member).trans after
    told := by
      intro position before ref present
      by_cases earlier : position < cursor
      · exact tiles.told position earlier ref present
      · simp [bare position (by omega) before] at present }

/-- An item that starts at the cursor. -/
theorem push (tiles : Tiles lookup standingOf source items cursor) (item : FrontierViewItem)
    (starts : item.fromIndex = cursor) (spans : item.fromIndex < item.toIndexExclusive)
    (sound : item.Sound lookup standingOf source) :
    Tiles lookup standingOf source (items ++ [item]) item.toIndexExclusive where
  ordered := by
    refine List.pairwise_append.mpr ⟨tiles.ordered, List.pairwise_singleton _ _, ?_⟩
    intro earlier member last isLast
    obtain rfl := List.mem_singleton.mp isLast
    exact starts ▸ tiles.ends earlier member
  spans := by simpa [or_imp, forall_and] using ⟨tiles.spans, spans⟩
  ends := by
    intro other member
    rcases List.mem_append.mp member with earlier | last
    · have := tiles.ends other earlier
      omega
    · exact (List.mem_singleton.mp last) ▸ le_rfl
  sound := by simpa [or_imp, forall_and] using ⟨tiles.sound, sound⟩
  told := by
    intro position before ref present
    by_cases earlier : position < cursor
    · obtain ⟨holder, member, holds⟩ := tiles.told position earlier ref present
      exact ⟨holder, List.mem_append_left _ member, holds⟩
    · exact ⟨item, by simp, by omega, before⟩

/-- The items before the last one tile what comes before it. -/
theorem init {earlier : List FrontierViewItem} {item : FrontierViewItem}
    (tiles : Tiles lookup standingOf source (earlier ++ [item]) cursor) :
    Tiles lookup standingOf source earlier item.fromIndex where
  ordered := (List.pairwise_append.mp tiles.ordered).1
  spans := fun other member => tiles.spans other (List.mem_append_left _ member)
  ends := fun other member =>
    (List.pairwise_append.mp tiles.ordered).2.2 other member item (by simp)
  sound := fun other member => tiles.sound other (List.mem_append_left _ member)
  told := by
    intro position before ref present
    have inside := tiles.spans item (by simp)
    have atEnd := tiles.ends item (by simp)
    obtain ⟨holder, member, holds⟩ := tiles.told position (by omega) ref present
    rcases List.mem_append.mp member with earlierOne | last
    · exact ⟨holder, earlierOne, holds⟩
    · obtain rfl := List.mem_singleton.mp last
      have := holds.1
      omega

/-- A visible stretch at the cursor, joined to the one it follows. -/
theorem pushVisible (tiles : Tiles lookup standingOf source items cursor) {finish : Nat}
    (spans : cursor < finish)
    (shown : ∀ position, cursor ≤ position → position < finish →
      ∃ ref, source position = some ref ∧ standingOf ref.entryId = .visible) :
    Tiles lookup standingOf source (pushVisible items cursor finish) finish := by
  have apart : Tiles lookup standingOf source (items ++ [.visible cursor finish]) finish :=
    tiles.push (.visible cursor finish) rfl spans shown
  unfold TranscriptFrontier.pushVisible
  split
  next start mark last =>
    split
    next follows =>
      obtain ⟨earlier, rfl⟩ := List.getLast?_eq_some_iff.mp last
      subst mark
      have begun : start < cursor := tiles.spans (.visible start cursor) (by simp)
      have before := tiles.sound (.visible start cursor) (by simp)
      rw [List.dropLast_concat]
      refine tiles.init.push (.visible start finish) rfl (begun.trans spans) ?_
      intro position starts ends
      by_cases earlierPart : position < cursor
      · exact before position starts earlierPart
      · exact shown position (by omega) ends
    next => exact apart
  next => exact apart

end Tiles

end Tiling

variable {node : TranscriptFrontierNode} {id : String} {nodeIds : List String} {position : Nat}

section Visits

variable (nodes : AcceptedNodes) (standingOf : String → ActiveBranchEntryStanding)
  (source : Nat → Option TranscriptSourceRef)

theorem ofStanding_eq_nil {standing : ActiveBranchEntryStanding} :
    ofStanding standingOf standing refs = [] ↔
      ∀ ref ∈ refs, standingOf ref.entryId ≠ standing := by
  simp [ofStanding]

/-- The visit went through to a position, or stopped and told all before. -/
def Visited (fromIndex toIndexExclusive : Nat) (after : Projecting) : Prop :=
  (after.offBranch = false ∧
    Tiles nodes.get standingOf source after.items toIndexExclusive) ∨
  (after.offBranch = true ∧ ∃ stop, fromIndex ≤ stop ∧ stop < toIndexExclusive ∧
    StopsAt nodes.get standingOf source [] stop ∧
    Tiles nodes.get standingOf source after.items stop)

variable {nodes standingOf source}

variable {covered : List TranscriptSourceRef} {state : Projecting}

theorem visited_whole (known : nodes.get id = some node) (leaf : node.children = none)
    (reads : ReadsAs source node.fromIndex covered)
    (length : node.fromIndex + covered.length = node.toIndexExclusive)
    (going : state.offBranch = false)
    (tiles : Tiles nodes.get standingOf source state.items node.fromIndex) :
    Visited nodes standingOf source node.fromIndex node.toIndexExclusive
      (visitWhole standingOf node covered state) := by
  have spans := nodes.spans known
  unfold visitWhole
  split
  next off =>
    have : ∃ ref ∈ covered, standingOf ref.entryId = .offBranch := by
      simpa [ofStanding_eq_nil] using off
    obtain ⟨ref, member, standing⟩ := this
    obtain ⟨index, inside, rfl⟩ := List.getElem_of_mem member
    refine .inr ⟨rfl, node.fromIndex, le_rfl, spans, .inr ?_, tiles⟩
    refine ⟨id, node, node.fromIndex + index, _, known, leaf, rfl, by omega, by omega, ?_,
      standing⟩
    rw [reads index inside, List.getElem?_eq_getElem inside]
  next =>
    exact .inl ⟨going, tiles.push (.mixed node _ _ _) rfl spans trivial⟩

/-- The sources of a node are neither all compacted nor all visible. -/
def IsMixed (standingOf : String → ActiveBranchEntryStanding)
    (covered : List TranscriptSourceRef) : Prop :=
  ¬(ofStanding standingOf .offBranch covered = [] ∧ ofStanding standingOf .visible covered = []) ∧
  ¬(ofStanding standingOf .offBranch covered = [] ∧
    ofStanding standingOf .compacted covered = [])

/-- A node that is not mixed is shown or passed over as a whole. -/
theorem visited_of_not_mixed (known : nodes.get id = some node)
    (covers : coveredSourceRefs nodes.get node = some covered)
    (reads : ReadsAs source node.fromIndex covered)
    (length : node.fromIndex + covered.length = node.toIndexExclusive)
    (uniform : ¬IsMixed standingOf covered) (going : state.offBranch = false)
    (tiles : Tiles nodes.get standingOf source state.items node.fromIndex) (level : Nat) :
    Visited nodes standingOf source node.fromIndex node.toIndexExclusive
      (visit nodes.get standingOf level node state) := by
  have spans := nodes.spans known
  unfold visit
  simp only [going, Bool.false_eq_true, if_false, covers]
  split_ifs with compacted visible
  · obtain ⟨onBranch, hidden⟩ := compacted
    rw [ofStanding_eq_nil] at onBranch hidden
    refine .inl ⟨rfl, tiles.push (.node node) rfl spans ⟨covered, covers, reads, ?_⟩⟩
    intro ref member
    cases standing : standingOf ref.entryId <;> simp_all
  · obtain ⟨onBranch, kept⟩ := visible
    rw [ofStanding_eq_nil] at onBranch kept
    refine .inl ⟨rfl, tiles.pushVisible spans ?_⟩
    intro position starts ends
    obtain ⟨ref, member, present⟩ := reads.exists_ref starts (by omega)
    cases standing : standingOf ref.entryId <;> simp_all
  · exact absurd ⟨compacted, visible⟩ uniform

theorem visit_leaf (covers : coveredSourceRefs nodes.get node = some covered)
    (mixed : IsMixed standingOf covered) (leaf : node.children = none)
    (going : state.offBranch = false) (level : Nat) :
    visit nodes.get standingOf level node state = visitWhole standingOf node covered state := by
  unfold visit
  simp only [going, Bool.false_eq_true, if_false, covers, if_neg mixed.1, if_neg mixed.2, leaf]

theorem visit_parent {node left right : TranscriptFrontierNode} {leftId rightId : String}
    (covers : coveredSourceRefs nodes.get node = some covered)
    (mixed : IsMixed standingOf covered) (pair : node.children = some (leftId, rightId))
    (leftKnown : nodes.get leftId = some left) (rightKnown : nodes.get rightId = some right)
    (going : state.offBranch = false) (level : Nat) :
    visit nodes.get standingOf (level + 1) node state =
      visit nodes.get standingOf level right (visit nodes.get standingOf level left state) := by
  rw [visit]
  simp only [going, Bool.false_eq_true, if_false, covers, if_neg mixed.1, if_neg mixed.2, pair,
    leftKnown, rightKnown]

theorem visit_of_offBranch (stopped : state.offBranch = true) (level : Nat)
    (node : TranscriptFrontierNode) : visit nodes.get standingOf level node state = state := by
  unfold visit
  simp [stopped]

/-- Visiting an accepted node tells all its sources, or all up to where the view stops. -/
theorem visit_tiles (level : Nat) (known : nodes.get id = some node)
    (levelled : node.level = level) (covers : coverage nodes.get level node = some covered)
    (reads : ReadsAs source node.fromIndex covered) (going : state.offBranch = false)
    (tiles : Tiles nodes.get standingOf source state.items node.fromIndex) :
    Visited nodes standingOf source node.fromIndex node.toIndexExclusive
      (visit nodes.get standingOf level node state) := by
  induction level generalizing id node covered state with
  | zero =>
    have leaf := (nodes.leafless known).mp levelled
    have length := nodes.length_coverage 0 known levelled covers
    have code : coveredSourceRefs nodes.get node = some covered := by
      rw [nodes.coveredSourceRefs_eq known, levelled, covers]
    by_cases mixed : IsMixed standingOf covered
    · rw [visit_leaf code mixed leaf going]
      exact visited_whole known leaf reads length going tiles
    · exact visited_of_not_mixed known code reads length mixed going tiles 0
  | succ level ih =>
    have length := nodes.length_coverage (level + 1) known levelled covers
    have code : coveredSourceRefs nodes.get node = some covered := by
      rw [nodes.coveredSourceRefs_eq known, levelled, covers]
    by_cases mixed : IsMixed standingOf covered
    · obtain ⟨leftId, rightId, pair⟩ := nodes.exists_children known (by omega)
      simp only [coverage, pair, Option.bind_eq_some_iff, Option.map_eq_some_iff] at covers
      obtain ⟨left, leftKnown, right, rightKnown, front, leftCovers, back, rightCovers, rfl⟩ :=
        covers
      obtain ⟨leftLevel, rightLevel, starts, meets, ends⟩ :=
        splits_of_valid (nodes.joins known pair leftKnown rightKnown)
      have leftLength := nodes.length_coverage level leftKnown (by omega) leftCovers
      obtain ⟨leftReads, rightReads⟩ := reads.of_append
      rw [← starts] at leftReads rightReads tiles
      rw [leftLength, meets] at rightReads
      have rightSpans := nodes.spans rightKnown
      rw [visit_parent code mixed pair leftKnown rightKnown going]
      rcases ih leftKnown (by omega) leftCovers leftReads going tiles with
        ⟨goesOn, leftTiles⟩ | ⟨stopped, stop, after, before, stops, leftTiles⟩
      · rw [meets] at leftTiles
        rcases ih rightKnown (by omega) rightCovers rightReads goesOn leftTiles with
          through | ⟨stopped, stop, after, before, stops, rightTiles⟩
        · exact .inl (ends ▸ through)
        · exact .inr ⟨stopped, stop, by omega, by omega, stops, rightTiles⟩
      · rw [visit_of_offBranch stopped]
        exact .inr ⟨stopped, stop, by omega, by omega, stops, leftTiles⟩
    · exact visited_of_not_mixed known code reads length mixed going tiles (level + 1)

theorem selectedSource_before {cursor position : Nat}
    (chronological : Chronological nodes.get cursor nodeIds) (before : position < cursor) :
    selectedSource nodes.get nodeIds position = none := by
  induction nodeIds generalizing cursor with
  | nil => rfl
  | cons id rest ih =>
    obtain ⟨node, known, after, later⟩ := chronological
    have spans := nodes.spans known
    have tail := ih later (by omega)
    unfold selectedSource at tail ⊢
    simp [known, tail, show ¬node.fromIndex ≤ position by omega]

theorem selectedSource_within {rest : List String} (known : nodes.get id = some node)
    (covers : coveredSourceRefs nodes.get node = some covered)
    (starts : node.fromIndex ≤ position) (ends : position < node.fromIndex + covered.length) :
    selectedSource nodes.get (id :: rest) position = covered[position - node.fromIndex]? := by
  have inside : position - node.fromIndex < covered.length := by omega
  simp [selectedSource, known, covers, starts, List.getElem?_eq_getElem inside]

theorem selectedSource_after {rest : List String} (known : nodes.get id = some node)
    (covers : coveredSourceRefs nodes.get node = some covered)
    (after : node.fromIndex + covered.length ≤ position) :
    selectedSource nodes.get (id :: rest) position = selectedSource nodes.get rest position := by
  have outside : covered[position - node.fromIndex]? = none :=
    List.getElem?_eq_none (by omega)
  simp [selectedSource, known, covers, outside]

/-- The loop tells all that the selection covers, or all up to where the view stops. -/
theorem visitSelected_tiles {cursor : Nat}
    (chronological : Chronological nodes.get cursor nodeIds) (state : Projecting)
    (going : state.offBranch = false)
    (tiles : Tiles nodes.get standingOf source state.items cursor)
    (agrees : ∀ position, cursor ≤ position →
      source position = selectedSource nodes.get nodeIds position) :
    ∃ after, visitSelected nodes.get standingOf nodeIds state = .ok after ∧
      ∃ stop, Tiles nodes.get standingOf source after.items stop ∧
        (after.offBranch = true → StopsAt nodes.get standingOf source nodeIds stop) ∧
        (after.offBranch = false → ∀ position, stop ≤ position → source position = none) := by
  induction nodeIds generalizing cursor state with
  | nil => exact ⟨state, rfl, cursor, tiles, by simp [going], fun _ => agrees⟩
  | cons id rest ih =>
    obtain ⟨node, known, after, later⟩ := chronological
    have here : Chronological nodes.get node.fromIndex (id :: rest) :=
      ⟨node, known, le_rfl, later⟩
    have tilesHere := tiles.advance after fun position starts before =>
      (agrees position starts).trans (selectedSource_before here before)
    simp only [visitSelected, known]
    cases code : coveredSourceRefs nodes.get node with
    | none =>
      have stopped : visit nodes.get standingOf node.level node state =
          { state with offBranch := true } := by
        unfold visit
        simp [going, code]
      rw [stopped]
      refine ⟨_, rfl, node.fromIndex, tilesHere, ?_, by simp⟩
      exact fun _ => .inl ⟨id, by simp, node, known, rfl, code⟩
    | some covered =>
      have covers := code
      rw [nodes.coveredSourceRefs_eq known] at covers
      have length := nodes.length_coverage node.level known rfl covers
      have reads : ReadsAs source node.fromIndex covered := by
        intro index inside
        rw [agrees _ (by omega), selectedSource_within known code (by omega) (by omega),
          Nat.add_sub_cancel_left]
      rcases visit_tiles node.level known rfl covers reads going tilesHere with
        ⟨goesOn, through⟩ | ⟨stopped, stop, starts, ends, stops, told⟩
      · rw [if_neg (by simp [goesOn])]
        obtain ⟨final, visited, stop, told, stops, rest⟩ := ih later _ goesOn through (by
          intro position beyond
          rw [agrees position (by have := nodes.spans known; omega),
            selectedSource_after known code (by omega)])
        refine ⟨final, visited, stop, told, ?_, rest⟩
        intro off
        rcases stops off with ⟨other, member, missing⟩ | leaf
        · exact .inl ⟨other, List.mem_cons_of_mem _ member, missing⟩
        · exact .inr leaf
      · rw [if_pos stopped]
        refine ⟨_, rfl, stop, told, ?_, by simp [stopped]⟩
        intro _
        rcases stops with ⟨other, member, -⟩ | leaf
        · simp at member
        · exact .inr leaf

end Visits

/-- A view repeats nothing that is visible and hides nothing that was compacted away. -/
structure FrontierView.Faithful (lookup : Lookup)
    (standingOf : String → ActiveBranchEntryStanding) (nodeIds : List String)
    (view : FrontierView) : Prop where
  ordered : view.items.Pairwise fun earlier later => earlier.toIndexExclusive ≤ later.fromIndex
  spans : ∀ item ∈ view.items, item.fromIndex < item.toIndexExclusive
  /-- Node items cover only compacted sources, visible stretches only visible ones. -/
  sound : ∀ item ∈ view.items,
    item.Sound lookup standingOf (selectedSource lookup nodeIds)
  /-- Up to where the view stops, if it does, a compacted source lies in exactly one item, which is
  a node or mixed item, and what no item holds is visible and behind them all. -/
  told : ∃ stop,
    (view.offBranch = true →
      StopsAt lookup standingOf (selectedSource lookup nodeIds) nodeIds stop) ∧
    (view.offBranch = false → ∀ position, stop ≤ position →
      selectedSource lookup nodeIds position = none) ∧
    ∀ position < stop, ∀ ref, selectedSource lookup nodeIds position = some ref →
      (standingOf ref.entryId = .compacted →
        ∃ item ∈ view.items, item.isVisible = false ∧ item.Holds position ∧
          ∀ other ∈ view.items, other.Holds position → other = item) ∧
      ((∀ item ∈ view.items, ¬item.Holds position) →
        standingOf ref.entryId = .visible ∧
          ∀ item ∈ view.items, item.toIndexExclusive ≤ position)

theorem eq_of_holds {items : List FrontierViewItem}
    (ordered : items.Pairwise fun earlier later => earlier.toIndexExclusive ≤ later.fromIndex)
    {left right : FrontierViewItem} (leftMember : left ∈ items) (rightMember : right ∈ items)
    (leftHolds : left.Holds position) (rightHolds : right.Holds position) : left = right := by
  induction items with
  | nil => simp at leftMember
  | cons first rest ih =>
    obtain ⟨before, restOrdered⟩ := List.pairwise_cons.mp ordered
    obtain ⟨leftStarts, leftEnds⟩ := leftHolds
    obtain ⟨rightStarts, rightEnds⟩ := rightHolds
    rcases List.mem_cons.mp leftMember with rfl | leftRest <;>
      rcases List.mem_cons.mp rightMember with rfl | rightRest
    · rfl
    · have := before right rightRest
      omega
    · have := before left leftRest
      omega
    · exact ih restOrdered leftRest rightRest

/-- Items from which visible stretches were dropped at the end stay faithful. -/
theorem Tiles.faithful {lookup : Lookup} {standingOf : String → ActiveBranchEntryStanding} {items dropped : List FrontierViewItem} {stop : Nat}
    (tiles : Tiles lookup standingOf (selectedSource lookup nodeIds) (items ++ dropped) stop)
    (trailing : ∀ item ∈ dropped, item.isVisible = true) {offBranch truncated : Bool}
    (stops : offBranch = true →
      StopsAt lookup standingOf (selectedSource lookup nodeIds) nodeIds stop)
    (whole : offBranch = false → ∀ position, stop ≤ position →
      selectedSource lookup nodeIds position = none) :
    (FrontierView.mk items truncated offBranch).Faithful lookup standingOf nodeIds := by
  obtain ⟨ordered, droppedOrdered, apart⟩ := List.pairwise_append.mp tiles.ordered
  refine
    { ordered := ordered
      spans := fun item member => tiles.spans item (List.mem_append_left _ member)
      sound := fun item member => tiles.sound item (List.mem_append_left _ member)
      told := ⟨stop, stops, whole, ?_⟩ }
  intro position before ref present
  obtain ⟨holder, member, holds⟩ := tiles.told position before ref present
  have visibleOnly : holder.isVisible = true → standingOf ref.entryId = .visible := by
    intro visible
    have sound := tiles.sound holder member
    cases holder with
    | visible fromIndex toIndexExclusive =>
      obtain ⟨other, found, standing⟩ := sound position holds.1 holds.2
      obtain rfl : other = ref := Option.some.inj (found.symm.trans present)
      exact standing
    | node shown => simp [FrontierViewItem.isVisible] at visible
    | mixed shown visibleSpans handles spans => simp [FrontierViewItem.isVisible] at visible
  constructor
  · intro compacted
    have solid : holder.isVisible = false := by
      cases visible : holder.isVisible with
      | false => rfl
      | true => simp [visibleOnly visible] at compacted
    rcases List.mem_append.mp member with kept | gone
    · exact ⟨holder, kept, solid, holds, fun other otherMember otherHolds =>
        eq_of_holds ordered otherMember kept otherHolds holds⟩
    · simp [trailing holder gone] at solid
  · intro unheld
    rcases List.mem_append.mp member with kept | gone
    · exact absurd holds (unheld holder kept)
    · exact ⟨visibleOnly (trailing holder gone), fun item itemMember =>
        (apart item itemMember holder gone).trans holds.1⟩

/-- The live-branch view of a selection, in order from its omitted boundary on, repeats nothing and
hides nothing. -/
theorem frontier_view_is_faithful (nodes : AcceptedNodes)
    (standingOf : String → ActiveBranchEntryStanding) (selection : TranscriptFrontierSelection)
    (chronological :
      Chronological nodes.get selection.omittedBeforeIndex selection.nodeIds) :
    ∃ view, projectFrontierView nodes.get standingOf selection = .ok view ∧
      view.Faithful nodes.get standingOf selection.nodeIds := by
  have bare : Tiles nodes.get standingOf (selectedSource nodes.get selection.nodeIds) []
      selection.omittedBeforeIndex :=
    { ordered := .nil
      spans := by simp
      ends := by simp
      sound := by simp
      told := by
        intro position before ref present
        rw [selectedSource_before chronological before] at present
        cases present }
  obtain ⟨visited, ran, stop, tiles, stops, whole⟩ :=
    visitSelected_tiles chronological ⟨[], false⟩ rfl bare (fun _ _ => rfl)
  have parts := congrArg List.reverse
    (List.takeWhile_append_dropWhile (p := FrontierViewItem.isVisible) (l := visited.items.reverse))
  rw [List.reverse_append, List.reverse_reverse] at parts
  rw [← parts] at tiles
  refine ⟨_, by simp only [projectFrontierView, ran]; rfl, tiles.faithful ?_ stops whole⟩
  intro item member
  exact List.mem_takeWhile_imp (List.mem_reverse.mp member)

def entrySource (entryId : String) : TranscriptSourceRef :=
  { projectId := "project", sessionId := "session", entryId, part := 0, digest := "0" }

/-- Two leaves of two sources each, and their parent. -/
def pairedNodes : List TranscriptFrontierNode :=
  let leaf (id : String) (ordinal fromIndex : Nat) (entryIds : List String) :
      TranscriptFrontierNode :=
    { id, level := 0, ordinal, sessionId := "session", fromIndex,
      toIndexExclusive := fromIndex + entryIds.length, quality := .exactCopy, text := id,
      children := none, coveredFrom := none, coveredTo := none,
      sourceRefs := entryIds.map entrySource }
  [leaf "left" 0 0 ["first", "second"], leaf "right" 1 2 ["third", "fourth"],
    { id := "pair", level := 1, ordinal := 0, sessionId := "session", fromIndex := 0,
      toIndexExclusive := 4, quality := .modelSummary, text := "both",
      children := some ("left", "right"), coveredFrom := none, coveredTo := none,
      sourceRefs := [] }]

theorem mem_of_find {nodes : List TranscriptFrontierNode}
    (found : nodes.find? (fun node => node.id = id) = some node) : node ∈ nodes ∧ node.id = id :=
  ⟨List.mem_of_find?_eq_some found, by simpa using List.find?_some found⟩

/-- The pair as a map of accepted nodes. -/
def acceptedPair : AcceptedNodes where
  get := fun id => pairedNodes.find? fun node => node.id = id
  spans := fun found => by
    have checked : ∀ node ∈ pairedNodes, node.fromIndex < node.toIndexExclusive := by decide
    exact checked _ (mem_of_find found).1
  leafless := fun found => by
    have checked : ∀ node ∈ pairedNodes, (node.level = 0 ↔ node.children = none) := by decide
    exact checked _ (mem_of_find found).1
  sourced := fun found => by
    have checked : ∀ node ∈ pairedNodes, node.level = 0 →
        node.toIndexExclusive - node.fromIndex = node.sourceRefs.length := by decide
    exact checked _ (mem_of_find found).1
  joins := fun {_ _ _ _ left right} found pair leftFound rightFound => by
    have checked : ∀ node ∈ pairedNodes, ∀ left ∈ pairedNodes, ∀ right ∈ pairedNodes,
        node.children = some (left.id, right.id) →
          (validateParentChildren node left right).isOk = true := by decide
    obtain ⟨leftMember, rfl⟩ := mem_of_find leftFound
    obtain ⟨rightMember, rfl⟩ := mem_of_find rightFound
    have valid := checked _ (mem_of_find found).1 left leftMember right rightMember pair
    cases outcome : validateParentChildren _ left right with
    | ok done => rfl
    | error message => simp [outcome, Except.isOk, Except.toBool] at valid

/-- The view of the pair whose second source alone is still visible. -/
theorem paired_view_is_faithful :
    ∃ view, projectFrontierView acceptedPair.get
        (fun entryId => if entryId = "second" then .visible else .compacted)
        { nodeIds := ["pair"], omittedBeforeIndex := 0, originIndex := 0, coveredThroughIndex := 4,
          revision := 1, allowanceBytes := 1000, recipeVersion := 1 } = .ok view ∧
      view.Faithful acceptedPair.get
        (fun entryId => if entryId = "second" then .visible else .compacted) ["pair"] :=
  frontier_view_is_faithful acceptedPair _ _ ⟨pairedNodes[2], by decide, by decide, trivial⟩

end PiAdaptative.TranscriptFrontier
