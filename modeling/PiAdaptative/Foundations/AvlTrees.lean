import Mathlib.Data.List.Pairwise
import Mathlib.Order.Defs.LinearOrder
import Mathlib.Order.Lattice

/-!
# AVL trees

A persistent ordered map.  Setting a key copies the path to it and rotates where the path has grown
too high; the tree stays ordered and balanced, and reads as the ordered list of its entries.
-/

namespace PiAdaptative

inductive AvlTree (κ α : Type) where
  | leaf
  | node (key : κ) (value : α) (left right : AvlTree κ α) (height : Nat)

namespace AvlTree

variable {κ α : Type}

def height : AvlTree κ α → Nat
  | .leaf => 0
  | .node _ _ _ _ height => height

def treeNode (key : κ) (value : α) (left right : AvlTree κ α) : AvlTree κ α :=
  .node key value left right (1 + max left.height right.height)

def rotateLeft : AvlTree κ α → AvlTree κ α
  | .node key value left (.node rightKey rightValue inner right _) _ =>
      treeNode rightKey rightValue (treeNode key value left inner) right
  | tree => tree

def rotateRight : AvlTree κ α → AvlTree κ α
  | .node key value (.node leftKey leftValue left inner _) right _ =>
      treeNode leftKey leftValue left (treeNode key value inner right)
  | tree => tree

def entries : AvlTree κ α → List (κ × α)
  | .leaf => []
  | .node key value left right _ => left.entries ++ (key, value) :: right.entries

/-- Rotate a tree whose path to a key has grown too high. -/
def rebalance [LinearOrder κ] (key : κ) : AvlTree κ α → AvlTree κ α
  | .leaf => .leaf
  | .node own value left right height =>
      if left.height > right.height + 1 then
        match left with
        | .leaf => .node own value left right height
        | .node leftKey _ _ _ _ =>
            rotateRight (if key > leftKey then treeNode own value left.rotateLeft right
              else .node own value left right height)
      else if right.height > left.height + 1 then
        match right with
        | .leaf => .node own value left right height
        | .node rightKey _ _ _ _ =>
            rotateLeft (if key < rightKey then treeNode own value left right.rotateRight
              else .node own value left right height)
      else .node own value left right height

def set [LinearOrder κ] : AvlTree κ α → κ → α → AvlTree κ α
  | .leaf, key, value => treeNode key value .leaf .leaf
  | .node own ownValue left right _, key, value =>
      if key = own then treeNode key value left right
      else rebalance key
        (if key < own then treeNode own ownValue (left.set key value) right
        else treeNode own ownValue left (right.set key value))

def get? [LinearOrder κ] : AvlTree κ α → κ → Option α
  | .leaf, _ => none
  | .node own value left right _, key =>
      if own = key then some value else if key < own then left.get? key else right.get? key

@[simp]
theorem entries_treeNode (key : κ) (value : α) (left right : AvlTree κ α) :
    (treeNode key value left right).entries = left.entries ++ (key, value) :: right.entries := rfl

@[simp]
theorem entries_rotateLeft (tree : AvlTree κ α) : tree.rotateLeft.entries = tree.entries := by
  unfold rotateLeft
  split
  · simp [entries]
  · rfl

@[simp]
theorem entries_rotateRight (tree : AvlTree κ α) : tree.rotateRight.entries = tree.entries := by
  unfold rotateRight
  split
  · simp [entries]
  · rfl

variable [LinearOrder κ]

@[simp]
theorem entries_rebalance (key : κ) (tree : AvlTree κ α) :
    (rebalance key tree).entries = tree.entries := by
  cases tree with
  | leaf => rfl
  | node own value left right height =>
      simp only [rebalance]
      split
      · cases left with
        | leaf => rfl
        | node =>
            rw [entries_rotateRight]
            split
            · simp [entries]
            · rfl
      · split
        · cases right with
          | leaf => rfl
          | node =>
              rw [entries_rotateLeft]
              split
              · simp [entries]
              · rfl
        · rfl

/-- The keys stand in increasing order. -/
def Ordered (entries : List (κ × α)) : Prop :=
  entries.Pairwise fun first second => first.1 < second.1

/-- Set a key of an ordered list of entries. -/
def place (key : κ) (value : α) : List (κ × α) → List (κ × α)
  | [] => [(key, value)]
  | (own, ownValue) :: rest =>
      if key < own then (key, value) :: (own, ownValue) :: rest
      else if key = own then (key, value) :: rest
      else (own, ownValue) :: place key value rest

variable {left right : List (κ × α)} {value : α}

theorem Ordered.of_node {own : κ} (ordered : Ordered (left ++ (own, value) :: right)) :
    Ordered left ∧ Ordered right ∧ (∀ entry ∈ left, entry.1 < own) ∧
      ∀ entry ∈ right, own < entry.1 := by
  obtain ⟨first, rest, across⟩ := List.pairwise_append.mp ordered
  obtain ⟨later, second⟩ := List.pairwise_cons.mp rest
  exact ⟨first, second, fun entry member => across entry member _ List.mem_cons_self, later⟩

variable {own key : κ}

variable {ownValue value : α}

theorem place_left (less : key < own) :
    place key value (left ++ (own, ownValue) :: right) =
      place key value left ++ (own, ownValue) :: right := by
  induction left with
  | nil => simp [place, less]
  | cons entry left ih =>
      simp only [List.cons_append, place, ih]
      split
      · rfl
      · split
        · rfl
        · rfl

theorem place_right (below : ∀ entry ∈ left, entry.1 < own) (more : own < key) :
    place key value (left ++ (own, ownValue) :: right) =
      left ++ (own, ownValue) :: place key value right := by
  induction left with
  | nil => simp [place, not_lt_of_gt more, (ne_of_lt more).symm]
  | cons entry left ih =>
      rw [List.forall_mem_cons] at below
      have before : entry.1 < key := lt_trans below.1 more
      simp [place, not_lt_of_gt before, (ne_of_lt before).symm, ih below.2]

theorem place_same {own : κ} (below : ∀ entry ∈ left, entry.1 < own) :
    place own value (left ++ (own, ownValue) :: right) = left ++ (own, value) :: right := by
  induction left with
  | nil => simp [place]
  | cons entry left ih =>
      rw [List.forall_mem_cons] at below
      simp [place, not_lt_of_gt below.1, (ne_of_lt below.1).symm, ih below.2]

variable {entries : List (κ × α)}

variable {key : κ}

theorem mem_place {entry : κ × α} (member : entry ∈ place key value entries) :
    entry = (key, value) ∨ entry ∈ entries := by
  induction entries with
  | nil => exact .inl (List.mem_singleton.mp member)
  | cons first entries ih =>
      rw [place] at member
      split at member
      · exact List.mem_cons.mp member
      · split at member
        · exact (List.mem_cons.mp member).imp_right (List.mem_cons_of_mem _)
        · rcases List.mem_cons.mp member with rfl | later
          · exact .inr List.mem_cons_self
          · exact (ih later).imp_right (List.mem_cons_of_mem _)

theorem Ordered.place (ordered : Ordered entries) : Ordered (place key value entries) := by
  induction entries with
  | nil => exact List.pairwise_singleton _ _
  | cons first entries ih =>
      obtain ⟨later, rest⟩ := List.pairwise_cons.mp ordered
      rw [AvlTree.place]
      split
      · next less =>
          refine List.pairwise_cons.mpr ⟨fun entry member => ?_, ordered⟩
          rcases List.mem_cons.mp member with rfl | other
          · exact less
          · exact lt_trans less (later entry other)
      · next notLess =>
          split
          · next same =>
              refine List.pairwise_cons.mpr ⟨fun entry member => ?_, rest⟩
              rw [same]
              exact later entry member
          · next different =>
              refine List.pairwise_cons.mpr ⟨fun entry member => ?_, ih rest⟩
              rcases mem_place member with rfl | other
              · exact lt_of_le_of_ne (le_of_not_gt notLess) (Ne.symm different)
              · exact later entry other

theorem lookup_place (key other : κ) (value : α) (ordered : Ordered entries) :
    (place key value entries).lookup other =
      if other = key then some value else entries.lookup other := by
  induction entries with
  | nil =>
      by_cases same : other = key
      · simp [place, same]
      · simp [place, same, List.lookup_cons, beq_false_of_ne same]
  | cons first entries ih =>
      obtain ⟨-, rest⟩ := List.pairwise_cons.mp ordered
      have read : ∀ (own : κ) (ownValue : α) (entries : List (κ × α)),
          ((own, ownValue) :: entries).lookup other =
            if other = own then some ownValue else entries.lookup other := by
        intro own ownValue entries
        by_cases here : other = own
        · simp [here]
        · simp [List.lookup_cons, beq_false_of_ne here, here]
      rw [place]
      split
      · exact read key value _
      · split
        · next same =>
            rw [read, read, same]
            split <;> rfl
        · next different =>
            rw [read, read, ih rest]
            split
            · next here => rw [if_neg (here ▸ Ne.symm different)]
            · rfl

variable {tree : AvlTree κ α}

/-- Setting a key sets it in the ordered entries. -/
theorem entries_set (ordered : Ordered tree.entries) (key : κ) (value : α) :
    (tree.set key value).entries = place key value tree.entries := by
  induction tree with
  | leaf => rfl
  | node own ownValue left right height ihLeft ihRight =>
      obtain ⟨leftOrdered, rightOrdered, below, -⟩ := Ordered.of_node ordered
      unfold set
      split
      · next same =>
          subst same
          exact (place_same below).symm
      · next different =>
          rw [entries_rebalance]
          split
          · next less =>
              rw [entries_treeNode, ihLeft leftOrdered]
              exact (place_left less).symm
          · next notLess =>
              have more : own < key := lt_of_le_of_ne (le_of_not_gt notLess) (Ne.symm different)
              rw [entries_treeNode, ihRight rightOrdered]
              exact (place_right below more).symm

theorem lookup_eq_none_of_ne (absent : ∀ entry ∈ entries, entry.1 ≠ key) :
    entries.lookup key = none :=
  List.lookup_eq_none_iff.mpr fun entry member => by
    simpa using Ne.symm (absent entry member)

/-- A read finds what the ordered entries hold. -/
theorem get?_eq_lookup (ordered : Ordered tree.entries) (key : κ) :
    tree.get? key = tree.entries.lookup key := by
  induction tree with
  | leaf => rfl
  | node own value left right height ihLeft ihRight =>
      obtain ⟨leftOrdered, rightOrdered, below, above⟩ := Ordered.of_node ordered
      unfold get? entries
      rw [List.lookup_append, List.lookup_cons]
      split
      · next same =>
          subst same
          rw [lookup_eq_none_of_ne fun entry member => ne_of_lt (below entry member)]
          simp
      · next different =>
          rw [beq_false_of_ne (Ne.symm different)]
          split
          · next less =>
              rw [ihLeft leftOrdered, lookup_eq_none_of_ne fun entry member =>
                (ne_of_lt (lt_trans less (above entry member))).symm]
              exact (Option.or_none).symm
          · next notLess =>
              have more : own < key := lt_of_le_of_ne (le_of_not_gt notLess) different
              rw [ihRight rightOrdered, lookup_eq_none_of_ne fun entry member =>
                ne_of_lt (lt_trans (below entry member) more)]
              rfl

/-- A tree of a height whose subtrees everywhere differ in height by one at most; the stored heights
are right. -/
inductive Balanced : AvlTree κ α → Nat → Prop where
  | leaf : Balanced .leaf 0
  | node {key : κ} {value : α} {left right : AvlTree κ α} {leftHeight rightHeight height : Nat}
      (leftBalanced : Balanced left leftHeight) (rightBalanced : Balanced right rightHeight)
      (notLeft : leftHeight ≤ rightHeight + 1) (notRight : rightHeight ≤ leftHeight + 1)
      (same : height = 1 + max leftHeight rightHeight) :
      Balanced (.node key value left right height) height

variable {height : Nat}

omit [LinearOrder κ] in
theorem Balanced.height_eq (balanced : Balanced tree height) : tree.height = height := by
  cases balanced <;> rfl

variable {leftHeight rightHeight : Nat}

variable {left right : AvlTree κ α}

omit [LinearOrder κ] in
theorem Balanced.treeNode (leftBalanced : Balanced left leftHeight)
    (rightBalanced : Balanced right rightHeight) (notLeft : leftHeight ≤ rightHeight + 1)
    (notRight : rightHeight ≤ leftHeight + 1) (same : height = 1 + max leftHeight rightHeight) :
    Balanced (treeNode key value left right) height := by
  unfold AvlTree.treeNode
  rw [leftBalanced.height_eq, rightBalanced.height_eq, ← same]
  exact .node leftBalanced rightBalanced notLeft notRight same

/-- A tree that is higher on the side of a key. -/
def Leans (key : κ) (tree : AvlTree κ α) (height : Nat) : Prop :=
  ∃ own value left right leftHeight rightHeight,
    tree = .node own value left right (height + 1) ∧ Balanced left leftHeight ∧
      Balanced right rightHeight ∧
        (key < own ∧ leftHeight = height ∧ rightHeight + 1 = height ∨
          own < key ∧ rightHeight = height ∧ leftHeight + 1 = height)

theorem rebalance_left {rightHeight : Nat} (grown : Balanced left (rightHeight + 2))
    (leans : Leans key left (rightHeight + 1)) (rightBalanced : Balanced right rightHeight) :
    Balanced (rebalance key (treeNode own value left right)) (rightHeight + 2) := by
  obtain ⟨leftKey, leftValue, outer, inner, outerHeight, innerHeight, rfl, outerBalanced,
    innerBalanced, sides⟩ := leans
  unfold rebalance AvlTree.treeNode
  dsimp only
  rw [if_pos (by rw [rightBalanced.height_eq, grown.height_eq]; omega)]
  rcases sides with ⟨less, rfl, same⟩ | ⟨more, rfl, same⟩
  · rw [if_neg (not_lt_of_gt less)]
    exact outerBalanced.treeNode (innerBalanced.treeNode rightBalanced (by omega) (by omega) rfl)
      (by omega) (by omega) (by omega)
  · rw [if_pos more]
    cases innerBalanced with
    | node first second notLeft notRight sameHeight =>
        exact (outerBalanced.treeNode first (by omega) (by omega) rfl).treeNode
          (second.treeNode rightBalanced (by omega) (by omega) rfl) (by omega) (by omega) (by omega)

theorem rebalance_right {leftHeight : Nat} (grown : Balanced right (leftHeight + 2))
    (leans : Leans key right (leftHeight + 1)) (leftBalanced : Balanced left leftHeight) :
    Balanced (rebalance key (treeNode own value left right)) (leftHeight + 2) := by
  obtain ⟨rightKey, rightValue, inner, outer, innerHeight, outerHeight, rfl, innerBalanced,
    outerBalanced, sides⟩ := leans
  unfold rebalance AvlTree.treeNode
  dsimp only
  rw [if_neg (by rw [leftBalanced.height_eq, grown.height_eq]; omega),
    if_pos (by rw [leftBalanced.height_eq, grown.height_eq]; omega)]
  rcases sides with ⟨less, rfl, same⟩ | ⟨more, rfl, same⟩
  · rw [if_pos less]
    cases innerBalanced with
    | node first second notLeft notRight sameHeight =>
        exact (leftBalanced.treeNode first (by omega) (by omega) rfl).treeNode
          (second.treeNode outerBalanced (by omega) (by omega) rfl) (by omega) (by omega) (by omega)
  · rw [if_neg (not_lt_of_gt more)]
    exact (leftBalanced.treeNode innerBalanced (by omega) (by omega) rfl).treeNode outerBalanced
      (by omega) (by omega) (by omega)

theorem rebalance_of_balanced (leftBalanced : Balanced left leftHeight)
    (rightBalanced : Balanced right rightHeight) (notLeft : leftHeight ≤ rightHeight + 1)
    (notRight : rightHeight ≤ leftHeight + 1) :
    rebalance key (treeNode own value left right) = treeNode own value left right := by
  unfold rebalance AvlTree.treeNode
  dsimp only
  rw [if_neg (by rw [leftBalanced.height_eq, rightBalanced.height_eq]; omega),
    if_neg (by rw [leftBalanced.height_eq, rightBalanced.height_eq]; omega)]

/-- Setting a key keeps the balance; the tree grows by one at most, towards the key. -/
theorem Balanced.set (balanced : Balanced tree height) (key : κ) (value : α) :
    Balanced (tree.set key value) height ∨ Balanced (tree.set key value) (height + 1) ∧
      (height = 0 ∨ Leans key (tree.set key value) height) := by
  induction balanced with
  | leaf => exact .inr ⟨Balanced.treeNode .leaf .leaf (by omega) (by omega) rfl, .inl rfl⟩
  | @node own ownValue left right leftHeight rightHeight height leftBalanced rightBalanced notLeft
      notRight same ihLeft ihRight =>
      unfold AvlTree.set
      by_cases sameKey : key = own
      · rw [if_pos sameKey]
        exact .inl (leftBalanced.treeNode rightBalanced notLeft notRight same)
      rw [if_neg sameKey]
      by_cases less : key < own
      · rw [if_pos less]
        rcases ihLeft with kept | ⟨grown, leans⟩
        · rw [rebalance_of_balanced kept rightBalanced notLeft notRight]
          exact .inl (kept.treeNode rightBalanced notLeft notRight same)
        · by_cases high : leftHeight = rightHeight + 1
          · subst high
            have leaning := leans.resolve_left (by omega)
            refine .inl ?_
            rw [show height = rightHeight + 2 by omega]
            exact rebalance_left grown leaning rightBalanced
          · rw [rebalance_of_balanced grown rightBalanced (by omega) (by omega)]
            have balanced : ∀ height, height = 1 + max (leftHeight + 1) rightHeight →
                Balanced (AvlTree.treeNode own ownValue (left.set key value) right) height :=
              fun _ sameHeight => grown.treeNode rightBalanced (by omega) (by omega) sameHeight
            by_cases low : leftHeight < rightHeight
            · exact .inl (balanced height (by omega))
            · refine .inr ⟨balanced _ (by omega), .inr ⟨own, ownValue, _, right, _, _, ?_, grown,
                rightBalanced, .inl ⟨less, by omega, by omega⟩⟩⟩
              rw [AvlTree.treeNode, grown.height_eq, rightBalanced.height_eq]
              congr 1
              omega
      · have more : own < key := lt_of_le_of_ne (le_of_not_gt less) (Ne.symm sameKey)
        rw [if_neg less]
        rcases ihRight with kept | ⟨grown, leans⟩
        · rw [rebalance_of_balanced leftBalanced kept notLeft notRight]
          exact .inl (leftBalanced.treeNode kept notLeft notRight same)
        · by_cases high : rightHeight = leftHeight + 1
          · subst high
            have leaning := leans.resolve_left (by omega)
            refine .inl ?_
            rw [show height = leftHeight + 2 by omega]
            exact rebalance_right grown leaning leftBalanced
          · rw [rebalance_of_balanced leftBalanced grown (by omega) (by omega)]
            have balanced : ∀ height, height = 1 + max leftHeight (rightHeight + 1) →
                Balanced (AvlTree.treeNode own ownValue left (right.set key value)) height :=
              fun _ sameHeight => leftBalanced.treeNode grown (by omega) (by omega) sameHeight
            by_cases low : rightHeight < leftHeight
            · exact .inl (balanced height (by omega))
            · refine .inr ⟨balanced _ (by omega), .inr ⟨own, ownValue, left, _, _, _, ?_,
                leftBalanced, grown, .inr ⟨more, by omega, by omega⟩⟩⟩
              rw [AvlTree.treeNode, grown.height_eq, leftBalanced.height_eq]
              congr 1
              omega

/-- A tree that is ordered and balanced. -/
structure WellFormed (tree : AvlTree κ α) : Prop where
  ordered : Ordered tree.entries
  balanced : ∃ height, Balanced tree height

theorem wellFormed_leaf : WellFormed (.leaf : AvlTree κ α) :=
  ⟨List.Pairwise.nil, 0, .leaf⟩

theorem WellFormed.set (formed : WellFormed tree) (key : κ) (value : α) :
    WellFormed (tree.set key value) := by
  obtain ⟨height, balanced⟩ := formed.balanced
  refine ⟨?_, ?_⟩
  · rw [entries_set formed.ordered]
    exact formed.ordered.place
  · rcases balanced.set key value with kept | ⟨grown, -⟩
    · exact ⟨height, kept⟩
    · exact ⟨height + 1, grown⟩

/-- A key reads as it was last set. -/
theorem WellFormed.get?_set (formed : WellFormed tree) (key other : κ) (value : α) :
    (tree.set key value).get? other = if other = key then some value else tree.get? other := by
  rw [get?_eq_lookup (formed.set key value).ordered, entries_set formed.ordered,
    lookup_place key other value formed.ordered, get?_eq_lookup formed.ordered]

end AvlTree
end PiAdaptative
