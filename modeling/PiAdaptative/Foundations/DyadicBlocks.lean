import Mathlib.Data.Nat.BitIndices
import Mathlib.Data.List.Chain
import Mathlib.Tactic.Common
import Mathlib.Tactic.Ring

/-!
# Dyadic tilings

An aligned dyadic block covers two to the power of its level consecutive places, and begins at a
multiple of that number.  Adjacent siblings join into their parent.  A tiling from zero without
adjacent siblings is the binary expansion of its length.
-/

namespace PiAdaptative.DyadicBlocks

/-- An aligned block of two to the power of its level places. -/
structure Block where
  level : Nat
  ordinal : Nat
  deriving DecidableEq

def Block.size (block : Block) : Nat := 2 ^ block.level

def Block.first (block : Block) : Nat := block.ordinal * block.size

/-- The block that two siblings in order make up. -/
def parent (left right : Block) : Option Block :=
  if left.level ≠ right.level ∨ left.ordinal % 2 ≠ 0 ∨ right.ordinal ≠ left.ordinal + 1 then none
  else some { level := left.level + 1, ordinal := left.ordinal / 2 }

/-- Blocks that cover the places from one bound to another, each once and in order. -/
def Tiles : Nat → List Block → Nat → Prop
  | start, [], finish => start = finish
  | start, block :: rest, finish => block.first = start ∧ Tiles (start + block.size) rest finish

/-- Blocks each of which covers a run of the blocks of another list, in order. -/
inductive Coarsens : List Block → List Block → Prop where
  | nil : Coarsens [] []
  | cons {block : Block} {blocks group entries : List Block}
      (covers : Tiles block.first group (block.first + block.size))
      (rest : Coarsens blocks entries) : Coarsens (block :: blocks) (group ++ entries)

/-- Blocks of which no two neighbours are siblings. -/
def Settled (blocks : List Block) : Prop :=
  blocks.IsChain fun left right => parent left right = none

theorem Block.size_pos (block : Block) : 0 < block.size := Nat.two_pow_pos block.level

variable {left right joined : Block}

section

variable (siblings : parent left right = some joined)
include siblings

theorem parent_eq_some :
    left.level = right.level ∧ left.ordinal = 2 * joined.ordinal ∧
      right.ordinal = 2 * joined.ordinal + 1 ∧ joined.level = left.level + 1 := by
  simp only [parent] at siblings
  split at siblings
  · cases siblings
  next same =>
    cases siblings
    obtain ⟨level, even, next⟩ : left.level = right.level ∧ left.ordinal % 2 = 0 ∧
        right.ordinal = left.ordinal + 1 := by
      simpa only [ne_eq, not_or, not_not] using same
    exact ⟨level, by simp only; omega, by simp only; omega, rfl⟩

theorem parent_size : joined.size = left.size + right.size := by
  obtain ⟨same, _, _, level⟩ := parent_eq_some siblings
  simp only [Block.size, level, ← same]
  ring

theorem parent_first : joined.first = left.first := by
  obtain ⟨_, ordinal, _, level⟩ := parent_eq_some siblings
  simp only [Block.first, Block.size, level, ordinal]
  ring

theorem parent_second : right.first = joined.first + left.size := by
  obtain ⟨same, _, ordinal, level⟩ := parent_eq_some siblings
  simp only [Block.first, Block.size, level, ordinal, same]
  ring

end

variable {start finish : Nat}

@[simp]
theorem tiles_nil : Tiles start [] finish ↔ start = finish := Iff.rfl

variable {block : Block}

@[simp]
theorem tiles_cons {rest : List Block} :
    Tiles start (block :: rest) finish ↔
      block.first = start ∧ Tiles (start + block.size) rest finish :=
  Iff.rfl

variable {before after : List Block}

theorem tiles_append :
    Tiles start (before ++ after) finish ↔
      ∃ between, Tiles start before between ∧ Tiles between after finish := by
  induction before generalizing start with
  | nil => simp
  | cons block rest ih => simp [ih, and_assoc]

variable {blocks : List Block}

theorem Tiles.finish_eq (tiled : Tiles start blocks finish) :
    finish = start + (blocks.map Block.size).sum := by
  induction blocks generalizing start with
  | nil => simpa using tiled.symm
  | cons block rest ih =>
      rw [ih tiled.2, List.map_cons, List.sum_cons, Nat.add_assoc]

theorem Tiles.le (tiled : Tiles start blocks finish) : start ≤ finish := by
  rw [tiled.finish_eq]
  exact Nat.le_add_right _ _

/-- A block of a tiling ends within it. -/
theorem Tiles.end_le (tiled : Tiles start blocks finish) (mem : block ∈ blocks) :
    block.first + block.size ≤ finish := by
  obtain ⟨before, after, rfl⟩ := List.mem_iff_append.mp mem
  obtain ⟨between, _, begins, rest⟩ := tiles_append.mp tiled
  rw [begins]
  exact rest.le

/-- Siblings of a tiling may be replaced by their parent. -/
theorem Tiles.join (tiled : Tiles start (before ++ left :: right :: after) finish)
    (siblings : parent left right = some joined) :
    Tiles start (before ++ joined :: after) finish := by
  obtain ⟨between, tiledBefore, begins, _, rest⟩ := tiles_append.mp tiled
  refine tiles_append.mpr ⟨between, tiledBefore, (parent_first siblings).trans begins, ?_⟩
  rw [parent_size siblings, ← Nat.add_assoc]
  exact rest

theorem Coarsens.refl (blocks : List Block) : Coarsens blocks blocks := by
  induction blocks with
  | nil => exact .nil
  | cons block rest ih =>
      have covers : Tiles block.first [block] (block.first + block.size) := by simp
      exact .cons covers ih

theorem Coarsens.join {before after entries : List Block}
    (coarser : Coarsens (before ++ left :: right :: after) entries)
    (siblings : parent left right = some joined) :
    Coarsens (before ++ joined :: after) entries := by
  induction before generalizing entries with
  | nil =>
      obtain _ | ⟨coversLeft, rest⟩ := coarser
      obtain _ | ⟨coversRight, rest⟩ := rest
      rw [← List.append_assoc]
      refine .cons ?_ rest
      refine tiles_append.mpr ⟨left.first + left.size, ?_, ?_⟩
      · rw [parent_first siblings]
        exact coversLeft
      · rw [parent_second siblings, parent_first siblings] at coversRight
        rw [parent_size siblings, parent_first siblings, ← Nat.add_assoc]
        exact coversRight
  | cons block rest ih =>
      obtain _ | ⟨covers, coarser⟩ := coarser
      exact .cons covers (ih coarser)

theorem level_lt_of_parent_eq_none {block next : Block} (aligned : 2 ∣ block.ordinal)
    (follows : next.first = block.first + block.size) (apart : parent block next = none) :
    next.level < block.level := by
  obtain ⟨half, even⟩ := aligned
  by_contra coarser
  obtain ⟨more, level⟩ := Nat.exists_eq_add_of_le (Nat.le_of_not_lt coarser)
  have odd : next.ordinal * 2 ^ more = 2 * half + 1 := by
    refine Nat.eq_of_mul_eq_mul_right (Nat.two_pow_pos block.level) ?_
    calc
      next.ordinal * 2 ^ more * 2 ^ block.level = next.first := by
        simp only [Block.first, Block.size, level]
        ring
      _ = block.first + block.size := follows
      _ = (2 * half + 1) * 2 ^ block.level := by
        simp only [Block.first, Block.size, even]
        ring
  cases more with
  | zero =>
      have siblings : parent block next =
          some { level := block.level + 1, ordinal := block.ordinal / 2 } := by
        refine if_neg ?_
        omega
      cases apart.symm.trans siblings
  | succ more =>
      have even : 2 ∣ next.ordinal * 2 ^ (more + 1) :=
        Dvd.dvd.mul_left (dvd_pow_self 2 (Nat.succ_ne_zero more)) _
      omega

theorem levels_decrease {rest : List Block} (tiled : Tiles start (block :: rest) finish)
    (aligned : 2 ∣ block.ordinal) (settled : Settled (block :: rest)) :
    ((block :: rest).map Block.level).IsChain (· > ·) := by
  induction rest generalizing start block with
  | nil => simp
  | cons next rest ih =>
      obtain ⟨begins, tiledRest⟩ := tiled
      obtain ⟨apart, settledRest⟩ := List.isChain_cons_cons.mp settled
      have follows : next.first = block.first + block.size := by
        rw [begins]
        exact tiledRest.1
      have finer := level_lt_of_parent_eq_none aligned follows apart
      have alignedNext : 2 ∣ next.ordinal := by
        obtain ⟨more, level⟩ := Nat.exists_eq_add_of_lt finer
        have first : next.ordinal * 2 ^ next.level =
            2 * ((block.ordinal + 1) * 2 ^ more) * 2 ^ next.level := by
          calc
            next.ordinal * 2 ^ next.level = block.first + block.size := follows
            _ = 2 * ((block.ordinal + 1) * 2 ^ more) * 2 ^ next.level := by
              simp only [Block.first, Block.size, level]
              ring
        exact ⟨_, Nat.eq_of_mul_eq_mul_right (Nat.two_pow_pos next.level) first⟩
      exact List.isChain_cons_cons.mpr ⟨finer, ih tiledRest alignedNext settledRest⟩

/-- A tiling from zero without adjacent siblings has the levels of the binary expansion. -/
theorem levels_eq_bitIndices {finish : Nat} (tiled : Tiles 0 blocks finish)
    (settled : Settled blocks) : blocks.map Block.level = finish.bitIndices.reverse := by
  have sorted : (blocks.map Block.level).SortedGT := by
    refine (List.isChain_iff_pairwise.mp ?_).sortedGT
    cases blocks with
    | nil => exact .nil
    | cons block rest =>
        have zero : block.ordinal = 0 :=
          (Nat.mul_eq_zero.mp tiled.1).resolve_right block.size_pos.ne'
        exact levels_decrease tiled (zero ▸ Nat.dvd_zero 2) settled
  have total : finish = ((blocks.map Block.level).reverse.map fun level => 2 ^ level).sum := by
    rw [tiled.finish_eq, Nat.zero_add, List.map_reverse, List.sum_reverse, List.map_map]
    rfl
  rw [total, Nat.bitIndices_sum_map_two_pow sorted.reverse, List.reverse_reverse]

end PiAdaptative.DyadicBlocks
