import Mathlib.Data.List.Nodup

/-!
# Lineages of a parent function

`Lineage parent start line` lists a node and its ancestors, the node first.  A lineage is unique, and
it depends on the parents of its own nodes only; a node that is its own ancestor has none.
-/

namespace PiAdaptative

/-- The nodes from a start to the one without a parent. -/
inductive Lineage {α : Type*} (parent : α → Option α) : Option α → List α → Prop
  | root : Lineage parent none []
  | child {node : α} {older : List α} :
      Lineage parent (parent node) older →
      Lineage parent (some node) (node :: older)

namespace Lineage

variable {α : Type*} {parent other : α → Option α} {start : Option α} {line older : List α}

/-- A start has one lineage at most. -/
theorem unique (first : Lineage parent start line) (second : Lineage parent start older) :
    line = older := by
  induction first generalizing older with
  | root =>
      cases second
      rfl
  | child _ ih =>
      cases second with
      | child rest => rw [ih rest]

/-- The parents of the nodes of a lineage determine it. -/
theorem congr (lineage : Lineage parent start line)
    (same : ∀ node ∈ line, other node = parent node) : Lineage other start line := by
  induction lineage with
  | root => exact .root
  | @child node older _ ih =>
      refine .child ?_
      rw [same node List.mem_cons_self]
      exact ih fun node member => same node (List.mem_cons_of_mem _ member)

/-- The start of a lineage is its first node. -/
theorem head? (lineage : Lineage parent start line) : line.head? = start := by
  cases lineage <;> rfl

variable {node : α}

/-- A node of a lineage continues with its own lineage. -/
theorem of_mem (lineage : Lineage parent start line) (member : node ∈ line) :
    ∃ newer older, line = newer ++ node :: older ∧ Lineage parent (some node) (node :: older) := by
  induction lineage with
  | root => cases member
  | @child first rest later ih =>
      rcases List.mem_cons.mp member with rfl | inside
      · exact ⟨[], rest, rfl, .child later⟩
      · obtain ⟨newer, older, rfl, found⟩ := ih inside
        exact ⟨first :: newer, older, rfl, found⟩

variable {newer : List α}

/-- What follows some nodes of a lineage is the lineage of the last one's parent. -/
theorem of_append (lineage : Lineage parent start (newer ++ node :: older)) :
    Lineage parent (parent node) older := by
  induction newer generalizing start with
  | nil =>
      cases lineage with
      | child rest => exact rest
  | cons first newer ih =>
      cases lineage with
      | child rest => exact ih rest

/-- Consecutive nodes of a lineage are child and parent. -/
theorem parent_eq {node next : α}
    (lineage : Lineage parent start (newer ++ node :: next :: older)) :
    parent node = some next := by
  have rest := lineage.of_append
  exact rest.head?.symm

/-- The last node of a lineage has no parent. -/
theorem parent_last (lineage : Lineage parent start (newer ++ [node])) : parent node = none := by
  have rest := lineage.of_append
  exact rest.head?.symm

/-- No node of a lineage is its own ancestor. -/
theorem nodup (lineage : Lineage parent start line) : line.Nodup := by
  induction lineage with
  | root => exact List.nodup_nil
  | @child node older rest ih =>
      refine List.nodup_cons.mpr ⟨?_, ih⟩
      intro member
      obtain ⟨newer, oldest, split, again⟩ := rest.of_mem member
      have same := unique (.child rest) again
      have shorter : (node :: older).length = (node :: oldest).length := by rw [same]
      rw [split] at shorter
      simp only [List.length_cons, List.length_append] at shorter
      omega

/-- Nodes that follow one another from a last one without a parent are a lineage. -/
theorem of_links
    (links : ∀ newer node next older, line = newer ++ node :: next :: older →
      parent node = some next)
    (ends : ∀ newer node, line = newer ++ [node] → parent node = none) :
    Lineage parent line.head? line := by
  induction line with
  | nil => exact .root
  | cons node rest ih =>
      have older : Lineage parent rest.head? rest :=
        ih (fun newer first second later split => links (node :: newer) first second later
            (by rw [split]; rfl))
          (fun newer last split => ends (node :: newer) last (by rw [split]; rfl))
      refine .child ?_
      cases rest with
      | nil =>
          rw [ends [] node rfl]
          exact older
      | cons next later =>
          rw [links [] node next later rfl]
          exact older

/-- A node without a parent is the last of its lineage. -/
theorem eq_last (lineage : Lineage parent start line) (member : node ∈ line)
    (root : parent node = none) : ∃ newer, line = newer ++ [node] := by
  obtain ⟨newer, older, rfl, found⟩ := lineage.of_mem member
  cases found with
  | child rest =>
      rw [root] at rest
      cases rest
      exact ⟨newer, rfl⟩

/-- The parent of a node of a lineage is in it. -/
theorem parent_mem {node next : α} (lineage : Lineage parent start line) (member : node ∈ line)
    (found : parent node = some next) : next ∈ line := by
  obtain ⟨newer, older, rfl, inside⟩ := lineage.of_mem member
  cases inside with
  | child rest =>
      rw [found] at rest
      cases rest
      simp

/-- A property that passes to parents holds along a lineage. -/
theorem forall_mem {holds : α → Prop} (lineage : Lineage parent start line)
    (first : ∀ node, start = some node → holds node)
    (passes : ∀ {node next}, holds node → parent node = some next → holds next) :
    ∀ node ∈ line, holds node := by
  induction lineage with
  | root => exact fun _ member => nomatch member
  | @child node older rest ih =>
      have here := first node rfl
      intro other member
      rcases List.mem_cons.mp member with rfl | inside
      · exact here
      · exact ih (fun next found => passes here found) other inside

end Lineage

end PiAdaptative
