import PiAdaptative.Foundations.Texts
import PiAdaptative.Verification.Records

/-!
# Displayed texts

A display text loses its control characters and surrounding white space and is cut at a bound.  A
text that was displayed once is displayed unchanged afterwards.
-/

namespace PiAdaptative.Verification

/-- The number of UTF-16 units of a character. -/
def charWidth (unit : Char) : Nat := if unit.val < 0x10000 then 1 else 2

theorem unitsWithin_cons (units : Nat) (unit : Char) (rest : List Char) :
    Session.unitsWithin units (unit :: rest) =
      if charWidth unit ≤ units then
        unit :: Session.unitsWithin (units - charWidth unit) rest
      else [] := rfl

theorem unitsWithin_prefix (units : Nat) (text : List Char) :
    Session.unitsWithin units text <+: text := by
  induction text generalizing units with
  | nil => exact List.prefix_refl _
  | cons unit rest ih =>
      rw [unitsWithin_cons]
      split
      · exact List.prefix_cons_inj unit |>.mpr (ih _)
      · exact List.nil_prefix

theorem utf16Length_ofList (text : List Char) :
    utf16Length (String.ofList text) =
      (text.map charWidth).sum := by
  unfold utf16Length charWidth
  rw [String.toList_ofList]

theorem utf16Length_unitsWithin (units : Nat) (text : List Char) :
    utf16Length (String.ofList (Session.unitsWithin units text)) ≤ units := by
  rw [utf16Length_ofList]
  induction text generalizing units with
  | nil => simp [Session.unitsWithin]
  | cons unit rest ih =>
      rw [unitsWithin_cons]
      split
      next fits =>
        rw [List.map_cons, List.sum_cons]
        have later := ih (units - charWidth unit)
        omega
      next => simp

theorem isTrimmedText_cut {text front : List Char} (trimmed : IsTrimmedText text)
    (kept : front <+: text) : IsTrimmedText (front ++ ['…']) := by
  refine ⟨?_, ?_⟩
  · cases front with
    | nil => decide
    | cons first rest =>
        obtain ⟨others, rfl⟩ := kept
        have head : isTrimmed first = false := by
          by_contra bad
          have dropped := trimmed.1
          simp only [List.cons_append, List.dropWhile_cons] at dropped
          rw [if_pos (by simpa using bad)] at dropped
          have shorter := congrArg List.length dropped
          have bound := (List.dropWhile_suffix isTrimmed (l := rest ++ others)).length_le
          rw [shorter] at bound
          simp at bound
        simp [head]
  · have last : isTrimmed '…' = false := by decide
    simp [last]

theorem mem_of_mem_trim {text : String} {unit : Char} (member : unit ∈ (trim text).toList) :
    unit ∈ text.toList := by
  unfold trim at member
  rw [String.toList_ofList, List.mem_reverse] at member
  have back := (List.dropWhile_suffix _).subset member
  rw [List.mem_reverse] at back
  exact (List.dropWhile_suffix _).subset back

theorem boundedDisplayText_of_fits {units : List Char} {limit : Nat}
    (trimmed : IsTrimmedText units) (nonempty : units ≠ [])
    (plain : ∀ unit ∈ units, isDisplayControl unit = false)
    (short : utf16Length (String.ofList units) ≤ limit) :
    boundedDisplayText (some (.str (String.ofList units))) limit = some (String.ofList units) := by
  have same : (units.filter fun unit => !isDisplayControl unit) = units := by
    rw [List.filter_eq_self]
    intro unit member
    simp [plain unit member]
  unfold boundedDisplayText
  dsimp only
  rw [String.toList_ofList, same, trim_of_isTrimmedText trimmed, if_neg ?_, if_pos short]
  intro empty
  exact nonempty (by simpa using congrArg String.toList empty)

/-- A displayed text is displayed unchanged. -/
theorem boundedDisplayText_idem {value : Option Json} {limit : Nat} {text : String}
    (positive : 0 < limit) (shown : boundedDisplayText value limit = some text) :
    boundedDisplayText (some (.str text)) limit = some text := by
  unfold boundedDisplayText at shown
  split at shown
  case h_2 => cases shown
  next raw =>
    dsimp only at shown
    have trimmed := isTrimmedText_trim
      (String.ofList (raw.toList.filter fun unit => !isDisplayControl unit))
    have plain : ∀ unit ∈ (trim (String.ofList
        (raw.toList.filter fun unit => !isDisplayControl unit))).toList,
        isDisplayControl unit = false := by
      intro unit member
      have inside := mem_of_mem_trim member
      rw [String.toList_ofList, List.mem_filter] at inside
      simpa using inside.2
    generalize trim (String.ofList (raw.toList.filter fun unit => !isDisplayControl unit)) = kept
      at shown trimmed plain
    obtain ⟨units, rfl⟩ : ∃ units, kept = String.ofList units :=
      ⟨kept.toList, (String.ofList_toList).symm⟩
    rw [String.toList_ofList] at shown trimmed plain
    split at shown
    · cases shown
    next nonempty =>
      split at shown
      next short =>
        cases shown
        refine boundedDisplayText_of_fits trimmed ?_ plain short
        rintro rfl
        exact nonempty rfl
      next =>
        cases shown
        have front := unitsWithin_prefix (limit - 1) units
        refine boundedDisplayText_of_fits (isTrimmedText_cut trimmed front) (by simp) ?_ ?_
        · intro unit member
          rcases List.mem_append.mp member with inside | last
          · exact plain unit (front.subset inside)
          · obtain rfl := List.mem_singleton.mp last
            decide
        · have short := utf16Length_unitsWithin (limit - 1) units
          rw [utf16Length_ofList] at short ⊢
          have last : charWidth '…' = 1 := by decide
          simp only [List.map_append, List.sum_append, List.map_cons, List.map_nil, List.sum_cons,
            List.sum_nil]
          omega

end PiAdaptative.Verification
