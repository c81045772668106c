import PiAdaptative.StreamingLines.Decoder

/-!
# Windows of a line

The columns captured of a line are enough to cut its window, and the cut never goes through a
surrogate pair of the line.
-/

namespace PiAdaptative.StreamingLines

open TextProtocol (Text)

/-- The first column of a window and the column behind it: both give way to a surrogate pair. -/
def windowBounds (settings : DecoderSettings) (line : Text) : Nat × Nat :=
  let column := min line.length settings.startColumn.toNat
  let start := column - (splitsSurrogatePair line column).toNat
  let stop := min line.length (start + settings.maxLineChars.toNat)
  (start, stop + (decide (0 < settings.maxLineChars) && splitsSurrogatePair line stop).toNat)

def windowRecord (settings : DecoderSettings) (line : Text) : StreamingLineRecord :=
  let bounds := windowBounds settings line
  { text := (line.take bounds.2).drop bounds.1
    startColumn := bounds.1
    totalChars := line.length }

/-- The columns that are kept of a line. -/
def capture (settings : DecoderSettings) (line : Text) : Text :=
  (line.take (settings.startColumn.toNat + settings.maxLineChars.toNat + 1)).drop
    (settings.startColumn.toNat - 1)

variable {index : Nat} {text : Text}

theorem splitsSurrogatePair_of_length_le (outside : text.length ≤ index) :
    splitsSurrogatePair text index = false := by
  cases index with
  | zero => rfl
  | succ index => simp [splitsSurrogatePair, List.getElem?_eq_none outside]

section

variable (splits : splitsSurrogatePair text index = true)
include splits

theorem pos_of_splits : 0 < index := by
  cases index with
  | zero => cases splits
  | succ index => exact Nat.succ_pos index

end

theorem splitsSurrogatePair_drop_take (text : Text) (count skipped : Nat)
    (inside : skipped + index + 1 < count) :
    splitsSurrogatePair ((text.take count).drop skipped) (index + 1) =
      splitsSurrogatePair text (skipped + index + 1) := by
  simp only [splitsSurrogatePair, List.getElem?_drop, List.getElem?_take]
  rw [if_pos (by omega), if_pos (by omega)]
  rfl

/-- The captured columns of a line give its window. -/
theorem windowOf_capture (settings : DecoderSettings) (windowed : settings.overflow = .window)
    (line : Text) :
    StreamingLineDecoder.windowOf settings line.length (capture settings line) =
      ((windowRecord settings line).text, (windowRecord settings line).startColumn) := by
  obtain ⟨-, chars, -, start, -⟩ := settings.bounded windowed
  obtain ⟨first, same⟩ := Int.eq_ofNat_of_zero_le start
  obtain ⟨most, sameMost⟩ := Int.eq_ofNat_of_zero_le chars
  simp only [StreamingLineDecoder.windowOf, windowRecord, windowBounds, capture, same, sameMost,
    Int.toNat_natCast]
  have column : (min (line.length : Int) first).toNat = min line.length first := by omega
  rw [column]
  by_cases short : line.length < first
  · have none : (min (line.length : Int) first - min (line.length : Int) (max 0 ((first : Int) - 1))).toNat = 0 := by
      omega
    have empty : (line.take (first + most + 1)).drop (first - 1) = [] := by
      apply List.drop_eq_nil_of_le
      rw [List.length_take]
      omega
    rw [none, empty, Nat.min_eq_left (Nat.le_of_lt short),
      splitsSurrogatePair_of_length_le (Nat.le_refl line.length)]
    simp [splitsSurrogatePair_of_length_le]
  · have offset : (min (line.length : Int) first - min (line.length : Int) (max 0 ((first : Int) - 1))).toNat =
        first - (first - 1) := by omega
    rw [offset, Nat.min_eq_right (Nat.le_of_not_lt short)]
    have sameSplit : splitsSurrogatePair ((line.take (first + most + 1)).drop (first - 1))
        (first - (first - 1)) = splitsSurrogatePair line first := by
      cases first with
      | zero => rfl
      | succ first =>
          rw [show first + 1 - (first + 1 - 1) = 0 + 1 by omega,
            splitsSurrogatePair_drop_take _ _ _ (by omega)]
          rfl
    rw [sameSplit]
    have splitBound : (splitsSurrogatePair line first).toNat ≤ first - (first - 1) := by
      cases split : splitsSurrogatePair line first with
      | false => exact Nat.zero_le _
      | true =>
          have positive := pos_of_splits split
          simp only [Bool.toNat_true]
          omega
    generalize (splitsSurrogatePair line first).toNat = moved at splitBound ⊢
    have length : ((line.take (first + most + 1)).drop (first - 1)).length =
        min line.length (first + most + 1) - (first - 1) := by simp [Nat.min_comm]
    have stop : min ((line.take (first + most + 1)).drop (first - 1)).length
        (first - (first - 1) - moved + most) + (first - 1) =
          min line.length (first - moved + most) := by
      omega
    generalize last : min ((line.take (first + most + 1)).drop (first - 1)).length
      (first - (first - 1) - moved + most) = stopped at stop ⊢
    have sameWide : (decide ((0 : Int) < most) &&
        splitsSurrogatePair ((line.take (first + most + 1)).drop (first - 1)) stopped) =
          (decide ((0 : Int) < most) &&
            splitsSurrogatePair line (min line.length (first - moved + most))) := by
      by_cases positive : (0 : Int) < most
      · cases stopped with
        | zero =>
            have none : min line.length (first - moved + most) = 0 ∨
                line.length ≤ min line.length (first - moved + most) := by omega
            rcases none with none | none
            · rw [none]
              rfl
            · rw [splitsSurrogatePair_of_length_le none]
              rfl
        | succ stopped =>
            rw [splitsSurrogatePair_drop_take _ _ _ (by omega), ← stop]
            congr 2
            omega
      · simp only [decide_eq_false positive, Bool.false_and]
    rw [sameWide]
    have wideBound : (decide ((0 : Int) < most) &&
        splitsSurrogatePair line (min line.length (first - moved + most))).toNat ≤ 1 :=
      Bool.toNat_le _
    generalize (decide ((0 : Int) < most) &&
      splitsSurrogatePair line (min line.length (first - moved + most))).toNat = wide at wideBound ⊢
    rw [← stop]
    have cut : ((line.take (first + most + 1)).drop (first - 1)).take (stopped + wide) =
        (line.take (stopped + (first - 1) + wide)).drop (first - 1) := by
      rw [List.take_drop, List.take_take]
      congr 2
      omega
    rw [cut, List.drop_drop]
    congr 2
    omega

end PiAdaptative.StreamingLines
