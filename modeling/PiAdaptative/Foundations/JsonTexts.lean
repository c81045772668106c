import PiAdaptative.Foundations.PrefixCodes
import PiAdaptative.Foundations.Texts

/-!
# JSON texts of strings

`JSON.stringify` quotes a string and escapes quotes, backslashes and controls.  The quoted text, and
the code units of any text, determine the text.
-/

namespace PiAdaptative.JsonTexts

def hexDigit (value : Nat) : Char := Char.ofNat (if value < 10 then 48 + value else 87 + value)

/-- A character inside a JSON string. -/
def escape (unit : Char) : List Char :=
  match unit.toNat with
  | 8 => ['\\', 'b']
  | 9 => ['\\', 't']
  | 10 => ['\\', 'n']
  | 12 => ['\\', 'f']
  | 13 => ['\\', 'r']
  | 34 => ['\\', '"']
  | 92 => ['\\', '\\']
  | code => if code < 32 then ['\\', 'u', '0', '0', hexDigit (code / 16), hexDigit (code % 16)]
      else [unit]

/-- `JSON.stringify(text)`. -/
def quote (text : String) : List Char := '"' :: (text.toList.flatMap escape ++ ['"'])

def escapedCodes : List Nat := 34 :: 92 :: List.range 32

@[simp]
theorem mem_escapedCodes {code : Nat} : code ∈ escapedCodes ↔ code = 34 ∨ code = 92 ∨ code < 32 := by
  simp [escapedCodes]

theorem escape_of_plain {unit : Char} (plain : unit.toNat ∉ escapedCodes) : escape unit = [unit] := by
  have codes : ∀ code ∈ escapedCodes, unit.toNat ≠ code := fun code member equal =>
    plain (equal ▸ member)
  have high : ¬ unit.toNat < 32 := fun low => codes _ (by simp [low]) rfl
  have noQuote : unit.toNat ≠ 34 := codes 34 (by simp)
  have noBackslash : unit.toNat ≠ 92 := codes 92 (by simp)
  unfold escape
  split <;> first | omega | simp [high]

/-- The characters with an escape of two characters. -/
def shortEscapes : List (Nat × Char) :=
  [(8, 'b'), (9, 't'), (10, 'n'), (12, 'f'), (13, 'r'), (34, '"'), (92, '\\')]

theorem escape_escaped {unit : Char} (special : unit.toNat ∈ escapedCodes) :
    (unit.toNat < 32 ∧
      escape unit =
        ['\\', 'u', '0', '0', hexDigit (unit.toNat / 16), hexDigit (unit.toNat % 16)]) ∨
    ∃ mark, (unit.toNat, mark) ∈ shortEscapes ∧ escape unit = ['\\', mark] := by
  rw [mem_escapedCodes] at special
  unfold escape
  split
  case h_8 _ _ _ _ _ noQuote noBackslash =>
    have low := (special.resolve_left noQuote).resolve_left noBackslash
    exact .inl ⟨low, if_pos low⟩
  all_goals exact .inr ⟨_, by simp [shortEscapes, *], rfl⟩

theorem escape_head {unit : Char} (special : unit.toNat ∈ escapedCodes) :
    (escape unit).head? = some '\\' := by
  obtain ⟨-, word⟩ | ⟨mark, -, word⟩ := escape_escaped special
  · rw [word, List.head?_cons]
  · rw [word, List.head?_cons]

theorem hexDigit_inj {first second : Nat} (low : first < 16) (below : second < 16)
    (same : hexDigit first = hexDigit second) : first = second := by
  have codes : ∀ value < 16, (hexDigit value).toNat =
      if value < 10 then 48 + value else 87 + value := by decide
  have equal := (codes _ low).symm.trans ((congrArg Char.toNat same).trans (codes _ below))
  split at equal <;> split at equal <;> omega

theorem shortEscapes_mark : ∀ short ∈ shortEscapes, short.2 ≠ 'u' := by decide

theorem shortEscapes_inj : ∀ first ∈ shortEscapes, ∀ second ∈ shortEscapes,
    first.2 = second.2 → first.1 = second.1 := by decide

theorem escape_free {first second : Char} (special : first.toNat ∈ escapedCodes)
    (other : second.toNat ∈ escapedCodes) (starts : escape first <+: escape second) :
    first.toNat = second.toNat := by
  obtain ⟨low, word⟩ | ⟨mark, short, word⟩ := escape_escaped special <;>
    obtain ⟨below, target⟩ | ⟨sign, code, target⟩ := escape_escaped other <;>
    simp only [word, target, List.cons_prefix_cons, List.prefix_rfl, List.nil_prefix, true_and,
      and_true] at starts
  · have high := hexDigit_inj (by omega) (by omega) starts.1
    have last := hexDigit_inj (by omega) (by omega) starts.2
    omega
  · exact absurd starts.1.symm (shortEscapes_mark _ code)
  · exact absurd starts (shortEscapes_mark _ short)
  · exact shortEscapes_inj _ short _ code starts

theorem prefixFree_escape : PrefixFree escape where
  not_nil unit := by
    unfold escape
    split
    all_goals first | exact List.cons_ne_nil _ _ | (split <;> exact List.cons_ne_nil _ _)
  eq_of_starts := by
    intro first second starts
    have plainUnit : ∀ {unit : Char}, unit.toNat ∉ escapedCodes → unit ≠ '\\' := by
      rintro unit plain rfl
      exact plain (by simp)
    by_cases special : first.toNat ∈ escapedCodes
    · by_cases other : second.toNat ∈ escapedCodes
      · rw [← Char.ofNat_toNat first, escape_free special other starts, Char.ofNat_toNat]
      · rw [escape_of_plain other] at starts
        have head := escape_head special
        cases word : escape first with
        | nil => simp [word] at head
        | cons unit rest =>
            rw [word] at starts head
            have unitEq : unit = second := (List.cons_prefix_cons.mp starts).1
            exact absurd (unitEq ▸ Option.some.inj head) (plainUnit other)
    · rw [escape_of_plain special] at starts
      by_cases other : second.toNat ∈ escapedCodes
      · have head := escape_head other
        cases word : escape second with
        | nil => simp [word] at head
        | cons unit rest =>
            rw [word] at starts head
            have unitEq : first = unit := (List.cons_prefix_cons.mp starts).1
            exact absurd (unitEq.trans (Option.some.inj head)) (plainUnit special)
      · rw [escape_of_plain other] at starts
        exact (List.cons_prefix_cons.mp starts).1

theorem escape_head_ne (unit : Char) : (escape unit).head? ≠ some '"' := by
  by_cases special : unit.toNat ∈ escapedCodes
  · rw [escape_head special]
    decide
  · rw [escape_of_plain special]
    intro equal
    rw [Option.some.inj equal] at special
    exact special (by simp)

/-- A quoted text is read back, whatever follows. -/
theorem quote_append_inj {first second : String} {rest other : List Char}
    (same : quote first ++ rest = quote second ++ other) : first = second ∧ rest = other := by
  simp only [quote, List.cons_append, List.append_assoc,
    List.nil_append] at same
  obtain ⟨texts, rests⟩ :=
    prefixFree_escape.flatMap_append_inj escape_head_ne (List.cons.inj same).2
  exact ⟨String.toList_inj.mp texts, rests⟩

def unitsOf (unit : Char) : List Nat :=
  if unit.toNat < 0x10000 then [unit.toNat]
  else [0xD800 + (unit.toNat - 0x10000) / 0x400, 0xDC00 + (unit.toNat - 0x10000) % 0x400]

theorem isValidChar_toNat (unit : Char) : unit.toNat < 0xD800 ∨ 0xDFFF < unit.toNat ∧
    unit.toNat < 0x110000 := unit.valid

theorem prefixFree_unitsOf : PrefixFree unitsOf where
  not_nil unit := by
    unfold unitsOf
    split <;> simp
  eq_of_starts := by
    intro first second starts
    have firstValid := isValidChar_toNat first
    have secondValid := isValidChar_toNat second
    have codes : first.toNat = second.toNat := by
      unfold unitsOf at starts
      split at starts <;> split at starts <;>
        simp only [List.cons_prefix_cons, List.prefix_nil, reduceCtorEq] at starts <;> omega
    rw [← Char.ofNat_toNat first, codes, Char.ofNat_toNat]

/-- The code units determine the text. -/
theorem codeUnits_inj {first second : String} (same : codeUnits first = codeUnits second) :
    first = second :=
  String.toList_inj.mp (prefixFree_unitsOf.flatMap_inj same)

end PiAdaptative.JsonTexts
