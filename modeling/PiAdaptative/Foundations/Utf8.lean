import Mathlib.Data.List.Infix

/-!
# UTF-8

The byte sequences of the characters, told apart by the ranges of their bytes, and the character a
byte string starts with.
-/

namespace PiAdaptative.Utf8

def encode (text : List Char) : List UInt8 := text.flatMap String.utf8EncodeChar

@[simp]
theorem encode_nil : encode [] = [] := rfl

@[simp]
theorem encode_cons (char : Char) (text : List Char) :
    encode (char :: text) = String.utf8EncodeChar char ++ encode text := rfl

/-- The character whose sequence starts a byte string. -/
def firstChar? (bytes : List UInt8) : Option Char := bytes.toByteArray.utf8DecodeChar? 0

variable {bytes : List UInt8}

theorem firstChar?_eq_some_iff {char : Char} :
    firstChar? bytes = some char ↔ String.utf8EncodeChar char <+: bytes := by
  constructor
  · intro first
    obtain ⟨rest, split⟩ := ByteArray.exists_of_utf8DecodeChar?_eq_some first
    refine ⟨rest.data.toList, ?_⟩
    have data := congrArg (fun bytes => bytes.data.toList) split
    simpa using data.symm
  · rintro ⟨rest, rfl⟩
    unfold firstChar?
    rw [List.toByteArray_append]
    exact ByteArray.utf8DecodeChar?_utf8EncodeChar_append

@[simp]
theorem firstChar?_append (char : Char) (rest : List UInt8) :
    firstChar? (String.utf8EncodeChar char ++ rest) = some char :=
  firstChar?_eq_some_iff.mpr (List.prefix_append ..)

@[simp]
theorem firstChar?_nil : firstChar? [] = none := by
  rw [Option.eq_none_iff_forall_ne_some]
  intro char first
  exact String.utf8EncodeChar_ne_nil (List.prefix_nil.mp (firstChar?_eq_some_iff.mp first))

/-- The text of a byte string that is all well-formed. -/
def decode? (bytes : List UInt8) : Option (List Char) :=
  bytes.toByteArray.utf8Decode?.map Array.toList

theorem decode?_eq_some_iff {text : List Char} :
    decode? bytes = some text ↔ bytes = encode text := by
  have read : ∀ text, decode? (encode text) = some text := by
    intro text
    have decoded := List.utf8Decode?_utf8Encode (l := text)
    unfold decode? encode
    rw [show (text.flatMap String.utf8EncodeChar).toByteArray = text.utf8Encode from rfl, decoded]
    rfl
  constructor
  · intro decoded
    obtain ⟨array, found, rfl⟩ := Option.map_eq_some_iff.mp decoded
    have valid := ByteArray.isSome_utf8Decode?_iff.mp (Option.isSome_of_eq_some found)
    obtain ⟨text, same⟩ := valid
    have bytes_eq : bytes = encode text := by
      have data := congrArg (fun bytes => bytes.data.toList) same
      simpa [List.utf8Encode, encode] using data
    have whole := read text
    rw [← bytes_eq] at whole
    unfold decode? at whole
    rw [found] at whole
    rw [bytes_eq, Option.some.inj whole]
  · rintro rfl
    exact read text

/-- A byte that may stand after the first of a sequence. -/
def Continuation (byte : UInt8) : Prop := 0x80 ≤ byte ∧ byte ≤ 0xBF

inductive WellFormed : List UInt8 → Prop where
  | one {first} : first ≤ 0x7F → WellFormed [first]
  | two {first second} : 0xC2 ≤ first → first ≤ 0xDF → Continuation second →
      WellFormed [first, second]
  | three {first second third} : 0xE0 ≤ first → first ≤ 0xEF → Continuation second →
      Continuation third → (first = 0xE0 → 0xA0 ≤ second) → (first = 0xED → second ≤ 0x9F) →
      WellFormed [first, second, third]
  | four {first second third fourth} : 0xF0 ≤ first → first ≤ 0xF4 → Continuation second →
      Continuation third → Continuation fourth → (first = 0xF0 → 0x90 ≤ second) →
      (first = 0xF4 → second ≤ 0x8F) → WellFormed [first, second, third, fourth]

variable {value : Nat}

theorem exists_char (value : Nat) (valid : value.isValidChar) : ∃ char : Char, char.val.toNat = value :=
  ⟨Char.ofNat value, by
    rw [Char.ofNat, dif_pos valid]
    rfl⟩

variable {bound : UInt8}

theorem ofNat_le_iff (small : value < 256) : UInt8.ofNat value ≤ bound ↔ value ≤ bound.toNat := by
  rw [UInt8.le_iff_toNat_le, UInt8.toNat_ofNat_of_lt' small]

theorem le_ofNat_iff (small : value < 256) : bound ≤ UInt8.ofNat value ↔ bound.toNat ≤ value := by
  rw [UInt8.le_iff_toNat_le, UInt8.toNat_ofNat_of_lt' small]

theorem ofNat_eq_iff (small : value < 256) : UInt8.ofNat value = bound ↔ value = bound.toNat := by
  rw [← UInt8.toNat_inj, UInt8.toNat_ofNat_of_lt' small]

theorem continuation_ofNat (value : Nat) : Continuation (UInt8.ofNat (value % 64 + 128)) := by
  constructor
  · exact (le_ofNat_iff (by omega)).mpr (by simp)
  · exact (ofNat_le_iff (by omega)).mpr (by simp; omega)

theorem wellFormed_utf8EncodeChar (char : Char) : WellFormed (String.utf8EncodeChar char) := by
  have valid : char.val.toNat < 0xD800 ∨ 0xDFFF < char.val.toNat ∧ char.val.toNat < 0x110000 :=
    char.valid
  unfold String.utf8EncodeChar
  generalize char.val.toNat = value at valid
  dsimp only
  split
  · exact .one ((ofNat_le_iff (by omega)).mpr (by simpa))
  split
  · refine .two ((le_ofNat_iff (by omega)).mpr ?_) ((ofNat_le_iff (by omega)).mpr ?_)
      (continuation_ofNat value)
    all_goals simp; omega
  split
  · refine .three ((le_ofNat_iff (by omega)).mpr ?_) ((ofNat_le_iff (by omega)).mpr ?_)
      (continuation_ofNat _) (continuation_ofNat value)
      (fun low => (le_ofNat_iff (by omega)).mpr ?_) fun surrogate => (ofNat_le_iff (by omega)).mpr ?_
    · simp
    · simp; omega
    · have := (ofNat_eq_iff (by omega)).mp low
      simp at this ⊢; omega
    · have := (ofNat_eq_iff (by omega)).mp surrogate
      simp at this ⊢; omega
  · refine .four ((le_ofNat_iff (by omega)).mpr ?_) ((ofNat_le_iff (by omega)).mpr ?_)
      (continuation_ofNat _) (continuation_ofNat _) (continuation_ofNat value)
      (fun low => (le_ofNat_iff (by omega)).mpr ?_) fun high => (ofNat_le_iff (by omega)).mpr ?_
    · simp
    · simp; omega
    · have := (ofNat_eq_iff (by omega)).mp low
      simp at this ⊢; omega
    · have := (ofNat_eq_iff (by omega)).mp high
      simp at this ⊢; omega

theorem ofNat_eq_of_toNat (byte : UInt8) (same : value = byte.toNat) :
    UInt8.ofNat value = byte := by
  rw [same, UInt8.ofNat_toNat]

theorem Continuation.toNat {byte : UInt8} (follows : Continuation byte) :
    128 ≤ byte.toNat ∧ byte.toNat ≤ 191 :=
  ⟨UInt8.le_iff_toNat_le.mp follows.1, UInt8.le_iff_toNat_le.mp follows.2⟩

theorem WellFormed.exists_eq (formed : WellFormed bytes) :
    ∃ char, String.utf8EncodeChar char = bytes := by
  have narrowed : ∀ {first second lead bound : UInt8}, (first = lead → bound ≤ second) →
      first.toNat = lead.toNat → bound.toNat ≤ second.toNat := fun narrow same =>
    UInt8.le_iff_toNat_le.mp (narrow (UInt8.toNat_inj.mp same))
  have widened : ∀ {first second lead bound : UInt8}, (first = lead → second ≤ bound) →
      first.toNat = lead.toNat → second.toNat ≤ bound.toNat := fun wide same =>
    UInt8.le_iff_toNat_le.mp (wide (UInt8.toNat_inj.mp same))
  cases formed with
  | @one first low =>
    have below : first.toNat ≤ 127 := UInt8.le_iff_toNat_le.mp low
    obtain ⟨char, value⟩ := exists_char first.toNat (.inl (by omega))
    refine ⟨char, ?_⟩
    unfold String.utf8EncodeChar
    rw [value, if_pos below, UInt8.ofNat_toNat]
  | @two first second low high second_follows =>
    have lead : 194 ≤ first.toNat := UInt8.le_iff_toNat_le.mp low
    have top : first.toNat ≤ 223 := UInt8.le_iff_toNat_le.mp high
    have next := second_follows.toNat
    obtain ⟨char, value⟩ := exists_char
      ((first.toNat - 192) * 64 + (second.toNat - 128)) (.inl (by omega))
    refine ⟨char, ?_⟩
    unfold String.utf8EncodeChar
    rw [value, if_neg (by omega), if_pos (by omega), ofNat_eq_of_toNat first (by omega),
      ofNat_eq_of_toNat second (by omega)]
  | @three first second third low high second_follows third_follows narrow surrogate =>
    have lead : 224 ≤ first.toNat := UInt8.le_iff_toNat_le.mp low
    have top : first.toNat ≤ 239 := UInt8.le_iff_toNat_le.mp high
    have next := second_follows.toNat
    have last := third_follows.toNat
    have least : first.toNat = 224 → 160 ≤ second.toNat := narrowed narrow
    have most : first.toNat = 237 → second.toNat ≤ 159 := widened surrogate
    obtain ⟨char, value⟩ := exists_char
      ((first.toNat - 224) * 4096 + (second.toNat - 128) * 64 + (third.toNat - 128))
      (by unfold Nat.isValidChar; omega)
    refine ⟨char, ?_⟩
    unfold String.utf8EncodeChar
    rw [value, if_neg (by omega), if_neg (by omega), if_pos (by omega),
      ofNat_eq_of_toNat first (by omega), ofNat_eq_of_toNat second (by omega),
      ofNat_eq_of_toNat third (by omega)]
  | @four first second third fourth low high second_follows third_follows fourth_follows narrow
      wide =>
    have lead : 240 ≤ first.toNat := UInt8.le_iff_toNat_le.mp low
    have top : first.toNat ≤ 244 := UInt8.le_iff_toNat_le.mp high
    have next := second_follows.toNat
    have later := third_follows.toNat
    have last := fourth_follows.toNat
    have least : first.toNat = 240 → 144 ≤ second.toNat := narrowed narrow
    have most : first.toNat = 244 → second.toNat ≤ 143 := widened wide
    obtain ⟨char, value⟩ := exists_char
      ((first.toNat - 240) * 262144 + (second.toNat - 128) * 4096 +
        (third.toNat - 128) * 64 + (fourth.toNat - 128))
      (by unfold Nat.isValidChar; omega)
    refine ⟨char, ?_⟩
    unfold String.utf8EncodeChar
    rw [value, if_neg (by omega), if_neg (by omega), if_neg (by omega),
      ofNat_eq_of_toNat first (by omega), ofNat_eq_of_toNat second (by omega),
      ofNat_eq_of_toNat third (by omega), ofNat_eq_of_toNat fourth (by omega)]

/-- The bytes that the start of a string gives up together where no sequence starts there: a part of
one, as far as it goes. -/
def illFormedLength (bytes : List UInt8) : Nat :=
  let first := bytes[0]?.getD 0
  let second := bytes[1]?.getD 0
  let third := bytes[2]?.getD 0
  if ¬(0xE0 ≤ first ∧ first ≤ 0xF4) ∨ ¬(0x80 ≤ second ∧ second ≤ 0xBF) ∨
      (first = 0xE0 ∧ second < 0xA0) ∨ (first = 0xED ∧ 0x9F < second) ∨
      (first = 0xF0 ∧ second < 0x90) ∨ (first = 0xF4 ∧ 0x8F < second) then 1
  else if 0xF0 ≤ first ∧ 0x80 ≤ third ∧ third ≤ 0xBF then 3
  else 2

/-- The text of a byte string, with a replacement character for each ill-formed part. -/
def decodeLossy (bytes : List UInt8) : List Char :=
  match bytes with
  | [] => []
  | byte :: rest =>
      match firstChar? (byte :: rest) with
      | some char => char :: decodeLossy (rest.drop (char.utf8Size - 1))
      | none => '\uFFFD' :: decodeLossy (rest.drop (illFormedLength (byte :: rest) - 1))
termination_by bytes.length
decreasing_by all_goals simp only [List.length_drop, List.length_cons]; omega

theorem decodeLossy_encode (text : List Char) : decodeLossy (encode text) = text := by
  induction text with
  | nil => rw [encode_nil, decodeLossy]
  | cons char text ih =>
      rw [encode_cons]
      obtain ⟨byte, rest, sequence⟩ := List.exists_cons_of_ne_nil
        (String.utf8EncodeChar_ne_nil (c := char))
      have size : rest.length = char.utf8Size - 1 := by
        have length := String.length_utf8EncodeChar char
        rw [sequence, List.length_cons] at length
        omega
      have first := firstChar?_append char (encode text)
      rw [sequence, List.cons_append] at first ⊢
      rw [decodeLossy, first]
      simp only [← size, List.drop_left, ih]

end PiAdaptative.Utf8
