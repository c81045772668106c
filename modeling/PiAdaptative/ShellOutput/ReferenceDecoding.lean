import PiAdaptative.ShellOutput.Decoding

/-!
# Decoding in one pass

A reference decoder reads a whole byte string from left to right.  The decoder of chunks reads a
stream as the reference reads its bytes, unless a byte-order mark starts what a call decodes.
-/

namespace PiAdaptative.ShellOutput

/-- The text of a whole byte string: its well-formed sequences give their characters, and every other
byte its Windows-1252 one. -/
def reference (bytes : List UInt8) : List Char :=
  match bytes with
  | [] => []
  | byte :: rest =>
      match Utf8.firstChar? (byte :: rest) with
      | some char => char :: reference (rest.drop (char.utf8Size - 1))
      | none => decodeWindows1252Byte byte :: reference rest
termination_by bytes.length
decreasing_by all_goals simp; try omega

/-- The bytes at the end of a stream that a longer stream may complete to a sequence. -/
def unfinished (bytes : List UInt8) : List UInt8 :=
  match bytes with
  | [] => []
  | byte :: rest =>
      match Utf8.firstChar? (byte :: rest) with
      | some char => unfinished (rest.drop (char.utf8Size - 1))
      | none => if rest.length + 1 < utf8SequenceLength byte then byte :: rest else unfinished rest
termination_by bytes.length
decreasing_by all_goals simp; try omega

/-- A byte string is empty, or starts with a sequence, or with a byte that starts none. -/
theorem sequences_induction {motive : List UInt8 → Prop} (nil : motive [])
    (character : ∀ char rest, motive rest → motive (String.utf8EncodeChar char ++ rest))
    (single : ∀ byte rest, Utf8.firstChar? (byte :: rest) = none → motive rest →
      motive (byte :: rest)) (bytes : List UInt8) : motive bytes := by
  induction size : bytes.length using Nat.strong_induction_on generalizing bytes with
  | _ size ih =>
      subst size
      match bytes with
      | [] => exact nil
      | byte :: rest =>
          cases first : Utf8.firstChar? (byte :: rest) with
          | none => exact single byte rest first (ih _ (Nat.lt_succ_self _) rest rfl)
          | some char =>
              obtain ⟨later, split⟩ := Utf8.firstChar?_eq_some_iff.mp first
              rw [← split]
              refine character char later (ih _ ?_ later rfl)
              rw [← split, List.length_append, String.length_utf8EncodeChar]
              have := char.utf8Size_pos
              omega

@[simp]
theorem reference_nil : reference [] = [] := by
  rw [reference]

@[simp]
theorem unfinished_nil : unfinished [] = [] := by
  rw [unfinished]

theorem exists_sequence (char : Char) : ∃ byte tail, String.utf8EncodeChar char = byte :: tail ∧
    tail.length = char.utf8Size - 1 := by
  obtain ⟨byte, tail, sequence⟩ := List.exists_cons_of_ne_nil
    (String.utf8EncodeChar_ne_nil (c := char))
  refine ⟨byte, tail, sequence, ?_⟩
  have length := String.length_utf8EncodeChar char
  rw [sequence, List.length_cons] at length
  omega

@[simp]
theorem reference_append (char : Char) (rest : List UInt8) :
    reference (String.utf8EncodeChar char ++ rest) = char :: reference rest := by
  obtain ⟨byte, tail, sequence, size⟩ := exists_sequence char
  have first := Utf8.firstChar?_append char rest
  rw [sequence, List.cons_append] at first ⊢
  rw [reference, first]
  simp only [← size, List.drop_left]

@[simp]
theorem unfinished_append (char : Char) (rest : List UInt8) :
    unfinished (String.utf8EncodeChar char ++ rest) = unfinished rest := by
  obtain ⟨byte, tail, sequence, size⟩ := exists_sequence char
  have first := Utf8.firstChar?_append char rest
  rw [sequence, List.cons_append] at first ⊢
  rw [unfinished, first]
  simp only [← size, List.drop_left]

variable {byte : UInt8} {rest : List UInt8}

theorem reference_cons (none_first : Utf8.firstChar? (byte :: rest) = none) :
    reference (byte :: rest) = decodeWindows1252Byte byte :: reference rest := by
  rw [reference, none_first]

theorem unfinished_cons (none_first : Utf8.firstChar? (byte :: rest) = none) :
    unfinished (byte :: rest) =
      if rest.length + 1 < utf8SequenceLength byte then byte :: rest else unfinished rest := by
  rw [unfinished, none_first]

/-- The length that the first byte of a sequence announces. -/
def announced (byte : UInt8) : Nat := if byte ≤ 0x7F then 1 else utf8SequenceLength byte

theorem announced_of_wellFormed {tail : List UInt8} (formed : Utf8.WellFormed (byte :: tail)) :
    announced byte = tail.length + 1 := by
  unfold announced utf8SequenceLength
  cases formed <;> simp_all only [UInt8.le_iff_toNat_le, List.length_cons, List.length_nil] <;>
    simp at * <;> repeat' split
  all_goals omega

theorem check_of_wellFormed {tail : List UInt8} (formed : Utf8.WellFormed (byte :: tail))
    (high : ¬byte ≤ 0x7F) (rest : List UInt8) :
    isValidUtf8Sequence (byte :: tail ++ rest) (tail.length + 1) = true := by
  unfold isValidUtf8Sequence isContinuation
  cases formed with
  | one low => exact absurd low high
  | two low top second => simp [second.1, second.2]
  | three low top second third narrow surrogate =>
      have wide : ¬(byte = 0xE0 ∧ _) := fun ⟨lead, below⟩ => UInt8.not_lt.mpr (narrow lead) below
      have narrow' : ¬(byte = 0xED ∧ _) := fun ⟨lead, above⟩ =>
        UInt8.not_lt.mpr (surrogate lead) above
      simp [second.1, second.2, third.1, third.2, -not_and, wide, narrow']
  | four low top second third fourth narrow wide =>
      have below : ¬(byte = 0xF0 ∧ _) := fun ⟨lead, below⟩ => UInt8.not_lt.mpr (narrow lead) below
      have above : ¬(byte = 0xF4 ∧ _) := fun ⟨lead, above⟩ =>
        UInt8.not_lt.mpr (wide lead) above
      have first : byte ≠ 0xE0 ∧ byte ≠ 0xED := by
        constructor <;> rintro rfl <;> exact absurd low (by decide)
      simp [second.1, second.2, third.1, third.2, fourth.1, fourth.2, -not_and, below, above,
        first.1, first.2]

theorem utf8SequenceLength_cases (positive : 0 < utf8SequenceLength byte) :
    (0xC2 ≤ byte ∧ byte ≤ 0xDF ∧ utf8SequenceLength byte = 2) ∨
      (0xE0 ≤ byte ∧ byte ≤ 0xEF ∧ utf8SequenceLength byte = 3) ∨
        (0xF0 ≤ byte ∧ byte ≤ 0xF4 ∧ utf8SequenceLength byte = 4) := by
  unfold utf8SequenceLength at positive ⊢
  split at positive
  · rename_i range
    exact .inl ⟨range.1, range.2, if_pos range⟩
  split at positive
  · rename_i below range
    exact .inr (.inl ⟨range.1, range.2, by rw [if_neg below, if_pos range]⟩)
  split at positive
  · rename_i below middle range
    exact .inr (.inr ⟨range.1, range.2, by rw [if_neg below, if_neg middle, if_pos range]⟩)
  · exact absurd positive (lt_irrefl 0)

theorem wellFormed_of_check (positive : 0 < utf8SequenceLength byte)
    (fits : utf8SequenceLength byte ≤ rest.length + 1)
    (valid : isValidUtf8Sequence (byte :: rest) (utf8SequenceLength byte) = true) :
    Utf8.WellFormed ((byte :: rest).take (utf8SequenceLength byte)) := by
  unfold isValidUtf8Sequence isContinuation at valid
  rcases utf8SequenceLength_cases positive with
    ⟨least, most, length⟩ | ⟨least, most, length⟩ | ⟨least, most, length⟩
  · rw [length] at fits valid ⊢
    match rest with
    | second :: rest =>
        simp at valid
        exact .two least most valid
  · rw [length] at fits valid ⊢
    match rest with
    | second :: third :: rest =>
        simp [-not_and] at valid
        exact .three least most valid.1 valid.2.1 valid.2.2.1.neg_resolve_left
          valid.2.2.2.neg_resolve_left
  · rw [length] at fits valid ⊢
    match rest with
    | second :: third :: fourth :: rest =>
        simp [-not_and] at valid
        obtain ⟨second, third, -, -, fourth, below, above⟩ := valid
        exact .four least most second third fourth below.neg_resolve_left above.neg_resolve_left

theorem firstChar?_low (low : byte ≤ 0x7F) (rest : List UInt8) :
    Utf8.firstChar? (byte :: rest) ≠ none := by
  obtain ⟨char, sequence⟩ := (Utf8.WellFormed.one low).exists_eq
  have first := Utf8.firstChar?_append char rest
  rw [sequence] at first
  exact fun missing => Option.some_ne_none _ (first.symm.trans missing)

/-- Bytes past the announced length do not make a sequence of what is none. -/
theorem firstChar?_append_none (missing : Utf8.firstChar? (byte :: rest) = none)
    (enough : utf8SequenceLength byte ≤ rest.length + 1) (more : List UInt8) :
    Utf8.firstChar? (byte :: rest ++ more) = none := by
  rw [Option.eq_none_iff_forall_ne_some]
  intro char first
  have starts := Utf8.firstChar?_eq_some_iff.mp first
  obtain ⟨lead, tail, sequence, -⟩ := exists_sequence char
  have formed := Utf8.wellFormed_utf8EncodeChar char
  rw [sequence] at starts formed
  obtain ⟨rfl, -⟩ := List.cons_prefix_cons.mp starts
  have high : ¬lead ≤ 0x7F := fun low => firstChar?_low low rest missing
  have size := announced_of_wellFormed formed
  rw [announced, if_neg high] at size
  have within : lead :: tail <+: lead :: rest :=
    List.prefix_of_prefix_length_le starts (List.prefix_append ..)
      (by simp only [List.length_cons]; omega)
  rw [← sequence] at within
  exact Option.some_ne_none _ ((Utf8.firstChar?_eq_some_iff.mpr within).symm.trans missing)

theorem scan_character (stream : Bool) (decoded : List Char) (sequences rest : List UInt8)
    (char : Char) :
    scan stream decoded sequences (String.utf8EncodeChar char ++ rest) =
      scan stream decoded (sequences ++ String.utf8EncodeChar char) rest := by
  obtain ⟨byte, tail, sequence, -⟩ := exists_sequence char
  have formed := Utf8.wellFormed_utf8EncodeChar char
  rw [sequence] at formed ⊢
  have size := announced_of_wellFormed formed
  rw [announced] at size
  rw [List.cons_append, scan]
  split at size
  · rename_i low
    obtain rfl : tail = [] := List.eq_nil_of_length_eq_zero (by omega)
    rw [if_pos low, List.nil_append]
  · rename_i high
    have valid := check_of_wellFormed formed high rest
    rw [if_neg high, size]
    rw [if_neg (by rw [List.length_append]; omega),
      if_pos ⟨by omega, by rw [List.length_append]; omega, valid⟩]
    rw [List.take_succ_cons, List.take_left, Nat.add_sub_cancel, List.drop_left]

theorem scan_single (missing : Utf8.firstChar? (byte :: rest) = none) (stream : Bool)
    (decoded : List Char) (sequences : List UInt8) :
    scan stream decoded sequences (byte :: rest) =
      if rest.length + 1 < utf8SequenceLength byte ∧ stream = true then
        (decoded ++ Utf8.decodeLossy sequences, byte :: rest)
      else
        scan stream (decoded ++ Utf8.decodeLossy sequences ++ [decodeWindows1252Byte byte]) []
          rest := by
  have high : ¬byte ≤ 0x7F := fun low => firstChar?_low low rest missing
  rw [scan, if_neg high]
  dsimp only
  split
  · rename_i waits
    rw [if_pos waits.2]
  · rename_i settled
    rw [if_neg (fun waits => settled ⟨by omega, waits⟩), if_neg]
    rintro ⟨positive, fits, valid⟩
    obtain ⟨char, sequence⟩ := (wellFormed_of_check positive fits valid).exists_eq
    have starts : String.utf8EncodeChar char <+: byte :: rest := sequence ▸ List.take_prefix ..
    exact Option.some_ne_none _ ((Utf8.firstChar?_eq_some_iff.mpr starts).symm.trans missing)

/-- What a scan leaves for the next chunk. -/
def left (stream : Bool) (bytes : List UInt8) : List UInt8 :=
  if stream then unfinished bytes else []

/-- A scan reads its buffer as the reference does, up to what it leaves. -/
theorem scan_spec (stream : Bool) (bytes : List UInt8) (decoded chars : List Char) :
    ∃ text, scan stream decoded (Utf8.encode chars) bytes =
        (decoded ++ chars ++ text, left stream bytes) ∧
      ∀ more, (stream = false → more = []) →
        reference (bytes ++ more) = text ++ reference (left stream bytes ++ more) := by
  induction bytes using sequences_induction generalizing decoded chars with
  | nil => 
      refine ⟨[], ?_, ?_⟩
      · rw [scan, Utf8.decodeLossy_encode]
        simp [left]
      · simp [left]
  | character char rest ih =>
      obtain ⟨text, scanned, read⟩ := ih decoded (chars ++ [char])
      have same : left stream (String.utf8EncodeChar char ++ rest) = left stream rest := by
        simp [left]
      refine ⟨char :: text, ?_, fun more last => ?_⟩
      · rw [scan_character, same]
        simpa [Utf8.encode] using scanned
      · rw [same, List.append_assoc, reference_append, read more last, List.cons_append]
  | single byte rest missing ih =>
      rw [scan_single missing, Utf8.decodeLossy_encode]
      split
      · rename_i waits
        refine ⟨[], ?_, ?_⟩
        · simp [left, waits.2, unfinished_cons missing, waits.1]
        · simp [left, waits.2, unfinished_cons missing, waits.1]
      · rename_i settled
        obtain ⟨text, scanned, read⟩ := ih (decoded ++ chars ++ [decodeWindows1252Byte byte]) []
        have same : left stream (byte :: rest) = left stream rest := by
          unfold left
          split
          · rename_i streams
            rw [unfinished_cons missing, if_neg fun waits => settled ⟨waits, streams⟩]
          · rfl
        refine ⟨decodeWindows1252Byte byte :: text, ?_, fun more last => ?_⟩
        · rw [same]
          simpa [Utf8.encode] using scanned
        · have none_first : Utf8.firstChar? (byte :: (rest ++ more)) = none := by
            cases stream with
            | false => rw [last rfl, List.append_nil, missing]
            | true =>
                exact firstChar?_append_none missing
                  (not_lt.mp fun waits => settled ⟨waits, rfl⟩) more
          rw [same, List.cons_append, reference_cons none_first, read more last,
            List.cons_append]

/-- A buffer that is all UTF-8 and starts with a byte-order mark. -/
def Marked (bytes : List UInt8) : Prop := ∃ text, bytes = Utf8.encode ('\uFEFF' :: text)

theorem unfinished_encode (text : List Char) : unfinished (Utf8.encode text) = [] := by
  induction text with
  | nil => exact unfinished_nil
  | cons char text ih => rw [Utf8.encode_cons, unfinished_append, ih]

theorem reference_encode_append (text : List Char) (more : List UInt8) :
    reference (Utf8.encode text ++ more) = text ++ reference more := by
  induction text with
  | nil => rfl
  | cons char text ih =>
      rw [Utf8.encode_cons, List.append_assoc, reference_append, ih, List.cons_append]

theorem unfinished_resume (seen more : List UInt8) :
    unfinished (unfinished seen ++ more) = unfinished (seen ++ more) := by
  induction seen using sequences_induction with
  | nil => rw [unfinished_nil]
  | character char rest ih => rw [unfinished_append, ih, List.append_assoc, unfinished_append]
  | single byte rest missing ih =>
      rw [unfinished_cons missing]
      split
      · rfl
      · rename_i settled
        have later : Utf8.firstChar? (byte :: (rest ++ more)) = none :=
          firstChar?_append_none missing (not_lt.mp settled) more
        rw [ih, List.cons_append, unfinished_cons later, if_neg]
        rw [List.length_append]
        omega

theorem firstChar?_unfinished (seen : List UInt8) : Utf8.firstChar? (unfinished seen) = none := by
  induction seen using sequences_induction with
  | nil => rw [unfinished_nil, Utf8.firstChar?_nil]
  | character char rest ih => rw [unfinished_append, ih]
  | single byte rest missing ih =>
      rw [unfinished_cons missing]
      split
      · exact missing
      · exact ih

theorem not_marked_unfinished (seen : List UInt8) : ¬Marked (unfinished seen) := by
  rintro ⟨text, marked⟩
  have missing := firstChar?_unfinished seen
  rw [marked, Utf8.encode_cons, Utf8.firstChar?_append] at missing
  cases missing

namespace WindowsCompatibleShellOutputDecoder

/-- A call reads its buffer as the reference does and loses only the mark of a marked one. -/
theorem decode_spec (waiting input : List UInt8) (stream : Bool) :
    ∃ text, (decode { pending := waiting } input stream).2 =
        { pending := left stream (waiting ++ input) } ∧
      (∀ more, (stream = false → more = []) → reference (waiting ++ input ++ more) =
        text ++ reference (left stream (waiting ++ input) ++ more)) ∧
      (¬Marked (waiting ++ input) → (decode { pending := waiting } input stream).1 = text) ∧
      (Marked (waiting ++ input) →
        text = '\uFEFF' :: (decode { pending := waiting } input stream).1) := by
  have buffer : (if 0 < waiting.length then waiting ++ input else input) = waiting ++ input := by
    cases waiting <;> rfl
  unfold decode
  dsimp only
  rw [buffer]
  generalize waiting ++ input = bytes
  split
  · rename_i empty
    obtain rfl := List.eq_nil_of_length_eq_zero empty
    refine ⟨[], by simp [left], by simp [left], fun _ => rfl, ?_⟩
    rintro ⟨text, marked⟩
    exact absurd (List.append_eq_nil_iff.mp marked.symm).1 String.utf8EncodeChar_ne_nil
  · cases decoded : Utf8.decode? bytes with
    | some text =>
        obtain rfl := Utf8.decode?_eq_some_iff.mp decoded
        have nothing : left stream (Utf8.encode text) = [] := by
          simp [left, unfinished_encode]
        rw [fatalDecode, decoded, nothing]
        refine ⟨text, rfl, fun more _ => reference_encode_append text more, fun unmarked => ?_, ?_⟩
        · match text with
          | [] => rfl
          | char :: text =>
              have other : char ≠ '\uFEFF' := fun mark => unmarked ⟨text, mark ▸ rfl⟩
              simp [dropByteOrderMark, other]
        · rintro ⟨rest, marked⟩
          obtain rfl := Option.some.inj ((Utf8.decode?_eq_some_iff.mpr rfl).symm.trans
            (Utf8.decode?_eq_some_iff.mpr marked))
          simp [dropByteOrderMark]
    | none =>
        rw [fatalDecode, decoded]
        obtain ⟨text, scanned, read⟩ := scan_spec stream bytes [] []
        rw [Utf8.encode_nil, List.nil_append, List.nil_append] at scanned
        refine ⟨text, ?_, read, fun _ => ?_, ?_⟩
        · simp [scanned]
        · simp [scanned]
        · rintro ⟨rest, marked⟩
          rw [Utf8.decode?_eq_some_iff.mpr marked] at decoded
          cases decoded

theorem forall_split_cons {α : Type*} {first : α} {rest : List α} {holds : List α → α → Prop} :
    (∀ before element after, first :: rest = before ++ element :: after → holds before element) ↔
      holds [] first ∧ ∀ before element after, rest = before ++ element :: after →
        holds (first :: before) element := by
  constructor
  · intro every
    refine ⟨every [] first rest rfl, fun before element after split => ?_⟩
    exact every (first :: before) element after (by rw [split, List.cons_append])
  · rintro ⟨head, later⟩ before element after split
    match before with
    | [] =>
        obtain ⟨rfl, -⟩ := List.cons.inj split
        exact head
    | other :: before =>
        obtain ⟨rfl, tails⟩ := List.cons.inj split
        exact later before element after tails

/-- The chunks after a stream give its reference text, less the marks of the marked buffers. -/
theorem decodeChunks_spec (seen : List UInt8) (chunks : List (List UInt8)) :
    (decodeChunks { pending := unfinished seen } chunks).length ≤
        (reference (unfinished seen ++ chunks.flatten)).length ∧
      (decodeChunks { pending := unfinished seen } chunks =
          reference (unfinished seen ++ chunks.flatten) ↔
        ∀ before chunk after, chunks = before ++ chunk :: after →
          ¬Marked (unfinished (seen ++ before.flatten) ++ chunk)) := by
  induction chunks generalizing seen with
  | nil =>
      obtain ⟨text, -, read, unmarked, -⟩ := decode_spec (unfinished seen) [] false
      have whole := read [] fun _ => rfl
      have same : decodeChunks { pending := unfinished seen } [] =
          reference (unfinished seen ++ [].flatten) := by
        rw [decodeChunks, unmarked (by rw [List.append_nil]; exact not_marked_unfinished seen)]
        simpa [left] using whole.symm
      refine ⟨same ▸ le_refl _, iff_of_true same ?_⟩
      simp
  | cons chunk chunks ih =>
      obtain ⟨text, after, read, unmarked, marked⟩ := decode_spec (unfinished seen) chunk true
      obtain ⟨shorter, same⟩ := ih (seen ++ chunk)
      have resumed : left true (unfinished seen ++ chunk) = unfinished (seen ++ chunk) :=
        unfinished_resume seen chunk
      have whole := read chunks.flatten (by simp)
      rw [resumed] at after whole
      rw [decodeChunks, after, List.flatten_cons, ← List.append_assoc, whole, forall_split_cons]
      by_cases mark : Marked (unfinished seen ++ chunk)
      · have lost := congrArg List.length (marked mark)
        rw [List.length_cons] at lost
        refine ⟨by simp only [List.length_append]; omega, iff_of_false (fun equal => ?_) ?_⟩
        · have lengths := congrArg List.length equal
          simp only [List.length_append] at lengths
          omega
        · exact fun every => every.1 (by simpa using mark)
      · rw [unmarked mark, List.append_cancel_left_eq, same]
        refine ⟨by simp only [List.length_append]; omega, ?_⟩
        simp only [List.flatten_nil, List.append_nil, mark, not_false_eq_true, true_and,
          List.flatten_cons, List.append_assoc]

end WindowsCompatibleShellOutputDecoder

open WindowsCompatibleShellOutputDecoder

/-- A byte-order mark that starts a later chunk is lost. -/
theorem decoding_depends_on_chunks : ¬∀ chunks : List (List UInt8),
    decodeChunks {} chunks = reference chunks.flatten := by
  intro every
  have same := every [[0x61], [0xEF, 0xBB, 0xBF, 0x62]]
  have unmarked := (decodeChunks_spec [] [[0x61], [0xEF, 0xBB, 0xBF, 0x62]]).2.mp (by
    rw [unfinished_nil]
    exact same) [[0x61]] [0xEF, 0xBB, 0xBF, 0x62] [] rfl
  refine unmarked ⟨['b'], ?_⟩
  rw [show ([] : List UInt8) ++ [[0x61]].flatten = Utf8.encode ['a'] by decide, unfinished_encode]
  decide

/-- The text of a stream is its reference text exactly when no chunk, read with the bytes left
unfinished before it, is all UTF-8 from a byte-order mark on. -/
theorem decodes_as_reference_iff (chunks : List (List UInt8)) :
    decodeChunks {} chunks = reference chunks.flatten ↔
      ∀ before chunk after, chunks = before ++ chunk :: after →
        ¬Marked (unfinished before.flatten ++ chunk) := by
  have spec := (decodeChunks_spec [] chunks).2
  rw [unfinished_nil] at spec
  exact spec

/-- What a part of a UTF-8 stream leaves unfinished starts a character of its text. -/
theorem unfinished_of_encode {seen more : List UInt8} {text : List Char}
    (split : seen ++ more = Utf8.encode text) :
    ∃ rest, rest <:+ text ∧ unfinished seen ++ more = Utf8.encode rest := by
  induction seen using sequences_induction generalizing text with
  | nil => exact ⟨text, List.suffix_refl _, by rw [unfinished_nil]; exact split⟩
  | character char later ih =>
      have first := Utf8.firstChar?_append char (later ++ more)
      rw [← List.append_assoc, split] at first
      cases text with
      | nil => simp at first
      | cons other text =>
          rw [Utf8.encode_cons, Utf8.firstChar?_append] at first
          obtain rfl := Option.some.inj first
          rw [Utf8.encode_cons, List.append_assoc] at split
          obtain ⟨rest, ends, same⟩ := ih (List.append_cancel_left split)
          exact ⟨rest, ends.trans (List.suffix_cons ..), by rw [unfinished_append]; exact same⟩
  | single byte later missing _ =>
      rw [unfinished_cons missing]
      split_ifs with waits
      · exact ⟨text, List.suffix_refl _, split⟩
      · have first := firstChar?_append_none missing (not_lt.mp waits) more
        rw [split] at first
        cases text with
        | nil => cases split
        | cons char text =>
            rw [Utf8.encode_cons, Utf8.firstChar?_append] at first
            cases first

/-- UTF-8 text without byte-order marks is read unchanged, wherever its bytes are cut. -/
theorem utf8_text_is_decoded {text : List Char} (unmarked : '\uFEFF' ∉ text)
    {chunks : List (List UInt8)} (cut : chunks.flatten = Utf8.encode text) :
    decodeChunks {} chunks = text := by
  have spec := (decodeChunks_spec [] chunks).2
  have whole := reference_encode_append text []
  rw [List.append_nil, reference_nil, List.append_nil] at whole
  rw [unfinished_nil, List.nil_append, cut, whole] at spec
  refine spec.mpr fun before chunk after parts ⟨marked, same⟩ => ?_
  rw [parts, List.flatten_append, List.flatten_cons] at cut
  obtain ⟨rest, ends, left⟩ := unfinished_of_encode cut
  rw [List.nil_append] at same
  have first := Utf8.firstChar?_append '\uFEFF' (Utf8.encode marked ++ after.flatten)
  rw [← List.append_assoc, ← Utf8.encode_cons, ← same, List.append_assoc, left] at first
  cases rest with
  | nil => simp at first
  | cons char rest =>
      rw [Utf8.encode_cons, Utf8.firstChar?_append] at first
      obtain rfl := Option.some.inj first
      exact unmarked (ends.subset List.mem_cons_self)

theorem cut_character_is_decoded : decodeChunks {} [[0x61, 0xE2, 0x82], [0xAC]] = ['a', '€'] :=
  utf8_text_is_decoded (by decide) (by decide)

end PiAdaptative.ShellOutput
