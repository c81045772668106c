import PiAdaptative.StreamingLines.LineScan
import PiAdaptative.StreamingLines.Windows

/-!
# Decoding in chunks

Between two pushes a decoder stands for the line that is being read.  Every push keeps this, so the
records of a stream are those of its lines, however the stream was cut, and so are the lines that
the decoder drops or throws at.
-/

namespace PiAdaptative.StreamingLines

open TextProtocol (Text)

/-- Whether a line stays within the limit. -/
def Fits (settings : DecoderSettings) (line : Text) : Prop :=
  line = [] ∨ (line.length : Int) ≤ settings.maxLineChars

instance (settings : DecoderSettings) : DecidablePred (Fits settings) := fun _ =>
  inferInstanceAs (Decidable (_ ∨ _))

def lineRecord (settings : DecoderSettings) (line : Text) : StreamingLineRecord :=
  match settings.overflow with
  | .window => windowRecord settings line
  | _ => { text := line, startColumn := 0, totalChars := line.length }

/-- What is kept of the line being read. -/
def retained (settings : DecoderSettings) (pending : Text) : Text :=
  match settings.overflow with
  | .window => capture settings pending
  | _ => pending

/-- The line being read is kept, and within the limit when there is one. -/
structure Kept (settings : DecoderSettings) (decoder : StreamingLineDecoder) (pending : Text) :
    Prop where
  reading : decoder.skippingOversizedLine = false
  fits : settings.overflow ≠ .window → Fits settings pending
  length : decoder.length = pending.length
  text : decoder.parts.flatten = retained settings pending
  started : pending = [] → decoder.parts = []

/-- The line being read is too long and will be dropped. -/
structure Dropped (settings : DecoderSettings) (decoder : StreamingLineDecoder) (pending : Text) :
    Prop where
  skipping : decoder.skippingOversizedLine = true
  overflow : settings.overflow = .skip
  long : ¬Fits settings pending

/-- The decoder stands for an open line. -/
structure Represents (settings : DecoderSettings) (decoder : StreamingLineDecoder) (pending : Text)
    (afterReturn : Bool) : Prop where
  afterReturn : decoder.skipLeadingLf = afterReturn
  line : Kept settings decoder pending ∨ Dropped settings decoder pending

variable {settings : DecoderSettings} {decoder : StreamingLineDecoder} {pending : Text}
  {afterReturn : Bool}

theorem Fits.of_append {first second : Text} (fits : Fits settings (first ++ second)) :
    Fits settings first := by
  rcases fits with empty | short
  · exact .inl (List.append_eq_nil_iff.mp empty).1
  · rw [List.length_append] at short
    exact .inr (by omega)

variable {line : Text}

@[simp]
theorem capture_nil : capture settings [] = [] := by simp [capture]

/-- The line being read does not depend on the carriage return before it. -/
theorem Represents.marked (stands : Represents settings decoder pending afterReturn) (flag : Bool) :
    Represents settings { decoder with skipLeadingLf := flag } pending flag where
  afterReturn := rfl
  line := stands.line.imp
    (fun kept => ⟨kept.reading, kept.fits, kept.length, kept.text, kept.started⟩)
    fun dropped => ⟨dropped.skipping, dropped.overflow, dropped.long⟩

theorem Kept.fresh (decoder : StreamingLineDecoder) : Kept settings decoder.resetLine [] where
  reading := rfl
  fits _ := .inl rfl
  length := rfl
  text := by
    unfold retained
    split <;> simp [StreamingLineDecoder.resetLine]
  started _ := rfl

/-- In throw mode the line being read is within the limit. -/
theorem Represents.fits (stands : Represents settings decoder pending afterReturn)
    (throws : settings.overflow = .throw) : Fits settings pending := by
  rcases stands.line with kept | dropped
  · exact kept.fits (by simp [throws])
  · rw [dropped.overflow] at throws
    cases throws

/-- A line grows by a piece that is kept whole. -/
theorem Kept.grow (kept : Kept settings decoder pending) {part : Text} (nonempty : part ≠ [])
    (plain : settings.overflow ≠ .window)
    (short : ((pending ++ part).length : Int) ≤ settings.maxLineChars) :
    Kept settings { decoder with
      length := (pending ++ part).length
      parts := decoder.parts ++ [part] } (pending ++ part) where
  reading := kept.reading
  fits _ := .inr short
  length := rfl
  text := by
    have text := kept.text
    have whole : ∀ line, retained settings line = line := fun line => by
      unfold retained
      split
      · next windowed => exact absurd windowed plain
      · rfl
    rw [whole] at text ⊢
    simp [text]
  started empty := absurd (List.append_eq_nil_iff.mp empty).2 nonempty

def closedRecords (settings : DecoderSettings) (line : Text) : List StreamingLineRecord :=
  if settings.overflow = .window ∨ Fits settings line then [lineRecord settings line] else []

theorem Kept.takeLine (kept : Kept settings decoder pending) :
    decoder.takeLine settings = lineRecord settings pending := by
  have text := kept.text
  unfold StreamingLineDecoder.takeLine lineRecord
  rw [text, kept.length]
  cases overflow : settings.overflow with
  | window =>
      simp only [retained, overflow, windowOf_capture settings overflow]
      rfl
  | throw => simp only [retained, overflow]
  | skip => simp only [retained, overflow]

theorem Kept.recorded (kept : Kept settings decoder pending) :
    closedRecords settings pending = [lineRecord settings pending] := by
  unfold closedRecords
  by_cases windowed : settings.overflow = .window
  · rw [if_pos (.inl windowed)]
  · rw [if_pos (.inr (kept.fits windowed))]

theorem Dropped.recorded (dropped : Dropped settings decoder pending) :
    closedRecords settings pending = [] := by
  unfold closedRecords
  rw [if_neg]
  rintro (windowed | fits)
  · rw [dropped.overflow] at windowed
    cases windowed
  · exact dropped.long fits

/-- In throw mode every line read so far was within the limit. -/
def AllFit (settings : DecoderSettings) (lines : List Text) : Prop :=
  settings.overflow = .throw → ∀ line ∈ lines, Fits settings line

/-- The throw came at the first line of the stream that is too long. -/
def ThrewAt (settings : DecoderSettings) (records : List StreamingLineRecord)
    (lines : List Text) : Prop :=
  settings.overflow = .throw ∧ ∃ before line after, lines = before ++ line :: after ∧
    (∀ earlier ∈ before, Fits settings earlier) ∧ ¬Fits settings line ∧
    records = before.flatMap (closedRecords settings)

/-- What reading a text leaves behind an open line: the records of the lines it closed and a decoder
for the line it leaves open, or a throw that no later text changes. -/
def ReadsOn (settings : DecoderSettings) (records : List StreamingLineRecord) (pending : Text)
    (afterReturn : Bool) (text : Text) :
    Except LimitExceeded (List StreamingLineRecord × StreamingLineDecoder) → Prop
  | .ok (lines, decoder) =>
      let scanned := scan settings.lineEndings pending afterReturn text
      lines = records ++ scanned.closed.flatMap (closedRecords settings) ∧
        AllFit settings scanned.closed ∧
        Represents settings decoder scanned.pending scanned.afterReturn
  | .error exceeded => ∃ lost, exceeded.lines = records ++ lost ∧ ∀ future,
      ThrewAt settings lost
        (linesFrom settings.lineEndings pending afterReturn (text ++ future))

variable {records : List StreamingLineRecord} {lines : List Text}

/-- A throw behind a line within the limit. -/
theorem ThrewAt.cons (fits : Fits settings line) (threw : ThrewAt settings records lines) :
    ThrewAt settings (closedRecords settings line ++ records) (line :: lines) := by
  obtain ⟨throws, before, long, after, rfl, short, tooLong, rfl⟩ := threw
  refine ⟨throws, line :: before, long, after, rfl, ?_, tooLong, rfl⟩
  exact List.forall_mem_cons.mpr ⟨fits, short⟩

/-- Nothing is read behind a line that the decoder stands for. -/
theorem ReadsOn.nil (records : List StreamingLineRecord)
    (stands : Represents settings decoder pending afterReturn) :
    ReadsOn settings records pending afterReturn [] (.ok (records, decoder)) :=
  ⟨by simp [scan], fun _ line member => absurd member (by simp [scan]), stands⟩

variable {result : Except LimitExceeded (List StreamingLineRecord × StreamingLineDecoder)}

/-- Closing a line and reading on. -/
theorem ReadsOn.closed {unit : UInt16} {rest : Text}
    (ends : Ends settings.lineEndings unit)
    (fits : settings.overflow = .throw → Fits settings pending)
    (reads : ReadsOn settings (records ++ closedRecords settings pending) [] (unit == 13) rest
      result) :
    ReadsOn settings records pending false (unit :: rest) result := by
  cases result with
  | ok result =>
      obtain ⟨same, all, stands⟩ := reads
      refine ⟨?_, fun throws line member => ?_, ?_⟩
      · rw [same]
        simp [scan, ends]
      · simp only [scan, Bool.false_and, Bool.false_eq_true, if_false, if_pos ends,
          List.mem_cons] at member
        rcases member with rfl | later
        · exact fits throws
        · exact all throws line later
      · simpa [scan, ends] using stands
  | error exceeded =>
      obtain ⟨lost, same, threw⟩ := reads
      refine ⟨closedRecords settings pending ++ lost, by rw [same, List.append_assoc], ?_⟩
      intro future
      have later := (threw future).cons (fits (threw future).1)
      simpa [linesFrom, scan, ends] using later

/-- The records a reading handed out, and those that the throwing push had read. -/
def Reading.read (reading : Reading) : List StreamingLineRecord :=
  reading.records ++ (reading.exceeded.map LimitExceeded.lines).getD []

end PiAdaptative.StreamingLines
