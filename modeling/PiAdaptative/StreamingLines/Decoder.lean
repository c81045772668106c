import PiAdaptative.Foundations.Outcome
import PiAdaptative.TextProtocol.LiveFilter

/-!
# The streaming line decoder

Chunks of a text are cut into lines as they arrive.  The part of a line that is not closed yet is
kept as the pieces it came in; a line that grows past the limit makes the decoder throw, drop the
line, or keep no more of it than a window of columns.
-/

namespace PiAdaptative.StreamingLines

open TextProtocol (Text)

structure StreamingLineRecord where
  text : Text
  /-- Zero-based position of the text in its line. -/
  startColumn : Nat
  /-- Length of the whole line, retained or not. -/
  totalChars : Nat
  deriving DecidableEq

/-- Bit test `(unit & 0xfc00) === 0xd800`. -/
def isHighSurrogate (unit : UInt16) : Bool := unit &&& 0xFC00 == 0xD800

/-- Bit test `(unit & 0xfc00) === 0xdc00`. -/
def isLowSurrogate (unit : UInt16) : Bool := unit &&& 0xFC00 == 0xDC00

/-- Reads of `charCodeAt` outside of the text give `NaN`, whose bits are zero. -/
def splitsSurrogatePair (text : Text) : Nat → Bool
  | 0 => false
  | index + 1 => text[index]?.any isHighSurrogate && text[index + 1]?.any isLowSurrogate

inductive Overflow where
  | throw
  | skip
  | window
  deriving DecidableEq

inductive LineEndings where
  | lf
  | any
  deriving DecidableEq

structure LineOptions where
  overflow : Overflow := .throw
  lineEndings : LineEndings := .any
  startColumn : Int := 0

def isSafePosition (position : Int) : Bool := decide (position.natAbs ≤ 9007199254740991)

/-- What the constructor demands of the positions of a window. -/
def BoundedWindow (maxLineChars startColumn : Int) : Prop :=
  isSafePosition maxLineChars ∧ 0 ≤ maxLineChars ∧ isSafePosition startColumn ∧ 0 ≤ startColumn ∧
    isSafePosition (startColumn + maxLineChars + 1)

instance (maxLineChars startColumn : Int) : Decidable (BoundedWindow maxLineChars startColumn) :=
  inferInstanceAs (Decidable (_ ∧ _))

/-- The fields of a decoder that never change. -/
structure DecoderSettings where
  maxLineChars : Int
  overflow : Overflow
  startColumn : Int
  lineEndings : LineEndings
  bounded : overflow = .window → BoundedWindow maxLineChars startColumn

def createSettings (maxLineChars : Int) (options : LineOptions) : Outcome DecoderSettings :=
  if bounded : options.overflow = .window → BoundedWindow maxLineChars options.startColumn then
    .ok {
      maxLineChars
      overflow := options.overflow
      startColumn := options.startColumn
      lineEndings := options.lineEndings
      bounded }
  else .error (.plain "Line window requires bounded non-negative integer positions")

/-- The fields of a decoder that a push changes. -/
structure StreamingLineDecoder where
  parts : List Text := []
  length : Nat := 0
  skipLeadingLf : Bool := false
  skippingOversizedLine : Bool := false
  deriving DecidableEq

/-- A push that threw: the lines it had read and now loses, and the decoder it leaves. -/
structure LimitExceeded where
  lines : List StreamingLineRecord
  decoder : StreamingLineDecoder

namespace StreamingLineDecoder

def resetLine (decoder : StreamingLineDecoder) : StreamingLineDecoder :=
  { decoder with parts := [], length := 0, skippingOversizedLine := false }

/-- The part of a piece that lies inside the captured columns. -/
def captured (settings : DecoderSettings) (start : Nat) (part : Text) : Text :=
  let first := max 0 (settings.startColumn - 1 - start)
  let last := min (part.length : Int) (settings.startColumn + settings.maxLineChars + 1 - start)
  if first < last then (part.take last.toNat).drop first.toNat else []

/-- The text and the column of a window over the captured part of a line. -/
def windowOf (settings : DecoderSettings) (length : Nat) (text : Text) : Text × Nat :=
  let captureStart := min (length : Int) (max 0 (settings.startColumn - 1))
  let startColumn := min (length : Int) settings.startColumn
  let split := splitsSurrogatePair text (startColumn - captureStart).toNat
  let first := (startColumn - captureStart).toNat - split.toNat
  let last := min text.length (first + settings.maxLineChars.toNat)
  let wide := decide (0 < settings.maxLineChars) && splitsSurrogatePair text last
  ((text.take (last + wide.toNat)).drop first, startColumn.toNat - split.toNat)

def takeLine (settings : DecoderSettings) (decoder : StreamingLineDecoder) : StreamingLineRecord :=
  match settings.overflow with
  | .window =>
      let window := windowOf settings decoder.length decoder.parts.flatten
      { text := window.1, startColumn := window.2, totalChars := decoder.length }
  | _ => { text := decoder.parts.flatten, startColumn := 0, totalChars := decoder.length }

/-- A throw leaves the length grown and the piece not kept. -/
def append (settings : DecoderSettings) (decoder : StreamingLineDecoder) (part : Text) :
    Except StreamingLineDecoder StreamingLineDecoder :=
  if part.isEmpty || decoder.skippingOversizedLine then .ok decoder
  else
    let length := decoder.length + part.length
    match settings.overflow with
    | .window =>
        let kept := captured settings decoder.length part
        .ok {
          decoder with
          length
          parts := if kept.isEmpty then decoder.parts else decoder.parts ++ [kept] }
    | .throw =>
        if (length : Int) > settings.maxLineChars then .error { decoder with length }
        else .ok { decoder with length, parts := decoder.parts ++ [part] }
    | .skip =>
        if (length : Int) > settings.maxLineChars then
          .ok { decoder with parts := [], length := 0, skippingOversizedLine := true }
        else .ok { decoder with length, parts := decoder.parts ++ [part] }

/-- What a line end does: the finished line, unless it was too long, and a fresh line. -/
def endLine (settings : DecoderSettings) (decoder : StreamingLineDecoder) :
    List StreamingLineRecord × StreamingLineDecoder :=
  if decoder.skippingOversizedLine then ([], decoder.resetLine)
  else ([decoder.takeLine settings], decoder.resetLine)

/-- The loop of a push: `slice` is the text since the last line end. -/
def pushLoop (settings : DecoderSettings) (lines : List StreamingLineRecord)
    (decoder : StreamingLineDecoder) (slice : Text) :
    Text → Except LimitExceeded (List StreamingLineRecord × StreamingLineDecoder)
  | [] =>
      match decoder.append settings slice with
      | .error decoder => .error { lines, decoder }
      | .ok decoder => .ok (lines, decoder)
  | unit :: rest =>
      if unit ≠ 10 ∧ (settings.lineEndings = .lf ∨ unit ≠ 13) then
        pushLoop settings lines decoder (slice ++ [unit]) rest
      else
        match decoder.append settings slice with
        | .error decoder => .error { lines, decoder }
        | .ok decoder =>
            let ended := decoder.endLine settings
            if unit = 13 then
              match rest with
              | [] => .ok (lines ++ ended.1, { ended.2 with skipLeadingLf := true })
              | next :: others =>
                  if next = 10 then pushLoop settings (lines ++ ended.1) ended.2 [] others
                  else pushLoop settings (lines ++ ended.1) ended.2 [] (next :: others)
            else pushLoop settings (lines ++ ended.1) ended.2 [] rest

def pushRecords (settings : DecoderSettings) (decoder : StreamingLineDecoder) (text : Text) :
    Except LimitExceeded (List StreamingLineRecord × StreamingLineDecoder) :=
  if text.isEmpty then .ok ([], decoder)
  else
    let start := if decoder.skipLeadingLf && text.head? == some 10 then 1 else 0
    pushLoop settings [] { decoder with skipLeadingLf := false } [] (text.drop start)

def finishRecord (settings : DecoderSettings) (decoder : StreamingLineDecoder) :
    Option StreamingLineRecord :=
  if decoder.skippingOversizedLine then none
  else if decoder.length = 0 ∧ decoder.parts = [] then none
  else some (decoder.takeLine settings)

end StreamingLineDecoder

/-- A reading of chunks: the records that the pushes and the last flush handed out, and the throw
that ended it early. -/
structure Reading where
  records : List StreamingLineRecord
  exceeded : Option LimitExceeded

open StreamingLineDecoder in
def feed (settings : DecoderSettings) (decoder : StreamingLineDecoder) : List Text → Reading
  | [] => { records := (decoder.finishRecord settings).toList, exceeded := none }
  | chunk :: chunks =>
      match decoder.pushRecords settings chunk with
      | .error exceeded => { records := [], exceeded := some exceeded }
      | .ok (records, decoder) =>
          let later := feed settings decoder chunks
          { later with records := records ++ later.records }

/-- What a caller gets of a reading: every record, or the error of the push that threw. -/
def outcome (settings : DecoderSettings) (reading : Reading) : Outcome (List StreamingLineRecord) :=
  match reading.exceeded with
  | none => .ok reading.records
  | some _ => .error (.plain
      ("Stream exceeded the " ++ toString settings.maxLineChars ++ " character line limit"))

end PiAdaptative.StreamingLines
