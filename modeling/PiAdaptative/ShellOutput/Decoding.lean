import PiAdaptative.Foundations.Utf8

/-!
# Shell output decoding

A decoder of command output that may mix UTF-8 with Windows-1252.  A buffer that is all UTF-8 goes
through the strict decoder; any other is scanned for its well-formed sequences.  The bytes of a
sequence that a chunk leaves unfinished wait for the next chunk.
-/

namespace PiAdaptative.ShellOutput

/-- The characters of the bytes from 0x80 to 0x9f. -/
def WINDOWS_1252_EXTENSION : List Char :=
  ['\u20ac', '\u0081', '\u201a', '\u0192', '\u201e', '\u2026', '\u2020', '\u2021', '\u02c6',
    '\u2030', '\u0160', '\u2039', '\u0152', '\u008d', '\u017d', '\u008f', '\u0090', '\u2018',
    '\u2019', '\u201c', '\u201d', '\u2022', '\u2013', '\u2014', '\u02dc', '\u2122', '\u0161',
    '\u203a', '\u0153', '\u009d', '\u017e', '\u0178']

def utf8SequenceLength (byte : UInt8) : Nat :=
  if 0xC2 ≤ byte ∧ byte ≤ 0xDF then 2
  else if 0xE0 ≤ byte ∧ byte ≤ 0xEF then 3
  else if 0xF0 ≤ byte ∧ byte ≤ 0xF4 then 4
  else 0

def isContinuation (byte : UInt8) : Bool := 0x80 ≤ byte && byte ≤ 0xBF

/-- The check of the bytes from an index on; a byte past the end reads as zero. -/
def isValidUtf8Sequence (bytes : List UInt8) (length : Nat) : Bool :=
  let first := bytes[0]?.getD 0
  let second := bytes[1]?.getD 0
  if !isContinuation second then false
  else if length = 2 then true
  else
    let third := bytes[2]?.getD 0
    if !isContinuation third then false
    else if first = 0xE0 ∧ second < 0xA0 then false
    else if first = 0xED ∧ second > 0x9F then false
    else if length = 3 then true
    else
      let fourth := bytes[3]?.getD 0
      if !isContinuation fourth then false
      else if first = 0xF0 ∧ second < 0x90 then false
      else if first = 0xF4 ∧ second > 0x8F then false
      else true

def decodeWindows1252Byte (byte : UInt8) : Char :=
  if 0x80 ≤ byte ∧ byte ≤ 0x9F then WINDOWS_1252_EXTENSION[(byte - 0x80).toNat]?.getD '\uFFFD'
  else Char.ofNat byte.toNat

def dropByteOrderMark : List Char → List Char
  | [] => []
  | char :: text => if char = '\uFEFF' then text else char :: text

/-- `FATAL_UTF8_DECODER.decode`: the text of a buffer, without the mark it may start with. -/
def fatalDecode (bytes : List UInt8) : Option (List Char) :=
  (Utf8.decode? bytes).map dropByteOrderMark

/-- The loop over a buffer: `decoded` is its text up to `utf8Start`, `sequences` are the bytes from
there to `index`, and `bytes` are those from `index` on. -/
def scan (stream : Bool) (decoded : List Char) (sequences bytes : List UInt8) :
    List Char × List UInt8 :=
  match bytes with
  | [] => (decoded ++ Utf8.decodeLossy sequences, [])
  | byte :: rest =>
      if byte ≤ 0x7F then scan stream decoded (sequences ++ [byte]) rest
      else
        let sequenceLength := utf8SequenceLength byte
        if 0 < sequenceLength ∧ rest.length + 1 < sequenceLength ∧ stream = true then
          (decoded ++ Utf8.decodeLossy sequences, byte :: rest)
        else if 0 < sequenceLength ∧ sequenceLength ≤ rest.length + 1 ∧
            isValidUtf8Sequence (byte :: rest) sequenceLength = true then
          scan stream decoded (sequences ++ (byte :: rest).take sequenceLength)
            (rest.drop (sequenceLength - 1))
        else
          scan stream (decoded ++ Utf8.decodeLossy sequences ++ [decodeWindows1252Byte byte]) []
            rest
termination_by bytes.length
decreasing_by all_goals simp; try omega

structure WindowsCompatibleShellOutputDecoder where
  pending : List UInt8 := []

namespace WindowsCompatibleShellOutputDecoder

def decode (decoder : WindowsCompatibleShellOutputDecoder) (input : List UInt8) (stream : Bool) :
    List Char × WindowsCompatibleShellOutputDecoder :=
  let bytes := if 0 < decoder.pending.length then decoder.pending ++ input else input
  if bytes.length = 0 then ([], { pending := [] })
  else
    match fatalDecode bytes with
    | some text => (text, { pending := [] })
    | none =>
        let scanned := scan stream [] [] bytes
        (scanned.1, { pending := scanned.2 })

/-- The results for the chunks of a stream, and for the flush after them. -/
def decodeChunks (decoder : WindowsCompatibleShellOutputDecoder) : List (List UInt8) → List Char
  | [] => (decoder.decode [] false).1
  | chunk :: chunks =>
      let decoded := decoder.decode chunk true
      decoded.1 ++ decoded.2.decodeChunks chunks

end WindowsCompatibleShellOutputDecoder

end PiAdaptative.ShellOutput
