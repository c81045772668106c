import PiAdaptative.Foundations.Json

/-!
# The active task of a summary

A rebuilt context shows the provider a checkpoint's summary with the body of its Active Task section
replaced, where restored history names a newer task.  The stored summary is never rewritten.
-/

namespace PiAdaptative.Session

def ACTIVE_TASK_SOURCE_MAX_CHARS : Nat := 4000

/-- The characters of a text that fit into a number of UTF-16 units. -/
def unitsWithin : Nat → List Char → List Char
  | _, [] => []
  | units, unit :: rest =>
      let width := if unit.val < 0x10000 then 1 else 2
      if width ≤ units then unit :: unitsWithin (units - width) rest else []

def clampText (text : String) (maxLen : Nat) : String :=
  if maxLen < utf16Length text then String.ofList (unitsWithin maxLen text.toList) else text

/-- `text.trimEnd()`. -/
def trimEnd (text : String) : String :=
  String.ofList ((text.toList.reverse.dropWhile isTrimmed).reverse)

/-- `text.split(/\r?\n/)`. -/
def splitLines : List Char → List (List Char)
  | [] => [[]]
  | '\r' :: '\n' :: rest => [] :: splitLines rest
  | '\n' :: rest => [] :: splitLines rest
  | unit :: rest =>
      match splitLines rest with
      | [] => [[unit]]
      | line :: lines => (unit :: line) :: lines

/-- What follows a heading mark of two or three number signs and is led by white space. -/
def afterHashes : List Char → Option (List Char)
  | '#' :: '#' :: '#' :: unit :: rest => if isTrimmed unit then some (unit :: rest) else none
  | '#' :: '#' :: unit :: rest => if isTrimmed unit then some (unit :: rest) else none
  | _ => none

/-- The Latin letter whose lower case a character has. -/
def lowerLetter (unit : Char) : Char :=
  if unit.toNat = 0x212A then 'k' else unit.toLower

/-- Whether a line is the heading of the Active Task section. -/
def isActiveTaskHeading (line : List Char) : Bool :=
  (afterHashes line).any fun rest =>
    (trim (String.ofList rest)).toList.map lowerLetter = "active task".toList

def escapeActiveTaskHeadingLine (line : List Char) : List Char :=
  if (afterHashes (line.dropWhile (· = '\\'))).isSome then '\\' :: line else line

def buildActiveTaskLines (source : String) : List (List Char) :=
  (splitLines ("User: ".toList ++ source.toList)).map escapeActiveTaskHeadingLine

/-- Replace the body of the first Active Task section. -/
def replaceActiveTask (task : String) : List (List Char) → Option (List (List Char))
  | [] => none
  | line :: lines =>
      if isActiveTaskHeading line then
        let rest := lines.dropWhile fun other => (afterHashes other).isNone
        some (line :: buildActiveTaskLines task ++ if rest = [] then [] else [] :: rest)
      else (replaceActiveTask task lines).map (line :: ·)

def projectCurrentActiveTask (summary source : String) : String :=
  let task := trim source
  if task = "" then summary
  else
    match replaceActiveTask task (splitLines summary.toList) with
    | some lines => String.ofList (List.intercalate ['\n'] lines)
    | none => summary

/-- Whether a text is the trailer that an applied summary gains. -/
def isTranscriptTrailer (text : List Char) : Bool :=
  let lead := "\n\nFull pre-compaction transcript: ".toList
  lead.isPrefixOf text && text.drop lead.length ≠ [] && !(text.drop lead.length).contains '\n'

def appliedSummaryMatchesPrepared (applied prepared : String) : Bool :=
  let base := (trimEnd prepared).toList
  applied.toList = base ||
    (base.isPrefixOf applied.toList && isTranscriptTrailer (applied.toList.drop base.length))

end PiAdaptative.Session
