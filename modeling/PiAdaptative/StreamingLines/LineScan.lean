import PiAdaptative.Foundations.Lines
import PiAdaptative.SourceEdits.LineEndings
import PiAdaptative.StreamingLines.Decoder

/-!
# The lines of a stream

A text is read unit by unit: a line end closes the line that is being read, and a line feed straight
after a carriage return belongs to the end before it.  A text read in two parts gives the lines that
it gives in one, and together with the line left open these are the pieces between the line ends.
-/

namespace PiAdaptative.StreamingLines

open TextProtocol (Text)
open SourceEdits (normalizeToLF)

/-- Whether a unit ends a line. -/
def Ends (endings : LineEndings) (unit : UInt16) : Prop :=
  unit = 10 ∨ (endings = .any ∧ unit = 13)

instance (endings : LineEndings) (unit : UInt16) : Decidable (Ends endings unit) :=
  inferInstanceAs (Decidable (_ ∨ _))

/-- The lines closed so far, the line being read, and whether a carriage return has just closed
one. -/
structure Scanned where
  closed : List Text
  pending : Text
  afterReturn : Bool

/-- Read a text behind an open line. -/
def scan (endings : LineEndings) (pending : Text) (afterReturn : Bool) : Text → Scanned
  | [] => { closed := [], pending, afterReturn }
  | unit :: rest =>
      if afterReturn && unit == 10 then scan endings pending false rest
      else if Ends endings unit then
        let later := scan endings [] (unit == 13) rest
        { later with closed := pending :: later.closed }
      else scan endings (pending ++ [unit]) false rest

/-- The line that a text ends with, when it has any text. -/
def openLine (pending : Text) : List Text := if pending = [] then [] else [pending]

/-- The pieces between the line ends, without an empty last one. -/
def pieces (text : Text) : List Text :=
  if (text.splitOn 10).getLast? = some [] then (text.splitOn 10).dropLast else text.splitOn 10

/-- The lines that a text makes of an open line. -/
def linesFrom (endings : LineEndings) (pending : Text) (afterReturn : Bool) (text : Text) :
    List Text :=
  let scanned := scan endings pending afterReturn text
  scanned.closed ++ openLine scanned.pending

end PiAdaptative.StreamingLines
