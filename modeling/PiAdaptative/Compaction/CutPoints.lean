import PiAdaptative.Foundations.Json
import PiAdaptative.Foundations.OrderedMap

/-!
# Cut points of a compaction

A compaction keeps the end of a session within a token budget.  It may begin at the messages that do
not stand inside an exchange: from an assistant message with tool calls to the last result of one of
them.
-/

namespace PiAdaptative.Compaction

/-- A block of a user, custom or tool message. -/
inductive ContentBlock where
  | text (text : Option String)
  | image
  | other

inductive MessageContent where
  | text (text : String)
  | blocks (blocks : List ContentBlock)

inductive AssistantBlock where
  | text (text : String)
  | thinking (thinking : String)
  | toolCall (id name : String) (arguments : Json)

inductive AgentMessage where
  | user (content : MessageContent)
  | assistant (content : List AssistantBlock)
  | toolResult (toolCallId : String) (content : MessageContent)
  | bashExecution (command output : String)
  | custom (content : MessageContent)
  | branchSummary (summary : String)
  | compactionSummary (summary : String)

/-- An entry of a session; the entries of every other type hold no message. -/
inductive SessionEntry where
  | message (message : AgentMessage)
  | branchSummary (summary : String)
  | customMessage (content : MessageContent)
  | compaction (summary : String)
  | record (type : String)

def getMessageFromEntry : SessionEntry → Option AgentMessage
  | .message message => some message
  | .customMessage content => some (.custom content)
  | .branchSummary summary => some (.branchSummary summary)
  | .compaction summary => some (.compactionSummary summary)
  | .record _ => none

def getMessageFromEntryForCompaction : SessionEntry → Option AgentMessage
  | .compaction _ => none
  | entry => getMessageFromEntry entry

def ESTIMATED_IMAGE_CHARS : Nat := 4800

def estimateTextAndImageContentChars : MessageContent → Nat
  | .text text => utf16Length text
  | .blocks blocks => (blocks.map fun block =>
      match block with
      | .text text => (text.map utf16Length).getD 0
      | .image => ESTIMATED_IMAGE_CHARS
      | .other => 0).sum

/-- `Math.ceil(chars / 4)`. -/
def tokensOfChars (chars : Nat) : Nat := (chars + 3) / 4

section

variable (stringify : Json → String)

/-- The arguments of a call count with their JSON text. -/
def estimateTokens : AgentMessage → Nat
  | .user content => tokensOfChars (estimateTextAndImageContentChars content)
  | .assistant content => tokensOfChars (content.map fun block =>
      match block with
      | .text text => utf16Length text
      | .thinking thinking => utf16Length thinking
      | .toolCall _ name arguments => utf16Length name + utf16Length (stringify arguments)).sum
  | .custom content | .toolResult _ content =>
      tokensOfChars (estimateTextAndImageContentChars content)
  | .bashExecution command output => tokensOfChars (utf16Length command + utf16Length output)
  | .branchSummary summary | .compactionSummary summary => tokensOfChars (utf16Length summary)

end

/-- The calls that wait for a result, the latest first, and the last result of each assistant
message; `answers` lists every result with the message it answers. -/
structure Exchanges where
  pendingCallsById : OrderedMap String (List Nat) := .empty
  resultIndicesByAssistant : OrderedMap Nat Nat := .empty
  answers : List (Nat × Nat) := []

namespace Exchanges

/-- The calls of an assistant message begin to wait. -/
def wait (exchanges : Exchanges) (index : Nat) : List AssistantBlock → Exchanges
  | [] => exchanges
  | .toolCall id _ _ :: blocks =>
      let pending := index :: (exchanges.pendingCallsById.get? id).getD []
      wait { exchanges with pendingCallsById := exchanges.pendingCallsById.set id pending } index
        blocks
  | _ :: blocks => wait exchanges index blocks

/-- A result answers the latest call that waits under its id. -/
def answer (exchanges : Exchanges) (index : Nat) (toolCallId : String) : Exchanges :=
  match exchanges.pendingCallsById.get? toolCallId with
  | some (assistantIndex :: pending) => {
      pendingCallsById := exchanges.pendingCallsById.set toolCallId pending
      resultIndicesByAssistant := exchanges.resultIndicesByAssistant.set assistantIndex index
      answers := exchanges.answers ++ [(assistantIndex, index)] }
  | _ => exchanges

def step (exchanges : Exchanges) (index : Nat) : SessionEntry → Exchanges
  | .message (.assistant content) => exchanges.wait index content
  | .message (.toolResult toolCallId _) => exchanges.answer index toolCallId
  | _ => exchanges

/-- The first loop of `findValidCutPoints`, over the entries from an index on. -/
def read (exchanges : Exchanges) (index : Nat) : List SessionEntry → Exchanges
  | [] => exchanges
  | entry :: entries => (exchanges.step index entry).read (index + 1) entries

end Exchanges

/-- The entries between two indices. -/
def between (entries : List SessionEntry) (startIndex endIndex : Nat) : List SessionEntry :=
  (entries.take endIndex).drop startIndex

def exchangesOf (entries : List SessionEntry) (startIndex endIndex : Nat) : Exchanges :=
  Exchanges.read {} startIndex (between entries startIndex endIndex)

/-- Whether an entry may be the first one kept, outside of exchanges. -/
def isCutEntry : SessionEntry → Bool
  | .message (.toolResult _ _) => false
  | .message _ | .branchSummary _ | .customMessage _ => true
  | .compaction _ | .record _ => false

/-- The index through which an entry at an index protects the entries behind it. -/
def protects (results : OrderedMap Nat Nat) (index : Nat) (protectedThrough : Int) :
    SessionEntry → Int
  | .message (.assistant _) => max protectedThrough ((results.get? index).getD index : Nat)
  | _ => protectedThrough

/-- The second loop of `findValidCutPoints`, over the entries from an index on. -/
def cutPointsFrom (results : OrderedMap Nat Nat) (protectedThrough : Int) (index : Nat) :
    List SessionEntry → List Nat
  | [] => []
  | entry :: entries =>
      let later :=
        cutPointsFrom results (protects results index protectedThrough entry) (index + 1) entries
      if decide ((index : Int) > protectedThrough) && isCutEntry entry then index :: later else later

def findValidCutPoints (entries : List SessionEntry) (startIndex endIndex : Nat) : List Nat :=
  cutPointsFrom (exchangesOf entries startIndex endIndex).resultIndicesByAssistant
    ((startIndex : Int) - 1) startIndex (between entries startIndex endIndex)

/-- The loop of `findTurnStartIndex`: `count` entries are left above the start index. -/
def turnStartBelow (entries : List SessionEntry) (startIndex : Nat) : Nat → Option Nat
  | 0 => none
  | count + 1 =>
      match entries[startIndex + count]? with
      | some (.branchSummary _) | some (.customMessage _) | some (.message (.user _))
      | some (.message (.bashExecution _ _)) => some (startIndex + count)
      | _ => turnStartBelow entries startIndex count

/-- The result is `none` where the code returns -1. -/
def findTurnStartIndex (entries : List SessionEntry) (entryIndex startIndex : Nat) : Option Nat :=
  turnStartBelow entries startIndex (entryIndex + 1 - startIndex)

structure CutPointResult where
  firstKeptEntryIndex : Nat
  /-- The user message that starts the turn being split; `none` for -1. -/
  turnStartIndex : Option Nat
  isSplitTurn : Bool
  deriving DecidableEq

section

variable (stringify : Json → String)

/-- The walk from the newest message back to the one with which the kept messages reach the budget:
`count` entries are left above the start index. -/
def reachesBudget (entries : List SessionEntry) (startIndex : Nat) (keepRecentTokens : Int)
    (accumulatedTokens : Nat) : Nat → Option Nat
  | 0 => none
  | count + 1 =>
      match entries[startIndex + count]?.bind getMessageFromEntryForCompaction with
      | none => reachesBudget entries startIndex keepRecentTokens accumulatedTokens count
      | some message =>
          let accumulated := accumulatedTokens + estimateTokens stringify message
          if (accumulated : Int) ≥ keepRecentTokens then some (startIndex + count)
          else reachesBudget entries startIndex keepRecentTokens accumulated count

/-- The scan back over the entries that hold no message. -/
def pullBack (entries : List SessionEntry) (startIndex : Nat) : Nat → Nat
  | 0 => 0
  | cutIndex + 1 =>
      if startIndex < cutIndex + 1 then
        match entries[cutIndex]? with
        | some (.record _) => pullBack entries startIndex cutIndex
        | _ => cutIndex + 1
      else cutIndex + 1

/-- The cut point to keep from, before the scan back. -/
def chooseCutPoint (cutPoints : List Nat) (first : Nat) (reached : Option Nat) : Nat :=
  match reached with
  | none => first
  | some index => (cutPoints.find? fun point => decide (index ≤ point)).getD (cutPoints.getLastD first)

def findCutPoint (entries : List SessionEntry) (startIndex endIndex : Nat)
    (keepRecentTokens : Int) : CutPointResult :=
  match findValidCutPoints entries startIndex endIndex with
  | [] => { firstKeptEntryIndex := startIndex, turnStartIndex := none, isSplitTurn := false }
  | first :: others =>
      let reached := reachesBudget stringify entries startIndex keepRecentTokens 0
        (endIndex - startIndex)
      let cutIndex := pullBack entries startIndex (chooseCutPoint (first :: others) first reached)
      let isUserMessage := match entries[cutIndex]? with
        | some (.message (.user _)) => true
        | _ => false
      let turnStartIndex :=
        if isUserMessage then none else findTurnStartIndex entries cutIndex startIndex
      { firstKeptEntryIndex := cutIndex
        turnStartIndex
        isSplitTurn := !isUserMessage && turnStartIndex.isSome }

end

end PiAdaptative.Compaction
