import PiAdaptative.Foundations.Platform

/-!
# Session entries

A session is an append-only tree of entries.  Messages and custom messages reach the model; custom
entries, labels and lifecycle records do not.  A compaction entry is a checkpoint that replaces part
of the history by a summary.
-/

namespace PiAdaptative.Session

/-- Why a provider stopped answering. -/
inductive StopReason where
  | stop | length | toolUse | error | aborted
  deriving DecidableEq, Repr

/-- Why an errored tool result is an error. -/
inductive ToolErrorKind where
  | toolFailure | operationOutcome
  deriving DecidableEq, Repr

inductive AssistantBlock where
  | toolCall (id name : String) (arguments : Json)
  | other (block : Json)

/-- A message of the conversation; the time of a message built from an entry is `none` where the
entry's timestamp is no date. -/
inductive AgentMessage where
  | user (content : Json) (timestamp : Rat)
  | assistant (content : List AssistantBlock) (stopReason : StopReason) (timestamp : Rat)
  | toolResult (toolCallId toolName : String) (content : Json) (isError : Bool)
      (errorKind : Option ToolErrorKind) (timestamp : Rat)
  | bashExecution (command output : String) (timestamp : Rat)
  | custom (customType : String) (content : Json) (display : Bool) (details : Option Json)
      (timestamp : Option Int)
  | branchSummary (summary fromId : String) (timestamp : Option Int)
  | compactionSummary (summary : String) (tokensBefore : Rat) (details : Option Json)
      (compactionEntryId : String) (timestamp : Option Int)

/-- `message.role === "user"`. -/
def AgentMessage.isUser : AgentMessage → Bool
  | .user .. => true
  | _ => false

/-- `message.role === "assistant" || message.role === "toolResult"`. -/
def AgentMessage.isSettled : AgentMessage → Bool
  | .assistant .. | .toolResult .. => true
  | _ => false

/-- Sparse history retained after a session-replacement compaction; its mode is `original-user`. -/
structure CompactionRetention where
  userEntryId : Option String
  deriving DecidableEq, Repr

structure Compaction where
  /-- Summary of the compacted history. -/
  summary : String
  firstKeptEntryId : String
  tokensBefore : Rat
  retention : Option CompactionRetention
  coveredThroughEntryId : Option String
  summarizedGapEntryIds : Option (List String)
  scopeStartEntryId : Option String
  details : Option Json

inductive ProviderRequestOutcome where
  | completed | aborted | error | interrupted
  deriving DecidableEq, Repr

/-- How a foreground tool call ended. -/
inductive ForegroundToolOutcome where
  | success | error | cancelled
  deriving DecidableEq, Repr

inductive CompactionOutcome where
  | success | failure | cancelled | interrupted | fallback
  deriving DecidableEq, Repr

structure ForegroundToolIdentity where
  requestId : String
  assistantMessageEntryId : String
  callId : String
  deriving DecidableEq, Repr

/-- What an entry of each type holds. -/
inductive EntryBody where
  /-- A message; `local` marks one the host synthesised. -/
  | message (message : AgentMessage) (isLocal : Bool) (ownerInputId : Option String)
  | thinkingLevelChange (thinkingLevel : String)
  | modelChange (provider modelId : String)
  | compaction (compaction : Compaction)
  | branchSummary (fromId summary : String)
  | custom (customType : String) (data : Option Json)
  | label (targetId : String) (label : Option String)
  | sessionInfo (name : Option String)
  | customMessage (customType : String) (content : Json) (display : Bool) (details : Option Json)
  | requestSnapshot (requestId : String) (messageEntryIds : List String)
  | providerRequestTerminal (requestId : String) (outcome : ProviderRequestOutcome)
      (assistantMessageEntryId : Option String)
  | foregroundToolStart (call : ForegroundToolIdentity) (toolName : String)
  | foregroundToolTerminal (call : ForegroundToolIdentity) (toolName : String)
      (outcome : ForegroundToolOutcome) (resultMessageEntryId : String)
      (errorKind : Option ToolErrorKind)
  | compactionStart (compactionId firstKeptEntryId : String)
  | compactionEnd (compactionId : String) (outcome : CompactionOutcome)
      (compactionEntryId : Option String)

structure SessionEntry where
  id : String
  /-- Entry this one follows; none for a root. -/
  parentId : Option String
  timestamp : String
  body : EntryBody

/-- The map of entries by identity. -/
abbrev Lookup := String → Option SessionEntry

end PiAdaptative.Session
