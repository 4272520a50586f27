import EphemeralAgent.Contracts.Json

/-!
# Conversation messages

`src/contracts/messages.ts`: the content blocks of a message and the three projections that the
engine reads.
-/

namespace EphemeralAgent

/-- `ToolUseId`, assigned by the provider. -/
abbrev ToolUseId := String

/-- `MessageRoleSchema`; there is no system role. -/
inductive MessageRole where
  | user
  | assistant
  deriving DecidableEq, Repr

/-- `ContentBlockSchema`. -/
inductive ContentBlock where
  | text (text : String)
  | toolUse (toolUseId : ToolUseId) (name : String) (input : JsonObject)
  | toolResult (toolUseId : ToolUseId) (content : String) (isError : Bool)
  | reasoning (text : String)

/-- `MessageSchema`. -/
structure Message where
  role : MessageRole
  content : List ContentBlock

/-- `ToolUseBlock`, the unit of batch dispatch. -/
structure ToolUseBlock where
  toolUseId : ToolUseId
  name : String
  input : JsonObject

/-- `ToolResultBlock`. -/
structure ToolResultBlock where
  toolUseId : ToolUseId
  content : String
  isError : Bool

def ContentBlock.asText : ContentBlock → Option String
  | .text value => some value
  | _ => none

def ContentBlock.asToolUse : ContentBlock → Option ToolUseBlock
  | .toolUse toolUseId name input => some { toolUseId, name, input }
  | _ => none

def ToolResultBlock.toBlock (result : ToolResultBlock) : ContentBlock :=
  .toolResult result.toolUseId result.content result.isError

/-- `assistantText`: the text blocks, concatenated; reasoning is left out. -/
def assistantText (message : Message) : String :=
  String.join (message.content.filterMap ContentBlock.asText)

/-- `toolUses`: the tool-use blocks, in order. -/
def toolUses (message : Message) : List ToolUseBlock :=
  message.content.filterMap ContentBlock.asToolUse

/-- A user message of one text block. -/
def userText (text : String) : Message :=
  { role := .user, content := [.text text] }

theorem userText_role (text : String) : (userText text).role = .user :=
  rfl

/-- `UserMessage`: run seeds and steers are user messages. -/
abbrev UserMessage := { message : Message // message.role = .user }

/-- A completed turn; both wires build it with the role `assistant`. -/
abbrev AssistantMessage := { message : Message // message.role = .assistant }

end EphemeralAgent
