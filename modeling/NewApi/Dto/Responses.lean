import NewApi.Common.Json

/-!
# Chat and Responses messages (dto/openai_request.go, dto/openai_response.go)

The fields that the converters of service/relayconvert read or write.
-/

namespace NewApi.Dto

structure CacheWriteTokenDetails where
  ttl30mTokens : ℤ
  ttl12hTokens : ℤ
  deriving DecidableEq, Repr

structure InputTokenDetails where
  cacheWriteTokens : ℤ := 0
  cacheWriteTokensDetails : Option CacheWriteTokenDetails := none
  cachedTokens : ℤ := 0
  cachedCreationTokens : ℤ := 0
  textTokens : ℤ := 0
  audioTokens : ℤ := 0
  imageTokens : ℤ := 0
  deriving DecidableEq, Repr

structure OutputTokenDetails where
  textTokens : ℤ := 0
  audioTokens : ℤ := 0
  imageTokens : ℤ := 0
  reasoningTokens : ℤ := 0
  reasoningTokensPresent : Bool := false
  deriving DecidableEq, Repr

structure Usage where
  promptTokens : ℤ := 0
  completionTokens : ℤ := 0
  totalTokens : ℤ := 0
  promptTokensDetails : InputTokenDetails := {}
  completionTokenDetails : OutputTokenDetails := {}
  inputTokens : ℤ := 0
  outputTokens : ℤ := 0
  inputTokensDetails : Option InputTokenDetails := none
  deriving DecidableEq, Repr

/-- A call in a message: the request and the response form have these fields in common, and
`custom` is empty in the latter. -/
structure ToolCall where
  id : Text := []
  type : Text := []
  name : Text := []
  arguments : Text := []
  custom : Text := []
  deriving DecidableEq, Repr

/-- An entry of a content list; an entry that is no object has an empty type. -/
structure ContentItem where
  type : Text
  text : Option Text
  deriving DecidableEq, Repr

inductive Content where
  | null
  | string (s : Text)
  | items (l : List ContentItem)
  deriving DecidableEq, Repr

structure Message where
  role : Text := []
  content : Content := .null
  reasoningContent : Option Text := none
  reasoning : Option Text := none
  toolCalls : List ToolCall := []
  deriving DecidableEq, Repr

def Message.stringContent (m : Message) : Text :=
  match m.content with
  | .null => []
  | .string s => s
  | .items l => l.flatMap fun c => if c.type = "text".toList then c.text.getD [] else []

def Message.getReasoningContent (m : Message) : Text :=
  match m.reasoningContent, m.reasoning with
  | some r, _ => r
  | none, some r => r
  | none, none => []

structure OpenAITextResponseChoice where
  index : ℤ := 0
  message : Message
  finishReason : Text
  deriving DecidableEq, Repr

structure OpenAITextResponse where
  id : Text
  model : Text
  object : Text
  created : ℤ
  choices : List OpenAITextResponseChoice
  usage : Usage
  deriving DecidableEq, Repr

inductive OutputType where
  | message
  | reasoning
  | functionCall
  | customToolCall
  | other (type : Text)
  deriving DecidableEq, Repr

def OutputType.ofText (s : Text) : OutputType :=
  if s = "message".toList then .message
  else if s = "reasoning".toList then .reasoning
  else if s = "function_call".toList then .functionCall
  else if s = "custom_tool_call".toList then .customToolCall
  else .other s

inductive ContentType where
  | outputText
  | summaryText
  | other (type : Text)
  deriving DecidableEq, Repr

structure ResponsesOutputContent where
  type : ContentType
  text : Text
  deriving DecidableEq, Repr

structure ResponsesOutput where
  type : OutputType
  id : Text := []
  status : Text := []
  role : Text := []
  content : List ResponsesOutputContent := []
  callId : Text := []
  name : Text := []
  arguments : Text := []
  deriving DecidableEq, Repr

def ResponsesOutput.argumentsString (J : StringCodec) (out : ResponsesOutput) : Text :=
  jsonRawMessageToString J out.arguments

structure OpenAIResponsesResponse where
  id : Text := []
  object : Text := []
  createdAt : ℤ := 0
  status : Text := []
  /-- The reason in the incomplete details. -/
  incompleteDetails : Option Text := none
  model : Text := []
  output : List ResponsesOutput := []
  usage : Option Usage := none
  deriving DecidableEq, Repr

inductive EventType where
  | created
  | completed
  | done
  | incomplete
  | failed
  | error
  | outputTextDelta
  | outputTextDone
  | outputItemAdded
  | outputItemDone
  | functionArgsDelta
  | functionArgsDone
  | customToolInputDelta
  | customToolInputDone
  | reasoningSummaryDelta
  | reasoningSummaryDone
  | reasoningTextDelta
  | reasoningTextDone
  | other (type : Text)
  deriving DecidableEq, Repr

structure ResponsesStreamResponse where
  type : EventType
  response : Option OpenAIResponsesResponse := none
  delta : Text := []
  item : Option ResponsesOutput := none
  outputIndex : Option ℤ := none
  contentIndex : Option ℤ := none
  summaryIndex : Option ℤ := none
  itemID : Text := []
  /-- The text of a reasoning summary part. -/
  part : Option Text := none
  deriving DecidableEq, Repr

end NewApi.Dto
