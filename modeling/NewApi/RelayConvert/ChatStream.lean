import Mathlib.Data.List.Sort
import NewApi.Dto.ChatStream
import NewApi.RelayConvert.ChatToResponses

/-!
# A chat stream as Responses events (service/relayconvert/chat_to_responses_response.go)
-/

namespace NewApi.RelayConvert

open NewApi.Dto

/-- `chatToResponsesOutputRef`. -/
inductive OutputRef where
  | message
  | reasoning
  | tool (toolIndex : ℤ)
  deriving DecidableEq, Repr

structure ChatToResponsesStreamTool where
  chatIndex : ℤ
  outputIndex : ℤ
  id : Text
  name : Text
  arguments : Text := []
  done : Bool := false
  deriving DecidableEq, Repr

structure ChatToResponsesStreamState where
  id : Text
  model : Text
  created : ℤ
  usage : Usage := {}
  status : Text := completed
  incompleteDetails : Option Text := none
  sentCreated : Bool := false
  textOutputIndex : ℤ := -1
  textStarted : Bool := false
  textDone : Bool := false
  reasoningIndex : ℤ := -1
  reasoningStarted : Bool := false
  reasoningDone : Bool := false
  finalized : Bool := false
  nextOutputIndex : ℤ := 0
  toolsByIndex : List ChatToResponsesStreamTool := []
  outputOrder : List OutputRef := []
  text : Text := []
  reasoning : Text := []
  deriving DecidableEq, Repr

/-- `NewChatToResponsesStreamState`; `now` is the clock. -/
def newChatToResponsesStreamState (id model : Text) (now : ℤ) : ChatToResponsesStreamState :=
  { id := id, model := model, created := now }

/-- `ChatToResponsesStreamEvent`; its type is the type of its payload. -/
abbrev StreamEvent := ResponsesStreamResponse

def inProgress : Text := "in_progress".toList

namespace ChatToResponsesStreamState

variable (s : ChatToResponsesStreamState)

def messageID : Text := s.id ++ "_msg_0".toList

def reasoningID : Text := s.id ++ "_reasoning_0".toList

def outputStatus : Text := if s.status = incomplete then incomplete else completed

def messageOutput (status : Text) : ResponsesOutput :=
  RelayConvert.messageOutput s.messageID status s.text

def reasoningOutput (status : Text) : ResponsesOutput :=
  RelayConvert.reasoningOutput s.reasoningID status s.reasoning

def nextIndex (ref : OutputRef) : ℤ × ChatToResponsesStreamState :=
  (s.nextOutputIndex,
    { s with
      nextOutputIndex := s.nextOutputIndex + 1
      outputOrder := s.outputOrder ++ [ref] })

def startText : ChatToResponsesStreamState × List StreamEvent :=
  if s.textStarted then (s, [])
  else
    let (index, s) := s.nextIndex .message
    let s := { s with
      textStarted := true
      textOutputIndex := index }
    (s, [{ type := .outputItemAdded
           outputIndex := some s.textOutputIndex
           item := some { type := .message
                          id := s.messageID
                          status := inProgress
                          role := assistant } }])

def appendTextDelta (delta : Text) : ChatToResponsesStreamState × List StreamEvent :=
  let (s, events) := s.startText
  let s := { s with text := s.text ++ delta }
  (s, events ++ [{ type := .outputTextDelta
                   outputIndex := some s.textOutputIndex
                   contentIndex := some 0
                   delta := delta
                   itemID := s.messageID }])

def startReasoning : ChatToResponsesStreamState × List StreamEvent :=
  if s.reasoningStarted then (s, [])
  else
    let (index, s) := s.nextIndex .reasoning
    let s := { s with
      reasoningStarted := true
      reasoningIndex := index }
    (s, [{ type := .outputItemAdded
           outputIndex := some s.reasoningIndex
           item := some { type := .reasoning
                          id := s.reasoningID
                          status := inProgress } }])

def appendReasoningDelta (delta : Text) : ChatToResponsesStreamState × List StreamEvent :=
  let (s, events) := s.startReasoning
  let s := { s with reasoning := s.reasoning ++ delta }
  (s, events ++ [{ type := .reasoningSummaryDelta
                   outputIndex := some s.reasoningIndex
                   summaryIndex := some 0
                   delta := delta
                   itemID := s.reasoningID }])

def tool? (chatIndex : ℤ) : Option ChatToResponsesStreamTool :=
  s.toolsByIndex.find? fun t => decide (t.chatIndex = chatIndex)

def setTool (tool : ChatToResponsesStreamTool) : ChatToResponsesStreamState :=
  { s with
    toolsByIndex := s.toolsByIndex.map fun t => if t.chatIndex = tool.chatIndex then tool else t }

def startTool (chatIndex : ℤ) (toolCall : ToolCallResponse) :
    ChatToResponsesStreamState × ChatToResponsesStreamTool × List StreamEvent :=
  match s.tool? chatIndex with
  | some tool => (s, tool, [])
  | none =>
    let (index, s) := s.nextIndex (.tool chatIndex)
    let tool : ChatToResponsesStreamTool :=
      { chatIndex := chatIndex
        outputIndex := index
        id := if trimSpace toolCall.id = [] then generatedCallID s.id chatIndex
          else trimSpace toolCall.id
        name := trimSpace toolCall.name }
    ({ s with toolsByIndex := s.toolsByIndex ++ [tool] }, tool,
      [{ type := .outputItemAdded
         outputIndex := some tool.outputIndex
         itemID := tool.id
         item := some { type := .functionCall
                        id := tool.id
                        status := inProgress
                        callId := tool.id
                        name := tool.name
                        arguments := "\"\"".toList } }])

def appendToolCallDelta (toolCall : ToolCallResponse) :
    ChatToResponsesStreamState × List StreamEvent :=
  let chatIndex := toolCall.index.getD 0
  let (s, tool, events) := s.startTool chatIndex toolCall
  let tool := { tool with
    id := if trimSpace toolCall.id ≠ [] then trimSpace toolCall.id else tool.id
    name := if trimSpace toolCall.name ≠ [] then trimSpace toolCall.name else tool.name
    arguments := tool.arguments ++ toolCall.arguments }
  (s.setTool tool, events ++ if toolCall.arguments ≠ [] then
    [{ type := .functionArgsDelta
       outputIndex := some tool.outputIndex
       itemID := tool.id
       delta := toolCall.arguments }] else [])

def applyFinishReason (finishReason : Text) : ChatToResponsesStreamState :=
  let (status, details) := responsesStatusFromChatFinishReason finishReason
  { s with
    status := status
    incompleteDetails := details }

def sortedTools : List ChatToResponsesStreamTool :=
  s.toolsByIndex.insertionSort fun a b => a.chatIndex ≤ b.chatIndex

end ChatToResponsesStreamState

def toolOutput (J : StringCodec) (tool : ChatToResponsesStreamTool) (status : Text) :
    ResponsesOutput :=
  { type := .functionCall
    id := tool.id
    status := status
    callId := tool.id
    name := tool.name
    arguments := chatArgumentsRawMessage J tool.arguments }

namespace ChatToResponsesStreamState

variable (J : StringCodec) (s : ChatToResponsesStreamState)

def textDoneEvents : List StreamEvent :=
  if s.textStarted && !s.textDone then
    [{ type := .outputTextDone
       outputIndex := some s.textOutputIndex
       contentIndex := some 0
       itemID := s.messageID },
     { type := .outputItemDone
       outputIndex := some s.textOutputIndex
       item := some (s.messageOutput s.outputStatus) }]
  else []

def reasoningDoneEvents : List StreamEvent :=
  if s.reasoningStarted && !s.reasoningDone then
    [{ type := .reasoningSummaryDone
       outputIndex := some s.reasoningIndex
       summaryIndex := some 0
       itemID := s.reasoningID
       part := some s.reasoning },
     { type := .outputItemDone
       outputIndex := some s.reasoningIndex
       item := some (s.reasoningOutput s.outputStatus) }]
  else []

def toolDoneEvents (tool : ChatToResponsesStreamTool) : List StreamEvent :=
  if tool.done then []
  else
    [{ type := .functionArgsDone
       outputIndex := some tool.outputIndex
       itemID := tool.id },
     { type := .outputItemDone
       outputIndex := some tool.outputIndex
       item := some (toolOutput J tool s.outputStatus) }]

def doneDeltaEvents : ChatToResponsesStreamState × List StreamEvent :=
  ({ s with
     textDone := s.textStarted || s.textDone
     reasoningDone := s.reasoningStarted || s.reasoningDone
     toolsByIndex := s.toolsByIndex.map fun t => { t with done := true } },
   s.textDoneEvents ++ s.reasoningDoneEvents ++ s.sortedTools.flatMap (s.toolDoneEvents J))

def outputItem (status : Text) : OutputRef → Option ResponsesOutput
  | .message => some (s.messageOutput status)
  | .reasoning => some (s.reasoningOutput status)
  | .tool k => (s.tool? k).map fun tool => toolOutput J tool status

def finalResponse : OpenAIResponsesResponse :=
  { id := s.id
    object := "response".toList
    createdAt := s.created
    status := s.status
    incompleteDetails := s.incompleteDetails
    model := s.model
    output := s.outputOrder.filterMap (s.outputItem J s.outputStatus)
    usage := some s.usage }

def createdResponse : OpenAIResponsesResponse :=
  { id := s.id
    object := "response".toList
    createdAt := s.created
    status := inProgress
    model := s.model }

def readHeader (chunk : ChatCompletionsStreamResponse) : ChatToResponsesStreamState :=
  { s with
    id := if s.id = [] then chunk.id else s.id
    model := if s.model = [] then chunk.model else s.model
    created := if s.created = 0 then chunk.created else s.created
    usage := match chunk.usage with
      | some usage => usageFromChatUsage usage
      | none => s.usage }

def sendCreated : ChatToResponsesStreamState × List StreamEvent :=
  if s.sentCreated then (s, [])
  else
    ({ s with sentCreated := true },
      [{ type := .created, response := some s.createdResponse }])

def appendToolCallDeltas : List ToolCallResponse →
    ChatToResponsesStreamState → ChatToResponsesStreamState × List StreamEvent
  | [], s => (s, [])
  | toolCall :: rest, s =>
    let (s, events) := s.appendToolCallDelta toolCall
    let (s, later) := appendToolCallDeltas rest s
    (s, events ++ later)

def appendDelta (delta : ChoiceDelta) : ChatToResponsesStreamState × List StreamEvent :=
  let (s, reasoning) := if delta.getReasoningContent ≠ [] then
    s.appendReasoningDelta delta.getReasoningContent else (s, [])
  let (s, text) := if delta.getContentString ≠ [] then
    s.appendTextDelta delta.getContentString else (s, [])
  let (s, tools) := appendToolCallDeltas delta.toolCalls s
  (s, reasoning ++ text ++ tools)

def applyFinish (finishReason : Option Text) : ChatToResponsesStreamState × List StreamEvent :=
  match finishReason with
  | none => (s, [])
  | some reason =>
    if trimSpace reason ≠ [] then (s.applyFinishReason reason).doneDeltaEvents J else (s, [])

def appendChoices : List StreamChoice →
    ChatToResponsesStreamState → ChatToResponsesStreamState × List StreamEvent
  | [], s => (s, [])
  | choice :: rest, s =>
    let (s, deltas) := s.appendDelta choice.delta
    let (s, done) := s.applyFinish J choice.finishReason
    let (s, later) := appendChoices rest s
    (s, deltas ++ done ++ later)

end ChatToResponsesStreamState

open ChatToResponsesStreamState

def chatCompletionsStreamChunkToResponsesEvents (J : StringCodec)
    (chunk : ChatCompletionsStreamResponse) (s : ChatToResponsesStreamState) :
    ChatToResponsesStreamState × List StreamEvent :=
  let (s, created) := (s.readHeader chunk).sendCreated
  let (s, events) := appendChoices J chunk.choices s
  (s, created ++ events)

def finalizeChatCompletionsStreamToResponses (J : StringCodec) (s : ChatToResponsesStreamState) :
    ChatToResponsesStreamState × List StreamEvent :=
  if s.finalized then (s, [])
  else
    let (s, events) := s.doneDeltaEvents J
    let s := { s with finalized := true }
    (s, events ++ [{ type := if s.status = incomplete then .incomplete else .completed
                     response := some (s.finalResponse J) }])

def streamChunks (J : StringCodec) : List ChatCompletionsStreamResponse →
    ChatToResponsesStreamState → ChatToResponsesStreamState × List StreamEvent
  | [], s => (s, [])
  | chunk :: rest, s =>
    let (s, events) := chatCompletionsStreamChunkToResponsesEvents J chunk s
    let (s, later) := streamChunks J rest s
    (s, events ++ later)

def convertStream (J : StringCodec) (id model : Text) (now : ℤ)
    (chunks : List ChatCompletionsStreamResponse) : List StreamEvent :=
  let (s, events) := streamChunks J chunks (newChatToResponsesStreamState id model now)
  events ++ (finalizeChatCompletionsStreamToResponses J s).2

end NewApi.RelayConvert
