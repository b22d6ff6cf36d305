import NewApi.Dto.Responses

/-!
# Chat responses as Responses (service/relayconvert/chat_to_responses_response.go)
-/

namespace NewApi.RelayConvert

open NewApi.Dto

def chatFinishReasonLength : Text := "length".toList

def chatFinishReasonContentFilter : Text := "content_filter".toList

def responsesIncompleteReasonMaxTokens : Text := "max_output_tokens".toList

def responsesIncompleteReasonContentFilter : Text := "content_filter".toList

def completed : Text := "completed".toList

def incomplete : Text := "incomplete".toList

def assistant : Text := "assistant".toList

def responseStatusString (resp : OpenAIResponsesResponse) : Text := trimSpace resp.status

def responseOutputStatus (resp : OpenAIResponsesResponse) : Text :=
  if responseStatusString resp ≠ incomplete then completed else incomplete

/-- `ResponsesStatusFromChatFinishReason`: the status and the reason of its details. -/
def responsesStatusFromChatFinishReason (finishReason : Text) : Text × Option Text :=
  let reason := trimSpace finishReason
  if reason = chatFinishReasonLength then (incomplete, some responsesIncompleteReasonMaxTokens)
  else if reason = chatFinishReasonContentFilter then
    (incomplete, some responsesIncompleteReasonContentFilter)
  else (completed, none)

def usageFromChatUsage (src : Usage) : Usage :=
  let d := src.promptTokensDetails
  let c := src.completionTokenDetails
  { promptTokens := src.promptTokens
    inputTokens := src.promptTokens
    completionTokens := src.completionTokens
    outputTokens := src.completionTokens
    totalTokens := if src.totalTokens ≠ 0 then src.totalTokens
      else src.promptTokens + src.completionTokens
    inputTokensDetails :=
      if d.cachedTokens ≠ 0 ∨ d.imageTokens ≠ 0 ∨ d.audioTokens ≠ 0 ∨ d.cachedCreationTokens ≠ 0 ∨
          d.cacheWriteTokens ≠ 0 ∨ d.cacheWriteTokensDetails.isSome ∨ d.textTokens ≠ 0 then some d
      else none
    completionTokenDetails :=
      if c.reasoningTokensPresent ∨ c.reasoningTokens ≠ 0 ∨ c.textTokens ≠ 0 ∨ c.audioTokens ≠ 0 ∨
          c.imageTokens ≠ 0 then c
      else {} }

def chatArgumentsRawMessage (J : StringCodec) (arguments : Text) : Text := J.marshal arguments

def generatedCallID (responseID : Text) (index : ℤ) : Text :=
  responseID ++ "_call_".toList ++ fmtInt index

def chatToolCallToResponsesOutput (J : StringCodec) (toolCall : ToolCall) (responseID : Text)
    (index : ℤ) (status : Text) : ResponsesOutput :=
  let callID := if trimSpace toolCall.id = [] then generatedCallID responseID index
    else trimSpace toolCall.id
  if toolCall.type = [] ∨ toolCall.type = "function".toList then
    { type := .functionCall
      id := callID
      status := status
      callId := callID
      name := toolCall.name
      arguments := chatArgumentsRawMessage J toolCall.arguments }
  else
    { type := .ofText toolCall.type
      id := callID
      status := status
      callId := callID
      arguments := toolCall.custom }

def chatToolCallsToResponsesOutputs (J : StringCodec) (responseID status : Text) :
    ℤ → List ToolCall → List ResponsesOutput
  | _, [] => []
  | i, toolCall :: rest => chatToolCallToResponsesOutput J toolCall responseID i status ::
      chatToolCallsToResponsesOutputs J responseID status (i + 1) rest

def messageOutput (id status text : Text) : ResponsesOutput :=
  { type := .message
    id := id
    status := status
    role := assistant
    content := [{ type := .outputText, text := text }] }

def reasoningOutput (id status reasoning : Text) : ResponsesOutput :=
  { type := .reasoning
    id := id
    status := status
    content := [{ type := .summaryText, text := reasoning }] }

def choiceOutput (J : StringCodec) (id status : Text) (message : Message) :
    List ResponsesOutput :=
  let text := message.stringContent
  let reasoning := message.getReasoningContent
  (if text ≠ [] then [messageOutput (id ++ "_msg_0".toList) status text] else []) ++
    (if reasoning ≠ [] then [reasoningOutput (id ++ "_reasoning_0".toList) status reasoning]
      else []) ++
    chatToolCallsToResponsesOutputs J id status 0 message.toolCalls

/-- `ChatCompletionsResponseToResponsesResponse`; a nil response is `none`. -/
def chatCompletionsResponseToResponsesResponse (J : StringCodec)
    (resp : Option OpenAITextResponse) (id : Text) :
    Except Text (OpenAIResponsesResponse × Usage) :=
  match resp with
  | none => .error "response is nil".toList
  | some resp =>
    let usage := usageFromChatUsage resp.usage
    let out : OpenAIResponsesResponse :=
      { id := id
        object := "response".toList
        createdAt := resp.created
        status := completed
        model := resp.model
        usage := some usage }
    match resp.choices with
    | [] => .ok (out, usage)
    | choice :: _ =>
      let (status, details) := responsesStatusFromChatFinishReason choice.finishReason
      let out := { out with
        status := status
        incompleteDetails := details }
      .ok ({ out with
        output := choiceOutput J id (responseOutputStatus out) choice.message }, usage)

end NewApi.RelayConvert
