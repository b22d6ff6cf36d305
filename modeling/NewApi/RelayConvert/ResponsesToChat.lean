import NewApi.RelayConvert.ChatToResponses

/-!
# Responses as chat responses (service/relayconvert/responses_to_chat.go)
-/

namespace NewApi.RelayConvert

open NewApi.Dto

def isResponsesToolOutputType (t : OutputType) : Bool :=
  decide (t = .functionCall) || decide (t = .customToolCall)

/-- `ResponsesFinishReasonFromStatus`: `none` where it reports no reason. -/
def responsesFinishReasonFromStatus (resp : OpenAIResponsesResponse) : Option Text :=
  if responseStatusString resp ≠ incomplete then none
  else if trimSpace (resp.incompleteDetails.getD []) = responsesIncompleteReasonContentFilter then
    some chatFinishReasonContentFilter
  else some chatFinishReasonLength

def usageFromResponsesUsage (src : Option Usage) : Usage :=
  match src with
  | none => {}
  | some src =>
    let c := src.completionTokenDetails
    { promptTokens := src.inputTokens
      inputTokens := src.inputTokens
      completionTokens := src.outputTokens
      outputTokens := src.outputTokens
      totalTokens := if src.totalTokens ≠ 0 then src.totalTokens
        else src.inputTokens + src.outputTokens
      promptTokensDetails := src.inputTokensDetails.getD {}
      completionTokenDetails :=
        if c.reasoningTokensPresent ∨ c.reasoningTokens ≠ 0 then
          { reasoningTokens := c.reasoningTokens
            reasoningTokensPresent := c.reasoningTokensPresent }
        else {} }

/-- What the first loop of `ExtractOutputTextFromResponses` takes of one item. -/
def assistantText (out : ResponsesOutput) : Text :=
  if out.type ≠ .message ∨ (out.role ≠ [] ∧ out.role ≠ assistant) then []
  else out.content.flatMap fun c => if c.type = .outputText then c.text else []

def allText (out : ResponsesOutput) : Text := out.content.flatMap ResponsesOutputContent.text

def extractOutputTextFromResponses (resp : OpenAIResponsesResponse) : Text :=
  let text := resp.output.flatMap assistantText
  if text ≠ [] then text else resp.output.flatMap allText

def reasoningText (out : ResponsesOutput) : Text :=
  if out.type ≠ .reasoning then [] else allText out

def extractReasoningTextFromResponses (resp : OpenAIResponsesResponse) : Text :=
  resp.output.flatMap reasoningText

def outputToolCall (J : StringCodec) (out : ResponsesOutput) : Option ToolCall :=
  if isResponsesToolOutputType out.type = false then none
  else if trimSpace out.name = [] then none
  else some
    { id := if trimSpace out.callId = [] then trimSpace out.id else trimSpace out.callId
      type := "function".toList
      name := trimSpace out.name
      arguments := out.argumentsString J }

/-- `ResponsesResponseToChatCompletionsResponse`; a nil response is `none`. -/
def responsesResponseToChatCompletionsResponse (J : StringCodec)
    (resp : Option OpenAIResponsesResponse) (id : Text) :
    Except Text (OpenAITextResponse × Usage) :=
  match resp with
  | none => .error "response is nil".toList
  | some resp =>
    let text := extractOutputTextFromResponses resp
    let reasoning := extractReasoningTextFromResponses resp
    let usage := usageFromResponsesUsage resp.usage
    let toolCalls := resp.output.filterMap (outputToolCall J)
    let finishReason := match responsesFinishReasonFromStatus resp with
      | some mappedReason => mappedReason
      | none => if toolCalls ≠ [] then "tool_calls".toList else "stop".toList
    let message : Message :=
      { role := assistant
        content := .string text
        reasoningContent := if reasoning ≠ [] then some reasoning else none
        toolCalls := toolCalls }
    .ok ({ id := id
           object := "chat.completion".toList
           created := resp.createdAt
           model := resp.model
           choices := [{ message := message, finishReason := finishReason }]
           usage := usage }, usage)

end NewApi.RelayConvert
