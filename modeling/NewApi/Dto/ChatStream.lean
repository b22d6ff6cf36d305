import NewApi.Dto.Responses

/-!
# Chat stream chunks (dto/openai_response.go)
-/

namespace NewApi.Dto

structure ToolCallResponse where
  index : Option ℤ := none
  id : Text := []
  name : Text := []
  arguments : Text := []
  deriving DecidableEq, Repr

structure ChoiceDelta where
  content : Option Text := none
  reasoningContent : Option Text := none
  reasoning : Option Text := none
  role : Text := []
  toolCalls : List ToolCallResponse := []
  deriving DecidableEq, Repr

def ChoiceDelta.getContentString (d : ChoiceDelta) : Text := d.content.getD []

def ChoiceDelta.getReasoningContent (d : ChoiceDelta) : Text :=
  match d.reasoningContent, d.reasoning with
  | some r, _ => r
  | none, some r => r
  | none, none => []

structure StreamChoice where
  delta : ChoiceDelta := {}
  finishReason : Option Text := none
  index : ℤ := 0
  deriving DecidableEq, Repr

structure ChatCompletionsStreamResponse where
  id : Text := []
  created : ℤ := 0
  model : Text := []
  choices : List StreamChoice := []
  usage : Option Usage := none
  deriving DecidableEq, Repr

end NewApi.Dto
