import Mathlib.Data.List.AList
import Mathlib.Data.List.Sort
import NewApi.Dto.ChatStream
import NewApi.RelayConvert.ResponsesToChat

/-!
# A Responses stream as chat chunks (service/relayconvert/responses_to_chat.go)

Arguments that come before their tool wait in one of two maps.
-/

namespace NewApi.RelayConvert

open NewApi.Dto

inductive ToolKey where
  | output (outputIndex : ℤ)
  | item (itemID : Text)
  | call (callID : Text)
  deriving DecidableEq, Repr

def ToolKey.render : ToolKey → Text
  | .output n => "output:".toList ++ fmtInt n
  | .item id => "item:".toList ++ id
  | .call id => "call:".toList ++ id

structure ResponsesStreamTool where
  key : ToolKey
  callID : Text := []
  itemID : Text := []
  name : Text := []
  arguments : Text := []
  index : ℤ
  sent : Bool := false
  nameSent : Bool := false
  argsSentAt : ℕ := 0
  deriving DecidableEq, Repr

structure ResponsesToChatStreamState where
  id : Text := []
  model : Text
  created : ℤ
  includeUsage : Bool
  usage : Usage := {}
  sentStart : Bool := false
  finalized : Bool := false
  hasSentText : Bool := false
  sawToolCall : Bool := false
  hasSentReasoning : Bool := false
  needsReasoningSummaryBreak : Bool := false
  nextToolIndex : ℤ := 0
  toolByKey : AList fun _ : ToolKey => ResponsesStreamTool := ∅
  outputIndexToKey : AList fun _ : ℤ => ToolKey := ∅
  itemIDToKey : AList fun _ : Text => ToolKey := ∅
  callIDToKey : AList fun _ : Text => ToolKey := ∅
  pendingArgsByOutputIndex : AList fun _ : ℤ => Text := ∅
  pendingArgsByItemID : AList fun _ : Text => Text := ∅
  usageText : Text := []

/-- `NewResponsesToChatStreamState`; `now` is the clock. -/
def newResponsesToChatStreamState (model : Text) (includeUsage : Bool) (now : ℤ) :
    ResponsesToChatStreamState :=
  { model := model, created := now, includeUsage := includeUsage }

abbrev ChatChunk := ChatCompletionsStreamResponse

def responseStreamEventItemID (event : ResponsesStreamResponse) : Text :=
  match event.item with
  | some item => if trimSpace item.id ≠ [] then trimSpace item.id else trimSpace event.itemID
  | none => trimSpace event.itemID

/-- `keyForEvent`; the empty key is `none`. -/
def keyForEvent (event : ResponsesStreamResponse) : Option ToolKey :=
  match event.outputIndex with
  | some n => some (.output n)
  | none =>
    let itemID := trimSpace event.itemID
    let fallback := if itemID ≠ [] then some (ToolKey.item itemID) else none
    match event.item with
    | some item =>
      if trimSpace item.id ≠ [] then some (.item (trimSpace item.id))
      else if trimSpace item.callId ≠ [] then some (.call (trimSpace item.callId))
      else fallback
    | none => fallback

def fallbackToolKey (itemID callID : Text) (outputIndex : Option ℤ) : Option ToolKey :=
  match outputIndex with
  | some n => some (.output n)
  | none =>
    if trimSpace itemID ≠ [] then some (.item (trimSpace itemID))
    else if trimSpace callID ≠ [] then some (.call (trimSpace callID))
    else none

def fallbackCallID (event : ResponsesStreamResponse) : Text :=
  if trimSpace event.itemID ≠ [] then trimSpace event.itemID
  else match event.outputIndex with
    | some n => "call_output_".toList ++ fmtInt n
    | none => []

namespace ResponsesToChatStreamState

variable (s : ResponsesToChatStreamState)

def makeChunk (delta : ChoiceDelta) (finishReason : Option Text) : ChatChunk :=
  { id := s.id
    created := s.created
    model := s.model
    choices := [{ delta := delta, finishReason := finishReason }] }

def applyResponseMetadata (response : Option OpenAIResponsesResponse) :
    ResponsesToChatStreamState :=
  match response with
  | none => s
  | some response =>
    { s with
      id := if response.id ≠ [] ∧ s.id = [] then response.id else s.id
      model := if response.model ≠ [] then response.model else s.model
      created := if response.createdAt ≠ 0 then response.createdAt else s.created
      usage := match response.usage with
        | some usage => usageFromResponsesUsage (some usage)
        | none => s.usage }

def ensureStart : ResponsesToChatStreamState × List ChatChunk :=
  if s.sentStart then (s, [])
  else
    ({ s with sentStart := true },
      [s.makeChunk { role := assistant, content := some [] } none])

def textDelta (delta : Text) : ResponsesToChatStreamState × List ChatChunk :=
  if delta = [] then (s, [])
  else
    let s := { s with
      usageText := s.usageText ++ delta
      hasSentText := true }
    let (s, start) := s.ensureStart
    (s, start ++ [s.makeChunk { content := some delta } none])

def breakDelta (delta : Text) : Text :=
  if s.needsReasoningSummaryBreak = false then delta
  else if ['\n', '\n'] <+: delta then delta
  else if ['\n'] <+: delta then '\n' :: delta
  else '\n' :: '\n' :: delta

def reasoningDelta (delta : Text) : ResponsesToChatStreamState × List ChatChunk :=
  if delta = [] then (s, [])
  else
    let delta := s.breakDelta delta
    let s := { s with
      needsReasoningSummaryBreak := false
      usageText := s.usageText ++ delta }
    let (s, start) := s.ensureStart
    let chunk := s.makeChunk { reasoningContent := some delta } none
    ({ s with hasSentReasoning := true }, start ++ [chunk])

def setTool (tool : ResponsesStreamTool) : ResponsesToChatStreamState :=
  { s with toolByKey := s.toolByKey.insert tool.key tool }

def toolDelta (tool : ResponsesStreamTool) (explicitDelta : Text) :
    ResponsesToChatStreamState × List ChatChunk :=
  let argsDelta := if explicitDelta = [] ∧ tool.argsSentAt < byteLength tool.arguments then
    dropBytes tool.argsSentAt tool.arguments else explicitDelta
  if tool.sent ∧ argsDelta = [] ∧ (tool.name = [] ∨ tool.nameSent) then (s.setTool tool, [])
  else
    let (s, start) := s.ensureStart
    let name := if tool.nameSent = false ∧ tool.name ≠ [] then tool.name else []
    let responseTool : ToolCallResponse :=
      { index := some tool.index
        id := if trimSpace tool.callID = [] then tool.key.render else trimSpace tool.callID
        name := name
        arguments := argsDelta }
    let tool := { tool with
      sent := true
      nameSent := tool.nameSent || decide (tool.name ≠ [])
      argsSentAt := if explicitDelta = [] ∧ tool.argsSentAt < byteLength tool.arguments then
        byteLength tool.arguments else tool.argsSentAt + byteLength explicitDelta }
    let s := { s.setTool tool with
      usageText := s.usageText ++ argsDelta ++ name
      sawToolCall := true }
    (s, start ++ [s.makeChunk { toolCalls := [responseTool] } none])

def toolOrNew (key : ToolKey) (callID : Text) :
    ResponsesToChatStreamState × ResponsesStreamTool :=
  match s.toolByKey.lookup key with
  | some tool => (s, tool)
  | none =>
    let tool : ResponsesStreamTool :=
      { key := key, index := s.nextToolIndex, callID := callID }
    ({ s.setTool tool with nextToolIndex := s.nextToolIndex + 1 }, tool)

def drainOutputIndex (event : ResponsesStreamResponse) (tool : ResponsesStreamTool) :
    ResponsesToChatStreamState × ResponsesStreamTool :=
  match event.outputIndex with
  | none => (s, tool)
  | some n =>
    ({ s with
       outputIndexToKey := s.outputIndexToKey.insert n tool.key
       pendingArgsByOutputIndex := s.pendingArgsByOutputIndex.erase n },
     { tool with
       arguments := tool.arguments ++ (s.pendingArgsByOutputIndex.lookup n).getD [] })

def drainItemID (event : ResponsesStreamResponse) (tool : ResponsesStreamTool) :
    ResponsesToChatStreamState × ResponsesStreamTool :=
  let itemID := responseStreamEventItemID event
  if itemID = [] then (s, tool)
  else
    ({ s with
       itemIDToKey := s.itemIDToKey.insert itemID tool.key
       pendingArgsByItemID := s.pendingArgsByItemID.erase itemID },
     { tool with
       itemID := itemID
       arguments := tool.arguments ++ (s.pendingArgsByItemID.lookup itemID).getD [] })

/-- `ensureToolForEvent`, for an event with the item `item`. -/
def ensureToolForEvent (event : ResponsesStreamResponse) (item : ResponsesOutput) :
    ResponsesToChatStreamState × Option ResponsesStreamTool :=
  match (keyForEvent event).or (fallbackToolKey item.id item.callId event.outputIndex) with
  | none => (s, none)
  | some key =>
    let (s, tool) := s.toolOrNew key []
    let (s, tool) := s.drainOutputIndex event tool
    let (s, tool) := s.drainItemID event tool
    let callID := trimSpace item.callId
    let s := { s with
      callIDToKey := if callID ≠ [] then s.callIDToKey.insert callID key else s.callIDToKey }
    let tool := { tool with
      callID := if callID ≠ [] then callID
        else if tool.callID = [] then trimSpace item.id else tool.callID
      name := if trimSpace item.name ≠ [] then trimSpace item.name else tool.name }
    (s.setTool tool, some tool)

def findToolForEvent (event : ResponsesStreamResponse) : Option ResponsesStreamTool :=
  let byOutputIndex := event.outputIndex.bind fun n => s.outputIndexToKey.lookup n
  let itemID := trimSpace event.itemID
  let byItemID := if itemID ≠ [] then s.itemIDToKey.lookup itemID else none
  let byItem := if event.item.isSome then keyForEvent event else none
  match (byOutputIndex.or byItemID).or byItem with
  | some key => s.toolByKey.lookup key
  | none => none

def ensureFallbackToolForEvent (event : ResponsesStreamResponse) :
    ResponsesToChatStreamState × Option ResponsesStreamTool :=
  let key := match event.outputIndex with
    | some n => some (ToolKey.output n)
    | none => if trimSpace event.itemID ≠ [] then some (.item (trimSpace event.itemID)) else none
  match key with
  | none => (s, none)
  | some key =>
    let (s, tool) := s.toolOrNew key (fallbackCallID event)
    let (s, tool) := s.drainOutputIndex event tool
    let (s, tool) := s.drainItemID event tool
    (s.setTool tool, some tool)

def toolItem (J : StringCodec) (event : ResponsesStreamResponse) (item : ResponsesOutput) :
    ResponsesToChatStreamState × List ChatChunk :=
  match s.ensureToolForEvent event item with
  | (s, none) => (s, [])
  | (s, some tool) =>
    let args := item.argumentsString J
    s.toolDelta (if args ≠ [] then { tool with arguments := args } else tool) []

def addPending (event : ResponsesStreamResponse) : ResponsesToChatStreamState :=
  match event.outputIndex with
  | some n =>
    { s with
      pendingArgsByOutputIndex := s.pendingArgsByOutputIndex.insert n
        ((s.pendingArgsByOutputIndex.lookup n).getD [] ++ event.delta) }
  | none =>
    let itemID := trimSpace event.itemID
    if itemID = [] then s
    else
      { s with
        pendingArgsByItemID := s.pendingArgsByItemID.insert itemID
          ((s.pendingArgsByItemID.lookup itemID).getD [] ++ event.delta) }

def toolArgumentsDelta (event : ResponsesStreamResponse) :
    ResponsesToChatStreamState × List ChatChunk :=
  if event.delta = [] then (s, [])
  else match s.findToolForEvent event with
    | none => (s.addPending event, [])
    | some tool =>
      s.toolDelta { tool with arguments := tool.arguments ++ event.delta } event.delta

def flushPendingTool (event : ResponsesStreamResponse) :
    ResponsesToChatStreamState × List ChatChunk :=
  match s.findToolForEvent event with
  | some tool => s.toolDelta tool []
  | none =>
    match s.ensureFallbackToolForEvent event with
    | (s, none) => (s, [])
    | (s, some tool) => s.toolDelta tool []

def pendingKeys : List ToolKey :=
  let tools := s.toolByKey.keys
  let unseen := fun key : ToolKey => !(tools.any fun k => decide (k = key))
  (tools ++ (s.pendingArgsByOutputIndex.keys.map ToolKey.output).filter unseen ++
    (s.pendingArgsByItemID.keys.map ToolKey.item).filter unseen).insertionSort
      fun a b => textLe a.render b.render = true

def keyCallID : ToolKey → Text
  | .output n => "call_output_".toList ++ fmtInt n
  | .item id => id
  | .call id => "call:".toList ++ id

def drainKey (tool : ResponsesStreamTool) : ToolKey →
    ResponsesToChatStreamState × ResponsesStreamTool
  | .output n =>
    ({ s with pendingArgsByOutputIndex := s.pendingArgsByOutputIndex.erase n },
      { tool with
        arguments := tool.arguments ++ (s.pendingArgsByOutputIndex.lookup n).getD [] })
  | .item id =>
    ({ s with pendingArgsByItemID := s.pendingArgsByItemID.erase id },
      { tool with
        arguments := tool.arguments ++ (s.pendingArgsByItemID.lookup id).getD [] })
  | .call _ => (s, tool)

def flushKeys : List ToolKey →
    ResponsesToChatStreamState → ResponsesToChatStreamState × List ChatChunk
  | [], s => (s, [])
  | key :: keys, s =>
    let (s, tool) := s.toolOrNew key (keyCallID key)
    let (s, tool) := s.drainKey tool key
    let (s, chunks) := s.toolDelta tool []
    let (s, later) := flushKeys keys s
    (s, chunks ++ later)

def flushAllPendingTools : ResponsesToChatStreamState × List ChatChunk := flushKeys s.pendingKeys s

def finalize (response : Option OpenAIResponsesResponse) :
    ResponsesToChatStreamState × List ChatChunk :=
  if s.finalized then (s, [])
  else
    let (s, pending) := { s with finalized := true }.flushAllPendingTools
    let (s, start) := s.ensureStart
    let finishReason := match response.bind responsesFinishReasonFromStatus with
      | some mappedReason => mappedReason
      | none => if s.sawToolCall then "tool_calls".toList else "stop".toList
    let usage : List ChatChunk := if s.includeUsage then
      [{ id := s.id, created := s.created, model := s.model, usage := some s.usage }] else []
    (s, pending ++ start ++ [s.makeChunk {} (some finishReason)] ++ usage)

def terminalItem (J : StringCodec) (out : ResponsesOutput) :
    ResponsesToChatStreamState × List ChatChunk :=
  if out.type = .message ∧ s.hasSentText = false then
    s.textDelta (out.content.flatMap fun c => if c.type = .outputText then c.text else [])
  else if out.type = .reasoning ∧ s.hasSentReasoning = false then
    s.reasoningDelta (out.content.flatMap ResponsesOutputContent.text)
  else if isResponsesToolOutputType out.type then
    s.toolItem J { type := .other [], item := some out } out
  else (s, [])

def terminalItems (J : StringCodec) : List ResponsesOutput →
    ResponsesToChatStreamState → ResponsesToChatStreamState × List ChatChunk
  | [], s => (s, [])
  | out :: rest, s =>
    let (s, chunks) := s.terminalItem J out
    let (s, later) := terminalItems J rest s
    (s, chunks ++ later)

def terminalOutputChunks (J : StringCodec) (response : Option OpenAIResponsesResponse) :
    ResponsesToChatStreamState × List ChatChunk :=
  match response with
  | none => (s, [])
  | some response => terminalItems J response.output s

end ResponsesToChatStreamState

open ResponsesToChatStreamState

def ensureIncompleteResponse (resp : Option OpenAIResponsesResponse) : OpenAIResponsesResponse :=
  let resp := resp.getD {}
  if resp.status = [] then { resp with status := incomplete } else resp

def terminalChunks (J : StringCodec) (response : Option OpenAIResponsesResponse)
    (s : ResponsesToChatStreamState) : ResponsesToChatStreamState × List ChatChunk :=
  let s := s.applyResponseMetadata response
  let (s, chunks) := s.terminalOutputChunks J response
  let (s, last) := s.finalize response
  (s, chunks ++ last)

def responsesStreamEventToChatChunks (J : StringCodec) (event : ResponsesStreamResponse)
    (s : ResponsesToChatStreamState) : Except Text (ResponsesToChatStreamState × List ChatChunk) :=
  match event.type with
  | .created => .ok (s.applyResponseMetadata event.response).ensureStart
  | .reasoningSummaryDelta | .reasoningTextDelta => .ok (s.reasoningDelta event.delta)
  | .reasoningSummaryDone | .reasoningTextDone =>
    .ok ({ s with
      needsReasoningSummaryBreak := s.hasSentReasoning || s.needsReasoningSummaryBreak }, [])
  | .outputTextDelta => .ok (s.textDelta event.delta)
  | .outputItemAdded | .outputItemDone =>
    match event.item with
    | none => .ok (s, [])
    | some item =>
      if isResponsesToolOutputType item.type then .ok (s.toolItem J event item) else .ok (s, [])
  | .functionArgsDelta | .customToolInputDelta => .ok (s.toolArgumentsDelta event)
  | .functionArgsDone | .customToolInputDone => .ok (s.flushPendingTool event)
  | .completed | .done => .ok (terminalChunks J event.response s)
  | .incomplete => .ok (terminalChunks J (some (ensureIncompleteResponse event.response)) s)
  | .failed => .error "responses stream error: response.failed".toList
  | .error => .error "responses stream error: response.error".toList
  | .outputTextDone | .other _ => .ok (s, [])

def streamEvents (J : StringCodec) : List ResponsesStreamResponse →
    ResponsesToChatStreamState → Except Text (ResponsesToChatStreamState × List ChatChunk)
  | [], s => .ok (s, [])
  | event :: rest, s => do
    let (s, chunks) ← responsesStreamEventToChatChunks J event s
    let (s, later) ← streamEvents J rest s
    return (s, chunks ++ later)

end NewApi.RelayConvert
