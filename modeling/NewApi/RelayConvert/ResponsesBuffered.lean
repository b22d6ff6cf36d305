import Mathlib.Data.List.AList
import NewApi.RelayConvert.ResponsesToChat

/-!
# Buffering a Responses stream (service/relayconvert/responses_to_chat.go)

`ResponsesBufferedAccumulator` rebuilds the output of a stream whose terminal response has none.
-/

namespace NewApi.RelayConvert

open NewApi.Dto

structure ResponsesBufferedTool where
  callID : Text := []
  itemID : Text := []
  name : Text := []
  arguments : Text := []
  deriving DecidableEq, Repr

structure ResponsesBufferedAccumulator where
  text : Text := []
  reasoning : Text := []
  tools : List ResponsesBufferedTool := []
  outputIndexToToolIdx : AList fun _ : ℤ => ℕ := ∅
  itemIDToToolIdx : AList fun _ : Text => ℕ := ∅
  pendingByOutputIndex : AList fun _ : ℤ => Text := ∅
  pendingByItemID : AList fun _ : Text => Text := ∅

def newResponsesBufferedAccumulator : ResponsesBufferedAccumulator := {}

/-- `applyToolMetadata`, for an event with the item `item`. -/
def applyToolMetadata (tool : ResponsesBufferedTool) (item : ResponsesOutput) :
    ResponsesBufferedTool :=
  { tool with
    itemID := if trimSpace item.id ≠ [] then trimSpace item.id else tool.itemID
    callID := if trimSpace item.callId ≠ [] then trimSpace item.callId
      else if tool.callID = [] then trimSpace item.id else tool.callID
    name := if trimSpace item.name ≠ [] then trimSpace item.name else tool.name }

namespace ResponsesBufferedAccumulator

variable (a : ResponsesBufferedAccumulator)

def findToolIndex (event : ResponsesStreamResponse) : Option ℕ :=
  let byOutputIndex := event.outputIndex.bind fun n => a.outputIndexToToolIdx.lookup n
  let itemID := if trimSpace event.itemID ≠ [] then trimSpace event.itemID
    else match event.item with
      | some item => trimSpace item.id
      | none => []
  byOutputIndex.or (if itemID ≠ [] then a.itemIDToToolIdx.lookup itemID else none)

def drainOutputIndex (event : ResponsesStreamResponse) (tool : ResponsesBufferedTool) (idx : ℕ) :
    ResponsesBufferedAccumulator × ResponsesBufferedTool :=
  match event.outputIndex with
  | none => (a, tool)
  | some n =>
    ({ a with
       outputIndexToToolIdx := a.outputIndexToToolIdx.insert n idx
       pendingByOutputIndex := a.pendingByOutputIndex.erase n },
     { tool with
       arguments := tool.arguments ++ (a.pendingByOutputIndex.lookup n).getD [] })

def drainItemID (tool : ResponsesBufferedTool) (idx : ℕ) :
    ResponsesBufferedAccumulator × ResponsesBufferedTool :=
  if tool.itemID = [] then (a, tool)
  else
    ({ a with
       itemIDToToolIdx := a.itemIDToToolIdx.insert tool.itemID idx
       pendingByItemID := a.pendingByItemID.erase tool.itemID },
     { tool with
       arguments := tool.arguments ++ (a.pendingByItemID.lookup tool.itemID).getD [] })

/-- `ensureTool`, with the place of the tool in the list. -/
def ensureTool (event : ResponsesStreamResponse) (item : ResponsesOutput) :
    ResponsesBufferedAccumulator × ResponsesBufferedTool × ℕ :=
  match a.findToolIndex event with
  | some idx => (a, applyToolMetadata (a.tools.getD idx {}) item, idx)
  | none =>
    let idx := a.tools.length
    let tool := applyToolMetadata {} item
    let (a, tool) := a.drainOutputIndex event tool idx
    let (a, tool) := a.drainItemID tool idx
    ({ a with tools := a.tools ++ [tool] }, tool, idx)

def processItem (J : StringCodec) (event : ResponsesStreamResponse) (item : ResponsesOutput) :
    ResponsesBufferedAccumulator :=
  let (a, tool, idx) := a.ensureTool event item
  let args := item.argumentsString J
  { a with
    tools := a.tools.set idx (if args ≠ [] then { tool with arguments := args } else tool) }

def processDelta (event : ResponsesStreamResponse) : ResponsesBufferedAccumulator :=
  match a.findToolIndex event with
  | some idx =>
    let tool := a.tools.getD idx {}
    { a with
      tools := a.tools.set idx { tool with arguments := tool.arguments ++ event.delta } }
  | none =>
    match event.outputIndex with
    | some n =>
      { a with
        pendingByOutputIndex := a.pendingByOutputIndex.insert n
          ((a.pendingByOutputIndex.lookup n).getD [] ++ event.delta) }
    | none =>
      let itemID := trimSpace event.itemID
      if itemID = [] then a
      else
        { a with
          pendingByItemID := a.pendingByItemID.insert itemID
            ((a.pendingByItemID.lookup itemID).getD [] ++ event.delta) }

def processEvent (J : StringCodec) (event : ResponsesStreamResponse) :
    ResponsesBufferedAccumulator :=
  match event.type with
  | .outputTextDelta => { a with text := a.text ++ event.delta }
  | .reasoningSummaryDelta | .reasoningTextDelta => { a with reasoning := a.reasoning ++ event.delta }
  | .outputItemAdded | .outputItemDone =>
    match event.item with
    | none => a
    | some item => if isResponsesToolOutputType item.type then a.processItem J event item else a
  | .functionArgsDelta | .customToolInputDelta => a.processDelta event
  | _ => a

def bufferedOutput (J : StringCodec) (tool : ResponsesBufferedTool) : ResponsesOutput :=
  { type := .functionCall
    id := tool.itemID
    callId := tool.callID
    name := tool.name
    arguments := J.marshal tool.arguments }

def buildOutput (J : StringCodec) : List ResponsesOutput :=
  (if a.reasoning ≠ [] then
    [{ type := .reasoning, content := [{ type := .summaryText, text := a.reasoning }] }]
    else []) ++
  (if a.text ≠ [] then
    [{ type := .message
       role := assistant
       content := [{ type := .outputText, text := a.text }] }]
    else []) ++
  a.tools.map (bufferedOutput J)

end ResponsesBufferedAccumulator

def bufferEvents (J : StringCodec) (events : List ResponsesStreamResponse)
    (a : ResponsesBufferedAccumulator) : ResponsesBufferedAccumulator :=
  events.foldl (fun a event => a.processEvent J event) a

end NewApi.RelayConvert
