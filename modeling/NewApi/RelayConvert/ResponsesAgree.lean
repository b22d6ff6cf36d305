import NewApi.RelayConvert.StreamedToBuffer
import NewApi.RelayConvert.StreamedToChat

/-!
# The two accumulators of a Responses stream

Both end with what the trackers of the calls say, when every call is regular.
-/

namespace NewApi.RelayConvert

open NewApi.Dto ResponsesBufferedAccumulator

def outputText (output : List ResponsesOutput) : Text :=
  output.flatMap fun out => if out.type = .message then
    out.content.flatMap fun c => if c.type = .outputText then c.text else [] else []

def outputCalls (J : StringCodec) (output : List ResponsesOutput) : List (Text × Text × Text) :=
  (output.filter fun out => isResponsesToolOutputType out.type).map fun out =>
    (out.callId, out.name, out.argumentsString J)

def AccumulatorsAgree (J : StringCodec) (events : List Event)
    (s : ResponsesToChatStreamState) : Prop :=
  ∃ s' chunks, streamEvents J events s = .ok (s', chunks) ∧
    contentOf chunks =
      outputText ((bufferEvents J events newResponsesBufferedAccumulator).buildOutput J) ∧
    ∀ call, call ∈ joinedCalls (fragmentsOf chunks) ↔
      call ∈ outputCalls J
        ((bufferEvents J events newResponsesBufferedAccumulator).buildOutput J)

section Output

variable (J : StringCodec) (a : ResponsesBufferedAccumulator)

theorem argumentsString_bufferedOutput (tool : ResponsesBufferedTool) :
    (bufferedOutput J tool).argumentsString J = tool.arguments :=
  jsonRawMessageToString_marshal J tool.arguments

theorem outputText_tools : outputText (a.tools.map (bufferedOutput J)) = [] := by
  refine List.flatMap_eq_nil_iff.mpr ?_
  intro out hout
  obtain ⟨tool, -, rfl⟩ := List.mem_map.mp hout
  rfl

theorem outputText_buildOutput : outputText (a.buildOutput J) = a.text := by
  unfold buildOutput
  have happend : ∀ x y, outputText (x ++ y) = outputText x ++ outputText y :=
    fun _ _ => List.flatMap_append
  rw [happend, happend, outputText_tools, List.append_nil]
  have hreasoning : outputText (if a.reasoning ≠ [] then
      [{ type := .reasoning, content := [{ type := .summaryText, text := a.reasoning }] }]
      else []) = [] := by
    split <;> rfl
  rw [hreasoning]
  by_cases htext : a.text ≠ []
  · rw [if_pos htext]
    show a.text ++ [] ++ [] = a.text
    rw [List.append_nil, List.append_nil]
  · rw [not_not.mp htext]
    rfl

theorem outputCalls_buildOutput : outputCalls J (a.buildOutput J) =
    a.tools.map fun tool => (tool.callID, tool.name, tool.arguments) := by
  unfold outputCalls buildOutput
  have hreasoning : ((if a.reasoning ≠ [] then
      [{ type := .reasoning, content := [{ type := .summaryText, text := a.reasoning }] }]
      else []) : List ResponsesOutput).filter
        (fun out => isResponsesToolOutputType out.type) = [] := by
    split <;> rfl
  have hmessage : ((if a.text ≠ [] then
      [{ type := .message
         role := assistant
         content := [{ type := .outputText, text := a.text }] }]
      else []) : List ResponsesOutput).filter
        (fun out => isResponsesToolOutputType out.type) = [] := by
    split <;> rfl
  have htools : (a.tools.map (bufferedOutput J)).filter
      (fun out => isResponsesToolOutputType out.type) = a.tools.map (bufferedOutput J) := by
    refine List.filter_eq_self.mpr ?_
    intro out hout
    obtain ⟨tool, -, rfl⟩ := List.mem_map.mp hout
    rfl
  rw [List.filter_append, List.filter_append, hreasoning, hmessage, htools, List.nil_append,
    List.nil_append, List.map_map]
  refine List.map_congr_left ?_
  intro tool _
  show (tool.callID, tool.name, (bufferedOutput J tool).argumentsString J) = _
  rw [argumentsString_bufferedOutput]

end Output

section Agree

variable {J : StringCodec} {calls : List StreamedCall} {body : List Event}
  {a : ResponsesBufferedAccumulator}

theorem Buffering.mem_tools (hs : Streamed J calls body) (h : Buffering J calls body a)
    (call : Text × Text × Text) :
    call ∈ (a.tools.map fun tool => (tool.callID, tool.name, tool.arguments)) ↔
      ∃ c ∈ calls, call = toldCall J c (body.filter c.names) := by
  rw [List.mem_map]
  constructor
  · rintro ⟨tool, hmem, rfl⟩
    obtain ⟨i, hi, hget⟩ := List.mem_iff_getElem.mp hmem
    obtain ⟨c, hc, hplace⟩ := h.placed.owner i hi
    obtain ⟨j, own, hh⟩ := (h.each c hc).known (hs.known hc)
    have hij : i = j := Option.some.inj (hplace.symm.trans hh.place)
    have hown : own = tool := by
      have hentry := hh.entry
      rw [← hij, List.getElem?_eq_getElem hi, hget] at hentry
      exact (Option.some.inj hentry).symm
    refine ⟨c, hc, ?_⟩
    rw [← hown, hh.callID, hh.name, hh.args]
    rfl
  · rintro ⟨c, hc, rfl⟩
    obtain ⟨i, tool, hh⟩ := (h.each c hc).known (hs.known hc)
    refine ⟨tool, List.mem_of_getElem? hh.entry, ?_⟩
    rw [hh.callID, hh.name, hh.args]
    rfl

theorem bufferEvents_last {e : Event} (he : EmptyEnd e) :
    bufferEvents J (body ++ [e]) a = bufferEvents J body a := by
  unfold bufferEvents
  rw [List.foldl_concat]
  unfold processEvent
  rcases he.type with htype | htype | htype <;> rw [htype]

theorem accumulators_agree (J : StringCodec) (calls : List StreamedCall) (body : List Event)
    (last : Event) (hs : Streamed J calls body) (hlast : EmptyEnd last)
    (hr : ∀ c ∈ calls, Regular J (c.asTold (body.filter c.names)) (body.filter c.names))
    (model : Text) (includeUsage : Bool) (now : ℤ) :
    AccumulatorsAgree J (body ++ [last]) (newResponsesToChatStreamState model includeUsage now) := by
  have hregular : ∀ c ∈ calls.map fun c => c.asTold (body.filter c.names),
      Regular J c (body.filter c.names) := List.forall_mem_map.mpr hr
  have htold := hs.asTold
  clear hr hs
  generalize (calls.map fun c => c.asTold (body.filter c.names)) = calls at hregular htold
  have hnew : Chatting J calls [] (newResponsesToChatStreamState model includeUsage now) [] :=
    chatting_new model includeUsage now
  obtain ⟨s, chunks, hchat, htext, hrun⟩ := hnew.run htold hregular [last] (List.nil_append body).symm
  obtain ⟨s', tail, hend, hnone, hempty⟩ := lastEvent_settled (J := J) (hchat.settled htold) hlast
  have hbuffer : Buffering J calls body (bufferEvents J body newResponsesBufferedAccumulator) :=
    Buffering.run htold hregular (List.nil_append body).symm buffering_new
  refine ⟨s', chunks ++ tail, hrun s' tail hend, ?_, ?_⟩
  · rw [contentOf_append, hempty, List.append_nil, htext, bufferEvents_last hlast,
      outputText_buildOutput, hbuffer.text]
  · intro call
    rw [fragmentsOf_append, hnone, List.append_nil, bufferEvents_last hlast,
      outputCalls_buildOutput, hbuffer.mem_tools htold call]
    exact hchat.mem_joinedCalls htold call

theorem regular_of_announced {c : StreamedCall} {i : Event} {es : List Event}
    (hhead : es.head? = some i) (hi : isItem i = true) (hid : identifies i = true)
    (hcall : itemCallID i = c.callID)
    (hindexed : ∀ e ∈ es, isItem e = true → e.outputIndex ≠ none) : Regular J c es := by
  obtain ⟨rest, rfl⟩ := List.head?_eq_some_iff.mp hhead
  -- nothing of the call comes before its first item event
  have hfirst : ∀ before j after, i :: rest = before ++ j :: after →
      (∀ k ∈ before, isItem k = false) → before = [] ∧ j = i := by
    intro before j after hsplit hnone
    rcases before with _ | ⟨k, before⟩
    · injection hsplit with hhead _
      exact ⟨rfl, hhead.symm⟩
    · injection hsplit with hhead _
      have hk := hnone k List.mem_cons_self
      rw [← hhead, hi] at hk
      cases hk
  refine ⟨hindexed, ?_, ?_, ?_, ?_⟩
  · intro before e after hsplit hdone
    rcases before with _ | ⟨k, before⟩
    · injection hsplit with hhead _
      rw [← hhead, not_done_of_item hi] at hdone
      cases hdone
    · injection hsplit with hhead _
      rw [← hhead]
      exact ⟨⟨i, List.mem_cons_self, hi⟩,
        fun _ => ⟨i, List.mem_cons_self, hi, carriesID_of_identifies hid⟩⟩
  · intro before j after hsplit _ hnone
    rw [(hfirst before j after hsplit hnone).2]
    exact ⟨hcall, .inr hid⟩
  · intro before j after hsplit _ hnone
    rw [(hfirst before j after hsplit hnone).2]
    exact .inl hid
  · intro before j after hsplit _ hnone
    rw [(hfirst before j after hsplit hnone).1]
    exact .inr .nil

theorem complete_of_last {c : StreamedCall} {es : List Event}
    (hnone : ∀ e ∈ es.dropLast, itemArgs J e = [])
    (hspelled : deltas es = [] ∨ deltas es = c.arguments) : Complete J c es := by
  refine ⟨?_, hspelled⟩
  intro before e after hsplit hargs
  rcases List.eq_nil_or_concat after with rfl | ⟨after, d, rfl⟩
  · intro d hd
    cases hd
  · have hinit : es.dropLast = before ++ e :: after := by
      have hsplit' : es = (before ++ e :: after) ++ [d] := by
        rw [hsplit]
        simp
      rw [hsplit', List.dropLast_concat]
    refine absurd (hnone e ?_) hargs
    rw [hinit]
    exact List.mem_append_right _ List.mem_cons_self

end Agree

def firstCall : StreamedCall where
  outputIndex := 0
  itemID := "fc_1".toList
  callID := "call_1".toList
  name := "f".toList
  arguments := "[1]".toList

def secondCall : StreamedCall where
  outputIndex := 1
  itemID := "fc_2".toList
  callID := "call_2".toList
  name := "g".toList
  arguments := "[2]".toList

def calledItem (c : StreamedCall) (id arguments : Text) : ResponsesOutput where
  type := .functionCall
  id := id
  callId := c.callID
  name := c.name
  arguments := arguments

def interleaved : List Event :=
  [{ type := .outputTextDelta, delta := "hi".toList },
   { type := .outputItemAdded, outputIndex := some 0
     item := some (calledItem firstCall "fc_1".toList []) },
   { type := .functionArgsDelta, outputIndex := some 0, delta := "[1".toList },
   { type := .outputItemAdded, outputIndex := some 1
     item := some (calledItem secondCall "fc_2".toList []) },
   { type := .functionArgsDelta, itemID := "fc_1".toList, delta := "]".toList },
   { type := .functionArgsDelta, outputIndex := some 1, delta := "[2]".toList },
   { type := .functionArgsDone, itemID := "fc_1".toList },
   { type := .outputItemDone, outputIndex := some 0
     item := some (calledItem firstCall "fc_1".toList (quotedStrings.marshal "[1]".toList)) },
   { type := .outputItemDone, outputIndex := some 1
     item := some (calledItem secondCall "fc_2".toList (quotedStrings.marshal "[2]".toList)) }]

def completedEmpty : Event := { type := .completed, response := some {} }

theorem emptyEnd_completedEmpty : EmptyEnd completedEmpty :=
  ⟨.inl rfl, fun _ h => by cases h; rfl⟩

instance (J : StringCodec) (c : StreamedCall) (e : Event) : Decidable (c.Owns J e) :=
  decidable_of_iff
    ((e.outputIndex = none ∨ e.outputIndex = some c.outputIndex) ∧
      (responseStreamEventItemID e = [] ∨ responseStreamEventItemID e = c.itemID) ∧
      (trimSpace e.itemID = [] ∨ trimSpace e.itemID = c.itemID) ∧
      (e.outputIndex ≠ none ∨ responseStreamEventItemID e ≠ []) ∧ e.item = toolItemOf e ∧
      (itemCallID e = [] ∨ itemCallID e = c.callID) ∧ (itemName e = [] ∨ itemName e = c.name) ∧
      (itemArgs J e = [] ∨ itemArgs J e = c.arguments))
    ⟨fun ⟨a, b, c, d, e, f, g, h⟩ => ⟨a, b, c, d, e, f, g, h⟩,
      fun h => ⟨h.index, h.id, h.beside, h.either, h.item, h.callID, h.name, h.args⟩⟩

theorem streamed_interleaved : Streamed quotedStrings [firstCall, secondCall] interleaved := by
  refine ⟨by decide, by decide, ?_, by decide, by decide +kernel, by decide +kernel, ?_⟩
  · intro c hc
    simp only [List.mem_cons, List.not_mem_nil, or_false] at hc
    rcases hc with rfl | rfl <;> exact ⟨by decide, by decide +kernel, by decide +kernel⟩
  · intro c hc
    simp only [List.mem_cons, List.not_mem_nil, or_false] at hc
    rcases hc with rfl | rfl <;> exact complete_of_last (by decide +kernel) (by decide +kernel)

theorem accumulators_agree_interleaved :
    AccumulatorsAgree quotedStrings (interleaved ++ [completedEmpty])
      (newResponsesToChatStreamState "m".toList true 7) := by
  refine accumulators_agree quotedStrings [firstCall, secondCall] interleaved completedEmpty
    streamed_interleaved emptyEnd_completedEmpty ?_ "m".toList true 7
  intro c hc
  simp only [List.mem_cons, List.not_mem_nil, or_false] at hc
  rcases hc with rfl | rfl
  · exact regular_of_announced (i := interleaved.getD 1 completedEmpty) (by decide +kernel)
      (by decide) (by decide +kernel) (by decide +kernel) (by decide +kernel)
  · exact regular_of_announced (i := interleaved.getD 3 completedEmpty) (by decide +kernel)
      (by decide) (by decide +kernel) (by decide +kernel) (by decide +kernel)

def lateItemID : List Event :=
  [{ type := .outputItemAdded, outputIndex := some 0, item := some (calledItem firstCall [] []) },
   { type := .outputItemDone, outputIndex := some 0
     item := some (calledItem firstCall "fc_1".toList []) },
   { type := .functionArgsDelta, itemID := "fc_1".toList, delta := "[1]".toList }]

/-- The chunks have the arguments, and the buffer, which registered the tool without its item id,
has none. -/
theorem late_item_id_loses_arguments :
    Streamed quotedStrings [firstCall] lateItemID ∧ EmptyEnd completedEmpty ∧
    ((streamEvents quotedStrings (lateItemID ++ [completedEmpty])
        (newResponsesToChatStreamState "m".toList false 7)).map fun r =>
          joinedCalls (fragmentsOf r.2)) =
      .ok [("call_1".toList, "f".toList, "[1]".toList)] ∧
    outputCalls quotedStrings ((bufferEvents quotedStrings (lateItemID ++ [completedEmpty])
      newResponsesBufferedAccumulator).buildOutput quotedStrings) =
      [("call_1".toList, "f".toList, [])] ∧
    ¬ AccumulatorsAgree quotedStrings (lateItemID ++ [completedEmpty])
      (newResponsesToChatStreamState "m".toList false 7) := by
  have hstreamed : Streamed quotedStrings [firstCall] lateItemID := by
    refine ⟨by decide, by decide, ?_, by decide, by decide +kernel, by decide +kernel, ?_⟩
    · intro c hc
      rw [List.mem_singleton.mp hc]
      exact ⟨by decide, by decide +kernel, by decide +kernel⟩
    · intro c hc
      rw [List.mem_singleton.mp hc]
      exact complete_of_last (by decide +kernel) (by decide +kernel)
  have hstream : ((streamEvents quotedStrings (lateItemID ++ [completedEmpty])
      (newResponsesToChatStreamState "m".toList false 7)).map fun r =>
        joinedCalls (fragmentsOf r.2)) =
      .ok [("call_1".toList, "f".toList, "[1]".toList)] := by decide +kernel
  have hbuffer : outputCalls quotedStrings
      ((bufferEvents quotedStrings (lateItemID ++ [completedEmpty])
        newResponsesBufferedAccumulator).buildOutput quotedStrings) =
      [("call_1".toList, "f".toList, [])] := by decide +kernel
  refine ⟨hstreamed, emptyEnd_completedEmpty, hstream, hbuffer, ?_⟩
  rintro ⟨s', chunks, hok, -, hcalls⟩
  rw [hok] at hstream
  have hjoined : joinedCalls (fragmentsOf chunks) =
      [("call_1".toList, "f".toList, "[1]".toList)] := Except.ok.inj hstream
  have hmem := (hcalls ("call_1".toList, "f".toList, "[1]".toList)).mp (by
    rw [hjoined]
    exact List.mem_singleton_self _)
  revert hmem
  decide

end NewApi.RelayConvert
