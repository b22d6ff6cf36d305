import NewApi.RelayConvert.ResponsesToChat

/-!
# A chat response through the Responses format and back

Each extractor of the way back has one lemma for what the way there puts into the output list.
-/

namespace NewApi.RelayConvert

open NewApi.Dto

def roundTrip (J : StringCodec) (resp : OpenAITextResponse) (id id' : Text) :
    Except Text OpenAITextResponse := do
  let (responses, _) ← chatCompletionsResponseToResponsesResponse J (some resp) id
  let (back, _) ← responsesResponseToChatCompletionsResponse J (some responses) id'
  return back

structure ChatFormat (choice : OpenAITextResponseChoice) : Prop where
  content : ∃ text, choice.message.content = .string text
  function : ∀ c ∈ choice.message.toolCalls, c.type = [] ∨ c.type = "function".toList
  ids : (choice.message.toolCalls.map ToolCall.id).Nodup
  names : ∀ c ∈ choice.message.toolCalls, c.name ≠ [] ∧ trimSpace c.name = c.name
  finish : choice.finishReason = "stop".toList ∨ choice.finishReason = chatFinishReasonLength ∨
    choice.finishReason = chatFinishReasonContentFilter ∨
    choice.finishReason = "tool_calls".toList
  calls : choice.finishReason = "tool_calls".toList ↔ choice.message.toolCalls ≠ []

def call (c : ToolCall) : Text × Text × Text := (c.id, c.name, c.arguments)

structure SameChoice (choice back : OpenAITextResponseChoice) : Prop where
  text : back.message.content = choice.message.content
  reasoning : back.message.getReasoningContent = choice.message.getReasoningContent
  calls : back.message.toolCalls.map call = choice.message.toolCalls.map call
  function : ∀ c ∈ back.message.toolCalls, c.type = "function".toList
  finish : back.finishReason = choice.finishReason

structure SameCounts (usage back : Usage) : Prop where
  prompt : back.promptTokens = usage.promptTokens
  completion : back.completionTokens = usage.completionTokens
  cached : back.promptTokensDetails.cachedTokens = usage.promptTokensDetails.cachedTokens
  reasoning : back.completionTokenDetails.reasoningTokens =
    usage.completionTokenDetails.reasoningTokens

theorem usage_roundTrip (u : Usage) :
    SameCounts u (usageFromResponsesUsage (some (usageFromChatUsage u))) where
  prompt := rfl
  completion := rfl
  cached := by
    show ((usageFromChatUsage u).inputTokensDetails.getD {}).cachedTokens = _
    unfold usageFromChatUsage
    dsimp only
    split
    · rfl
    · next h =>
      push Not at h
      exact h.1.symm
  reasoning := by
    unfold usageFromResponsesUsage usageFromChatUsage
    dsimp only
    by_cases h : u.completionTokenDetails.reasoningTokensPresent = true ∨
        u.completionTokenDetails.reasoningTokens ≠ 0
    · have h' : u.completionTokenDetails.reasoningTokensPresent = true ∨
          u.completionTokenDetails.reasoningTokens ≠ 0 ∨
          u.completionTokenDetails.textTokens ≠ 0 ∨ u.completionTokenDetails.audioTokens ≠ 0 ∨
          u.completionTokenDetails.imageTokens ≠ 0 := by
        rcases h with h | h
        · exact Or.inl h
        · exact Or.inr (Or.inl h)
      rw [if_pos h', if_pos h]
    · have hzero : u.completionTokenDetails.reasoningTokens = 0 := by
        push Not at h
        exact h.2
      have hback : ∀ c : OutputTokenDetails, c = u.completionTokenDetails ∨ c = {} →
          (if c.reasoningTokensPresent = true ∨ c.reasoningTokens ≠ 0 then
            { reasoningTokens := c.reasoningTokens
              reasoningTokensPresent := c.reasoningTokensPresent }
          else ({} : OutputTokenDetails)).reasoningTokens = 0 := by
        rintro c (rfl | rfl)
        · rw [if_neg h]
        · rfl
      rw [hzero]
      apply hback
      split
      · exact Or.inl rfl
      · exact Or.inr rfl

section Outputs

variable (J : StringCodec) (id status : Text)

theorem content_chatToolCall (c : ToolCall) (i : ℤ) :
    (chatToolCallToResponsesOutput J c id i status).content = [] := by
  unfold chatToolCallToResponsesOutput
  dsimp only
  split <;> rfl

theorem flatMap_chatToolCalls {f : ResponsesOutput → Text}
    (hf : ∀ out, out.content = [] → f out = []) (calls : List ToolCall) (i : ℤ) :
    (chatToolCallsToResponsesOutputs J id status i calls).flatMap f = [] := by
  induction calls generalizing i with
  | nil => rfl
  | cons c calls ih =>
    rw [chatToolCallsToResponsesOutputs, List.flatMap_cons, ih,
      hf _ (content_chatToolCall J id status c i)]
    rfl

theorem assistantText_of_content {out : ResponsesOutput} (h : out.content = []) :
    assistantText out = [] := by
  unfold assistantText
  rw [h]
  split <;> rfl

theorem allText_of_content {out : ResponsesOutput} (h : out.content = []) :
    allText out = [] := by
  unfold allText
  rw [h]
  rfl

theorem reasoningText_of_content {out : ResponsesOutput} (h : out.content = []) :
    reasoningText out = [] := by
  unfold reasoningText
  rw [allText_of_content h]
  split <;> rfl

theorem flatMap_choiceOutput {f : ResponsesOutput → Text}
    (hf : ∀ out, out.content = [] → f out = []) (m : Message) :
    (choiceOutput J id status m).flatMap f =
      (if m.stringContent ≠ [] then
        f (messageOutput (id ++ "_msg_0".toList) status m.stringContent) else []) ++
      (if m.getReasoningContent ≠ [] then
        f (reasoningOutput (id ++ "_reasoning_0".toList) status m.getReasoningContent)
        else []) := by
  unfold choiceOutput
  dsimp only
  rw [List.flatMap_append, List.flatMap_append,
    flatMap_chatToolCalls J id status hf, List.append_nil]
  congr 1 <;> split <;> simp

theorem assistantText_choiceOutput (m : Message) :
    (choiceOutput J id status m).flatMap assistantText = m.stringContent := by
  rw [flatMap_choiceOutput J id status fun _ => assistantText_of_content]
  have hreason : ∀ i r, assistantText (reasoningOutput i status r) = [] := fun _ _ => rfl
  rw [hreason, ite_self, List.append_nil]
  split
  · simp [assistantText, messageOutput]
  · next h => simpa using h

theorem allText_choiceOutput (m : Message) :
    (choiceOutput J id status m).flatMap allText = m.stringContent ++ m.getReasoningContent := by
  rw [flatMap_choiceOutput J id status fun _ => allText_of_content]
  have htext : ∀ i t, allText (messageOutput i status t) = t := by
    intro i t
    simp [allText, messageOutput]
  have hreason : ∀ i r, allText (reasoningOutput i status r) = r := by
    intro i r
    simp [allText, reasoningOutput]
  congr 1 <;> split <;> simp_all

theorem reasoningText_choiceOutput (m : Message) :
    (choiceOutput J id status m).flatMap reasoningText = m.getReasoningContent := by
  rw [flatMap_choiceOutput J id status fun _ => reasoningText_of_content]
  have htext : ∀ i t, reasoningText (messageOutput i status t) = [] := fun _ _ => rfl
  rw [htext, ite_self, List.nil_append]
  split
  · simp [reasoningText, allText, reasoningOutput]
  · next h => simpa using h

theorem extractText_choiceOutput {resp : OpenAIResponsesResponse} {m : Message}
    (h : resp.output = choiceOutput J id status m) :
    extractOutputTextFromResponses resp =
      if m.stringContent ≠ [] then m.stringContent else m.getReasoningContent := by
  unfold extractOutputTextFromResponses
  dsimp only
  rw [h, assistantText_choiceOutput, allText_choiceOutput]
  split
  · rfl
  · next hnil => rw [not_not.mp hnil, List.nil_append]

def outputCallID (c : ToolCall) (i : ℤ) : Text :=
  if trimSpace c.id = [] then generatedCallID id i else trimSpace c.id

theorem trimSpace_generatedCallID (i : ℤ) : trimSpace (generatedCallID id i) ≠ [] := by
  have hmem : 'c' ∈ generatedCallID id i := by simp [generatedCallID]
  exact trimSpace_ne_nil hmem (by decide)

theorem trimSpace_outputCallID (c : ToolCall) (i : ℤ) :
    trimSpace (outputCallID id c i) = c.id ↔ c.id ≠ [] ∧ trimSpace c.id = c.id := by
  unfold outputCallID
  split
  · next hblank =>
    constructor
    · intro h
      rw [← h, trimSpace_trimSpace] at hblank
      exact absurd hblank (trimSpace_generatedCallID id i)
    · rintro ⟨hne, htrim⟩
      rw [htrim] at hblank
      exact absurd hblank hne
  · next hblank =>
    rw [trimSpace_trimSpace]
    constructor
    · intro h
      rw [h] at hblank
      exact ⟨hblank, h⟩
    · exact fun h => h.2

theorem outputToolCall_chatToolCall {c : ToolCall} (i : ℤ)
    (hf : c.type = [] ∨ c.type = "function".toList) (hn : c.name ≠ [])
    (ht : trimSpace c.name = c.name) :
    outputToolCall J (chatToolCallToResponsesOutput J c id i status) =
      some { id := trimSpace (outputCallID id c i)
             type := "function".toList
             name := c.name
             arguments := c.arguments } := by
  have hout : chatToolCallToResponsesOutput J c id i status =
      { type := .functionCall
        id := outputCallID id c i
        status := status
        callId := outputCallID id c i
        name := c.name
        arguments := chatArgumentsRawMessage J c.arguments } := by
    exact if_pos hf
  have hargs := jsonRawMessageToString_marshal J c.arguments
  rw [hout]
  unfold outputToolCall
  dsimp only
  rw [if_neg (by decide), ht, if_neg hn, ite_self]
  unfold ResponsesOutput.argumentsString chatArgumentsRawMessage
  rw [hargs]

theorem toolCalls_chatToolCalls {calls : List ToolCall}
    (hf : ∀ c ∈ calls, c.type = [] ∨ c.type = "function".toList)
    (hn : ∀ c ∈ calls, c.name ≠ [] ∧ trimSpace c.name = c.name) (i : ℤ) :
    ((chatToolCallsToResponsesOutputs J id status i calls).filterMap (outputToolCall J)).map call =
        calls.map call ↔
      ∀ c ∈ calls, c.id ≠ [] ∧ trimSpace c.id = c.id := by
  induction calls generalizing i with
  | nil => simp [chatToolCallsToResponsesOutputs]
  | cons c calls ih =>
    have hf' : ∀ d ∈ calls, d.type = [] ∨ d.type = "function".toList :=
      fun d hd => hf d (List.mem_cons_of_mem c hd)
    have hn' : ∀ d ∈ calls, d.name ≠ [] ∧ trimSpace d.name = d.name :=
      fun d hd => hn d (List.mem_cons_of_mem c hd)
    obtain ⟨hne, htrim⟩ := hn c List.mem_cons_self
    rw [chatToolCallsToResponsesOutputs, List.filterMap_cons,
      outputToolCall_chatToolCall J id status i (hf c List.mem_cons_self) hne htrim,
      List.forall_mem_cons]
    simp only [List.map_cons, List.cons.injEq, ih hf' hn']
    rw [← trimSpace_outputCallID id c i]
    simp [call]

theorem length_toolCalls_chatToolCalls {calls : List ToolCall}
    (hf : ∀ c ∈ calls, c.type = [] ∨ c.type = "function".toList)
    (hn : ∀ c ∈ calls, c.name ≠ [] ∧ trimSpace c.name = c.name) (i : ℤ) :
    ((chatToolCallsToResponsesOutputs J id status i calls).filterMap
      (outputToolCall J)).length = calls.length := by
  induction calls generalizing i with
  | nil => rfl
  | cons c calls ih =>
    obtain ⟨hne, htrim⟩ := hn c List.mem_cons_self
    rw [chatToolCallsToResponsesOutputs, List.filterMap_cons,
      outputToolCall_chatToolCall J id status i (hf c List.mem_cons_self) hne htrim,
      List.length_cons, List.length_cons,
      ih (fun d hd => hf d (List.mem_cons_of_mem c hd))
        (fun d hd => hn d (List.mem_cons_of_mem c hd))]

theorem filterMap_choiceOutput (m : Message) :
    (choiceOutput J id status m).filterMap (outputToolCall J) =
      (chatToolCallsToResponsesOutputs J id status 0 m.toolCalls).filterMap
        (outputToolCall J) := by
  have htext : ∀ i t, outputToolCall J (messageOutput i status t) = none := fun _ _ => rfl
  have hreason : ∀ i r, outputToolCall J (reasoningOutput i status r) = none := fun _ _ => rfl
  unfold choiceOutput
  dsimp only
  rw [List.filterMap_append, List.filterMap_append]
  split <;> split <;> simp [htext, hreason]

end Outputs

variable {choice : OpenAITextResponseChoice} {resp : OpenAITextResponse}

theorem finish_roundTrip (h : ChatFormat choice) {resp : OpenAIResponsesResponse}
    (hs : (resp.status, resp.incompleteDetails) =
      responsesStatusFromChatFinishReason choice.finishReason) {calls : List ToolCall}
    (hcalls : calls.length = choice.message.toolCalls.length) :
    (match responsesFinishReasonFromStatus resp with
      | some mappedReason => mappedReason
      | none => if calls ≠ [] then "tool_calls".toList else "stop".toList) =
      choice.finishReason := by
  have hnil : calls ≠ [] ↔ choice.message.toolCalls ≠ [] := by
    rw [← List.length_pos_iff, ← List.length_pos_iff, hcalls]
  obtain ⟨hstatus, hdetails⟩ := Prod.mk.inj hs
  unfold responsesFinishReasonFromStatus responseStatusString
  rw [hstatus, hdetails]
  rcases h.finish with hf | hf | hf | hf
  · have hno : ¬ calls ≠ [] := by
      rw [hnil, ← h.calls, hf]
      decide
    rw [hf, if_neg hno]
    rfl
  · rw [hf]
    rfl
  · rw [hf]
    rfl
  · have hyes : calls ≠ [] := by
      rw [hnil, ← h.calls, hf]
    rw [hf, if_pos hyes]
    rfl

theorem type_outputToolCall {J : StringCodec} {out : ResponsesOutput} {c : ToolCall}
    (h : outputToolCall J out = some c) : c.type = "function".toList := by
  unfold outputToolCall at h
  split at h
  · cases h
  · split at h
    · cases h
    · cases h
      rfl

structure Forward (J : StringCodec) (resp : OpenAITextResponse) (choice : OpenAITextResponseChoice)
    (id status : Text) (r : OpenAIResponsesResponse) : Prop where
  output : r.output = choiceOutput J id status choice.message
  finish : (r.status, r.incompleteDetails) =
    responsesStatusFromChatFinishReason choice.finishReason
  usage : r.usage = some (usageFromChatUsage resp.usage)

theorem chatCompletionsResponse_forward (J : StringCodec) (hc : resp.choices = [choice])
    (id : Text) : ∃ r status, chatCompletionsResponseToResponsesResponse J (some resp) id =
        .ok (r, usageFromChatUsage resp.usage) ∧ Forward J resp choice id status r := by
  rcases hs : responsesStatusFromChatFinishReason choice.finishReason with ⟨status, details⟩
  let out : OpenAIResponsesResponse :=
    { id := id
      object := "response".toList
      createdAt := resp.created
      status := status
      incompleteDetails := details
      model := resp.model
      usage := some (usageFromChatUsage resp.usage) }
  refine ⟨{ out with output := choiceOutput J id (responseOutputStatus out) choice.message },
    responseOutputStatus out, ?_, rfl, hs.symm, rfl⟩
  unfold chatCompletionsResponseToResponsesResponse
  simp only [hc, hs]
  rfl

structure Returned (J : StringCodec) (id status : Text) (choice back : OpenAITextResponseChoice) :
    Prop where
  text : back.message.content = .string (if choice.message.stringContent ≠ [] then
    choice.message.stringContent else choice.message.getReasoningContent)
  reasoning : back.message.getReasoningContent = choice.message.getReasoningContent
  calls : back.message.toolCalls =
    (chatToolCallsToResponsesOutputs J id status 0 choice.message.toolCalls).filterMap
      (outputToolCall J)
  finish : back.finishReason = choice.finishReason

theorem responsesResponse_returned (J : StringCodec) {id status : Text}
    {r : OpenAIResponsesResponse} (hr : Forward J resp choice id status r) (hf : ChatFormat choice)
    (id' : Text) : ∃ back c, responsesResponseToChatCompletionsResponse J (some r) id' =
        .ok (back, usageFromResponsesUsage r.usage) ∧ back.choices = [c] ∧
      back.usage = usageFromResponsesUsage r.usage ∧ Returned J id status choice c := by
  have htext := extractText_choiceOutput J id status hr.output
  have hreason : extractReasoningTextFromResponses r = choice.message.getReasoningContent := by
    unfold extractReasoningTextFromResponses
    rw [hr.output, reasoningText_choiceOutput]
  have hcalls := filterMap_choiceOutput J id status choice.message
  rw [← hr.output] at hcalls
  have hlen := length_toolCalls_chatToolCalls J id status hf.function hf.names 0
  rw [← hcalls] at hlen
  refine ⟨_, _, rfl, rfl, rfl, congrArg Content.string htext, ?_, hcalls,
    finish_roundTrip hf hr.finish hlen⟩
  rw [hreason]
  by_cases hnil : choice.message.getReasoningContent = []
  · rw [hnil]
    rfl
  · rw [if_pos hnil]
    rfl

theorem roundTrip_eq (J : StringCodec) (hc : resp.choices = [choice]) (hf : ChatFormat choice)
    (id id' : Text) : ∃ back c status, roundTrip J resp id id' = .ok back ∧ back.choices = [c] ∧
      SameCounts resp.usage back.usage ∧ Returned J id status choice c := by
  obtain ⟨r, status, hforth, hr⟩ := chatCompletionsResponse_forward J hc id
  obtain ⟨back, c, hback, hchoices, husage, hret⟩ := responsesResponse_returned J hr hf id'
  have htrip : roundTrip J resp id id' = .ok back := by
    unfold roundTrip
    rw [hforth]
    show (do
      let (b, _) ← responsesResponseToChatCompletionsResponse J (some r) id'
      return b) = _
    rw [hback]
    rfl
  have hcounts : SameCounts resp.usage back.usage := by
    rw [husage, hr.usage]
    exact usage_roundTrip resp.usage
  exact ⟨back, c, status, htrip, hchoices, hcounts, hret⟩

theorem content_eq_iff (hf : ChatFormat choice) :
    Content.string (if choice.message.stringContent ≠ [] then choice.message.stringContent
        else choice.message.getReasoningContent) = choice.message.content ↔
      choice.message.stringContent ≠ [] ∨ choice.message.getReasoningContent = [] := by
  obtain ⟨text, htext⟩ := hf.content
  have hstring : choice.message.stringContent = text := by
    unfold Message.stringContent
    rw [htext]
  rw [htext, hstring]
  by_cases hnil : text = []
  · rw [hnil]
    simp
  · simp [hnil]

/-- A chat response survives the Responses format exactly when its answer text is not empty
beside a reasoning text and its calls carry their ids. -/
theorem chat_response_survives_iff (J : StringCodec) (resp : OpenAITextResponse)
    (choice : OpenAITextResponseChoice) (hc : resp.choices = [choice]) (hf : ChatFormat choice)
    (id id' : Text) :
    (∃ back c, roundTrip J resp id id' = .ok back ∧ back.choices = [c] ∧ SameChoice choice c ∧
        SameCounts resp.usage back.usage) ↔
      (choice.message.stringContent ≠ [] ∨ choice.message.getReasoningContent = []) ∧
        ∀ c ∈ choice.message.toolCalls, c.id ≠ [] ∧ trimSpace c.id = c.id := by
  obtain ⟨back, c, status, hback, hchoices, hcounts, hret⟩ := roundTrip_eq J hc hf id id'
  have hcalls := toolCalls_chatToolCalls J id status hf.function hf.names 0
  rw [← hret.calls] at hcalls
  constructor
  · rintro ⟨back', c', hback', hchoices', hsame, -⟩
    rw [hback, Except.ok.injEq] at hback'
    rw [← hback', hchoices, List.cons.injEq] at hchoices'
    rw [← hchoices'.1] at hsame
    have htext := hret.text.symm.trans hsame.text
    exact ⟨(content_eq_iff hf).mp htext, hcalls.mp hsame.calls⟩
  · rintro ⟨htext, hids⟩
    have hfunction : ∀ d ∈ c.message.toolCalls, d.type = "function".toList := by
      intro d hd
      rw [hret.calls] at hd
      obtain ⟨out, -, hout⟩ := List.mem_filterMap.mp hd
      exact type_outputToolCall hout
    have hsame : SameChoice choice c :=
      { text := hret.text.trans ((content_eq_iff hf).mpr htext)
        reasoning := hret.reasoning
        calls := hcalls.mpr hids
        function := hfunction
        finish := hret.finish }
    exact ⟨back, c, hback, hchoices, hsame, hcounts⟩

def weatherChoice : OpenAITextResponseChoice :=
  { message :=
      { role := assistant
        content := .string "It will rain".toList
        reasoningContent := some "clouds".toList
        toolCalls := [{ id := "call_1".toList, type := "function".toList,
                        name := "forecast".toList, arguments := "not json \"".toList }] }
    finishReason := "tool_calls".toList }

def responseOf (choice : OpenAITextResponseChoice) : OpenAITextResponse :=
  { id := "chatcmpl".toList
    model := "m".toList
    object := "chat.completion".toList
    created := 7
    choices := [choice]
    usage := { promptTokens := 10, completionTokens := 4 } }

theorem weatherChoice_format : ChatFormat weatherChoice where
  content := ⟨_, rfl⟩
  function := by decide
  ids := by decide
  names := by decide
  finish := by decide
  calls := by decide

theorem chat_response_survives_weather :
    ∃ back c, roundTrip quotedStrings (responseOf weatherChoice) "resp".toList "chat".toList =
        .ok back ∧ back.choices = [c] ∧ SameChoice weatherChoice c ∧
      SameCounts (responseOf weatherChoice).usage back.usage :=
  (chat_response_survives_iff quotedStrings (responseOf weatherChoice) weatherChoice rfl
    weatherChoice_format "resp".toList "chat".toList).mpr (by decide)

def reasoningChoice : OpenAITextResponseChoice :=
  { message :=
      { role := assistant
        content := .string []
        reasoningContent := some "clouds".toList }
    finishReason := chatFinishReasonLength }

theorem reasoningChoice_format : ChatFormat reasoningChoice where
  content := ⟨_, rfl⟩
  function := by decide
  ids := by decide
  names := by decide
  finish := by decide
  calls := by decide

/-- The reasoning text comes back as the answer, for every codec. -/
theorem reasoning_returned_as_text :
    ChatFormat reasoningChoice ∧ reasoningChoice.message.content = .string [] ∧
      ∀ J : StringCodec, ∃ back c,
        roundTrip J (responseOf reasoningChoice) "resp".toList "chat".toList = .ok back ∧
        back.choices = [c] ∧ c.message.content = .string "clouds".toList ∧
        ¬ SameChoice reasoningChoice c := by
  refine ⟨reasoningChoice_format, rfl, fun J => ?_⟩
  have hc : (responseOf reasoningChoice).choices = [reasoningChoice] := rfl
  obtain ⟨back, c, status, hback, hchoices, -, hret⟩ :=
    roundTrip_eq J hc reasoningChoice_format "resp".toList "chat".toList
  have htext : c.message.content = .string "clouds".toList := hret.text
  refine ⟨back, c, hback, hchoices, htext, fun h => ?_⟩
  have hsame := htext.symm.trans h.text
  revert hsame
  decide

end NewApi.RelayConvert
