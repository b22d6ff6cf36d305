import NewApi.RelayConvert.ChatStreamItems

/-!
# What a converted chat stream tells

The events at one output index tell the story of one item.
-/

namespace NewApi.RelayConvert

open NewApi.Dto ChatToResponsesStreamState

abbrev Chunk := ChatCompletionsStreamResponse

/-! ## The input -/

def responseID : Text → List Chunk → Text
  | rid, [] => rid
  | rid, chunk :: chunks => responseID (if rid = [] then chunk.id else rid) chunks

def chunkFragments (responseID : Text) (chunk : Chunk) : List Fragment :=
  chunk.choices.flatMap fun choice => choiceFragments responseID choice.delta

def fragments : Text → List Chunk → List Fragment
  | _, [] => []
  | rid, chunk :: chunks =>
    chunkFragments (if rid = [] then chunk.id else rid) chunk ++
      fragments (if rid = [] then chunk.id else rid) chunks

def NoFinish (chunk : Chunk) : Prop :=
  ∀ choice ∈ chunk.choices, trimSpace (choice.finishReason.getD []) = []

instance (chunk : Chunk) : Decidable (NoFinish chunk) := by
  unfold NoFinish
  infer_instance

structure ChatChunks (chunks : List Chunk) : Prop where
  nonempty : chunks ≠ []
  choice : ∀ chunk ∈ chunks, chunk.choices.length ≤ 1
  finish : chunks.Pairwise fun earlier later => NoFinish earlier ∨ later.choices = []

def inputContent (k : OutputRef) (chunks : List Chunk) : Text :=
  chunks.flatMap fun chunk => chunk.choices.flatMap fun choice =>
    match k with
    | .message => choice.delta.getContentString
    | .reasoning => choice.delta.getReasoningContent
    | .tool j => choice.delta.toolCalls.flatMap fun call =>
      if call.index.getD 0 = j then call.arguments else []

def Occurs (k : OutputRef) (chunks : List Chunk) : Prop :=
  ∃ chunk ∈ chunks, ∃ choice ∈ chunk.choices,
    match k with
    | .message => choice.delta.getContentString ≠ []
    | .reasoning => choice.delta.getReasoningContent ≠ []
    | .tool j => ∃ call ∈ choice.delta.toolCalls, call.index.getD 0 = j

def Fragment.content : Fragment → Text
  | .reasoning _ delta => delta
  | .text _ delta => delta
  | .tool _ call => call.arguments

theorem filter_map_tool (k : OutputRef) (responseID : Text) (calls : List ToolCallResponse) :
    ((calls.map (Fragment.tool responseID)).filter fun f => decide (f.key = k)).flatMap
        Fragment.content =
      calls.flatMap fun call => if OutputRef.tool (call.index.getD 0) = k then call.arguments
        else [] := by
  induction calls with
  | nil => rfl
  | cons call calls ih =>
    rw [List.map_cons, List.flatMap_cons, ← ih]
    by_cases hk : OutputRef.tool (call.index.getD 0) = k
    · rw [List.filter_cons_of_pos (by simp [Fragment.key, hk]), List.flatMap_cons, if_pos hk]
      rfl
    · rw [List.filter_cons_of_neg (by simp [Fragment.key, hk]), if_neg hk]
      rfl

theorem content_choiceFragments (k : OutputRef) (responseID : Text) (delta : ChoiceDelta) :
    ((choiceFragments responseID delta).filter fun f => decide (f.key = k)).flatMap
        Fragment.content =
      match k with
      | .message => delta.getContentString
      | .reasoning => delta.getReasoningContent
      | .tool j => delta.toolCalls.flatMap fun call =>
        if call.index.getD 0 = j then call.arguments else [] := by
  unfold choiceFragments
  rw [List.filter_append, List.filter_append, List.flatMap_append, List.flatMap_append,
    filter_map_tool]
  cases k with
  | message | reasoning =>
    by_cases hr : delta.getReasoningContent = [] <;> by_cases ht : delta.getContentString = [] <;>
      simp [hr, ht, Fragment.key, Fragment.content]
  | tool j =>
    by_cases hr : delta.getReasoningContent = [] <;> by_cases ht : delta.getContentString = [] <;>
      simp [hr, ht, Fragment.key]

theorem mem_choiceFragments (k : OutputRef) (responseID : Text) (delta : ChoiceDelta) :
    (∃ f ∈ choiceFragments responseID delta, f.key = k) ↔
      match k with
      | .message => delta.getContentString ≠ []
      | .reasoning => delta.getReasoningContent ≠ []
      | .tool j => ∃ call ∈ delta.toolCalls, call.index.getD 0 = j := by
  unfold choiceFragments
  cases k with
  | message | reasoning | tool j =>
    by_cases hr : delta.getReasoningContent = [] <;> by_cases ht : delta.getContentString = [] <;>
      simp [hr, ht, Fragment.key]

theorem content_fragments (k : OutputRef) (id : Text) (chunks : List Chunk) :
    ((fragments id chunks).filter fun f => decide (f.key = k)).flatMap Fragment.content =
      inputContent k chunks := by
  induction chunks generalizing id with
  | nil => rfl
  | cons chunk chunks ih =>
    have hchunk : ∀ r, ((chunkFragments r chunk).filter fun f => decide (f.key = k)).flatMap
        Fragment.content = inputContent k [chunk] := by
      intro r
      unfold chunkFragments inputContent
      rw [List.flatMap_singleton]
      induction chunk.choices with
      | nil => rfl
      | cons choice choices ih' =>
        rw [List.flatMap_cons, List.flatMap_cons, List.filter_append, List.flatMap_append, ih',
          content_choiceFragments]
    rw [fragments, List.filter_append, List.flatMap_append, ih, hchunk]
    unfold inputContent
    rw [List.flatMap_singleton, List.flatMap_cons]

theorem mem_fragments (k : OutputRef) (id : Text) (chunks : List Chunk) :
    (∃ f ∈ fragments id chunks, f.key = k) ↔ Occurs k chunks := by
  induction chunks generalizing id with
  | nil => simp [fragments, Occurs]
  | cons chunk chunks ih =>
    have hchunk : ∀ r, (∃ f ∈ chunkFragments r chunk, f.key = k) ↔ Occurs k [chunk] := by
      intro r
      unfold chunkFragments Occurs
      constructor
      · rintro ⟨f, hf, hk⟩
        obtain ⟨choice, hc, hf⟩ := List.mem_flatMap.mp hf
        exact ⟨chunk, List.mem_singleton_self _, choice, hc,
          (mem_choiceFragments k r choice.delta).mp ⟨f, hf, hk⟩⟩
      · rintro ⟨chunk', hmem, choice, hc, hocc⟩
        rw [List.mem_singleton.mp hmem] at hc
        obtain ⟨f, hf, hk⟩ := (mem_choiceFragments k r choice.delta).mpr hocc
        exact ⟨f, List.mem_flatMap.mpr ⟨choice, hc, hf⟩, hk⟩
    have hsplit : Occurs k (chunk :: chunks) ↔ Occurs k [chunk] ∨ Occurs k chunks := by
      unfold Occurs
      simp
    rw [hsplit, ← ih (if id = [] then chunk.id else id),
      ← hchunk (if id = [] then chunk.id else id), fragments]
    simp [or_and_right, exists_or]

/-! ## The run -/

theorem responseID_append (id : Text) (xs ys : List Chunk) :
    responseID id (xs ++ ys) = responseID (responseID id xs) ys := by
  induction xs generalizing id with
  | nil => rfl
  | cons chunk xs ih => exact ih _

theorem responseID_of_ne {id : Text} (h : id ≠ []) (chunks : List Chunk) :
    responseID id chunks = id := by
  induction chunks with
  | nil => rfl
  | cons chunk chunks ih =>
    rw [responseID, if_neg h]
    exact ih

theorem responseID_between {id : Text} {xs ys : List Chunk}
    (h : responseID id (xs ++ ys) = id) : responseID id xs = id := by
  by_cases hid : id = []
  · by_contra hne
    rw [hid] at hne h
    rw [responseID_append, responseID_of_ne hne] at h
    exact hne h
  · exact responseID_of_ne hid xs

section Run

variable {J : StringCodec} {s : ChatToResponsesStreamState} {R : Items}

variable {chunks : List Chunk} {done : Bool} {chunk : Chunk}

theorem Refines.readHeader (h : Refines s R done) (chunk : Chunk) :
    Refines (s.readHeader chunk) R done :=
  ⟨h.order, h.next, h.text, h.textDone, h.reasoning, h.reasoningDone, h.tools, h.nodup⟩

theorem Refines.applyFinishReason (h : Refines s R done) (reason : Text) :
    Refines (s.applyFinishReason reason) R done :=
  ⟨h.order, h.next, h.text, h.textDone, h.reasoning, h.reasoningDone, h.tools, h.nodup⟩

theorem sendCreated_sent (h : s.sentCreated = true) : s.sendCreated = (s, []) := by
  unfold sendCreated
  exact if_pos h

theorem applyFinish_none {finishReason : Option Text}
    (h : trimSpace (finishReason.getD []) = []) : s.applyFinish J finishReason = (s, []) := by
  unfold applyFinish
  cases finishReason with
  | none => rfl
  | some reason => exact if_neg (not_not.mpr h)

theorem appendChoices_appends (h : Refines s R false) {choices : List StreamChoice}
    (hf : ∀ choice ∈ choices, trimSpace (choice.finishReason.getD []) = []) :
    Appends s R (choices.flatMap fun choice => choiceFragments s.id choice.delta)
      (appendChoices J choices s) := by
  induction choices generalizing s R with
  | nil => exact .nil h
  | cons choice choices ih =>
    have hhead := appendDelta_appends h choice.delta
    have htail := ih hhead.refines fun c hc => hf c (List.mem_cons_of_mem choice hc)
    rw [hhead.same.id] at htail
    have hboth := hhead.trans htail
    rw [appendChoices]
    dsimp only
    rw [applyFinish_none (hf choice List.mem_cons_self)]
    dsimp only
    rw [List.append_nil]
    exact hboth

theorem id_readHeader (chunk : Chunk) :
    (s.readHeader chunk).id = if s.id = [] then chunk.id else s.id := rfl

theorem chunk_appends (h : Refines s R false) (hs : s.sentCreated = true) (hf : NoFinish chunk) :
    Appends (s.readHeader chunk) R (chunkFragments (s.readHeader chunk).id chunk)
      (chatCompletionsStreamChunkToResponsesEvents J chunk s) := by
  have hsent : (s.readHeader chunk).sentCreated = true := hs
  unfold chatCompletionsStreamChunkToResponsesEvents
  rw [sendCreated_sent hsent]
  exact appendChoices_appends (h.readHeader chunk) hf

theorem chunk_finish (h : Refines s R false) (hs : s.sentCreated = true)
    (hc : chunk.choices.length ≤ 1) (hf : ¬ NoFinish chunk) :
    ∃ sd, Refines sd (R.puts (chunkFragments (s.readHeader chunk).id chunk)) false ∧
      sd.id = (s.readHeader chunk).id ∧ sd.sentCreated = true ∧ sd.finalized = s.finalized ∧
      chatCompletionsStreamChunkToResponsesEvents J chunk s =
        ((sd.doneDeltaEvents J).1,
          R.emits (chunkFragments (s.readHeader chunk).id chunk) ++ (sd.doneDeltaEvents J).2) := by
  obtain ⟨choice, hchoice⟩ : ∃ choice, chunk.choices = [choice] := by
    rcases hl : chunk.choices with _ | ⟨choice, _ | ⟨other, rest⟩⟩
    · unfold NoFinish at hf
      rw [hl] at hf
      simp at hf
    · exact ⟨choice, rfl⟩
    · rw [hl] at hc
      simp at hc
  obtain ⟨reason, hreason, hne⟩ : ∃ reason, choice.finishReason = some reason ∧
      trimSpace reason ≠ [] := by
    unfold NoFinish at hf
    rw [hchoice] at hf
    rcases hr : choice.finishReason with _ | reason
    · exact absurd (by simp [hr]; rfl) hf
    · exact ⟨reason, rfl, fun hnil => hf (by simp [hr, hnil])⟩
  have hsent : (s.readHeader chunk).sentCreated = true := hs
  have happ := appendDelta_appends (h.readHeader chunk) choice.delta
  have hfrag : chunkFragments (s.readHeader chunk).id chunk =
      choiceFragments (s.readHeader chunk).id choice.delta := by
    unfold chunkFragments
    rw [hchoice, List.flatMap_singleton]
  refine ⟨((s.readHeader chunk).appendDelta choice.delta).1.applyFinishReason reason, ?_,
    happ.same.id, happ.same.sentCreated.trans hs, happ.same.finalized, ?_⟩
  · rw [hfrag]
    exact happ.refines.applyFinishReason reason
  · rw [hfrag, ← happ.events]
    unfold chatCompletionsStreamChunkToResponsesEvents
    rw [sendCreated_sent hsent, hchoice]
    simp [appendChoices, applyFinish, hreason, if_pos hne]

theorem streamChunks_header (h : Refines s R true) (hs : s.sentCreated = true)
    (hc : ∀ chunk ∈ chunks, chunk.choices = []) :
    Refines (streamChunks J chunks s).1 R true ∧ (streamChunks J chunks s).2 = [] ∧
      (streamChunks J chunks s).1.id = responseID s.id chunks ∧
      (streamChunks J chunks s).1.status = s.status ∧
      (streamChunks J chunks s).1.finalized = s.finalized := by
  induction chunks generalizing s with
  | nil => exact ⟨h, rfl, rfl, rfl, rfl⟩
  | cons chunk chunks ih =>
    have hsent : (s.readHeader chunk).sentCreated = true := hs
    have hstep : chatCompletionsStreamChunkToResponsesEvents J chunk s =
        (s.readHeader chunk, []) := by
      unfold chatCompletionsStreamChunkToResponsesEvents
      rw [sendCreated_sent hsent, hc chunk List.mem_cons_self]
      rfl
    obtain ⟨href, hev, hid, hst, hfin⟩ := ih (h.readHeader chunk) hsent
      fun c hc' => hc c (List.mem_cons_of_mem chunk hc')
    rw [streamChunks, hstep]
    exact ⟨href, hev, hid, hst, hfin⟩

structure Ending (J : StringCodec) (rid : Text) (chunks : List Chunk) (R : Items)
    (events : List StreamEvent) (sd sf : ChatToResponsesStreamState) : Prop where
  closes : Refines sd (R.puts (fragments rid chunks)) false
  final : Refines sf (R.puts (fragments rid chunks)) true
  status : sf.status = sd.status
  finalID : sf.id = responseID rid chunks
  closeID : ∃ seen later, chunks = seen ++ later ∧ fragments rid seen = fragments rid chunks ∧
    sd.id = responseID rid seen
  events : ∃ type, (type = .completed ∨ type = .incomplete) ∧
    events = R.emits (fragments rid chunks) ++ (sd.doneDeltaEvents J).2 ++
      [{ type := type, response := some (sf.finalResponse J) }]

def restEvents (J : StringCodec) (chunks : List Chunk) (s : ChatToResponsesStreamState) :
    List StreamEvent :=
  (streamChunks J chunks s).2 ++
    (finalizeChatCompletionsStreamToResponses J (streamChunks J chunks s).1).2

def finalState (J : StringCodec) (s : ChatToResponsesStreamState) : ChatToResponsesStreamState :=
  { (s.doneDeltaEvents J).1 with finalized := true }

theorem Refines.finalState (h : Refines s R done) : Refines (finalState J s) R true :=
  let h' := doneDeltaEvents_refines (J := J) h
  ⟨h'.order, h'.next, h'.text, h'.textDone, h'.reasoning, h'.reasoningDone, h'.tools, h'.nodup⟩

theorem finalize_eq (hfin : s.finalized = false) :
    ∃ type, (type = .completed ∨ type = .incomplete) ∧
      (finalizeChatCompletionsStreamToResponses J s).2 = (s.doneDeltaEvents J).2 ++
        [{ type := type, response := some ((finalState J s).finalResponse J) }] := by
  unfold finalizeChatCompletionsStreamToResponses
  rw [if_neg (by rw [hfin]; simp)]
  refine ⟨if (finalState J s).status = incomplete then .incomplete else .completed, ?_, rfl⟩
  split
  · exact Or.inr rfl
  · exact Or.inl rfl

theorem fragments_header (hc : ∀ chunk ∈ chunks, chunk.choices = []) (rid : Text) :
    fragments rid chunks = [] := by
  induction chunks generalizing rid with
  | nil => rfl
  | cons chunk chunks ih =>
    rw [fragments, ih fun c hc' => hc c (List.mem_cons_of_mem chunk hc')]
    unfold chunkFragments
    rw [hc chunk List.mem_cons_self]
    rfl

theorem fragments_cons (rid : Text) (chunk : Chunk) (chunks : List Chunk) :
    fragments rid (chunk :: chunks) =
      chunkFragments (if rid = [] then chunk.id else rid) chunk ++
        fragments (if rid = [] then chunk.id else rid) chunks := rfl

theorem Ending.cons {F : List Fragment} {rid rid' : Text} {events : List StreamEvent}
    {sd sf : ChatToResponsesStreamState} (hrid : rid' = if rid = [] then chunk.id else rid)
    (hF : F = chunkFragments rid' chunk) (h : Ending J rid' chunks (R.puts F) events sd sf) :
    Ending J rid (chunk :: chunks) R (R.emits F ++ events) sd sf := by
  have hfrag : fragments rid (chunk :: chunks) = F ++ fragments rid' chunks := by
    rw [fragments_cons, ← hrid, hF]
  have hputs : R.puts (fragments rid (chunk :: chunks)) =
      (R.puts F).puts (fragments rid' chunks) := by
    rw [hfrag]
    exact Roster.puts_append _ _ _ _ _ _
  have hemits : R.emits (fragments rid (chunk :: chunks)) =
      R.emits F ++ (R.puts F).emits (fragments rid' chunks) := by
    rw [hfrag]
    exact Roster.emits_append _ _ _ _ _ _ _ _
  obtain ⟨type, htype, hevents⟩ := h.events
  obtain ⟨seen, later, hchunks, hseen, hid⟩ := h.closeID
  constructor
  · rw [hputs]
    exact h.closes
  · rw [hputs]
    exact h.final
  · exact h.status
  · rw [h.finalID, responseID, hrid]
  · refine ⟨chunk :: seen, later, by rw [hchunks, List.cons_append], ?_, ?_⟩
    · rw [hfrag, fragments_cons, ← hrid, hseen, hF]
    · rw [hid, responseID, hrid]
  · exact ⟨type, htype, by rw [hevents, hemits]; simp⟩

theorem exists_ending (h : Refines s R false) (hs : s.sentCreated = true)
    (hfin : s.finalized = false) (hc : ∀ chunk ∈ chunks, chunk.choices.length ≤ 1)
    (hp : chunks.Pairwise fun earlier later => NoFinish earlier ∨ later.choices = []) :
    ∃ sd sf, Ending J s.id chunks R (restEvents J chunks s) sd sf := by
  induction chunks generalizing s R with
  | nil =>
    obtain ⟨type, htype, hevents⟩ := finalize_eq (J := J) hfin
    exact ⟨s, finalState J s, h, h.finalState, rfl, rfl, ⟨[], [], rfl, rfl, rfl⟩, type, htype,
      hevents⟩
  | cons chunk chunks ih =>
    obtain ⟨hlater, hp'⟩ := List.pairwise_cons.mp hp
    rw [restEvents, streamChunks, List.append_assoc, ← restEvents]
    by_cases hf : NoFinish chunk
    · have happ := chunk_appends (J := J) h hs hf
      have hc' : ∀ c ∈ chunks, c.choices.length ≤ 1 :=
        fun c hmem => hc c (List.mem_cons_of_mem chunk hmem)
      obtain ⟨sd, sf, hend⟩ := ih happ.refines (happ.same.sentCreated.trans hs)
        (happ.same.finalized.trans hfin) hc' hp'
      rw [happ.same.id] at hend
      rw [happ.events]
      exact ⟨sd, sf, hend.cons rfl rfl⟩
    · -- the items are closed here, and no later chunk has a choice
      obtain ⟨sd, hsd, hid, hsent, hfinal, heq⟩ :=
        chunk_finish (J := J) h hs (hc chunk List.mem_cons_self) hf
      have hnone : ∀ c ∈ chunks, c.choices = [] :=
        fun c hmem => (hlater c hmem).resolve_left hf
      obtain ⟨href, hev, hid', hst, hfin'⟩ := streamChunks_header (J := J)
        (doneDeltaEvents_refines (J := J) hsd) hsent hnone
      obtain ⟨type, htype, hevents⟩ := finalize_eq (J := J) (hfin'.trans (hfinal.trans hfin))
      have hrest : restEvents J chunks (sd.doneDeltaEvents J).1 =
          [{ type := type, response := some
              ((finalState J (streamChunks J chunks (sd.doneDeltaEvents J).1).1).finalResponse
                J) }] := by
        unfold restEvents
        rw [hev, hevents, doneDeltaEvents_closed href]
        rfl
      have hnil := fragments_header hnone (if s.id = [] then chunk.id else s.id)
      rw [heq, hrest, List.append_assoc]
      refine ⟨sd, finalState J (streamChunks J chunks (sd.doneDeltaEvents J).1).1,
        Ending.cons rfl rfl ⟨?_, ?_, hst, ?_, ?_, type, htype, ?_⟩⟩
      · rw [hnil]
        exact hsd
      · rw [hnil]
        exact href.finalState
      · rw [← id_readHeader, ← hid]
        exact hid'
      · exact ⟨[], chunks, rfl, hnil.symm, hid⟩
      · rw [hnil]
        rfl

theorem streamChunks_created (hs : s.sentCreated = false) (chunk : Chunk) (chunks : List Chunk) :
    ∃ created : StreamEvent, created.type = .created ∧
      streamChunks J (chunk :: chunks) s =
        ((streamChunks J (chunk :: chunks) { s with sentCreated := true }).1,
          created :: (streamChunks J (chunk :: chunks) { s with sentCreated := true }).2) := by
  have hsent : (s.readHeader chunk).sendCreated =
      ({ s with sentCreated := true }.readHeader chunk,
        [{ type := .created, response := some (s.readHeader chunk).createdResponse }]) := by
    unfold sendCreated
    rw [if_neg (by rw [show (s.readHeader chunk).sentCreated = s.sentCreated from rfl, hs]; simp)]
    rfl
  have hagain : ({ s with sentCreated := true }.readHeader chunk).sendCreated =
      ({ s with sentCreated := true }.readHeader chunk, []) := sendCreated_sent rfl
  refine ⟨{ type := .created, response := some (s.readHeader chunk).createdResponse }, rfl, ?_⟩
  simp [streamChunks, chatCompletionsStreamChunkToResponsesEvents, hsent, hagain]

end Run

/-! ## Stories -/

def OutputRef.outputType : OutputRef → OutputType
  | .message => .message
  | .reasoning => .reasoning
  | .tool _ => .functionCall

def OutputRef.deltaType : OutputRef → EventType
  | .message => .outputTextDelta
  | .reasoning => .reasoningSummaryDelta
  | .tool _ => .functionArgsDelta

def OutputRef.closedType : OutputRef → EventType
  | .message => .outputTextDone
  | .reasoning => .reasoningSummaryDone
  | .tool _ => .functionArgsDone

def itemIDs (e : StreamEvent) : List Text :=
  (if e.itemID = [] then [] else [e.itemID]) ++ e.item.toList.map ResponsesOutput.id

def itemContent (J : StringCodec) (item : ResponsesOutput) : Text :=
  match item.type with
  | .functionCall => item.argumentsString J
  | _ => item.content.flatMap ResponsesOutputContent.text

structure ItemStory (J : StringCodec) (k : OutputRef) (content : Text) (item : ResponsesOutput)
    (events : List StreamEvent) : Prop where
  shape : ∃ added deltas closed done, events = added :: deltas ++ [closed, done] ∧
    added.type = .outputItemAdded ∧
    (∃ first, added.item = some first ∧ first.type = k.outputType) ∧
    (∀ e ∈ deltas, e.type = k.deltaType) ∧ closed.type = k.closedType ∧
    done.type = .outputItemDone ∧ done.item = some item ∧
    deltas.flatMap ResponsesStreamResponse.delta = content ∧
    ∀ part, closed.part = some part → part = content
  holds : itemContent J item = content
  type : item.type = k.outputType
  ids : ∀ e ∈ events, itemIDs e ≠ [] ∧ ∀ i ∈ itemIDs e, i = item.id

def isTerminal (t : EventType) : Bool :=
  decide (t = .completed) || decide (t = .done) || decide (t = .incomplete) ||
    decide (t = .failed) || decide (t = .error)

structure Told (J : StringCodec) (chunks : List Chunk) (created : StreamEvent)
    (events : List StreamEvent) (terminal : StreamEvent) (resp : OpenAIResponsesResponse)
    (keys : List OutputRef) : Prop where
  first : created.type = .created
  last : isTerminal terminal.type = true
  response : terminal.response = some resp
  between : ∀ e ∈ events, e.type ≠ .created ∧ isTerminal e.type = false
  nodup : keys.Nodup
  occurs : ∀ k, k ∈ keys ↔ Occurs k chunks
  length : resp.output.length = keys.length
  indexed : ∀ e ∈ events, ∃ n < keys.length, e.outputIndex = some (n : ℤ)
  items : ∀ n k item, keys[n]? = some k → resp.output[n]? = some item →
    ItemStory J k (inputContent k chunks) item (events.filter (sits · n))

/-- The events tell one response, from the created event to the terminal one, and each of its output
items from added to done. -/
def WellFormedStream (J : StringCodec) (chunks : List Chunk) (events : List StreamEvent) : Prop :=
  ∃ created between terminal resp keys, events = created :: between ++ [terminal] ∧
    Told J chunks created between terminal resp keys

/-! ## The fragments of one item -/

section Item

variable {J : StringCodec} {k : OutputRef} {n : ℕ} {v : Entry} {fs : List Fragment}

theorem type_touches (hk : ∀ f ∈ fs, f.key = k) :
    ∀ e ∈ Roster.touches Fragment.absorb Fragment.touch n v fs, e.type = k.deltaType := by
  induction fs generalizing v with
  | nil => simp [Roster.touches]
  | cons f fs ih =>
    intro e he
    rw [Roster.touches, List.mem_append] at he
    rcases he with he | he
    · rw [← hk f List.mem_cons_self]
      unfold Fragment.touch at he
      rcases f with ⟨r, d⟩ | ⟨r, d⟩ | ⟨r, call⟩
      · rw [List.mem_singleton.mp he]
        rfl
      · rw [List.mem_singleton.mp he]
        rfl
      · dsimp only at he
        split at he
        · rw [List.mem_singleton.mp he]
          rfl
        · cases he
    · exact ih (fun g hg => hk g (List.mem_cons_of_mem f hg)) e he

theorem delta_touches : (Roster.touches Fragment.absorb Fragment.touch n v fs).flatMap
    ResponsesStreamResponse.delta = fs.flatMap Fragment.content := by
  induction fs generalizing v with
  | nil => rfl
  | cons f fs ih =>
    have hf : (f.touch n (Fragment.absorb v f)).flatMap ResponsesStreamResponse.delta =
        f.content := by
      rcases f with ⟨r, d⟩ | ⟨r, d⟩ | ⟨r, call⟩
      · exact List.append_nil d
      · exact List.append_nil d
      · by_cases ha : call.arguments = []
        · simp [Fragment.touch, Fragment.content, ha]
        · simp [Fragment.touch, Fragment.content, ha]
    rw [Roster.touches, List.flatMap_append, ih, hf, List.flatMap_cons]

theorem content_foldl : (fs.foldl Fragment.absorb v).content =
    v.content ++ fs.flatMap Fragment.content := by
  induction fs generalizing v with
  | nil => simp
  | cons f fs ih =>
    have hf : (Fragment.absorb v f).content = v.content ++ f.content := by
      rcases f with ⟨r, d⟩ | ⟨r, d⟩ | ⟨r, call⟩ <;> rfl
    rw [List.foldl_cons, ih, hf, List.flatMap_cons, List.append_assoc]

theorem itemIDs_touch (hid : v.id ≠ []) (f : Fragment) :
    ∀ e ∈ f.touch n v, itemIDs e = [v.id] := by
  intro e he
  unfold Fragment.touch at he
  rcases f with ⟨r, d⟩ | ⟨r, d⟩ | ⟨r, call⟩
  · rw [List.mem_singleton.mp he]
    simp [itemIDs, hid]
  · rw [List.mem_singleton.mp he]
    simp [itemIDs, hid]
  · dsimp only at he
    split at he
    · rw [List.mem_singleton.mp he]
      simp [itemIDs, hid]
    · cases he

def Fragment.KeepsID (i : Text) (f : Fragment) : Prop :=
  ∀ v : Entry, v.id = i → (Fragment.absorb v f).id = i

theorem itemIDs_touches {i : Text} (hi : i ≠ []) (hkeep : ∀ f ∈ fs, f.KeepsID i) (hv : v.id = i) :
    (∀ e ∈ Roster.touches Fragment.absorb Fragment.touch n v fs, itemIDs e = [i]) ∧
      (fs.foldl Fragment.absorb v).id = i := by
  induction fs generalizing v with
  | nil => exact ⟨by simp [Roster.touches], hv⟩
  | cons f fs ih =>
    have hnext := hkeep f List.mem_cons_self v hv
    obtain ⟨hids, hlast⟩ := ih (fun g hg => hkeep g (List.mem_cons_of_mem f hg)) hnext
    refine ⟨?_, hlast⟩
    intro e he
    rw [Roster.touches, List.mem_append] at he
    rcases he with he | he
    · have hne : (Fragment.absorb v f).id ≠ [] := by
        rw [hnext]
        exact hi
      rw [itemIDs_touch hne f e he, hnext]
    · exact hids e he

end Item

end NewApi.RelayConvert
