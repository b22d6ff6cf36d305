import NewApi.RelayConvert.ResponsesAgree

/-!
# A streamed answer and its final response

The terminal event replays the whole output.
-/

namespace NewApi.RelayConvert

open NewApi.Dto ResponsesToChatStreamState

/-- A stream that announces each call, completes it and ends with a response that lists all
items in order. -/
structure Answered (J : StringCodec) (calls : List StreamedCall) (body : List Event)
    (response : OpenAIResponsesResponse) : Prop extends Streamed J calls body where
  callIDs : (calls.map StreamedCall.callID).Nodup
  callID_ne : ∀ c ∈ calls, c.callID ≠ []
  added : ∀ c ∈ calls, ∃ i, (body.filter c.names).head? = some i ∧ i.type = .outputItemAdded ∧
    isItem i = true ∧ carriesID i = true ∧ itemCallID i = c.callID ∧ itemName i = c.name
  indexed : ∀ c ∈ calls, ∀ e ∈ body.filter c.names, isItem e = true →
    e.outputIndex = some c.outputIndex
  identified : ∀ c ∈ calls, ∀ e ∈ body.filter c.names, ∀ item ∈ toolItemOf e,
    trimSpace item.id = c.itemID
  done : ∀ c ∈ calls, ∃ d, (body.filter c.names).getLast? = some d ∧ d.type = .outputItemDone ∧
    itemArgs J d = c.arguments
  text : body.flatMap textOf = outputText response.output
  output : ((response.output.filter fun out => isResponsesToolOutputType out.type).map fun out =>
      (trimSpace out.id, trimSpace out.callId, trimSpace out.name, out.argumentsString J)) =
    calls.map fun c => (c.itemID, c.callID, c.name, c.arguments)

/-- One chunk with the role, before the others, one with the finish reason, the whole text, and
every call under its own index. -/
structure Delivered (calls : List StreamedCall) (text : Text) (chunks : List ChatChunk) :
    Prop where
  role : ∃ first rest, chunks = first :: rest ∧ isRole first = true ∧
    ∀ chunk ∈ rest, isRole chunk = false
  finish : ∃ before last after, chunks = before ++ last :: after ∧ isFinish last = true ∧
    (∀ chunk ∈ before, isFinish chunk = false) ∧ ∀ chunk ∈ after, isFinish chunk = false
  content : contentOf chunks = text
  tools : ∃ indices : List ℤ, indices.Nodup ∧ indices.length = calls.length ∧
    (∀ f ∈ fragmentsOf chunks, ∃ i ∈ indices, f.index = some i) ∧
    ∀ p ∈ calls.zip indices, ofIndex (fragmentsOf chunks) p.2 ≠ [] ∧
      Tells (ofIndex (fragmentsOf chunks) p.2) p.1.callID p.1.name p.1.arguments

/-- The stream is converted without an error and the client gets all that the response says. -/
def Delivers (J : StringCodec) (calls : List StreamedCall) (body : List Event)
    (response : OpenAIResponsesResponse) (s : ResponsesToChatStreamState) : Prop :=
  ∃ s' chunks, streamEvents J (body ++ [{ type := .completed, response := some response }]) s =
    .ok (s', chunks) ∧ Delivered calls (outputText response.output) chunks

section Plain

variable {J : StringCodec} {e : Event} {s : ResponsesToChatStreamState}

theorem plainEvents_speak {body : List Event} (ht : ∀ e ∈ body, isToolEvent e = false)
    (hrun : ∀ e ∈ body, ends e = false) (last : List Event) : ∃ s' chunks,
    Speaks s s' chunks (body.flatMap textOf) ∧
    ∀ s'' later, streamEvents J last s' = .ok (s'', later) →
      streamEvents J (body ++ last) s = .ok (s'', chunks ++ later) := by
  induction body generalizing s with
  | nil => exact ⟨s, [], .refl s, fun _ _ hlast => hlast⟩
  | cons e rest ih =>
    obtain ⟨s₁, first, hok, hfirst⟩ := plainEvent_speaks (J := J) (s := s)
      (ht e List.mem_cons_self) (hrun e List.mem_cons_self)
    obtain ⟨s₂, later, hrest, hlast⟩ := ih (s := s₁)
      (fun e he => ht e (List.mem_cons_of_mem _ he)) (fun e he => hrun e (List.mem_cons_of_mem _ he))
    refine ⟨s₂, first ++ later, hfirst.trans hrest, ?_⟩
    intro s'' tail htail
    rw [List.append_assoc]
    exact streamEvents_cons hok (hlast s'' tail htail)

theorem terminalItem_speaks {out : ResponsesOutput}
    (htool : isResponsesToolOutputType out.type = false)
    (hsaid : s.hasSentText = true ∨ outputText [out] = []) :
    Speaks s (s.terminalItem J out).1 (s.terminalItem J out).2 [] := by
  unfold terminalItem
  by_cases hm : out.type = .message ∧ s.hasSentText = false
  · rw [if_pos hm]
    have hempty : (out.content.flatMap fun c => if c.type = .outputText then c.text else []) =
        [] := by
      rcases hsaid with hyes | hnone
      · rw [hm.2] at hyes
        cases hyes
      · unfold outputText at hnone
        rw [List.flatMap_singleton, if_pos hm.1] at hnone
        exact hnone
    rw [hempty]
    exact textDelta_speaks s []
  · rw [if_neg hm]
    by_cases hr : out.type = .reasoning ∧ s.hasSentReasoning = false
    · rw [if_pos hr]
      exact reasoningDelta_speaks s _
    · rw [if_neg hr, if_neg (ne_true_of_eq_false htool)]
      exact .refl s

theorem terminalItems_speak {output : List ResponsesOutput}
    (htool : ∀ out ∈ output, isResponsesToolOutputType out.type = false)
    (hsaid : s.hasSentText = true ∨ outputText output = []) :
    Speaks s (terminalItems J output s).1 (terminalItems J output s).2 [] := by
  induction output generalizing s with
  | nil => exact .refl s
  | cons out rest ih =>
    have hsplit : outputText (out :: rest) = outputText [out] ++ outputText rest := by
      unfold outputText
      rw [List.flatMap_cons, List.flatMap_singleton]
    have hfirst : Speaks s (s.terminalItem J out).1 (s.terminalItem J out).2 [] := by
      refine terminalItem_speaks (htool out List.mem_cons_self) ?_
      rcases hsaid with hyes | hnone
      · exact .inl hyes
      · rw [hsplit] at hnone
        exact .inr (List.append_eq_nil_iff.mp hnone).1
    have hrest := ih (s := (s.terminalItem J out).1)
      (fun o ho => htool o (List.mem_cons_of_mem _ ho)) (by
        rcases hsaid with hyes | hnone
        · left
          rw [hfirst.spoke, hyes]
          rfl
        · exact .inr (List.append_eq_nil_iff.mp hnone).2)
    exact hfirst.trans hrest

theorem finalize_quiet (response : Option OpenAIResponsesResponse) {model : Text}
    {includeUsage : Bool} {now : ℤ}
    (hm : s.maps = (newResponsesToChatStreamState model includeUsage now).maps)
    (hf : s.finalized = false) : ∃ reason usage, (s.finalize response).2 =
      { s with finalized := true }.ensureStart.2 ++
        [{ s with finalized := true }.ensureStart.1.makeChunk {} (some reason)] ++ usage ∧
      ∀ chunk ∈ usage, chunk.choices = [] := by
  have ht : s.toolByKey = ∅ := congrArg ToolMaps.toolByKey hm
  have ho : s.pendingArgsByOutputIndex = ∅ := congrArg ToolMaps.pendingArgsByOutputIndex hm
  have hi : s.pendingArgsByItemID = ∅ := congrArg ToolMaps.pendingArgsByItemID hm
  have hflush : { s with finalized := true }.flushAllPendingTools =
      ({ s with finalized := true }, []) := by
    rw [ht, ho, hi]
    rfl
  unfold finalize
  rw [if_neg (ne_true_of_eq_false hf), hflush]
  refine ⟨_, _, rfl, ?_⟩
  intro chunk hc
  split at hc
  · rw [List.mem_singleton.mp hc]
  · cases hc

end Plain

theorem silent_of_no_choices {usage : List ChatChunk} (h : ∀ chunk ∈ usage, chunk.choices = []) :
    fragmentsOf usage = [] ∧ contentOf usage = [] ∧
      ∀ chunk ∈ usage, isRole chunk = false ∧ isFinish chunk = false := by
  refine ⟨?_, ?_, ?_⟩
  · refine List.flatMap_eq_nil_iff.mpr ?_
    intro chunk hc
    rw [h chunk hc]
    rfl
  · refine List.flatMap_eq_nil_iff.mpr ?_
    intro chunk hc
    rw [h chunk hc]
    rfl
  · intro chunk hc
    unfold isRole isFinish
    rw [h chunk hc]
    exact ⟨rfl, rfl⟩

theorem delivered_of_opens {said usage : List ChatChunk} {finish : ChatChunk} {text : Text}
    (hopens : Opens false true said) (hfragments : fragmentsOf said = [])
    (hcontent : contentOf said = text) (hfinish : isFinish finish = true)
    (hrole : isRole finish = false) (hnone : fragmentsOf [finish] = [])
    (hempty : contentOf [finish] = []) (husage : ∀ chunk ∈ usage, chunk.choices = []) :
    Delivered [] text (said ++ finish :: usage) := by
  obtain ⟨hfrag, htext, hquiet⟩ := silent_of_no_choices husage
  have hsplit : said ++ finish :: usage = said ++ ([finish] ++ usage) := rfl
  have hall : fragmentsOf (said ++ finish :: usage) = [] := by
    rw [hsplit, fragmentsOf_append, fragmentsOf_append, hfragments, hnone, hfrag]
    rfl
  refine ⟨?_, ?_, ?_, ?_⟩
  · rcases hopens.fresh rfl with ⟨-, hno⟩ | ⟨-, first, rest, hsaid, hfirst, hrest⟩
    · cases hno
    refine ⟨first, rest ++ finish :: usage, by rw [hsaid]; rfl, hfirst, ?_⟩
    intro chunk hc
    rcases List.mem_append.mp hc with hc | hc
    · exact hrest chunk hc
    · rcases List.mem_cons.mp hc with rfl | hc
      · exact hrole
      · exact (hquiet chunk hc).1
  · exact ⟨said, finish, usage, rfl, hfinish, hopens.unfinished,
      fun chunk hc => (hquiet chunk hc).2⟩
  · rw [hsplit, contentOf_append, contentOf_append, hcontent, hempty, htext, List.append_nil,
      List.append_nil]
  · refine ⟨[], List.nodup_nil, rfl, ?_, ?_⟩
    · rw [hall]
      intro f hf
      cases hf
    · intro p hp
      cases hp

theorem delivers_without_calls {J : StringCodec} {body : List Event}
    {response : OpenAIResponsesResponse} (h : Answered J [] body response) (model : Text)
    (includeUsage : Bool) (now : ℤ) :
    Delivers J [] body response (newResponsesToChatStreamState model includeUsage now) := by
  have hplain : ∀ e ∈ body, isToolEvent e = false := by
    intro e he
    by_contra hyes
    obtain ⟨c, hc, -⟩ := h.owned e he (Bool.not_eq_false _ |>.mp hyes)
    cases hc
  have hnotool : ∀ out ∈ response.output, isResponsesToolOutputType out.type = false := by
    intro out ho
    by_contra hyes
    have hnil := List.map_eq_nil_iff.mp h.output
    have hmem : out ∈ response.output.filter fun out => isResponsesToolOutputType out.type :=
      List.mem_filter.mpr ⟨ho, Bool.not_eq_false _ |>.mp hyes⟩
    rw [hnil] at hmem
    cases hmem
  obtain ⟨s₁, said, hsaid, hlast⟩ := plainEvents_speak (J := J)
    (s := newResponsesToChatStreamState model includeUsage now) hplain h.running
    [{ type := .completed, response := some response }]
  have hmeta := hsaid.trans (applyResponseMetadata_speaks _ (some response))
  generalize hs₂ : s₁.applyResponseMetadata (some response) = s₂ at hmeta
  rw [List.append_nil, List.append_nil] at hmeta
  have hitems : Speaks s₂ (terminalItems J response.output s₂).1
      (terminalItems J response.output s₂).2 [] := by
    refine terminalItems_speak hnotool ?_
    rw [hmeta.spoke, ← h.text]
    by_cases hne : body.flatMap textOf = []
    · exact .inr hne
    · rw [decide_eq_true hne]
      exact .inl (Bool.or_true _)
  have hwhole := hmeta.trans hitems
  obtain ⟨reason, usage, hfinal, husage⟩ :=
    finalize_quiet (some response) hwhole.maps hwhole.finalized
  generalize hs₃ : (terminalItems J response.output s₂).1 = s₃ at hwhole hfinal
  generalize hx : (terminalItems J response.output s₂).2 = items at hwhole
  have hend : responsesStreamEventToChatChunks J
      { type := .completed, response := some response } s₁ =
      .ok ((s₃.finalize (some response)).1, items ++ (s₃.finalize (some response)).2) := by
    show Except.ok (terminalChunks J (some response) s₁) = _
    unfold terminalChunks
    rw [hs₂]
    show Except.ok (((terminalItems J response.output s₂).1.finalize (some response)).1,
      (terminalItems J response.output s₂).2 ++
        ((terminalItems J response.output s₂).1.finalize (some response)).2) = _
    rw [hx, hs₃]
  refine ⟨_, _, hlast _ _ (streamEvents_cons hend rfl), ?_⟩
  have hchunks : said ++ (items ++ (s₃.finalize (some response)).2 ++ []) =
      (said ++ items ++ { s₃ with finalized := true }.ensureStart.2) ++
        { s₃ with finalized := true }.ensureStart.1.makeChunk {} (some reason) :: usage := by
    rw [hfinal]
    simp
  rw [hchunks, ← h.text]
  refine delivered_of_opens ?_ ?_ ?_ rfl rfl rfl rfl husage
  · have hopens := (ensureStart_speaks { s₃ with finalized := true }).opens
    rw [sentStart_ensureStart] at hopens
    exact hwhole.opens.trans hopens
  · rw [fragmentsOf_append, hwhole.fragments, (ensureStart_speaks _).fragments]
    rfl
  · rw [contentOf_append, hwhole.content, (ensureStart_speaks _).content, List.append_nil,
      List.append_nil]

section Replay

variable {J : StringCodec} {s : ResponsesToChatStreamState} {out : ResponsesOutput}

def replay (out : ResponsesOutput) : Event := { type := .other [], item := some out }

theorem toolItem_replay (hid : trimSpace out.id ≠ []) (hcall : trimSpace out.callId ≠ [])
    (hnew : s.toolByKey.lookup (.item (trimSpace out.id)) = none) :
    ∃ f ∈ fragmentsOf (s.toolItem J (replay out) out).2,
      f.index = some s.nextToolIndex ∧ f.id = trimSpace out.callId := by
  have hkey : (keyForEvent (replay out)).or
      (fallbackToolKey out.id out.callId (replay out).outputIndex) =
      some (.item (trimSpace out.id)) := by
    show (if trimSpace out.id ≠ [] then _ else _ : Option ToolKey).or _ = _
    rw [if_pos hid]
    rfl
  have htool : ∃ tool, (s.ensureToolForEvent (replay out) out).2 = some tool ∧
      tool.index = s.nextToolIndex ∧ tool.callID = trimSpace out.callId ∧ tool.sent = false := by
    unfold ensureToolForEvent
    rw [hkey]
    dsimp only
    rw [toolOrNew_none hnew, drainItemID_tool]
    exact ⟨_, rfl, rfl, if_pos hcall, rfl⟩
  obtain ⟨tool, hsome, hindex, hcallID, hsent⟩ := htool
  rw [toolItem_eq hsome]
  unfold toolDelta
  rw [if_neg (fun hyes => by rw [show tool.sent = true from hyes.1] at hsent; cases hsent)]
  rw [fragmentsOf_append, (ensureStart_speaks _).fragments]
  refine ⟨_, List.mem_singleton_self _, congrArg some hindex, ?_⟩
  rw [hcallID, trimSpace_trimSpace, if_neg hcall]

theorem terminalItems_replay {output : List ResponsesOutput}
    (hfirst : (output.filter fun out => isResponsesToolOutputType out.type).head? = some out)
    (hid : trimSpace out.id ≠ []) (hcall : trimSpace out.callId ≠ [])
    (hnew : s.maps.toolByKey.lookup (.item (trimSpace out.id)) = none) :
    ∃ f ∈ fragmentsOf (terminalItems J output s).2,
      f.index = some s.maps.nextToolIndex ∧ f.id = trimSpace out.callId := by
  induction output generalizing s with
  | nil => cases hfirst
  | cons head rest ih =>
    show ∃ f ∈ fragmentsOf ((s.terminalItem J head).2 ++
      (terminalItems J rest (s.terminalItem J head).1).2), _
    rw [fragmentsOf_append]
    rcases htool : isResponsesToolOutputType head.type with _ | _
    · -- an item that is no tool leaves the maps alone
      rw [List.filter_cons_of_neg (by rw [htool]; exact Bool.false_ne_true)] at hfirst
      have hsame : (s.terminalItem J head).1.maps = s.maps := by
        unfold terminalItem
        split
        · exact (textDelta_speaks s _).maps
        · split
          · exact (reasoningDelta_speaks s _).maps
          · rw [if_neg (ne_true_of_eq_false htool)]
      obtain ⟨f, hf, hindex, hfid⟩ := ih hfirst (by rw [hsame]; exact hnew)
      rw [hsame] at hindex
      exact ⟨f, List.mem_append_right _ hf, hindex, hfid⟩
    · rw [List.filter_cons_of_pos (by rw [htool])] at hfirst
      cases hfirst
      obtain ⟨f, hf, hindex, hfid⟩ := toolItem_replay (J := J) hid hcall hnew
      refine ⟨f, List.mem_append_left _ ?_, hindex, hfid⟩
      have hno : ¬ (out.type = .message ∧ s.hasSentText = false) := by
        rintro ⟨htype, -⟩
        rw [htype] at htool
        cases htool
      have hno' : ¬ (out.type = .reasoning ∧ s.hasSentReasoning = false) := by
        rintro ⟨htype, -⟩
        rw [htype] at htool
        cases htool
      unfold terminalItem
      rw [if_neg hno, if_neg hno', if_pos htool]
      exact hf

end Replay

section Main

variable {J : StringCodec} {calls : List StreamedCall} {body : List Event}
  {response : OpenAIResponsesResponse}

theorem Answered.regular (h : Answered J calls body response) :
    ∀ c ∈ calls, Regular J c (body.filter c.names) := by
  intro c hc
  obtain ⟨i, hhead, -, hi, -, hcall, -⟩ := h.added c hc
  obtain ⟨item, hitem⟩ := Option.isSome_iff_exists.mp hi
  refine regular_of_announced hhead hi ?_ hcall ?_
  · have hown := h.identified c hc i (List.mem_of_mem_head? hhead) item hitem
    rw [← itemOwnID_of_item hitem] at hown
    unfold identifies
    rw [hown]
    exact decide_eq_true (h.proper c hc).itemID
  · intro e he hitem
    rw [h.indexed c hc e he hitem]
    exact Option.some_ne_none _

theorem Answered.first_output (h : Answered J calls body response) {c : StreamedCall}
    (hfirst : calls.head? = some c) : ∃ out,
    (response.output.filter fun out => isResponsesToolOutputType out.type).head? = some out ∧
      trimSpace out.id = c.itemID ∧ trimSpace out.callId = c.callID := by
  have hheads := congrArg List.head? h.output
  rw [List.head?_map, List.head?_map, hfirst] at hheads
  obtain ⟨out, hout, heq⟩ := Option.map_eq_some_iff.mp hheads
  injection heq with hid hrest
  injection hrest with hcall _
  exact ⟨out, hout, hid, hcall⟩

theorem owner_of_fragment {chunks : List ChatChunk} {c : StreamedCall}
    {indices : List ℤ} (hcalls : (calls.map StreamedCall.callID).Nodup)
    (hlen : indices.length = calls.length)
    (hcover : ∀ f ∈ fragmentsOf chunks, ∃ i ∈ indices, f.index = some i)
    (htold : ∀ p ∈ calls.zip indices, ofIndex (fragmentsOf chunks) p.2 ≠ [] ∧
      Tells (ofIndex (fragmentsOf chunks) p.2) p.1.callID p.1.name p.1.arguments)
    (hc : c ∈ calls) {f : ToolCallResponse} (hf : f ∈ fragmentsOf chunks) (hid : f.id = c.callID)
    {i : ℤ} (hi : f.index = some i) : ∃ k : ℕ, calls[k]? = some c ∧ indices[k]? = some i := by
  obtain ⟨j, hj, hfj⟩ := hcover f hf
  have hij : j = i := Option.some.inj (hfj.symm.trans hi)
  obtain ⟨k, hk⟩ := List.mem_iff_getElem?.mp hj
  have hlt : k < calls.length := by
    rw [← hlen]
    exact (List.getElem?_eq_some_iff.mp hk).1
  have hpair : (calls[k], j) ∈ calls.zip indices := by
    refine List.mem_iff_getElem?.mpr ⟨k, ?_⟩
    rw [List.getElem?_zip_eq_some]
    exact ⟨List.getElem?_eq_getElem hlt, hk⟩
  have hown : f ∈ ofIndex (fragmentsOf chunks) j :=
    List.mem_filter.mpr ⟨hf, decide_eq_true hfj⟩
  have hsame : calls[k] = c :=
    List.inj_on_of_nodup_map hcalls (List.getElem_mem hlt) hc
      (((htold _ hpair).2.ids f hown).symm.trans hid)
  exact ⟨k, by rw [← hsame]; exact List.getElem?_eq_getElem hlt, by rw [← hij]; exact hk⟩

theorem not_delivers_of_call (h : Answered J calls body response) {c : StreamedCall}
    (hfirst : calls.head? = some c) (model : Text) (includeUsage : Bool) (now : ℤ) :
    ¬ Delivers J calls body response (newResponsesToChatStreamState model includeUsage now) := by
  rintro ⟨s', chunks, hok, hd⟩
  have hc : c ∈ calls := List.mem_of_head? hfirst
  have hnew : Chatting J calls [] (newResponsesToChatStreamState model includeUsage now) [] :=
    chatting_new model includeUsage now
  obtain ⟨s, said, hchat, -, hrun⟩ := hnew.run h.toStreamed h.regular
    [{ type := .completed, response := some response }] (List.nil_append body).symm
  -- the fragments of the stream itself
  obtain ⟨tool, hlook, hshows⟩ := (hchat.each c hc).known (h.known hc)
  obtain ⟨f, hf⟩ := List.exists_mem_of_ne_nil _ hshows.spoke
  obtain ⟨hfmem, hfindex⟩ := List.mem_filter.mp hf
  have hfid : f.id = c.callID := (hshows.told.ids f hf).trans (if_neg (h.callID_ne c hc))
  -- and the replayed one
  obtain ⟨out, hout, hid, hcall⟩ := h.first_output hfirst
  generalize hs₂ : s.applyResponseMetadata (some response) = s₂
  have hmaps : s₂.maps = s.maps := by
    rw [← hs₂]
    exact (applyResponseMetadata_speaks s (some response)).maps
  have hfree : s₂.maps.toolByKey.lookup (.item (trimSpace out.id)) = none := by
    rw [hmaps]
    rcases hfound : s.maps.toolByKey.lookup (.item (trimSpace out.id)) with _ | other
    · exact hfound
    · obtain ⟨d, -, hkey⟩ := hchat.filed.keys _ other hfound
      cases hkey
  obtain ⟨g, hg, hgindex, hgid⟩ := terminalItems_replay (J := J) hout
    (by rw [hid]; exact (h.proper c hc).itemID) (by rw [hcall]; exact h.callID_ne c hc) hfree
  rw [hmaps] at hgindex
  rw [hcall] at hgid
  have hend : responsesStreamEventToChatChunks J
      { type := .completed, response := some response } s =
      .ok (((terminalItems J response.output s₂).1.finalize (some response)).1,
        (terminalItems J response.output s₂).2 ++
          ((terminalItems J response.output s₂).1.finalize (some response)).2) := by
    show Except.ok (terminalChunks J (some response) s) = _
    unfold terminalChunks
    rw [hs₂]
    rfl
  have hwhole := hrun _ _ (streamEvents_cons hend rfl)
  rw [hok] at hwhole
  injection hwhole with hpair
  injection hpair with _ hchunks
  have hfall : f ∈ fragmentsOf chunks := by
    rw [hchunks, fragmentsOf_append]
    exact List.mem_append_left _ hfmem
  have hgall : g ∈ fragmentsOf chunks := by
    rw [hchunks, fragmentsOf_append, List.append_nil, fragmentsOf_append]
    exact List.mem_append_right _ (List.mem_append_left _ hg)
  obtain ⟨indices, -, hlen, hcover, htold⟩ := hd.tools
  obtain ⟨k, hck, hik⟩ := owner_of_fragment h.callIDs hlen hcover htold hc hfall hfid
    (of_decide_eq_true hfindex)
  obtain ⟨k', hck', hik'⟩ := owner_of_fragment h.callIDs hlen hcover htold hc hgall hgid hgindex
  have hsame : k = k' := by
    have hnodup : calls.Nodup := h.callIDs.of_map
    have hlt := (List.getElem?_eq_some_iff.mp hck).1
    exact (List.getElem?_inj hlt hnodup).mp (hck.trans hck'.symm)
  rw [hsame, hik'] at hik
  have hbelow := hchat.filed.below _ tool hlook
  have heq := Option.some.inj hik
  omega

theorem answer_delivered_iff (J : StringCodec) (calls : List StreamedCall) (body : List Event)
    (response : OpenAIResponsesResponse) (h : Answered J calls body response) (model : Text)
    (includeUsage : Bool) (now : ℤ) :
    Delivers J calls body response (newResponsesToChatStreamState model includeUsage now) ↔
      calls = [] := by
  constructor
  · intro hd
    rcases hcalls : calls with _ | ⟨c, rest⟩
    · rfl
    · have hfirst : calls.head? = some c := by
        rw [hcalls]
        rfl
      exact absurd hd (not_delivers_of_call h hfirst model includeUsage now)
  · intro hnone
    subst hnone
    exact delivers_without_calls h model includeUsage now

end Main

def greeting : List Event :=
  [{ type := .created, response := some { id := "resp_1".toList } },
   { type := .outputTextDelta, delta := "Hel".toList },
   { type := .outputTextDelta, delta := "lo".toList },
   { type := .outputTextDone }]

def greetingResponse : OpenAIResponsesResponse where
  id := "resp_1".toList
  output := [{ type := .message
               content := [{ type := .outputText, text := "Hello".toList }] }]

theorem answered_greeting : Answered quotedStrings [] greeting greetingResponse where
  indices := List.nodup_nil
  ids := List.nodup_nil
  proper := fun c hc => by cases hc
  running := by decide
  owned := by decide
  introduced := fun c hc => by cases hc
  complete := fun c hc => by cases hc
  callIDs := List.nodup_nil
  callID_ne := fun c hc => by cases hc
  added := fun c hc => by cases hc
  indexed := fun c hc => by cases hc
  identified := fun c hc => by cases hc
  done := fun c hc => by cases hc
  text := by decide
  output := rfl

theorem answer_delivered_greeting :
    Delivers quotedStrings [] greeting greetingResponse
      (newResponsesToChatStreamState "m".toList true 7) :=
  (answer_delivered_iff quotedStrings [] greeting greetingResponse answered_greeting "m".toList
    true 7).mpr rfl

def oneCall : List Event :=
  [{ type := .outputItemAdded, outputIndex := some 0
     item := some (calledItem firstCall "fc_1".toList []) },
   { type := .functionArgsDelta, outputIndex := some 0, delta := "[1]".toList },
   { type := .outputItemDone, outputIndex := some 0
     item := some (calledItem firstCall "fc_1".toList (quotedStrings.marshal "[1]".toList)) }]

def oneCallResponse : OpenAIResponsesResponse where
  output := [calledItem firstCall "fc_1".toList (quotedStrings.marshal "[1]".toList)]

theorem answered_oneCall : Answered quotedStrings [firstCall] oneCall oneCallResponse := by
  have hone : ∀ {P : StreamedCall → Prop}, P firstCall → ∀ c ∈ [firstCall], P c := by
    intro P hP c hc
    rw [List.mem_singleton.mp hc]
    exact hP
  refine ⟨⟨by decide, by decide, hone ?_, by decide, by decide +kernel, by decide +kernel,
    hone ?_⟩, by decide, by decide, hone ?_, by decide +kernel, by decide +kernel, hone ?_,
    by decide +kernel, by decide +kernel⟩
  · exact ⟨by decide, by decide +kernel, by decide +kernel⟩
  · exact complete_of_last (by decide +kernel) (by decide +kernel)
  · exact ⟨oneCall.getD 0 completedEmpty, by decide +kernel, by decide, by decide,
      by decide +kernel, by decide +kernel, by decide +kernel⟩
  · exact ⟨oneCall.getD 2 completedEmpty, by decide +kernel, by decide, by decide +kernel⟩

/-- The call comes under index 0 and again, as a whole, under index 1. -/
theorem call_replayed_under_second_index :
    Answered quotedStrings [firstCall] oneCall oneCallResponse ∧
    ((streamEvents quotedStrings
        (oneCall ++ [{ type := .completed, response := some oneCallResponse }])
        (newResponsesToChatStreamState "m".toList false 7)).map fun r => fragmentsOf r.2) =
      .ok [{ index := some 0, id := "call_1".toList, name := "f".toList },
           { index := some 0, id := "call_1".toList, arguments := "[1]".toList },
           { index := some 1, id := "call_1".toList, name := "f".toList
             arguments := "[1]".toList }] ∧
    ¬ Delivers quotedStrings [firstCall] oneCall oneCallResponse
      (newResponsesToChatStreamState "m".toList false 7) :=
  ⟨answered_oneCall, by decide +kernel, not_delivers_of_call answered_oneCall rfl "m".toList false 7⟩

end NewApi.RelayConvert
