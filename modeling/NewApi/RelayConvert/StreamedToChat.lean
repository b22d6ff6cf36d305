import Mathlib.Data.List.Dedup
import NewApi.RelayConvert.StreamedCalls

/-!
# The chunks follow the calls

Every event of a call moves only what the state files under its output index and its item id.
-/

namespace NewApi.RelayConvert

open NewApi.Dto ResponsesToChatStreamState

def fragmentsOf (chunks : List ChatChunk) : List ToolCallResponse :=
  chunks.flatMap fun chunk => chunk.choices.flatMap fun choice => choice.delta.toolCalls

def contentOf (chunks : List ChatChunk) : Text :=
  chunks.flatMap fun chunk => chunk.choices.flatMap fun choice => choice.delta.getContentString

theorem fragmentsOf_append (a b : List ChatChunk) :
    fragmentsOf (a ++ b) = fragmentsOf a ++ fragmentsOf b := List.flatMap_append

theorem contentOf_append (a b : List ChatChunk) :
    contentOf (a ++ b) = contentOf a ++ contentOf b := List.flatMap_append

structure ToolMaps where
  toolByKey : AList fun _ : ToolKey => ResponsesStreamTool
  outputIndexToKey : AList fun _ : ℤ => ToolKey
  itemIDToKey : AList fun _ : Text => ToolKey
  pendingArgsByOutputIndex : AList fun _ : ℤ => Text
  pendingArgsByItemID : AList fun _ : Text => Text
  nextToolIndex : ℤ

def ResponsesToChatStreamState.maps (s : ResponsesToChatStreamState) : ToolMaps where
  toolByKey := s.toolByKey
  outputIndexToKey := s.outputIndexToKey
  itemIDToKey := s.itemIDToKey
  pendingArgsByOutputIndex := s.pendingArgsByOutputIndex
  pendingArgsByItemID := s.pendingArgsByItemID
  nextToolIndex := s.nextToolIndex

def isRole (chunk : ChatChunk) : Bool :=
  chunk.choices.any fun choice => decide (choice.delta.role ≠ [])

def isFinish (chunk : ChatChunk) : Bool :=
  chunk.choices.any fun choice => choice.finishReason.isSome

/-! ## Opening the stream -/

/-- Chunks sent by a stream that was open before (`b`) or not, and then is (`b'`) or not: at most
one has the role, and that one comes first. -/
structure Opens (b b' : Bool) (chunks : List ChatChunk) : Prop where
  unfinished : ∀ chunk ∈ chunks, isFinish chunk = false
  opened : b = true → b' = true ∧ ∀ chunk ∈ chunks, isRole chunk = false
  fresh : b = false → (chunks = [] ∧ b' = false) ∨
    (b' = true ∧ ∃ first rest, chunks = first :: rest ∧ isRole first = true ∧
      ∀ chunk ∈ rest, isRole chunk = false)

theorem Opens.refl (b : Bool) : Opens b b [] :=
  ⟨(fun _ h => by cases h), (fun h => ⟨h, fun _ hc => by cases hc⟩), fun h => .inl ⟨rfl, h⟩⟩

theorem Opens.trans {a b c : Bool} {xs ys : List ChatChunk} (h : Opens a b xs)
    (h' : Opens b c ys) : Opens a c (xs ++ ys) := by
  refine ⟨?_, ?_, ?_⟩
  · intro chunk hc
    rcases List.mem_append.mp hc with hc | hc
    · exact h.unfinished chunk hc
    · exact h'.unfinished chunk hc
  · intro ha
    obtain ⟨hb, hxs⟩ := h.opened ha
    obtain ⟨hc, hys⟩ := h'.opened hb
    refine ⟨hc, ?_⟩
    intro chunk hmem
    rcases List.mem_append.mp hmem with hmem | hmem
    · exact hxs chunk hmem
    · exact hys chunk hmem
  · intro ha
    rcases h.fresh ha with ⟨hnil, hb⟩ | ⟨hb, first, rest, hxs, hfirst, hrest⟩
    · rw [hnil]
      exact h'.fresh hb
    · obtain ⟨hc, hys⟩ := h'.opened hb
      refine .inr ⟨hc, first, rest ++ ys, by rw [hxs]; rfl, hfirst, ?_⟩
      intro chunk hmem
      rcases List.mem_append.mp hmem with hmem | hmem
      · exact hrest chunk hmem
      · exact hys chunk hmem

theorem Opens.single {chunk : ChatChunk} (hrole : isRole chunk = false)
    (hfinish : isFinish chunk = false) : Opens true true [chunk] := by
  refine ⟨?_, fun h => ⟨h, ?_⟩, fun h => by cases h⟩
  · intro c hc
    rw [List.mem_singleton.mp hc, hfinish]
  · intro c hc
    rw [List.mem_singleton.mp hc, hrole]

structure Speaks (s s' : ResponsesToChatStreamState) (chunks : List ChatChunk) (text : Text) :
    Prop where
  maps : s'.maps = s.maps
  fragments : fragmentsOf chunks = []
  content : contentOf chunks = text
  opens : Opens s.sentStart s'.sentStart chunks
  finalized : s'.finalized = s.finalized
  spoke : s'.hasSentText = (s.hasSentText || decide (text ≠ []))

theorem Speaks.refl (s : ResponsesToChatStreamState) : Speaks s s [] [] :=
  ⟨rfl, rfl, rfl, .refl _, rfl, (Bool.or_false _).symm⟩

theorem Speaks.trans {s₁ s₂ s₃ : ResponsesToChatStreamState} {xs ys : List ChatChunk}
    {a b : Text} (h : Speaks s₁ s₂ xs a) (h' : Speaks s₂ s₃ ys b) :
    Speaks s₁ s₃ (xs ++ ys) (a ++ b) := by
  refine ⟨h'.maps.trans h.maps, ?_, ?_, h.opens.trans h'.opens, h'.finalized.trans h.finalized, ?_⟩
  · rw [fragmentsOf_append, h.fragments, h'.fragments]
    rfl
  · rw [contentOf_append, h.content, h'.content]
  · rw [h'.spoke, h.spoke]
    by_cases ha : a = []
    · simp [ha]
    · simp [ha]

section Plain

variable (s : ResponsesToChatStreamState)

theorem applyResponseMetadata_speaks (response : Option OpenAIResponsesResponse) :
    Speaks s (s.applyResponseMetadata response) [] [] := by
  cases response with
  | none => exact .refl s
  | some r => exact ⟨rfl, rfl, rfl, .refl _, rfl, (Bool.or_false _).symm⟩

theorem sentStart_ensureStart : s.ensureStart.1.sentStart = true := by
  unfold ensureStart
  by_cases h : s.sentStart = true
  · rw [if_pos h]
    exact h
  · rw [if_neg h]

theorem ensureStart_speaks : Speaks s s.ensureStart.1 s.ensureStart.2 [] := by
  unfold ensureStart
  by_cases h : s.sentStart = true
  · rw [if_pos h]
    exact .refl s
  · rw [if_neg h]
    refine ⟨rfl, rfl, rfl, ⟨?_, fun hb => absurd hb h, fun _ => .inr ⟨rfl, _, [], rfl, rfl, ?_⟩⟩,
      rfl, (Bool.or_false _).symm⟩
    · intro chunk hc
      rw [List.mem_singleton.mp hc]
      rfl
    · intro chunk hc
      cases hc

theorem chunk_speaks {s s₁ s' t : ResponsesToChatStreamState} {delta : ChoiceDelta}
    (hmaps : s₁.maps = s.maps) (hstart : s₁.sentStart = s.sentStart)
    (hfinal : s₁.finalized = s.finalized) (hmaps' : s'.maps = s₁.ensureStart.1.maps)
    (hstart' : s'.sentStart = s₁.ensureStart.1.sentStart)
    (hfinal' : s'.finalized = s₁.ensureStart.1.finalized)
    (hrole : delta.role = []) (htools : delta.toolCalls = [])
    (hspoke : s'.hasSentText = (s.hasSentText || decide (delta.getContentString ≠ []))) :
    Speaks s s' (s₁.ensureStart.2 ++ [t.makeChunk delta none]) delta.getContentString := by
  have hopen := ensureStart_speaks s₁
  refine ⟨hmaps'.trans (hopen.maps.trans hmaps), ?_, ?_, ?_,
    hfinal'.trans (hopen.finalized.trans hfinal), hspoke⟩
  · rw [fragmentsOf_append, hopen.fragments]
    simp [fragmentsOf, makeChunk, htools]
  · rw [contentOf_append, hopen.content]
    simp [contentOf, makeChunk]
  · rw [← hstart, hstart']
    refine hopen.opens.trans ?_
    rw [sentStart_ensureStart]
    exact .single (by simp [isRole, makeChunk, hrole]) rfl

theorem textDelta_speaks (delta : Text) :
    Speaks s (s.textDelta delta).1 (s.textDelta delta).2 delta := by
  unfold textDelta
  by_cases h : delta = []
  · rw [h]
    exact .refl s
  · rw [if_neg h]
    refine chunk_speaks rfl rfl rfl rfl rfl rfl rfl rfl ?_
    show _ = (s.hasSentText || decide (delta ≠ []))
    rw [decide_eq_true h, Bool.or_true]
    exact (ensureStart_speaks _).spoke

theorem reasoningDelta_speaks (delta : Text) :
    Speaks s (s.reasoningDelta delta).1 (s.reasoningDelta delta).2 [] := by
  unfold reasoningDelta
  by_cases h : delta = []
  · rw [if_pos h]
    exact .refl s
  · rw [if_neg h]
    exact chunk_speaks rfl rfl rfl rfl rfl rfl rfl rfl (ensureStart_speaks _).spoke

end Plain

section PlainEvent

variable {J : StringCodec} {e : Event} {s : ResponsesToChatStreamState}

theorem plainEvent_speaks (ht : isToolEvent e = false) (hrun : ends e = false) : ∃ s' chunks,
    responsesStreamEventToChatChunks J e s = .ok (s', chunks) ∧ Speaks s s' chunks (textOf e) := by
  unfold isToolEvent at ht
  rw [Bool.or_eq_false_iff, Bool.or_eq_false_iff] at ht
  obtain ⟨⟨hi, hd⟩, hdone⟩ := ht
  unfold isArgsDelta at hd
  unfold isArgsDone at hdone
  unfold ends at hrun
  unfold textOf responsesStreamEventToChatChunks
  cases htype : e.type with
  | created =>
    exact ⟨_, _, rfl, (applyResponseMetadata_speaks s e.response).trans (ensureStart_speaks _)⟩
  | reasoningSummaryDelta | reasoningTextDelta =>
    exact ⟨_, _, rfl, reasoningDelta_speaks s e.delta⟩
  | reasoningSummaryDone | reasoningTextDone =>
    exact ⟨_, _, rfl, rfl, rfl, rfl, .refl _, rfl, (Bool.or_false _).symm⟩
  | outputTextDelta => exact ⟨_, _, rfl, textDelta_speaks s e.delta⟩
  | outputItemAdded | outputItemDone =>
    rcases hitem : e.item with _ | item
    · exact ⟨_, _, rfl, .refl s⟩
    have hno : isResponsesToolOutputType item.type = false := by
      unfold isItem toolItemOf at hi
      rw [htype, hitem] at hi
      simpa [Option.filter] using hi
    dsimp only
    rw [if_neg (ne_true_of_eq_false hno)]
    exact ⟨_, _, rfl, .refl s⟩
  | functionArgsDelta | customToolInputDelta =>
    rw [htype] at hd
    cases hd
  | functionArgsDone | customToolInputDone =>
    rw [htype] at hdone
    cases hdone
  | completed | done | incomplete | failed | error =>
    rw [htype] at hrun
    cases hrun
  | outputTextDone | other name => exact ⟨_, _, rfl, .refl s⟩

end PlainEvent

/-! ## Fragments of one tool -/

structure Tells (fragments : List ToolCallResponse) (id name args : Text) : Prop where
  ids : ∀ f ∈ fragments, f.id = id
  names : fragments.flatMap ToolCallResponse.name = name
  args : fragments.flatMap ToolCallResponse.arguments = args

variable {fs : List ToolCallResponse} {tool : ResponsesStreamTool} {c : StreamedCall}

theorem Tells.snoc {id name args : Text} (h : Tells fs id name args) {f : ToolCallResponse}
    (hf : f.id = id) : Tells (fs ++ [f]) id (name ++ f.name) (args ++ f.arguments) := by
  refine ⟨?_, ?_, ?_⟩
  · intro g hg
    rcases List.mem_append.mp hg with hg | hg
    · exact h.ids g hg
    · rw [List.mem_singleton.mp hg, hf]
  · rw [List.flatMap_append, h.names, List.flatMap_singleton]
  · rw [List.flatMap_append, h.args, List.flatMap_singleton]

def ResponsesStreamTool.out (tool : ResponsesStreamTool) : ResponsesStreamTool :=
  { tool with
    sent := true
    nameSent := decide (tool.name ≠ [])
    argsSentAt := byteLength tool.arguments }

theorem ResponsesStreamTool.of_out (h : tool.out = tool) :
    tool.sent = true ∧ tool.nameSent = decide (tool.name ≠ []) ∧
      tool.argsSentAt = byteLength tool.arguments := by
  rw [← h]
  exact ⟨rfl, rfl, rfl⟩

/-- The fragments tell the first part of the tool's arguments, and `rest` is to be sent. -/
structure ToldSoFar (tool : ResponsesStreamTool) (fs : List ToolCallResponse)
    (told rest : Text) : Prop where
  sent : tool.sent = true → fs ≠ []
  named : tool.nameSent = true → tool.name ≠ []
  split : tool.arguments = told ++ rest
  sentAt : tool.argsSentAt = byteLength told
  told : Tells fs tool.callID (if tool.nameSent then tool.name else []) told

section ToolDelta

variable (s : ResponsesToChatStreamState) {tool : ResponsesStreamTool}
  {fs : List ToolCallResponse} (explicitDelta : Text)

theorem toolDelta_spec {told rest : Text} (h : ToldSoFar tool fs told rest)
    (hid : trimSpace tool.callID = tool.callID) (hne : tool.callID ≠ [])
    (hd : explicitDelta = [] ∨ explicitDelta = rest) :
    (s.toolDelta tool explicitDelta).1.maps =
        { s.maps with toolByKey := s.maps.toolByKey.insert tool.key tool.out } ∧
      (∀ f ∈ fragmentsOf (s.toolDelta tool explicitDelta).2, f.index = some tool.index) ∧
      contentOf (s.toolDelta tool explicitDelta).2 = [] ∧
      fs ++ fragmentsOf (s.toolDelta tool explicitDelta).2 ≠ [] ∧
      Tells (fs ++ fragmentsOf (s.toolDelta tool explicitDelta).2)
        tool.callID tool.name tool.arguments := by
  have hlength : byteLength tool.arguments = tool.argsSentAt + byteLength rest := by
    rw [h.split, byteLength_append, h.sentAt]
  -- where nothing is sliced off, the explicit delta is all that is left
  have hexplicit : ¬ (explicitDelta = [] ∧ tool.argsSentAt < byteLength tool.arguments) →
      explicitDelta = rest := by
    intro hno
    rcases hd with hd | hd
    · have hzero : byteLength rest = 0 := by
        by_contra hpos
        exact hno ⟨hd, by omega⟩
      rw [hd, byteLength_eq_zero hzero]
    · exact hd
  have hargs : (if explicitDelta = [] ∧ tool.argsSentAt < byteLength tool.arguments then
      dropBytes tool.argsSentAt tool.arguments else explicitDelta) = rest := by
    split
    · rw [h.sentAt, h.split, dropBytes_append]
    · next hno => exact hexplicit hno
  have hat : (if explicitDelta = [] ∧ tool.argsSentAt < byteLength tool.arguments then
      byteLength tool.arguments else tool.argsSentAt + byteLength explicitDelta) =
      byteLength tool.arguments := by
    split
    · rfl
    · next hno => rw [hexplicit hno, hlength]
  unfold toolDelta
  rw [hargs, hat]
  by_cases hquiet : tool.sent = true ∧ rest = [] ∧ (tool.name = [] ∨ tool.nameSent = true)
  · -- all is out already
    rw [if_pos hquiet]
    obtain ⟨hsent, hrest, hname⟩ := hquiet
    have hall : tool.arguments = told := by rw [h.split, hrest, List.append_nil]
    have hlen : tool.argsSentAt = byteLength tool.arguments := by rw [hall, h.sentAt]
    have hnamed : tool.nameSent = decide (tool.name ≠ []) := by
      rcases hb : tool.nameSent with _ | _
      · rw [hb] at hname
        rcases hname with hname | hname
        · simp [hname]
        · cases hname
      · simp [h.named hb]
    have hout : tool.out = tool := by
      unfold ResponsesStreamTool.out
      rw [← hnamed, ← hlen, ← hsent]
    refine ⟨by rw [hout]; rfl, (fun f hf => by cases hf), rfl, ?_, ?_⟩
    · show fs ++ [] ≠ []
      rw [List.append_nil]
      exact h.sent hsent
    · show Tells (fs ++ []) _ _ _
      rw [List.append_nil]
      have htold := h.told
      rw [← hall] at htold
      rcases hb : tool.nameSent with _ | _
      · rw [hb] at htold hname
        rcases hname with hname | hname
        · rw [hname]
          exact htold
        · cases hname
      · rw [hb] at htold
        exact htold
  · rw [if_neg hquiet]
    dsimp only
    rw [hid, if_neg hne]
    have hfrag : ∀ chunks : List ChatChunk, fragmentsOf chunks = [] → ∀ c : ChatChunk,
        fragmentsOf (chunks ++ [c]) = fragmentsOf [c] := by
      intro chunks hnone c
      rw [fragmentsOf_append, hnone]
      rfl
    refine ⟨?_, ?_, ?_, ?_, ?_⟩
    · have hnamed : (tool.nameSent || decide (tool.name ≠ [])) = decide (tool.name ≠ []) := by
        rcases hb : tool.nameSent with _ | _
        · rfl
        · simp [h.named hb]
      rw [hnamed]
      unfold ensureStart
      split <;> rfl
    · rw [hfrag _ (ensureStart_speaks s).fragments]
      intro f hf
      rw [List.mem_singleton.mp hf]
    · rw [contentOf_append, (ensureStart_speaks s).content]
      rfl
    · rw [hfrag _ (ensureStart_speaks s).fragments]
      exact List.append_ne_nil_of_right_ne_nil _ (List.cons_ne_nil _ _)
    · rw [hfrag _ (ensureStart_speaks s).fragments]
      have hsnoc := h.told.snoc (f :=
        { index := some tool.index
          id := tool.callID
          name := if tool.nameSent = false ∧ tool.name ≠ [] then tool.name else []
          arguments := rest }) rfl
      have hnames : (if tool.nameSent then tool.name else []) ++
          (if tool.nameSent = false ∧ tool.name ≠ [] then tool.name else []) = tool.name := by
        rcases hb : tool.nameSent with _ | _
        · by_cases hn : tool.name = [] <;> simp [hn]
        · simp
      rw [hnames, ← h.split] at hsnoc
      exact hsnoc

end ToolDelta

/-! ## The maps and the tracker -/

def waiting (x : Text) : Option Text := if x = [] then none else some x

theorem getD_waiting (x : Text) : (waiting x).getD [] = x := by
  unfold waiting
  split
  · rename_i h
    exact h.symm
  · rfl

theorem waiting_of_ne {x : Text} (h : x ≠ []) : waiting x = some x := if_neg h

def ofIndex (fs : List ToolCallResponse) (i : ℤ) : List ToolCallResponse :=
  fs.filter fun f => decide (f.index = some i)

theorem ofIndex_append (fs gs : List ToolCallResponse) (i : ℤ) :
    ofIndex (fs ++ gs) i = ofIndex fs i ++ ofIndex gs i := List.filter_append ..

theorem ofIndex_self {i : ℤ} (h : ∀ f ∈ fs, f.index = some i) :
    ofIndex fs i = fs := List.filter_eq_self.mpr fun f hf => decide_eq_true (h f hf)

theorem ofIndex_nil {i : ℤ} (h : ∀ f ∈ fs, f.index ≠ some i) : ofIndex fs i = [] :=
  List.filter_eq_nil_iff.mpr fun f hf hi => h f hf (of_decide_eq_true hi)

structure Shows (c : StreamedCall) (t : Track) (fs : List ToolCallResponse)
    (tool : ResponsesStreamTool) : Prop where
  key : tool.key = .output c.outputIndex
  callID : tool.callID = c.shownID
  name : tool.name = t.name
  args : tool.arguments = t.args
  out : tool.out = tool
  spoke : ofIndex fs tool.index ≠ []
  told : Tells (ofIndex fs tool.index) c.shownID t.name t.args

structure Follows (m : ToolMaps) (c : StreamedCall) (t : Track) (fs : List ToolCallResponse) :
    Prop where
  byIndex : m.outputIndexToKey.lookup c.outputIndex =
    if t.known then some (.output c.outputIndex) else none
  byID : m.itemIDToKey.lookup c.itemID = if t.idKnown then some (.output c.outputIndex) else none
  waitIndex : m.pendingArgsByOutputIndex.lookup c.outputIndex = waiting t.waitIndex
  waitID : m.pendingArgsByItemID.lookup c.itemID = waiting t.waitID
  unknown : t.known = false → m.toolByKey.lookup (.output c.outputIndex) = none
  known : t.known = true →
    ∃ tool, m.toolByKey.lookup (.output c.outputIndex) = some tool ∧ Shows c t fs tool

structure Filed (calls : List StreamedCall) (m : ToolMaps) (fs : List ToolCallResponse) :
    Prop where
  keys : ∀ k tool, m.toolByKey.lookup k = some tool → ∃ c ∈ calls, k = .output c.outputIndex
  below : ∀ k tool, m.toolByKey.lookup k = some tool → tool.index < m.nextToolIndex
  apart : ∀ k k' tool tool', m.toolByKey.lookup k = some tool →
    m.toolByKey.lookup k' = some tool' → tool.index = tool'.index → k = k'
  waitIndex : ∀ n, m.pendingArgsByOutputIndex.lookup n ≠ none → ∃ c ∈ calls, n = c.outputIndex
  waitID : ∀ x, m.pendingArgsByItemID.lookup x ≠ none → ∃ c ∈ calls, x = c.itemID
  emitted : ∀ f ∈ fs, ∃ k tool, m.toolByKey.lookup k = some tool ∧ f.index = some tool.index

structure Moves (c : StreamedCall) (m m' : ToolMaps) (fs : List ToolCallResponse) : Prop where
  tools : ∀ k, k ≠ .output c.outputIndex → m'.toolByKey.lookup k = m.toolByKey.lookup k
  byIndex : ∀ n, n ≠ c.outputIndex → m'.outputIndexToKey.lookup n = m.outputIndexToKey.lookup n
  byID : ∀ x, x ≠ c.itemID → m'.itemIDToKey.lookup x = m.itemIDToKey.lookup x
  waitIndex : ∀ n, n ≠ c.outputIndex →
    m'.pendingArgsByOutputIndex.lookup n = m.pendingArgsByOutputIndex.lookup n
  waitID : ∀ x, x ≠ c.itemID → m'.pendingArgsByItemID.lookup x = m.pendingArgsByItemID.lookup x
  own : (m'.nextToolIndex = m.nextToolIndex ∧
      (m'.toolByKey.lookup (.output c.outputIndex)).map ResponsesStreamTool.index =
        (m.toolByKey.lookup (.output c.outputIndex)).map ResponsesStreamTool.index) ∨
    (m'.nextToolIndex = m.nextToolIndex + 1 ∧
      m.toolByKey.lookup (.output c.outputIndex) = none ∧
      (m'.toolByKey.lookup (.output c.outputIndex)).map ResponsesStreamTool.index =
        some m.nextToolIndex)
  emitted : ∀ f ∈ fs, ∃ tool, m'.toolByKey.lookup (.output c.outputIndex) = some tool ∧
    f.index = some tool.index

structure Carries (c : StreamedCall) (m : ToolMaps) (t : Track) (fs : List ToolCallResponse)
    (out : ResponsesToChatStreamState × List ChatChunk) : Prop where
  moves : Moves c m out.1.maps (fragmentsOf out.2)
  follows : Follows out.1.maps c t (fs ++ fragmentsOf out.2)
  content : contentOf out.2 = []

section Moves

variable {calls : List StreamedCall} {c : StreamedCall} {m m' : ToolMaps}
  {fs gs : List ToolCallResponse}

theorem Moves.origin (h : Moves c m m' gs) {k : ToolKey} {tool : ResponsesStreamTool}
    (hk : m'.toolByKey.lookup k = some tool) :
    (∃ old, m.toolByKey.lookup k = some old ∧ old.index = tool.index) ∨
      (k = .output c.outputIndex ∧ tool.index = m.nextToolIndex ∧
        m'.nextToolIndex = m.nextToolIndex + 1) := by
  by_cases hkey : k = .output c.outputIndex
  · subst hkey
    rcases h.own with ⟨-, hown⟩ | ⟨hnext, -, hown⟩
    · left
      rw [hk] at hown
      obtain ⟨old, hold, hi⟩ := Option.map_eq_some_iff.mp hown.symm
      exact ⟨old, hold, hi⟩
    · right
      rw [hk] at hown
      exact ⟨rfl, Option.some.inj hown, hnext⟩
  · left
    exact ⟨tool, (h.tools k hkey).symm.trans hk, rfl⟩

theorem Moves.next_le (h : Moves c m m' gs) : m.nextToolIndex ≤ m'.nextToolIndex := by
  rcases h.own with ⟨hnext, -⟩ | ⟨hnext, -, -⟩ <;> omega

theorem Filed.moves (h : Filed calls m fs) (hm : Moves c m m' gs) (hc : c ∈ calls) :
    Filed calls m' (fs ++ gs) := by
  refine ⟨?_, ?_, ?_, ?_, ?_, ?_⟩
  · intro k tool hk
    rcases hm.origin hk with ⟨old, hold, -⟩ | ⟨hkey, -, -⟩
    · exact h.keys k old hold
    · exact ⟨c, hc, hkey⟩
  · intro k tool hk
    rcases hm.origin hk with ⟨old, hold, hi⟩ | ⟨-, hi, hnext⟩
    · have hlt := h.below k old hold
      have hle := hm.next_le
      omega
    · omega
  · intro k k' tool tool' hk hk' hi
    rcases hm.origin hk with ⟨old, hold, ho⟩ | ⟨hkey, hnew, -⟩
    · rcases hm.origin hk' with ⟨old', hold', ho'⟩ | ⟨-, hnew', -⟩
      · exact h.apart k k' old old' hold hold' (by omega)
      · have hlt := h.below k old hold
        omega
    · rcases hm.origin hk' with ⟨old', hold', ho'⟩ | ⟨hkey', -, -⟩
      · have hlt := h.below k' old' hold'
        omega
      · exact hkey.trans hkey'.symm
  · intro n hn
    by_cases hidx : n = c.outputIndex
    · exact ⟨c, hc, hidx⟩
    · rw [hm.waitIndex n hidx] at hn
      exact h.waitIndex n hn
  · intro x hx
    by_cases hid : x = c.itemID
    · exact ⟨c, hc, hid⟩
    · rw [hm.waitID x hid] at hx
      exact h.waitID x hx
  · intro f hf
    rcases List.mem_append.mp hf with hf | hf
    · obtain ⟨k, tool, hk, hi⟩ := h.emitted f hf
      by_cases hkey : k = .output c.outputIndex
      · subst hkey
        rcases hm.own with ⟨-, hown⟩ | ⟨-, hnone, -⟩
        · rw [hk] at hown
          obtain ⟨tool', hk', hi'⟩ := Option.map_eq_some_iff.mp hown
          exact ⟨_, tool', hk', by rw [hi, hi']⟩
        · rw [hk] at hnone
          cases hnone
      · exact ⟨k, tool, (hm.tools k hkey).trans hk, hi⟩
    · obtain ⟨tool, hk, hi⟩ := hm.emitted f hf
      exact ⟨_, tool, hk, hi⟩

theorem Follows.other {d : StreamedCall} {t : Track} (h : Follows m d t fs)
    (hm : Moves c m m' gs) (hf : Filed calls m' (fs ++ gs))
    (hindex : d.outputIndex ≠ c.outputIndex) (hid : d.itemID ≠ c.itemID) :
    Follows m' d t (fs ++ gs) := by
  have hkey : ToolKey.output d.outputIndex ≠ .output c.outputIndex := by
    intro heq
    injection heq with heq
    exact hindex heq
  refine ⟨?_, ?_, ?_, ?_, ?_, ?_⟩
  · rw [hm.byIndex _ hindex]
    exact h.byIndex
  · rw [hm.byID _ hid]
    exact h.byID
  · rw [hm.waitIndex _ hindex]
    exact h.waitIndex
  · rw [hm.waitID _ hid]
    exact h.waitID
  · intro hk
    rw [hm.tools _ hkey]
    exact h.unknown hk
  · intro hk
    obtain ⟨tool, hlook, hs⟩ := h.known hk
    have hlook' := (hm.tools _ hkey).trans hlook
    have hnone : ofIndex gs tool.index = [] := by
      refine ofIndex_nil ?_
      intro f hfmem hfi
      obtain ⟨own, hown, hi⟩ := hm.emitted f hfmem
      have hsame : own.index = tool.index := by
        rw [hi] at hfi
        exact Option.some.inj hfi
      exact hkey (hf.apart _ _ _ _ hlook' hown hsame.symm)
    refine ⟨tool, hlook', hs.key, hs.callID, hs.name, hs.args, hs.out, ?_, ?_⟩
    · rw [ofIndex_append, hnone, List.append_nil]
      exact hs.spoke
    · rw [ofIndex_append, hnone, List.append_nil]
      exact hs.told

end Moves

/-! ## Output item events -/

def joinedTool (m : ToolMaps) (e : Event) (item : ResponsesOutput) (n : ℤ)
    (tool : ResponsesStreamTool) : ResponsesStreamTool :=
  { tool with
    itemID := if responseStreamEventItemID e = [] then tool.itemID else responseStreamEventItemID e
    arguments := tool.arguments ++ (m.pendingArgsByOutputIndex.lookup n).getD [] ++
      (if responseStreamEventItemID e = [] then []
        else (m.pendingArgsByItemID.lookup (responseStreamEventItemID e)).getD [])
    callID := if trimSpace item.callId ≠ [] then trimSpace item.callId
      else if tool.callID = [] then trimSpace item.id else tool.callID
    name := if trimSpace item.name ≠ [] then trimSpace item.name else tool.name }

def joinedMaps (m : ToolMaps) (e : Event) (n : ℤ) (tool : ResponsesStreamTool) : ToolMaps where
  toolByKey := m.toolByKey.insert (.output n) tool
  outputIndexToKey := m.outputIndexToKey.insert n (.output n)
  itemIDToKey := if responseStreamEventItemID e = [] then m.itemIDToKey
    else m.itemIDToKey.insert (responseStreamEventItemID e) (.output n)
  pendingArgsByOutputIndex := m.pendingArgsByOutputIndex.erase n
  pendingArgsByItemID := if responseStreamEventItemID e = [] then m.pendingArgsByItemID
    else m.pendingArgsByItemID.erase (responseStreamEventItemID e)
  nextToolIndex := if (m.toolByKey.lookup (.output n)).isSome then m.nextToolIndex
    else m.nextToolIndex + 1

def toolUnder (m : ToolMaps) (n : ℤ) : ResponsesStreamTool :=
  (m.toolByKey.lookup (.output n)).getD { key := .output n, index := m.nextToolIndex }

section Item

variable {s : ResponsesToChatStreamState} {e : Event} {item : ResponsesOutput} {n : ℤ}

theorem toolOrNew_some {key : ToolKey} {callID : Text} {tool : ResponsesStreamTool}
    (h : s.toolByKey.lookup key = some tool) : s.toolOrNew key callID = (s, tool) := by
  unfold toolOrNew
  rw [h]

theorem toolOrNew_none {key : ToolKey} {callID : Text} (h : s.toolByKey.lookup key = none) :
    s.toolOrNew key callID =
      ({ s.setTool { key := key, index := s.nextToolIndex, callID := callID } with
         nextToolIndex := s.nextToolIndex + 1 },
       { key := key, index := s.nextToolIndex, callID := callID }) := by
  unfold toolOrNew
  rw [h]

theorem toolUnder_some {m : ToolMaps} {tool : ResponsesStreamTool}
    (h : m.toolByKey.lookup (.output n) = some tool) : toolUnder m n = tool := by
  unfold toolUnder
  rw [h]
  rfl

theorem toolUnder_none {m : ToolMaps} (h : m.toolByKey.lookup (.output n) = none) :
    toolUnder m n = { key := .output n, index := m.nextToolIndex } := by
  unfold toolUnder
  rw [h]
  rfl

theorem drainOutputIndex_of_index (hn : e.outputIndex = some n) (tool : ResponsesStreamTool) :
    s.drainOutputIndex e tool =
      ({ s with
         outputIndexToKey := s.outputIndexToKey.insert n tool.key
         pendingArgsByOutputIndex := s.pendingArgsByOutputIndex.erase n },
       { tool with
         arguments := tool.arguments ++ (s.pendingArgsByOutputIndex.lookup n).getD [] }) := by
  unfold drainOutputIndex
  rw [hn]

theorem drainItemID_tool (tool : ResponsesStreamTool) : (s.drainItemID e tool).2 =
    { tool with
      itemID := if responseStreamEventItemID e = [] then tool.itemID
        else responseStreamEventItemID e
      arguments := tool.arguments ++ (if responseStreamEventItemID e = [] then []
        else (s.pendingArgsByItemID.lookup (responseStreamEventItemID e)).getD []) } := by
  unfold drainItemID
  by_cases hid : responseStreamEventItemID e = []
  · simp [hid]
  · simp [hid]

theorem drainItemID_maps (tool : ResponsesStreamTool) : (s.drainItemID e tool).1.maps =
    { s.maps with
      itemIDToKey := if responseStreamEventItemID e = [] then s.itemIDToKey
        else s.itemIDToKey.insert (responseStreamEventItemID e) tool.key
      pendingArgsByItemID := if responseStreamEventItemID e = [] then s.pendingArgsByItemID
        else s.pendingArgsByItemID.erase (responseStreamEventItemID e) } := by
  unfold drainItemID
  by_cases hid : responseStreamEventItemID e = []
  · simp only [hid]
    rfl
  · simp only [hid]
    rfl

theorem keyForEvent_of_index (hn : e.outputIndex = some n) :
    (keyForEvent e).or (fallbackToolKey item.id item.callId e.outputIndex) =
      some (.output n) := by
  unfold keyForEvent
  rw [hn]
  rfl

theorem ensureToolForEvent_tool (item : ResponsesOutput) (hn : e.outputIndex = some n) :
    (s.ensureToolForEvent e item).2 = some (joinedTool s.maps e item n (toolUnder s.maps n)) := by
  unfold ensureToolForEvent
  rw [keyForEvent_of_index hn]
  dsimp only
  rw [drainOutputIndex_of_index hn, drainItemID_tool]
  rcases hlook : s.toolByKey.lookup (.output n) with _ | old
  · rw [toolOrNew_none hlook, toolUnder_none hlook]
    rfl
  · rw [toolOrNew_some hlook, toolUnder_some hlook]
    rfl

theorem maps_setTool (callIDToKey : AList fun _ : Text => ToolKey) (tool : ResponsesStreamTool) :
    ({ s with callIDToKey := callIDToKey }.setTool tool).maps =
      { s.maps with toolByKey := s.maps.toolByKey.insert tool.key tool } := rfl

theorem ensureToolForEvent_maps (item : ResponsesOutput) (hn : e.outputIndex = some n)
    (hkey : (toolUnder s.maps n).key = .output n) : (s.ensureToolForEvent e item).1.maps =
      joinedMaps s.maps e n (joinedTool s.maps e item n (toolUnder s.maps n)) := by
  unfold ensureToolForEvent
  rw [keyForEvent_of_index hn]
  dsimp only
  rw [drainOutputIndex_of_index hn, maps_setTool, drainItemID_maps, drainItemID_tool]
  rcases hlook : s.toolByKey.lookup (.output n) with _ | old
  · rw [toolOrNew_none hlook, toolUnder_none hlook]
    unfold joinedMaps
    rw [show (s.maps.toolByKey.lookup (.output n)).isSome = false by
      rw [show s.maps.toolByKey.lookup (.output n) = none from hlook]; rfl]
    show ToolMaps.mk ((s.toolByKey.insert _ _).insert _ _) _ _ _ _ _ = _
    rw [AList.insert_insert]
    rfl
  · rw [toolOrNew_some hlook, toolUnder_some hlook]
    rw [toolUnder_some hlook] at hkey
    unfold joinedMaps
    rw [show (s.maps.toolByKey.lookup (.output n)).isSome = true by
      rw [show s.maps.toolByKey.lookup (.output n) = some old from hlook]; rfl]
    cases old
    cases hkey
    rfl

theorem toolItem_eq {J : StringCodec} {tool : ResponsesStreamTool}
    (h : (s.ensureToolForEvent e item).2 = some tool) : s.toolItem J e item =
      (s.ensureToolForEvent e item).1.toolDelta
        { tool with
          arguments := if item.argumentsString J ≠ [] then item.argumentsString J
            else tool.arguments } [] := by
  unfold toolItem
  rcases hp : s.ensureToolForEvent e item with ⟨s', _ | found⟩
  · rw [hp] at h
    cases h
  · rw [hp] at h
    cases h
    by_cases hargs : item.argumentsString J ≠ []
    · simp [if_pos hargs]
    · simp [if_neg hargs]

end Item

theorem joinedMaps_moves {m : ToolMaps} {e : Event}
    (hid : responseStreamEventItemID e = [] ∨ responseStreamEventItemID e = c.itemID)
    (hindex : tool.index = (toolUnder m c.outputIndex).index)
    (hfs : ∀ f ∈ fs, f.index = some tool.index) :
    Moves c m (joinedMaps m e c.outputIndex tool) fs := by
  refine ⟨?_, ?_, ?_, ?_, ?_, ?_, ?_⟩
  · intro k hk
    exact AList.lookup_insert_ne hk
  · intro n hn
    exact AList.lookup_insert_ne hn
  · intro x hx
    show AList.lookup x (if responseStreamEventItemID e = [] then _ else _) = _
    split
    · rfl
    · rename_i hne
      rw [hid.resolve_left hne]
      exact AList.lookup_insert_ne hx
  · intro n hn
    exact AList.lookup_erase_ne hn
  · intro x hx
    show AList.lookup x (if responseStreamEventItemID e = [] then _ else _) = _
    split
    · rfl
    · rename_i hne
      rw [hid.resolve_left hne]
      exact AList.lookup_erase_ne hx
  · have hnew : (joinedMaps m e c.outputIndex tool).toolByKey.lookup (.output c.outputIndex) =
        some tool := AList.lookup_insert _
    rw [hnew]
    rcases hlook : m.toolByKey.lookup (.output c.outputIndex) with _ | old
    · right
      rw [toolUnder_none hlook] at hindex
      refine ⟨?_, hlook, congrArg some hindex⟩
      show (if (m.toolByKey.lookup _).isSome = true then _ else _) = _
      rw [hlook]
      rfl
    · left
      rw [toolUnder_some hlook] at hindex
      refine ⟨?_, by rw [hlook]; exact congrArg some hindex⟩
      show (if (m.toolByKey.lookup _).isSome = true then _ else _) = _
      rw [hlook]
      rfl
  · intro f hf
    exact ⟨tool, AList.lookup_insert _, hfs f hf⟩

theorem shows_out {t : Track} {fs gs : List ToolCallResponse}
    (hkey : tool.key = .output c.outputIndex) (hcall : tool.callID = c.shownID)
    (hname : tool.name = t.name) (hargs : tool.arguments = t.args)
    (hindices : ∀ f ∈ gs, f.index = some tool.index) (hspoke : ofIndex fs tool.index ++ gs ≠ [])
    (htold : Tells (ofIndex fs tool.index ++ gs) tool.callID tool.name tool.arguments) :
    Shows c t (fs ++ gs) tool.out := by
  have hall : ofIndex (fs ++ gs) tool.out.index = ofIndex fs tool.index ++ gs := by
    show ofIndex (fs ++ gs) tool.index = _
    rw [ofIndex_append, ofIndex_self hindices]
  refine ⟨hkey, hcall, hname, hargs, rfl, ?_, ?_⟩
  · rw [hall]
    exact hspoke
  · rw [hall, ← hcall, ← hname, ← hargs]
    exact htold

theorem joinedMaps_follows {J : StringCodec} {t : Track} {e : Event} {m : ToolMaps}
    {fs gs : List ToolCallResponse} (h : Follows m c t fs) (wf : t.WF) (ho : c.Owns J e)
    (ok : StepOK J c t e) (his : isItem e = true) (hs : Shows c (t.step J e) gs tool) :
    Follows (joinedMaps m e c.outputIndex tool) c (t.step J e) gs := by
  have hnone : responseStreamEventItemID e = [] → carriesID e = false := by
    intro hid
    unfold carriesID
    rw [hid]
    rfl
  refine ⟨?_, ?_, ?_, ?_, ?_, ?_⟩
  · rw [step_item his]
    exact AList.lookup_insert _
  · rw [step_item his]
    show AList.lookup c.itemID (if responseStreamEventItemID e = [] then _ else _) = _
    by_cases hid : responseStreamEventItemID e = []
    · rw [if_pos hid, h.byID, hnone hid, Bool.or_false]
    · have hcarries : carriesID e = true := decide_eq_true hid
      rw [if_neg hid, ho.id.resolve_left hid, hcarries, Bool.or_true]
      exact AList.lookup_insert _
  · rw [step_item his]
    exact AList.lookup_erase _ _
  · rw [step_item his]
    show AList.lookup c.itemID (if responseStreamEventItemID e = [] then _ else _) = none
    by_cases hid : responseStreamEventItemID e = []
    · have hempty : t.waitID = [] := by
        rcases hk : t.known with _ | _
        · exact ok.unnamed hk his (identifies_of_no_id hid)
        · exact wf.noID hk
      rw [if_pos hid, h.waitID, hempty]
      rfl
    · rw [if_neg hid, ho.id.resolve_left hid]
      exact AList.lookup_erase _ _
  · intro hk
    rw [step_item his] at hk
    cases hk
  · intro _
    exact ⟨tool, AList.lookup_insert _, hs⟩

section Events

variable {J : StringCodec} {c : StreamedCall} {calls : List StreamedCall} {t : Track} {e : Event}
  {s : ResponsesToChatStreamState} {fs : List ToolCallResponse}

theorem toolUnder_spec (hfiled : Filed calls s.maps fs) (h : Follows s.maps c t fs) :
    (toolUnder s.maps c.outputIndex).key = .output c.outputIndex ∧
    ((t.known = true ∧ Shows c t fs (toolUnder s.maps c.outputIndex)) ∨
      (t.known = false ∧ toolUnder s.maps c.outputIndex =
          { key := .output c.outputIndex, index := s.nextToolIndex } ∧
        ofIndex fs s.nextToolIndex = [])) := by
  rcases hk : t.known with _ | _
  · have hat := toolUnder_none (h.unknown hk)
    refine ⟨by rw [hat], .inr ⟨rfl, hat, ?_⟩⟩
    refine ofIndex_nil ?_
    intro f hf hi
    obtain ⟨k, tool, hlook, hindex⟩ := hfiled.emitted f hf
    have hlt := hfiled.below k tool hlook
    have heq : tool.index = s.nextToolIndex := by
      rw [hi] at hindex
      exact (Option.some.inj hindex).symm
    have hne : tool.index < s.nextToolIndex := hlt
    omega
  · obtain ⟨tool, hlook, hs⟩ := h.known hk
    rw [toolUnder_some hlook]
    exact ⟨hs.key, .inl ⟨rfl, hs⟩⟩

theorem args_joined {item : ResponsesOutput} (h : Follows s.maps c t fs) (wf : t.WF)
    (ho : c.Owns J e) (ok : StepOK J c t e) (hitem : toolItemOf e = some item)
    {args : Text} (hargs : args = if t.known then t.args else []) :
    (if item.argumentsString J ≠ [] then item.argumentsString J
      else args ++ (s.maps.pendingArgsByOutputIndex.lookup c.outputIndex).getD [] ++
        (if responseStreamEventItemID e = [] then []
          else (s.maps.pendingArgsByItemID.lookup (responseStreamEventItemID e)).getD [])) =
      (t.step J e).args := by
  have his : isItem e = true := isItem_of_item hitem
  have hsame : itemArgs J e = item.argumentsString J := itemArgs_of_item hitem
  rw [step_item his, hsame]
  by_cases hne : item.argumentsString J ≠ []
  · rw [if_pos hne, if_pos hne]
  rw [if_neg hne, if_neg hne, h.waitIndex, getD_waiting, hargs]
  have hid : (if responseStreamEventItemID e = [] then []
      else (s.maps.pendingArgsByItemID.lookup (responseStreamEventItemID e)).getD []) =
      t.waitID := by
    by_cases hempty : responseStreamEventItemID e = []
    · rw [if_pos hempty]
      rcases hk : t.known with _ | _
      · exact (ok.unnamed hk his (identifies_of_no_id hempty)).symm
      · exact (wf.noID hk).symm
    · rw [if_neg hempty, ho.id.resolve_left hempty, h.waitID, getD_waiting]
  rw [hid]
  rcases hk : t.known with _ | _
  · rfl
  · rw [wf.noIndex hk, wf.noID hk]
    show t.args ++ [] ++ [] = t.args
    rw [List.append_nil, List.append_nil]

theorem told_joined {item : ResponsesOutput} {tool : ResponsesStreamTool}
    (hs : Shows c t fs tool) (ok : StepOK J c t e) (hk : t.known = true)
    (hitem : toolItemOf e = some item) {next : ResponsesStreamTool}
    (hcallID : next.callID = c.shownID)
    (hname : next.name = (t.step J e).name) (hargs : next.arguments = (t.step J e).args)
    (hnamed : next.nameSent = tool.nameSent)
    (hat : next.argsSentAt = tool.argsSentAt) :
    ∃ rest, ToldSoFar next (ofIndex fs tool.index) t.args rest := by
  have his : isItem e = true := isItem_of_item hitem
  obtain ⟨-, hout, hlen⟩ := ResponsesStreamTool.of_out hs.out
  rw [hs.args] at hlen
  rw [step_item his] at hname hargs
  dsimp only at hname hargs
  -- a name that is out stays, and so do arguments that are out
  have hkeep : t.name ≠ [] → next.name = t.name := by
    intro hne
    rw [hname]
    split
    · rename_i hitem
      exact ((ok.named hitem).resolve_left hne).symm
    · rfl
  have hsplit : ∃ rest, next.arguments = t.args ++ rest := by
    rw [hargs]
    split
    · rename_i hne
      rcases ok.args hne hk with hnil | hall
      · exact ⟨itemArgs J e, by rw [hnil]; rfl⟩
      · exact ⟨[], by rw [hall, List.append_nil]⟩
    · exact ⟨[], (List.append_nil _).symm⟩
  obtain ⟨rest, hrest⟩ := hsplit
  rw [hs.name] at hout
  refine ⟨rest, fun _ => hs.spoke, ?_, hrest, hat.trans hlen, ?_⟩
  · intro hn
    rw [hnamed, hout] at hn
    have hne : t.name ≠ [] := of_decide_eq_true hn
    rw [hkeep hne]
    exact hne
  · rw [hcallID, hnamed, hout]
    by_cases hne : t.name ≠ []
    · rw [decide_eq_true hne, hkeep hne]
      exact hs.told
    · rw [decide_eq_false hne]
      have htold := hs.told
      rw [not_not.mp hne] at htold
      exact htold

theorem toolItem_follows {item : ResponsesOutput} (hc : c.Proper)
    (hfiled : Filed calls s.maps fs) (h : Follows s.maps c t fs) (wf : t.WF)
    (ho : c.Owns J e) (ok : StepOK J c t e) (hitem : toolItemOf e = some item) :
    Carries c s.maps (t.step J e) fs (s.toolItem J e item) := by
  have his : isItem e = true := isItem_of_item hitem
  have hn : e.outputIndex = some c.outputIndex := index_of_ne ho (ok.indexed his)
  obtain ⟨hkey, hcases⟩ := toolUnder_spec hfiled h
  have hargs0 : (toolUnder s.maps c.outputIndex).arguments = if t.known then t.args else [] := by
    rcases hcases with ⟨hk, hs⟩ | ⟨hk, hnew, -⟩
    · rw [hk, hs.args]
      rfl
    · rw [hk, hnew]
      rfl
  have hname0 : (toolUnder s.maps c.outputIndex).name = t.name := by
    rcases hcases with ⟨hk, hs⟩ | ⟨hk, hnew, -⟩
    · exact hs.name
    · rw [hnew, wf.name hk]
  have hcall0 : (t.known = false ∧ (toolUnder s.maps c.outputIndex).callID = []) ∨
      (toolUnder s.maps c.outputIndex).callID = c.shownID := by
    rcases hcases with ⟨-, hs⟩ | ⟨hk, hnew, -⟩
    · exact .inr hs.callID
    · exact .inl ⟨hk, by rw [hnew]⟩
  have htool := ensureToolForEvent_tool (s := s) item hn
  have hmaps := ensureToolForEvent_maps (s := s) item hn hkey
  rw [toolItem_eq htool]
  generalize hnext : ({ joinedTool s.maps e item c.outputIndex (toolUnder s.maps c.outputIndex) with
    arguments := if item.argumentsString J ≠ [] then item.argumentsString J
      else (joinedTool s.maps e item c.outputIndex
        (toolUnder s.maps c.outputIndex)).arguments } : ResponsesStreamTool) = next
  have hnkey : next.key = .output c.outputIndex := by
    rw [← hnext]
    exact hkey
  have hnindex : next.index = (toolUnder s.maps c.outputIndex).index := by
    rw [← hnext]
    rfl
  have hncall : next.callID = c.shownID := by
    rw [← hnext]
    exact callID_joined hc ho ok hitem hcall0
  have hnname : next.name = (t.step J e).name := by
    rw [← hnext, step_item his, itemName_of_item hitem, ← hname0]
    rfl
  have hnargs : next.arguments = (t.step J e).args := by
    rw [← hnext]
    exact args_joined h wf ho ok hitem hargs0
  have hsofar : ∃ told rest, ToldSoFar next (ofIndex fs next.index) told rest := by
    rw [hnindex]
    rcases hcases with ⟨hk, hs⟩ | ⟨-, hnew, hnone⟩
    · exact ⟨_, told_joined hs ok hk hitem hncall hnname hnargs (by rw [← hnext]; rfl)
        (by rw [← hnext]; rfl)⟩
    · rw [hnew] at hnext ⊢
      have hfresh : next.sent = false ∧ next.nameSent = false ∧ next.argsSentAt = 0 := by
        rw [← hnext]
        exact ⟨rfl, rfl, rfl⟩
      obtain ⟨hsent, hnamed, hat⟩ := hfresh
      rw [hnone]
      refine ⟨[], next.arguments, ?_, ?_, rfl, hat, ?_⟩
      · rw [hsent]
        exact fun hno => by cases hno
      · rw [hnamed]
        exact fun hno => by cases hno
      · rw [hnamed]
        exact ⟨(fun f hf => by cases hf), rfl, rfl⟩
  obtain ⟨told, rest, hsofar⟩ := hsofar
  obtain ⟨hout, hindices, hcontent, hspoke, htold⟩ := toolDelta_spec
    (s.ensureToolForEvent e item).1 [] hsofar
    (by rw [hncall]; exact shownID_trimmed hc) (by rw [hncall]; exact shownID_ne hc) (.inl rfl)
  have hjoined : ((s.ensureToolForEvent e item).1.toolDelta next []).1.maps =
      joinedMaps s.maps e c.outputIndex next.out := by
    rw [hout, hmaps, hnkey]
    unfold joinedMaps
    rw [AList.insert_insert]
  refine ⟨?_, ?_, hcontent⟩
  · rw [hjoined]
    exact joinedMaps_moves ho.id hnindex hindices
  · rw [hjoined]
    exact joinedMaps_follows h wf ho ok his
      (shows_out hnkey hncall hnname hnargs hindices hspoke htold)

/-! ## Argument events -/

theorem find_known (hc : c.Proper) (h : Follows s.maps c t fs) (hk : t.known = true)
    (ho : c.Owns J e) (hi : isItem e = false) (hway : e.outputIndex = none → t.idKnown = true) :
    s.findToolForEvent e = s.maps.toolByKey.lookup (.output c.outputIndex) := by
  have hitem := item_none ho hi
  have hindex := h.byIndex
  rw [hk] at hindex
  unfold findToolForEvent
  dsimp only
  by_cases hn : e.outputIndex = none
  · have hid := h.byID
    rw [hway hn] at hid
    rw [hn, id_of_no_index ho hitem hn, if_pos hc.itemID,
      show s.itemIDToKey.lookup c.itemID = some (.output c.outputIndex) from hid]
    rfl
  · rw [index_of_ne ho hn, Option.bind_some,
      show s.outputIndexToKey.lookup c.outputIndex = some (.output c.outputIndex) from hindex]
    rfl

theorem find_unknown (h : Follows s.maps c t fs) (wf : t.WF) (hk : t.known = false)
    (ho : c.Owns J e) (hi : isItem e = false) : s.findToolForEvent e = none := by
  have hitem := item_none ho hi
  have hindex := h.byIndex
  have hid := h.byID
  have hidno : t.idKnown = false := by
    by_contra hyes
    rw [wf.idKnown (Bool.not_eq_false _ |>.mp hyes)] at hk
    cases hk
  rw [hk] at hindex
  rw [hidno] at hid
  have hfirst : (e.outputIndex.bind fun n => s.outputIndexToKey.lookup n) = none := by
    rcases ho.index with hn | hn
    · rw [hn]
      rfl
    · rw [hn]
      exact hindex
  have hsecond : (if trimSpace e.itemID ≠ [] then s.itemIDToKey.lookup (trimSpace e.itemID)
      else none) = none := by
    split
    · rename_i hne
      rw [ho.beside.resolve_left hne]
      exact hid
    · rfl
  unfold findToolForEvent
  dsimp only
  rw [hfirst, hsecond, hitem]
  rfl

theorem moves_refl (m : ToolMaps) (c : StreamedCall) : Moves c m m [] :=
  ⟨fun _ _ => rfl, fun _ _ => rfl, fun _ _ => rfl, fun _ _ => rfl, fun _ _ => rfl,
    .inl ⟨rfl, rfl⟩, fun _ hf => by cases hf⟩

theorem moves_out {tool old : ResponsesStreamTool} {gs : List ToolCallResponse} {m : ToolMaps}
    (hkey : tool.key = .output c.outputIndex)
    (hlook : m.toolByKey.lookup (.output c.outputIndex) = some old)
    (hindex : tool.index = old.index) (hgs : ∀ f ∈ gs, f.index = some tool.index) :
    Moves c m { m with toolByKey := m.toolByKey.insert tool.key tool.out } gs := by
  rw [hkey]
  refine ⟨fun k hk => AList.lookup_insert_ne hk, fun _ _ => rfl, fun _ _ => rfl, fun _ _ => rfl,
    fun _ _ => rfl, .inl ⟨rfl, ?_⟩, ?_⟩
  · rw [AList.lookup_insert, hlook]
    exact congrArg some hindex
  · intro f hf
    exact ⟨tool.out, AList.lookup_insert _, hgs f hf⟩

theorem toolDelta_follows (hc : c.Proper) (h : Follows s.maps c t fs) (hk : t.known = true)
    {tool : ResponsesStreamTool}
    (hlook : s.maps.toolByKey.lookup (.output c.outputIndex) = some tool)
    (hs : Shows c t fs tool) (more : Text) :
    Carries c s.maps { t with args := t.args ++ more } fs
      (s.toolDelta { tool with arguments := tool.arguments ++ more } more) := by
  obtain ⟨-, hnamed, hlen⟩ := ResponsesStreamTool.of_out hs.out
  have hnargs : tool.arguments ++ more = t.args ++ more := by rw [hs.args]
  have hsofar : ToldSoFar { tool with arguments := tool.arguments ++ more }
      (ofIndex fs tool.index) tool.arguments more := by
    refine ⟨fun _ => hs.spoke, ?_, rfl, hlen, ?_⟩
    · intro hyes
      rw [hnamed] at hyes
      exact of_decide_eq_true hyes
    · rw [hs.callID, hnamed, hs.args]
      have htold := hs.told
      by_cases hne : tool.name ≠ []
      · rw [decide_eq_true hne, hs.name]
        exact htold
      · rw [decide_eq_false hne]
        rw [← hs.name, not_not.mp hne] at htold
        exact htold
  obtain ⟨hout, hindices, hcontent, hspoke, htold⟩ := toolDelta_spec s more hsofar
    (by dsimp only; rw [hs.callID]; exact shownID_trimmed hc)
    (by dsimp only; rw [hs.callID]; exact shownID_ne hc)
    (.inr rfl)
  refine ⟨?_, ?_, hcontent⟩
  · rw [hout]
    exact moves_out hs.key hlook rfl hindices
  · rw [hout]
    refine ⟨h.byIndex, h.byID, h.waitIndex, h.waitID, ?_, ?_⟩
    · intro hno
      rw [show t.known = false from hno] at hk
      cases hk
    · intro _
      have hat : ∀ x, (s.maps.toolByKey.insert tool.key x).lookup (.output c.outputIndex) =
          some x := by
        intro x
        rw [hs.key]
        exact AList.lookup_insert _
      have hshow : Shows c { t with args := t.args ++ more } _
          ({ tool with arguments := tool.arguments ++ more } : ResponsesStreamTool).out :=
        shows_out hs.key hs.callID hs.name hnargs hindices hspoke htold
      exact ⟨_, hat _, hshow⟩

theorem addPending_follows (hc : c.Proper) (h : Follows s.maps c t fs) (hk : t.known = false)
    (ho : c.Owns J e) (hi : isItem e = false) (hd : isArgsDelta e = true)
    (hempty : e.delta ≠ []) :
    Moves c s.maps (s.addPending e).maps [] ∧ Follows (s.addPending e).maps c (t.step J e) fs := by
  have hne : ∀ x : Text, x ++ e.delta ≠ [] :=
    fun x => List.append_ne_nil_of_right_ne_nil x hempty
  unfold addPending
  by_cases hn : e.outputIndex = none
  · have hid := id_of_no_index ho (item_none ho hi) hn
    rw [hn, step_delta_id hi hd hk hn]
    rw [hid, if_neg hc.itemID]
    refine ⟨⟨fun _ _ => rfl, fun _ _ => rfl, fun _ _ => rfl, fun _ _ => rfl,
      fun x hx => AList.lookup_insert_ne hx, .inl ⟨rfl, rfl⟩, fun _ hf => by cases hf⟩, ?_⟩
    refine ⟨h.byIndex, h.byID, h.waitIndex, ?_, h.unknown, ?_⟩
    · rw [waiting_of_ne (hne _), ← getD_waiting t.waitID, ← h.waitID]
      exact AList.lookup_insert _
    · intro hyes
      rw [show t.known = true from hyes] at hk
      cases hk
  · rw [index_of_ne ho hn, step_delta_index hi hd hk hn]
    refine ⟨⟨fun _ _ => rfl, fun _ _ => rfl, fun _ _ => rfl,
      fun n hne => AList.lookup_insert_ne hne, fun _ _ => rfl, .inl ⟨rfl, rfl⟩,
      fun _ hf => by cases hf⟩, ?_⟩
    refine ⟨h.byIndex, h.byID, ?_, h.waitID, h.unknown, ?_⟩
    · rw [waiting_of_ne (hne _), ← getD_waiting t.waitIndex, ← h.waitIndex]
      exact AList.lookup_insert _
    · intro hyes
      rw [show t.known = true from hyes] at hk
      cases hk

theorem Carries.silent {m : ToolMaps} (hm : Moves c m s.maps []) (h : Follows s.maps c t fs) :
    Carries c m t fs (s, []) := by
  refine ⟨hm, ?_, rfl⟩
  show Follows s.maps c t (fs ++ [])
  rw [List.append_nil]
  exact h

theorem toolArgumentsDelta_follows (hc : c.Proper) (h : Follows s.maps c t fs) (wf : t.WF)
    (ho : c.Owns J e) (ok : StepOK J c t e) (hd : isArgsDelta e = true) :
    Carries c s.maps (t.step J e) fs (s.toolArgumentsDelta e) := by
  have hi : isItem e = false := by
    by_contra hyes
    rw [not_delta_of_item (Bool.not_eq_false _ |>.mp hyes)] at hd
    cases hd
  unfold toolArgumentsDelta
  by_cases hempty : e.delta = []
  · rw [if_pos hempty]
    have hstay : t.step J e = t := by
      rcases hk : t.known with _ | _
      · by_cases hn : e.outputIndex = none
        · rw [step_delta_id hi hd hk hn, hempty, List.append_nil]
        · rw [step_delta_index hi hd hk hn, hempty, List.append_nil]
      · rw [step_delta_known hi hd hk, hempty, List.append_nil]
    rw [hstay]
    exact .silent (moves_refl _ _) h
  · rw [if_neg hempty]
    rcases hk : t.known with _ | _
    · rw [find_unknown h wf hk ho hi]
      obtain ⟨hmoves, hfollows⟩ := addPending_follows hc h hk ho hi hd hempty
      exact .silent hmoves hfollows
    · have hway : e.outputIndex = none → t.idKnown = true := by
        intro hn
        exact wf.withID (ok.delta hk (brings_of_delta_ne hd hempty) hn)
      obtain ⟨tool, hlook, hs⟩ := h.known hk
      rw [find_known hc h hk ho hi hway, hlook, step_delta_known hi hd hk]
      exact toolDelta_follows hc h hk hlook hs e.delta

theorem flushPendingTool_follows (hc : c.Proper) (h : Follows s.maps c t fs)
    (ho : c.Owns J e) (ok : StepOK J c t e) (hi : isItem e = false) (hdone : isArgsDone e = true) :
    Carries c s.maps t fs (s.flushPendingTool e) := by
  obtain ⟨hk, hway⟩ := ok.announced hdone
  obtain ⟨tool, hlook, hs⟩ := h.known hk
  have hmore := toolDelta_follows hc h hk hlook hs []
  rw [List.append_nil, List.append_nil] at hmore
  unfold flushPendingTool
  rw [find_known hc h hk ho hi hway, hlook]
  exact hmore

theorem toolEvent_follows (hc : c.Proper) (hfiled : Filed calls s.maps fs)
    (h : Follows s.maps c t fs) (wf : t.WF) (ho : c.Owns J e) (ok : StepOK J c t e)
    (ht : isToolEvent e = true) : ∃ out, responsesStreamEventToChatChunks J e s = .ok out ∧
      Carries c s.maps (t.step J e) fs out := by
  unfold responsesStreamEventToChatChunks
  rcases hi : isItem e with _ | _
  · unfold isToolEvent at ht
    rw [hi, Bool.or_eq_true] at ht
    rcases ht with hd | hd
    · refine ⟨s.toolArgumentsDelta e, ?_, toolArgumentsDelta_follows hc h wf ho ok hd⟩
      have htype : e.type = .functionArgsDelta ∨ e.type = .customToolInputDelta := by
        unfold isArgsDelta at hd
        simpa using hd
      rcases htype with htype | htype <;> rw [htype]
    · have htype : e.type = .functionArgsDone ∨ e.type = .customToolInputDone := by
        unfold isArgsDone at hd
        simpa using hd
      have hnot : isArgsDelta e = false := by
        unfold isArgsDelta
        rcases htype with htype | htype <;> rw [htype] <;> rfl
      refine ⟨s.flushPendingTool e, ?_, ?_⟩
      · rcases htype with htype | htype <;> rw [htype]
      · rw [step_other hi hnot]
        exact flushPendingTool_follows hc h ho ok hi hd
  · obtain ⟨item, hitem⟩ := Option.isSome_iff_exists.mp hi
    obtain ⟨htype, htool⟩ := item_event hitem
    refine ⟨s.toolItem J e item, ?_, toolItem_follows hc hfiled h wf ho ok hitem⟩
    rcases htype with htype | htype <;> rw [htype] <;> dsimp only <;>
      rw [ho.item, hitem] <;> dsimp only <;> rw [if_pos htool]

end Events

/-! ## The events of a stream -/

structure Chatting (J : StringCodec) (calls : List StreamedCall) (p : List Event)
    (s : ResponsesToChatStreamState) (fs : List ToolCallResponse) : Prop where
  filed : Filed calls s.maps fs
  each : ∀ c ∈ calls, Follows s.maps c (track J (p.filter c.names)) fs

section Run

variable {J : StringCodec} {calls : List StreamedCall} {body p : List Event} {e : Event}
  {s : ResponsesToChatStreamState} {fs : List ToolCallResponse}

theorem chatting_new (model : Text) (includeUsage : Bool) (now : ℤ) :
    Chatting J calls [] (newResponsesToChatStreamState model includeUsage now) [] := by
  refine ⟨⟨?_, ?_, ?_, ?_, ?_, ?_⟩, ?_⟩
  · intro k tool h
    cases h
  · intro k tool h
    cases h
  · intro k k' tool tool' h
    cases h
  · intro n h
    exact absurd rfl h
  · intro x h
    exact absurd rfl h
  · intro f hf
    cases hf
  · intro c _
    exact ⟨rfl, rfl, rfl, rfl, fun _ => rfl, fun h => by cases h⟩

theorem Chatting.event (hs : Streamed J calls body)
    (hr : ∀ c ∈ calls, Regular J c (body.filter c.names)) {after : List Event}
    (hbody : body = p ++ e :: after) (h : Chatting J calls p s fs) : ∃ s' chunks,
    responsesStreamEventToChatChunks J e s = .ok (s', chunks) ∧
    Chatting J calls (p ++ [e]) s' (fs ++ fragmentsOf chunks) ∧ contentOf chunks = textOf e := by
  have hmem : e ∈ body := by rw [hbody]; exact List.mem_append_right _ List.mem_cons_self
  rcases ht : isToolEvent e with _ | _
  · obtain ⟨s', chunks, hok, hsaid⟩ :=
      plainEvent_speaks (J := J) (s := s) ht (hs.running e hmem)
    refine ⟨s', chunks, hok, ⟨?_, ?_⟩, hsaid.content⟩
    · rw [hsaid.maps, hsaid.fragments, List.append_nil]
      exact h.filed
    · intro c hc
      have hn : c.names e = false := by
        unfold StreamedCall.names
        rw [ht, Bool.false_and]
      rw [hsaid.maps, hsaid.fragments, List.append_nil, filter_snoc_other hn]
      exact h.each c hc
  · obtain ⟨c, hc, ho⟩ := hs.owned e hmem ht
    have hn := names_of_owns ho ht
    obtain ⟨⟨s', chunks⟩, hok, hmoves, hfollows, htext⟩ := toolEvent_follows (hs.proper c hc)
      h.filed (h.each c hc) track_wf ho (hs.stepOK hc (hr c hc) hbody hn) ht
    have hfiled := h.filed.moves hmoves hc
    refine ⟨s', chunks, hok, ⟨hfiled, ?_⟩, htext.trans (textOf_tool ht).symm⟩
    intro d hd
    by_cases hsame : d = c
    · subst hsame
      rw [filter_snoc_own hn, track_snoc]
      exact hfollows
    · have hother : d.names e = false := by
        by_contra hyes
        exact hsame (hs.own hc hd ho (Bool.not_eq_false _ |>.mp hyes))
      rw [filter_snoc_other hother]
      refine (h.each d hd).other hmoves hfiled ?_ ?_
      · exact fun heq => hsame (hs.index_inj hd hc heq)
      · exact fun heq => hsame (hs.id_inj hd hc heq)

theorem streamEvents_cons {rest : List Event} {s₁ s₂ : ResponsesToChatStreamState}
    {first later : List ChatChunk}
    (h : responsesStreamEventToChatChunks J e s = .ok (s₁, first))
    (hrest : streamEvents J rest s₁ = .ok (s₂, later)) :
    streamEvents J (e :: rest) s = .ok (s₂, first ++ later) := by
  rw [streamEvents, h]
  dsimp only [bind, Except.bind]
  rw [hrest]
  rfl

theorem Chatting.run (hs : Streamed J calls body)
    (hr : ∀ c ∈ calls, Regular J c (body.filter c.names)) {rest : List Event} (last : List Event)
    (hbody : body = p ++ rest) (h : Chatting J calls p s fs) : ∃ s' chunks,
    Chatting J calls body s' (fs ++ fragmentsOf chunks) ∧
    contentOf chunks = rest.flatMap textOf ∧
    ∀ s'' later, streamEvents J last s' = .ok (s'', later) →
      streamEvents J (rest ++ last) s = .ok (s'', chunks ++ later) := by
  induction rest generalizing p s fs with
  | nil =>
    rw [List.append_nil] at hbody
    refine ⟨s, [], ?_, rfl, fun _ _ hlast => hlast⟩
    rw [hbody]
    show Chatting J calls p s (fs ++ [])
    rw [List.append_nil]
    exact h
  | cons e rest ih =>
    obtain ⟨s₁, first, hok, hnext, htext⟩ := h.event hs hr hbody
    obtain ⟨s₂, later, hend, hcontent, hlast⟩ := ih (by rw [hbody]; simp) hnext
    refine ⟨s₂, first ++ later, ?_, ?_, ?_⟩
    · rw [fragmentsOf_append, ← List.append_assoc]
      exact hend
    · rw [contentOf_append, htext, hcontent, List.flatMap_cons]
    · intro s'' tail htail
      rw [List.append_assoc]
      exact streamEvents_cons hok (hlast s'' tail htail)

end Run

/-! ## The end of a stream -/

section Terminal

variable {J : StringCodec} {calls : List StreamedCall} {body : List Event}
  {s : ResponsesToChatStreamState} {fs : List ToolCallResponse}

theorem toolDelta_quiet {tool : ResponsesStreamTool} (h : tool.out = tool) :
    s.toolDelta tool [] = (s.setTool tool, []) := by
  obtain ⟨hsent, hname, hlen⟩ := ResponsesStreamTool.of_out h
  have hnamed : tool.name = [] ∨ tool.nameSent = true := by
    by_cases hne : tool.name = []
    · exact .inl hne
    · exact .inr (hname.trans (decide_eq_true hne))
  unfold toolDelta
  have hargs : (if ([] : Text) = [] ∧ tool.argsSentAt < byteLength tool.arguments then
      dropBytes tool.argsSentAt tool.arguments else []) = [] := by
    rw [hlen]
    exact if_neg fun hlt => absurd hlt.2 (lt_irrefl _)
  rw [hargs]
  exact if_pos ⟨hsent, rfl, hnamed⟩

structure Settled (m : ToolMaps) : Prop where
  tools : ∀ k tool, m.toolByKey.lookup k = some tool → tool.key = k ∧ tool.out = tool
  waitIndex : ∀ n, m.pendingArgsByOutputIndex.lookup n = none
  waitID : ∀ x, m.pendingArgsByItemID.lookup x = none

theorem drainKey_settled (h : Settled s.maps) (tool : ResponsesStreamTool) (key : ToolKey) :
    (s.drainKey tool key).2 = tool ∧ Settled (s.drainKey tool key).1.maps ∧
      (s.drainKey tool key).1.maps.toolByKey = s.maps.toolByKey := by
  cases key with
  | output n =>
    have hnone : s.pendingArgsByOutputIndex.lookup n = none := h.waitIndex n
    refine ⟨?_, ⟨h.tools, ?_, h.waitID⟩, rfl⟩
    · show { tool with
        arguments := tool.arguments ++ (s.pendingArgsByOutputIndex.lookup n).getD [] } = tool
      rw [hnone, Option.getD_none, List.append_nil]
    · intro n'
      by_cases heq : n' = n
      · rw [heq]
        exact AList.lookup_erase _ _
      · exact (AList.lookup_erase_ne heq).trans (h.waitIndex n')
  | item id =>
    have hnone : s.pendingArgsByItemID.lookup id = none := h.waitID id
    refine ⟨?_, ⟨h.tools, h.waitIndex, ?_⟩, rfl⟩
    · show { tool with
        arguments := tool.arguments ++ (s.pendingArgsByItemID.lookup id).getD [] } = tool
      rw [hnone, Option.getD_none, List.append_nil]
    · intro x
      by_cases heq : x = id
      · rw [heq]
        exact AList.lookup_erase _ _
      · exact (AList.lookup_erase_ne heq).trans (h.waitID x)
  | call id => exact ⟨rfl, h, rfl⟩

theorem lookup_setTool {tool : ResponsesStreamTool} (k : ToolKey)
    (h : s.maps.toolByKey.lookup tool.key = some tool) :
    (s.setTool tool).maps.toolByKey.lookup k = s.maps.toolByKey.lookup k := by
  by_cases heq : k = tool.key
  · rw [heq, h]
    exact AList.lookup_insert _
  · exact AList.lookup_insert_ne heq

theorem flushKeys_settled {keys : List ToolKey} (h : Settled s.maps)
    (hkeys : ∀ k ∈ keys, s.maps.toolByKey.lookup k ≠ none) : (flushKeys keys s).2 = [] := by
  induction keys generalizing s with
  | nil => rfl
  | cons key keys ih =>
    obtain ⟨tool, hlook⟩ := Option.ne_none_iff_exists'.mp (hkeys key List.mem_cons_self)
    obtain ⟨hkey, hout⟩ := h.tools key tool hlook
    obtain ⟨htool, hsettled, hsame⟩ := drainKey_settled h tool key
    have hown : (s.drainKey tool key).1.maps.toolByKey.lookup tool.key = some tool := by
      rw [hsame, hkey]
      exact hlook
    unfold flushKeys
    rw [toolOrNew_some hlook]
    dsimp only
    rw [htool, toolDelta_quiet hout]
    refine ih ⟨?_, hsettled.waitIndex, hsettled.waitID⟩ ?_
    · intro k found hk
      rw [lookup_setTool k hown] at hk
      exact hsettled.tools k found hk
    · intro k hk
      rw [lookup_setTool k hown, hsame]
      exact hkeys k (List.mem_cons_of_mem _ hk)

theorem lookup_ne_none {m : ToolMaps} {k : ToolKey} (h : k ∈ m.toolByKey.keys) :
    m.toolByKey.lookup k ≠ none := by
  rw [Ne, AList.lookup_eq_none, not_not]
  exact AList.mem_keys.mpr h

theorem flushAllPendingTools_settled (h : Settled s.maps) : s.flushAllPendingTools.2 = [] := by
  refine flushKeys_settled h ?_
  intro k hk
  have hno : s.pendingArgsByOutputIndex.keys = [] := by
    refine List.eq_nil_iff_forall_not_mem.mpr ?_
    intro n hn
    exact AList.lookup_eq_none.mp (h.waitIndex n) (AList.mem_keys.mpr hn)
  have hnone : s.pendingArgsByItemID.keys = [] := by
    refine List.eq_nil_iff_forall_not_mem.mpr ?_
    intro x hx
    exact AList.lookup_eq_none.mp (h.waitID x) (AList.mem_keys.mpr hx)
  unfold pendingKeys at hk
  rw [hno, hnone] at hk
  have hmem := (List.perm_insertionSort _ _).mem_iff.mp hk
  refine lookup_ne_none ?_
  show k ∈ s.toolByKey.keys
  simpa using hmem

theorem finalize_settled (h : Settled s.maps) (response : Option OpenAIResponsesResponse) :
    fragmentsOf (s.finalize response).2 = [] ∧ contentOf (s.finalize response).2 = [] := by
  have hquiet := flushAllPendingTools_settled (s := { s with finalized := true }) h
  unfold finalize
  split
  · exact ⟨rfl, rfl⟩
  dsimp only
  rw [hquiet]
  simp only [fragmentsOf_append, contentOf_append, (ensureStart_speaks _).fragments,
    (ensureStart_speaks _).content]
  generalize { s with finalized := true }.flushAllPendingTools.1.ensureStart.1 = last
  cases last.includeUsage <;> exact ⟨rfl, rfl⟩

theorem Chatting.settled (hs : Streamed J calls body) (h : Chatting J calls body s fs) :
    Settled s.maps := by
  refine ⟨?_, ?_, ?_⟩
  · intro k tool hlook
    obtain ⟨c, hc, rfl⟩ := h.filed.keys k tool hlook
    obtain ⟨own, hown, hshows⟩ := (h.each c hc).known (hs.known hc)
    rw [hlook] at hown
    cases hown
    exact ⟨hshows.key, hshows.out⟩
  · intro n
    by_contra hne
    obtain ⟨c, hc, rfl⟩ := h.filed.waitIndex n hne
    refine hne ?_
    rw [(h.each c hc).waitIndex, track_wf.noIndex (hs.known hc)]
    rfl
  · intro x
    by_contra hne
    obtain ⟨c, hc, rfl⟩ := h.filed.waitID x hne
    refine hne ?_
    rw [(h.each c hc).waitID, track_wf.noID (hs.known hc)]
    rfl

structure EmptyEnd (e : Event) : Prop where
  type : e.type = .completed ∨ e.type = .done ∨ e.type = .incomplete
  output : ∀ response, e.response = some response → response.output = []

theorem terminalChunks_settled (h : Settled s.maps) {response : Option OpenAIResponsesResponse}
    (hout : ∀ r, response = some r → r.output = []) :
    fragmentsOf (terminalChunks J response s).2 = [] ∧
      contentOf (terminalChunks J response s).2 = [] := by
  have hmeta : Settled (s.applyResponseMetadata response).maps := by
    rw [(applyResponseMetadata_speaks s response).maps]
    exact h
  have hnone : (s.applyResponseMetadata response).terminalOutputChunks J response =
      (s.applyResponseMetadata response, []) := by
    rcases response with _ | r
    · rfl
    · unfold terminalOutputChunks
      dsimp only
      rw [hout r rfl]
      rfl
  unfold terminalChunks
  dsimp only
  rw [hnone]
  exact finalize_settled hmeta response

theorem lastEvent_settled {e : Event} (h : Settled s.maps) (he : EmptyEnd e) : ∃ s' chunks,
    streamEvents J [e] s = .ok (s', chunks) ∧ fragmentsOf chunks = [] ∧ contentOf chunks = [] := by
  have hend : ∀ response : Option OpenAIResponsesResponse,
      (∀ r, response = some r → r.output = []) →
      responsesStreamEventToChatChunks J e s = .ok (terminalChunks J response s) →
      ∃ s' chunks, streamEvents J [e] s = .ok (s', chunks) ∧ fragmentsOf chunks = [] ∧
        contentOf chunks = [] := by
    intro response hout hok
    obtain ⟨hfrag, hcontent⟩ := terminalChunks_settled (J := J) h hout
    refine ⟨_, _, streamEvents_cons hok rfl, ?_, ?_⟩
    · rw [List.append_nil]
      exact hfrag
    · rw [List.append_nil]
      exact hcontent
  rcases he.type with htype | htype | htype
  · refine hend e.response he.output ?_
    unfold responsesStreamEventToChatChunks
    rw [htype]
  · refine hend e.response he.output ?_
    unfold responsesStreamEventToChatChunks
    rw [htype]
  · refine hend (some (ensureIncompleteResponse e.response)) ?_ ?_
    · intro r hr
      rw [← Option.some.inj hr]
      rcases hresp : e.response with _ | resp
      · rfl
      · have hempty := he.output resp hresp
        show OpenAIResponsesResponse.output (if resp.status = [] then _ else _) = []
        split <;> exact hempty
    · unfold responsesStreamEventToChatChunks
      rw [htype]

end Terminal

/-! ## What a client joins -/

def joinedCalls (fs : List ToolCallResponse) : List (Text × Text × Text) :=
  (fs.map ToolCallResponse.index).dedup.map fun i =>
    let own := fs.filter fun f => decide (f.index = i)
    ((own.head?.map ToolCallResponse.id).getD [], own.flatMap ToolCallResponse.name,
      own.flatMap ToolCallResponse.arguments)

def toldCall (J : StringCodec) (c : StreamedCall) (es : List Event) : Text × Text × Text :=
  (c.shownID, (track J es).name, (track J es).args)

theorem joined_of_tells {id name args : Text} (h : Tells fs id name args) (hne : fs ≠ []) :
    ((fs.head?.map ToolCallResponse.id).getD [], fs.flatMap ToolCallResponse.name,
      fs.flatMap ToolCallResponse.arguments) = (id, name, args) := by
  obtain ⟨f, rest, rfl⟩ := List.exists_cons_of_ne_nil hne
  rw [h.names, h.args]
  have hid := h.ids f List.mem_cons_self
  show (f.id, name, args) = (id, name, args)
  rw [hid]

theorem Chatting.mem_joinedCalls {J : StringCodec} {calls : List StreamedCall} {body : List Event}
    {s : ResponsesToChatStreamState} (hs : Streamed J calls body) (h : Chatting J calls body s fs)
    (call : Text × Text × Text) :
    call ∈ joinedCalls fs ↔ ∃ c ∈ calls, call = toldCall J c (body.filter c.names) := by
  unfold joinedCalls
  rw [List.mem_map]
  constructor
  · rintro ⟨i, hi, rfl⟩
    obtain ⟨f, hf, rfl⟩ := List.mem_map.mp (List.mem_dedup.mp hi)
    obtain ⟨k, tool, hlook, hindex⟩ := h.filed.emitted f hf
    obtain ⟨c, hc, rfl⟩ := h.filed.keys k tool hlook
    obtain ⟨own, hlook', hshows⟩ := (h.each c hc).known (hs.known hc)
    rw [hlook] at hlook'
    cases hlook'
    refine ⟨c, hc, ?_⟩
    rw [hindex]
    exact joined_of_tells hshows.told hshows.spoke
  · rintro ⟨c, hc, rfl⟩
    obtain ⟨tool, hlook, hshows⟩ := (h.each c hc).known (hs.known hc)
    obtain ⟨f, hf⟩ := List.exists_mem_of_ne_nil _ hshows.spoke
    obtain ⟨hmem, hindex⟩ := List.mem_filter.mp hf
    refine ⟨some tool.index, ?_, joined_of_tells hshows.told hshows.spoke⟩
    rw [List.mem_dedup, ← of_decide_eq_true hindex]
    exact List.mem_map_of_mem hmem

end NewApi.RelayConvert
