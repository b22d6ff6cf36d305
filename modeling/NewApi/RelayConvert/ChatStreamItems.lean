import NewApi.Lib.Roster
import NewApi.RelayConvert.ChatStream

/-!
# The items of a converted chat stream

The state of the converter is a roster of items.
-/

namespace NewApi.RelayConvert

open NewApi.Dto ChatToResponsesStreamState

/-! ## Fragments as inputs of a roster -/

/-- A piece of one item, with the id that the response has when it arrives. -/
inductive Fragment where
  | reasoning (responseID delta : Text)
  | text (responseID delta : Text)
  | tool (responseID : Text) (call : ToolCallResponse)
  deriving DecidableEq, Repr

structure Entry where
  id : Text
  name : Text := []
  content : Text := []
  deriving DecidableEq, Repr

namespace Fragment

def key : Fragment → OutputRef
  | reasoning _ _ => .reasoning
  | text _ _ => .message
  | tool _ call => .tool (call.index.getD 0)

def fresh : Fragment → Entry
  | reasoning responseID _ => { id := responseID ++ "_reasoning_0".toList }
  | text responseID _ => { id := responseID ++ "_msg_0".toList }
  | tool responseID call =>
    { id := if trimSpace call.id = [] then generatedCallID responseID (call.index.getD 0)
        else trimSpace call.id
      name := trimSpace call.name }

def absorb (v : Entry) : Fragment → Entry
  | reasoning responseID delta =>
    { v with
      id := responseID ++ "_reasoning_0".toList
      content := v.content ++ delta }
  | text responseID delta =>
    { v with
      id := responseID ++ "_msg_0".toList
      content := v.content ++ delta }
  | tool _ call =>
    { id := if trimSpace call.id ≠ [] then trimSpace call.id else v.id
      name := if trimSpace call.name ≠ [] then trimSpace call.name else v.name
      content := v.content ++ call.arguments }

def added (n : ℕ) (f : Fragment) : StreamEvent :=
  match f with
  | reasoning _ _ =>
    { type := .outputItemAdded
      outputIndex := some n
      item := some { type := .reasoning
                     id := f.fresh.id
                     status := inProgress } }
  | text _ _ =>
    { type := .outputItemAdded
      outputIndex := some n
      item := some { type := .message
                     id := f.fresh.id
                     status := inProgress
                     role := assistant } }
  | tool _ _ =>
    { type := .outputItemAdded
      outputIndex := some n
      itemID := f.fresh.id
      item := some { type := .functionCall
                     id := f.fresh.id
                     status := inProgress
                     callId := f.fresh.id
                     name := f.fresh.name
                     arguments := "\"\"".toList } }

def touch (n : ℕ) (v : Entry) : Fragment → List StreamEvent
  | reasoning _ delta =>
    [{ type := .reasoningSummaryDelta
       outputIndex := some n
       summaryIndex := some 0
       delta := delta
       itemID := v.id }]
  | text _ delta =>
    [{ type := .outputTextDelta
       outputIndex := some n
       contentIndex := some 0
       delta := delta
       itemID := v.id }]
  | tool _ call => if call.arguments ≠ [] then
      [{ type := .functionArgsDelta
         outputIndex := some n
         itemID := v.id
         delta := call.arguments }] else []

end Fragment

abbrev Items := Roster OutputRef Entry

namespace Items

def put (R : Items) (f : Fragment) : Items := Roster.put Fragment.key Fragment.fresh Fragment.absorb R f

def puts (R : Items) (fs : List Fragment) : Items :=
  Roster.puts Fragment.key Fragment.fresh Fragment.absorb R fs

def emit (R : Items) (f : Fragment) : List StreamEvent :=
  Roster.emit Fragment.key Fragment.fresh Fragment.absorb Fragment.added Fragment.touch R f

def emits (R : Items) (fs : List Fragment) : List StreamEvent :=
  Roster.emits Fragment.key Fragment.fresh Fragment.absorb Fragment.added Fragment.touch R fs

theorem get?_put_self (R : Items) (f : Fragment) :
    (R.put f).get? f.key = some (Fragment.absorb ((R.get? f.key).getD f.fresh) f) := by
  unfold put
  rw [Roster.get?_put, if_pos rfl]

variable {R : Items} {k : OutputRef} {f : Fragment}

theorem get?_put_other (h : k ≠ f.key) : (R.put f).get? k = R.get? k := by
  unfold put
  rw [Roster.get?_put, if_neg h]

theorem position_put (h : (R.get? k).isSome = true) (f : Fragment) :
    (R.put f).position k = R.position k :=
  Roster.position_put Fragment.key Fragment.fresh Fragment.absorb ((R.mem_keys_iff k).mpr h) f

theorem position_put_new (h : R.get? f.key = none) :
    (R.put f).position f.key = R.entries.length := by
  have hmem : f.key ∉ R.keys := by
    rw [R.mem_keys_iff, h]
    simp
  exact Roster.position_eq (Roster.keys_getElem?
    (Roster.getElem?_put_new Fragment.key Fragment.fresh Fragment.absorb hmem))

theorem position_new (h : R.get? k = none) : R.position k = R.entries.length := by
  apply Roster.position_of_not_mem
  rw [R.mem_keys_iff, h]
  simp

theorem keys_put :
    (R.put f).keys = if (R.get? f.key).isSome then R.keys else R.keys ++ [f.key] := by
  split
  · next h =>
    exact Roster.keys_put_of_mem Fragment.key Fragment.fresh Fragment.absorb
      ((R.mem_keys_iff f.key).mpr h)
  · next h =>
    apply Roster.keys_put_of_not_mem
    rw [R.mem_keys_iff]
    exact h

theorem length_keys (R : Items) : R.keys.length = R.entries.length := List.length_map ..

end Items

/-! ## The state as a roster -/

def toolAt (k : ℤ) (done : Bool) (n : ℕ) (v : Entry) : ChatToResponsesStreamTool :=
  { chatIndex := k
    outputIndex := n
    id := v.id
    name := v.name
    arguments := v.content
    done := done }

structure Slot (R : Items) (k : OutputRef) (started : Bool) (index : ℤ) (content : Text) :
    Prop where
  there : started = (R.get? k).isSome
  position : started = true → index = R.position k
  holds : content = ((R.get? k).map Entry.content).getD []

structure Refines (s : ChatToResponsesStreamState) (R : Items) (done : Bool) : Prop where
  order : s.outputOrder = R.keys
  next : s.nextOutputIndex = R.entries.length
  text : Slot R .message s.textStarted s.textOutputIndex s.text
  textDone : s.textDone = (done && s.textStarted)
  reasoning : Slot R .reasoning s.reasoningStarted s.reasoningIndex s.reasoning
  reasoningDone : s.reasoningDone = (done && s.reasoningStarted)
  tools : ∀ k, s.tool? k = (R.get? (.tool k)).map (toolAt k done (R.position (.tool k)))
  nodup : (s.toolsByIndex.map ChatToResponsesStreamTool.chatIndex).Nodup

structure SameHeader (s s' : ChatToResponsesStreamState) : Prop where
  id : s'.id = s.id
  status : s'.status = s.status
  sentCreated : s'.sentCreated = s.sentCreated
  finalized : s'.finalized = s.finalized

theorem SameHeader.refl (s : ChatToResponsesStreamState) : SameHeader s s := ⟨rfl, rfl, rfl, rfl⟩

theorem SameHeader.trans {a b c : ChatToResponsesStreamState} (h : SameHeader a b)
    (h' : SameHeader b c) : SameHeader a c where
  id := h'.id.trans h.id
  status := h'.status.trans h.status
  sentCreated := h'.sentCreated.trans h.sentCreated
  finalized := h'.finalized.trans h.finalized

/-! ## One fragment -/

section Step

variable {s : ChatToResponsesStreamState} {R : Items} {f : Fragment} {k : OutputRef}

theorem map_get?_put {α : Type*} (g : ℕ → Entry → α) (h : k ≠ f.key) :
    ((R.put f).get? k).map (g ((R.put f).position k)) = (R.get? k).map (g (R.position k)) := by
  rw [Items.get?_put_other h]
  rcases hget : R.get? k with _ | v
  · rfl
  · rw [Items.position_put (by rw [hget]; rfl)]

variable {toolCall : ToolCallResponse} {index : ℤ} {content : Text}

theorem Slot.put_other {started : Bool} (h : Slot R k started index content) (hk : k ≠ f.key) :
    Slot (R.put f) k started index content where
  there := by
    rw [Items.get?_put_other hk]
    exact h.there
  position hs := by
    rw [Items.position_put (by rw [← h.there]; exact hs)]
    exact h.position hs
  holds := by
    rw [Items.get?_put_other hk]
    exact h.holds

theorem Slot.exists_entry (h : Slot R k true index content) :
    ∃ v, R.get? k = some v ∧ index = R.position k ∧ content = v.content := by
  obtain ⟨v, hv⟩ := Option.isSome_iff_exists.mp h.there.symm
  have hcontent := h.holds
  rw [hv] at hcontent
  exact ⟨v, hv, h.position rfl, hcontent⟩

theorem Slot.absent (h : Slot R k false index content) : R.get? k = none ∧ content = [] := by
  have hnone : R.get? k = none := by
    rcases hget : R.get? k with _ | v
    · rfl
    · have hthere := h.there
      rw [hget] at hthere
      cases hthere
  have hcontent := h.holds
  rw [hnone] at hcontent
  exact ⟨hnone, hcontent⟩

theorem Slot.put_old {content delta : Text} (h : Slot R f.key true index content)
    (hd : ∀ v, (Fragment.absorb v f).content = v.content ++ delta) :
    Slot (R.put f) f.key true index (content ++ delta) := by
  obtain ⟨v, hv, hindex, hcontent⟩ := h.exists_entry
  constructor
  · rw [Items.get?_put_self]
    rfl
  · intro _
    rw [Items.position_put h.there.symm, hindex]
  · rw [Items.get?_put_self, hv, hcontent]
    exact (hd v).symm

theorem Slot.put_new {content delta : Text} (h : Slot R f.key false index content)
    (hf : f.fresh.content = []) (hd : ∀ v, (Fragment.absorb v f).content = v.content ++ delta) :
    Slot (R.put f) f.key true R.entries.length (content ++ delta) := by
  obtain ⟨hnone, hcontent⟩ := h.absent
  constructor
  · rw [Items.get?_put_self]
    rfl
  · intro _
    rw [Items.position_put_new hnone]
  · rw [Items.get?_put_self, hnone, hcontent, ← hf]
    exact (hd f.fresh).symm

theorem Refines.next_put (h : Refines s R false) (hnew : R.get? f.key = none) :
    s.outputOrder ++ [f.key] = (R.put f).keys ∧
      s.nextOutputIndex + 1 = ((R.put f).entries.length : ℤ) := by
  have hkeys : (R.put f).keys = R.keys ++ [f.key] := by
    rw [Items.keys_put, hnew]
    rfl
  refine ⟨by rw [hkeys, h.order], ?_⟩
  rw [← Items.length_keys, hkeys, List.length_append, Items.length_keys, h.next]
  rfl

theorem Refines.keep_put (h : Refines s R false) (hold : (R.get? f.key).isSome = true) :
    s.outputOrder = (R.put f).keys ∧ s.nextOutputIndex = ((R.put f).entries.length : ℤ) := by
  have hkeys : (R.put f).keys = R.keys := by
    rw [Items.keys_put, if_pos hold]
  refine ⟨by rw [hkeys, h.order], ?_⟩
  rw [← Items.length_keys, hkeys, Items.length_keys, h.next]

theorem emit_old {v : Entry} (h : R.get? f.key = some v) :
    R.emit f = f.touch (R.position f.key) (Fragment.absorb v f) := by
  unfold Items.emit Roster.emit
  rw [h]

theorem emit_new (h : R.get? f.key = none) :
    R.emit f = f.added R.entries.length ::
      f.touch R.entries.length (Fragment.absorb f.fresh f) := by
  unfold Items.emit Roster.emit
  rw [h, Items.position_new h]

structure Appends (s : ChatToResponsesStreamState) (R : Items) (fs : List Fragment)
    (out : ChatToResponsesStreamState × List StreamEvent) : Prop where
  refines : Refines out.1 (R.puts fs) false
  events : out.2 = R.emits fs
  same : SameHeader s out.1

theorem emits_singleton (R : Items) (f : Fragment) : R.emits [f] = R.emit f := List.append_nil _

theorem Refines.tools_put (h : Refines s R false) (hf : ∀ k, OutputRef.tool k ≠ f.key) (k : ℤ) :
    s.tool? k = ((R.put f).get? (.tool k)).map
      (toolAt k false ((R.put f).position (.tool k))) := by
  rw [map_get?_put (toolAt k false) (hf k)]
  exact h.tools k

theorem appendTextDelta_appends (h : Refines s R false) (delta : Text) :
    Appends s R [.text s.id delta] (s.appendTextDelta delta) := by
  have hd : ∀ v, (Fragment.absorb v (.text s.id delta)).content = v.content ++ delta :=
    fun _ => rfl
  have hother : OutputRef.reasoning ≠ (Fragment.text s.id delta).key := by simp [Fragment.key]
  have htools := h.tools_put (f := .text s.id delta) (by simp [Fragment.key])
  have hslot : Slot R (Fragment.text s.id delta).key _ _ _ := h.text
  unfold appendTextDelta startText
  rcases hstart : s.textStarted
  · rw [hstart] at hslot
    obtain ⟨horder, hnext⟩ := h.next_put hslot.absent.1
    have hnew := hslot.put_new rfl hd
    rw [← h.next] at hnew
    refine ⟨⟨horder, hnext, hnew, h.textDone, h.reasoning.put_other hother, h.reasoningDone,
      htools, h.nodup⟩, ?_, ⟨rfl, rfl, rfl, rfl⟩⟩
    dsimp only [nextIndex]
    rw [emits_singleton, emit_new hslot.absent.1, h.next]
    rfl
  · rw [hstart] at hslot
    obtain ⟨v, hv, hindex, -⟩ := hslot.exists_entry
    obtain ⟨horder, hnext⟩ := h.keep_put hslot.there.symm
    have hold := hslot.put_old hd
    rw [← hstart] at hold
    rw [if_pos rfl]
    refine ⟨⟨horder, hnext, hold, h.textDone, h.reasoning.put_other hother, h.reasoningDone,
      htools, h.nodup⟩, ?_, ⟨rfl, rfl, rfl, rfl⟩⟩
    dsimp only
    rw [emits_singleton, emit_old hv, hindex]
    rfl

theorem appendReasoningDelta_appends (h : Refines s R false) (delta : Text) :
    Appends s R [.reasoning s.id delta] (s.appendReasoningDelta delta) := by
  have hd : ∀ v, (Fragment.absorb v (.reasoning s.id delta)).content = v.content ++ delta :=
    fun _ => rfl
  have hother : OutputRef.message ≠ (Fragment.reasoning s.id delta).key := by simp [Fragment.key]
  have htools := h.tools_put (f := .reasoning s.id delta) (by simp [Fragment.key])
  have hslot : Slot R (Fragment.reasoning s.id delta).key _ _ _ := h.reasoning
  unfold appendReasoningDelta startReasoning
  rcases hstart : s.reasoningStarted
  · rw [hstart] at hslot
    obtain ⟨horder, hnext⟩ := h.next_put hslot.absent.1
    have hnew := hslot.put_new rfl hd
    rw [← h.next] at hnew
    refine ⟨⟨horder, hnext, h.text.put_other hother, h.textDone, hnew, h.reasoningDone, htools,
      h.nodup⟩, ?_, ⟨rfl, rfl, rfl, rfl⟩⟩
    dsimp only [nextIndex]
    rw [emits_singleton, emit_new hslot.absent.1, h.next]
    rfl
  · rw [hstart] at hslot
    obtain ⟨v, hv, hindex, -⟩ := hslot.exists_entry
    obtain ⟨horder, hnext⟩ := h.keep_put hslot.there.symm
    have hold := hslot.put_old hd
    rw [← hstart] at hold
    rw [if_pos rfl]
    refine ⟨⟨horder, hnext, h.text.put_other hother, h.textDone, hold, h.reasoningDone,
      htools, h.nodup⟩, ?_, ⟨rfl, rfl, rfl, rfl⟩⟩
    dsimp only
    rw [emits_singleton, emit_old hv, hindex]
    rfl

/-! ### Tool fragments -/

theorem find?_map_tools {g : ChatToResponsesStreamTool → ChatToResponsesStreamTool}
    (hg : ∀ t, (g t).chatIndex = t.chatIndex) (l : List ChatToResponsesStreamTool) (k : ℤ) :
    (l.map g).find? (fun t => decide (t.chatIndex = k)) =
      (l.find? fun t => decide (t.chatIndex = k)).map g := by
  rw [List.find?_map]
  congr 2
  funext t
  simp [hg]

theorem chatIndex_replace (tool t : ChatToResponsesStreamTool) :
    (if t.chatIndex = tool.chatIndex then tool else t).chatIndex = t.chatIndex := by
  split
  · next h => exact h.symm
  · rfl

theorem tool?_setTool (tool : ChatToResponsesStreamTool) (k : ℤ) :
    (s.setTool tool).tool? k =
      (s.tool? k).map fun t => if t.chatIndex = tool.chatIndex then tool else t :=
  find?_map_tools (chatIndex_replace tool) s.toolsByIndex k

theorem map_chatIndex_setTool (tool : ChatToResponsesStreamTool) :
    (s.setTool tool).toolsByIndex.map ChatToResponsesStreamTool.chatIndex =
      s.toolsByIndex.map ChatToResponsesStreamTool.chatIndex := by
  unfold setTool
  rw [List.map_map]
  exact List.map_congr_left fun t _ => chatIndex_replace tool t

def absorbTool (tool : ChatToResponsesStreamTool) (toolCall : ToolCallResponse) :
    ChatToResponsesStreamTool :=
  { tool with
    id := if trimSpace toolCall.id ≠ [] then trimSpace toolCall.id else tool.id
    name := if trimSpace toolCall.name ≠ [] then trimSpace toolCall.name else tool.name
    arguments := tool.arguments ++ toolCall.arguments }

def freshTool (s : ChatToResponsesStreamState) (toolCall : ToolCallResponse) :
    ChatToResponsesStreamTool :=
  { chatIndex := toolCall.index.getD 0
    outputIndex := s.nextOutputIndex
    id := if trimSpace toolCall.id = [] then generatedCallID s.id (toolCall.index.getD 0)
      else trimSpace toolCall.id
    name := trimSpace toolCall.name }

def addTool (s : ChatToResponsesStreamState) (toolCall : ToolCallResponse) :
    ChatToResponsesStreamState :=
  { s with
    nextOutputIndex := s.nextOutputIndex + 1
    outputOrder := s.outputOrder ++ [.tool (toolCall.index.getD 0)]
    toolsByIndex := s.toolsByIndex ++ [freshTool s toolCall] }

theorem tools_absorb (s' : ChatToResponsesStreamState) {v : Entry} {responseID : Text}
    (hself : s'.tool? (toolCall.index.getD 0) =
      some (toolAt (toolCall.index.getD 0) false
        ((R.put (.tool responseID toolCall)).position (.tool (toolCall.index.getD 0))) v))
    (hput : (R.put (.tool responseID toolCall)).get? (.tool (toolCall.index.getD 0)) =
      some (Fragment.absorb v (.tool responseID toolCall)))
    (hother : ∀ k, k ≠ toolCall.index.getD 0 →
      s'.tool? k = (R.get? (.tool k)).map (toolAt k false (R.position (.tool k))))
    {tool : ChatToResponsesStreamTool}
    (htool : tool = toolAt (toolCall.index.getD 0) false
        ((R.put (.tool responseID toolCall)).position (.tool (toolCall.index.getD 0)))
        (Fragment.absorb v (.tool responseID toolCall))) (k : ℤ) : (s'.setTool tool).tool? k =
      ((R.put (.tool responseID toolCall)).get? (.tool k)).map
        (toolAt k false ((R.put (.tool responseID toolCall)).position (.tool k))) := by
  rw [tool?_setTool]
  by_cases hk : k = toolCall.index.getD 0
  · rw [hk, hself, hput, htool]
    exact congrArg some (if_pos rfl)
  · have hkey : OutputRef.tool k ≠ (Fragment.tool responseID toolCall).key := by
      simpa [Fragment.key] using hk
    rw [map_get?_put (toolAt k false) hkey, hother k hk, Option.map_map]
    congr 1
    funext v'
    have hne : ¬ (toolAt k false (R.position (.tool k)) v').chatIndex = tool.chatIndex := by
      rw [htool]
      exact hk
    exact if_neg hne

theorem appendToolCallDelta_appends (h : Refines s R false) (toolCall : ToolCallResponse) :
    Appends s R [.tool s.id toolCall] (s.appendToolCallDelta toolCall) := by
  have htext : Slot (R.put (.tool s.id toolCall)) .message _ _ _ :=
    h.text.put_other (by simp [Fragment.key])
  have hreasoning : Slot (R.put (.tool s.id toolCall)) .reasoning _ _ _ :=
    h.reasoning.put_other (by simp [Fragment.key])
  have hself := R.get?_put_self (.tool s.id toolCall)
  have htool := h.tools (toolCall.index.getD 0)
  rcases hget : R.get? (Fragment.tool s.id toolCall).key with _ | v
  · rw [show R.get? (.tool (toolCall.index.getD 0)) = none from hget] at htool
    obtain ⟨horder, hnext⟩ := h.next_put hget
    have hpos := Items.position_put_new hget
    rw [hget] at hself
    have hfresh : freshTool s toolCall = toolAt (toolCall.index.getD 0) false
        ((R.put (.tool s.id toolCall)).position (.tool (toolCall.index.getD 0)))
        (Fragment.fresh (.tool s.id toolCall)) := by
      unfold freshTool toolAt
      rw [show (R.put (.tool s.id toolCall)).position (.tool (toolCall.index.getD 0)) =
        R.entries.length from hpos, h.next]
      rfl
    have hadd : ∀ k, (addTool s toolCall).tool? k =
        (s.tool? k).or (if toolCall.index.getD 0 = k then some (freshTool s toolCall)
          else none) := by
      intro k
      unfold addTool tool?
      rw [List.find?_append]
      congr 1
      by_cases hk : toolCall.index.getD 0 = k
      · simp [freshTool]
      · simp [freshTool]
    have hthere : (addTool s toolCall).tool? (toolCall.index.getD 0) =
        some (toolAt (toolCall.index.getD 0) false
          ((R.put (.tool s.id toolCall)).position (.tool (toolCall.index.getD 0)))
          (Fragment.fresh (.tool s.id toolCall))) := by
      rw [hadd, htool, if_pos rfl, hfresh]
      rfl
    have hothers : ∀ k, k ≠ toolCall.index.getD 0 → (addTool s toolCall).tool? k =
        (R.get? (.tool k)).map (toolAt k false (R.position (.tool k))) := by
      intro k hk
      rw [hadd, if_neg (Ne.symm hk), Option.or_none]
      exact h.tools k
    have habsorb := congrArg (absorbTool · toolCall) hfresh
    have htools := tools_absorb (addTool s toolCall) hthere hself hothers habsorb
    unfold appendToolCallDelta startTool
    dsimp only
    rw [htool]
    dsimp only [nextIndex]
    refine ⟨⟨horder, hnext, htext, h.textDone, hreasoning, h.reasoningDone, htools, ?_⟩, ?_,
      ⟨rfl, rfl, rfl, rfl⟩⟩
    · rw [map_chatIndex_setTool]
      show (List.map _ (s.toolsByIndex ++ [freshTool s toolCall])).Nodup
      rw [List.map_append, List.nodup_append]
      refine ⟨h.nodup, List.nodup_singleton _, ?_⟩
      intro a ha b hb hab
      obtain ⟨t, ht, rfl⟩ := List.mem_map.mp ha
      have hb' : b = toolCall.index.getD 0 := by simpa [freshTool] using hb
      have hnone := List.find?_eq_none.mp htool t ht
      exact hnone (by simp [hab, hb'])
    · rw [emits_singleton, emit_new hget, h.next]
      rfl
  · rw [show R.get? (.tool (toolCall.index.getD 0)) = some v from hget] at htool
    have hsome : (R.get? (Fragment.tool s.id toolCall).key).isSome = true := by
      rw [hget]
      rfl
    obtain ⟨horder, hnext⟩ := h.keep_put hsome
    have hpos := Items.position_put hsome (.tool s.id toolCall)
    rw [hget] at hself
    have hthere : s.tool? (toolCall.index.getD 0) =
        some (toolAt (toolCall.index.getD 0) false
          ((R.put (.tool s.id toolCall)).position (.tool (toolCall.index.getD 0))) v) := by
      rw [htool, show (R.put (.tool s.id toolCall)).position (.tool (toolCall.index.getD 0)) =
        R.position (.tool (toolCall.index.getD 0)) from hpos]
      rfl
    have htools := tools_absorb s hthere hself (fun k _ => h.tools k) rfl
    unfold appendToolCallDelta startTool
    dsimp only
    rw [hthere]
    refine ⟨⟨horder, hnext, htext, h.textDone, hreasoning, h.reasoningDone, htools, ?_⟩, ?_,
      ⟨rfl, rfl, rfl, rfl⟩⟩
    · rw [map_chatIndex_setTool]
      exact h.nodup
    · rw [emits_singleton, emit_old hget, ← hpos]
      rfl

/-! ## The deltas of a choice -/

theorem Appends.nil (h : Refines s R false) : Appends s R [] (s, []) := ⟨h, rfl, .refl s⟩

theorem Appends.trans {fs gs : List Fragment} {out out' : ChatToResponsesStreamState × List StreamEvent}
    (h : Appends s R fs out) (h' : Appends out.1 (R.puts fs) gs out') :
    Appends s R (fs ++ gs) (out'.1, out.2 ++ out'.2) where
  refines := by
    unfold Items.puts
    rw [Roster.puts_append]
    exact h'.refines
  events := by
    rw [h.events, h'.events]
    exact (Roster.emits_append _ _ _ _ _ _ _ _).symm
  same := h.same.trans h'.same

def choiceFragments (responseID : Text) (delta : ChoiceDelta) : List Fragment :=
  (if delta.getReasoningContent ≠ [] then [.reasoning responseID delta.getReasoningContent]
    else []) ++
  (if delta.getContentString ≠ [] then [.text responseID delta.getContentString] else []) ++
  delta.toolCalls.map (.tool responseID)

theorem appendToolCallDeltas_appends (h : Refines s R false) (calls : List ToolCallResponse) :
    Appends s R (calls.map (.tool s.id)) (appendToolCallDeltas calls s) := by
  induction calls generalizing s R with
  | nil => exact .nil h
  | cons call calls ih =>
    have hhead := appendToolCallDelta_appends h call
    have htail := ih hhead.refines
    rw [hhead.same.id] at htail
    exact hhead.trans htail

theorem appendDelta_appends (h : Refines s R false) (delta : ChoiceDelta) :
    Appends s R (choiceFragments s.id delta) (s.appendDelta delta) := by
  have hreasoning : Appends s R
      (if delta.getReasoningContent ≠ [] then [.reasoning s.id delta.getReasoningContent] else [])
      (if delta.getReasoningContent ≠ [] then s.appendReasoningDelta delta.getReasoningContent
        else (s, [])) := by
    split
    · exact appendReasoningDelta_appends h _
    · exact .nil h
  have htext : ∀ {s' : ChatToResponsesStreamState} {R' : Items}, Refines s' R' false →
      Appends s' R' (if delta.getContentString ≠ [] then [.text s'.id delta.getContentString]
          else [])
        (if delta.getContentString ≠ [] then s'.appendTextDelta delta.getContentString
          else (s', [])) := by
    intro s' R' h'
    split
    · exact appendTextDelta_appends h' _
    · exact .nil h'
  have hmid := htext hreasoning.refines
  rw [hreasoning.same.id] at hmid
  have hboth := hreasoning.trans hmid
  have hcalls := appendToolCallDeltas_appends hboth.refines delta.toolCalls
  rw [hboth.same.id] at hcalls
  exact hboth.trans hcalls

end Step

/-! ## Closing the items -/

section Done

variable {J : StringCodec} {s : ChatToResponsesStreamState} {R : Items}

def itemOf (J : StringCodec) (responseID status : Text) (k : OutputRef) (v : Entry) :
    ResponsesOutput :=
  match k with
  | .message => messageOutput (responseID ++ "_msg_0".toList) status v.content
  | .reasoning => reasoningOutput (responseID ++ "_reasoning_0".toList) status v.content
  | .tool _ =>
    { type := .functionCall
      id := v.id
      status := status
      callId := v.id
      name := v.name
      arguments := chatArgumentsRawMessage J v.content }

def closing (J : StringCodec) (responseID status : Text) (n : ℕ) (k : OutputRef) (v : Entry) :
    List StreamEvent :=
  let item := itemOf J responseID status k v
  match k with
  | .message =>
    [{ type := .outputTextDone
       outputIndex := some n
       contentIndex := some 0
       itemID := item.id },
     { type := .outputItemDone
       outputIndex := some n
       item := some item }]
  | .reasoning =>
    [{ type := .reasoningSummaryDone
       outputIndex := some n
       summaryIndex := some 0
       itemID := item.id
       part := some v.content },
     { type := .outputItemDone
       outputIndex := some n
       item := some item }]
  | .tool _ =>
    [{ type := .functionArgsDone
       outputIndex := some n
       itemID := item.id },
     { type := .outputItemDone
       outputIndex := some n
       item := some item }]

def closingAt (J : StringCodec) (responseID status : Text) (R : Items) (k : OutputRef) :
    List StreamEvent :=
  match R.get? k with
  | some v => closing J responseID status (R.position k) k v
  | none => []

theorem textDoneEvents_eq (h : Refines s R false) :
    s.textDoneEvents = closingAt J s.id s.outputStatus R .message := by
  have hslot := h.text
  have hdone : s.textDone = false := h.textDone
  unfold textDoneEvents closingAt
  rcases hstart : s.textStarted
  · rw [hstart] at hslot
    rw [hslot.absent.1]
    rfl
  · rw [hstart] at hslot
    obtain ⟨v, hv, hindex, hcontent⟩ := hslot.exists_entry
    rw [hv, hdone, hindex]
    unfold ChatToResponsesStreamState.messageOutput
    rw [hcontent]
    rfl

theorem reasoningDoneEvents_eq (h : Refines s R false) :
    s.reasoningDoneEvents = closingAt J s.id s.outputStatus R .reasoning := by
  have hslot := h.reasoning
  have hdone : s.reasoningDone = false := h.reasoningDone
  unfold reasoningDoneEvents closingAt
  rcases hstart : s.reasoningStarted
  · rw [hstart] at hslot
    rw [hslot.absent.1]
    rfl
  · rw [hstart] at hslot
    obtain ⟨v, hv, hindex, hcontent⟩ := hslot.exists_entry
    rw [hv, hdone, hindex]
    unfold ChatToResponsesStreamState.reasoningOutput
    rw [hcontent]
    rfl

theorem find?_of_nodup {l : List ChatToResponsesStreamTool} {t : ChatToResponsesStreamTool}
    (hnodup : (l.map ChatToResponsesStreamTool.chatIndex).Nodup) (ht : t ∈ l) :
    l.find? (fun a => decide (a.chatIndex = t.chatIndex)) = some t := by
  induction l with
  | nil => cases ht
  | cons a l ih =>
    rw [List.map_cons, List.nodup_cons] at hnodup
    rcases List.mem_cons.mp ht with rfl | ht'
    · simp
    have hne : a.chatIndex ≠ t.chatIndex := by
      intro heq
      apply hnodup.1
      rw [heq]
      exact List.mem_map.mpr ⟨t, ht', rfl⟩
    rw [List.find?_cons_of_neg (by simp [hne])]
    exact ih hnodup.2 ht'

theorem toolDoneEvents_eq (h : Refines s R false) {t : ChatToResponsesStreamTool}
    (ht : t ∈ s.toolsByIndex) :
    s.toolDoneEvents J t = closingAt J s.id s.outputStatus R (.tool t.chatIndex) := by
  have htool := h.tools t.chatIndex
  rw [show s.tool? t.chatIndex = some t from find?_of_nodup h.nodup ht] at htool
  unfold closingAt
  rcases hget : R.get? (.tool t.chatIndex) with _ | v
  · rw [hget] at htool
    cases htool
  · rw [hget, Option.map_some, Option.some.injEq] at htool
    rw [htool]
    rfl

theorem doneDeltaEvents_eq (h : Refines s R false) :
    (s.doneDeltaEvents J).2 =
      closingAt J s.id s.outputStatus R .message ++
        closingAt J s.id s.outputStatus R .reasoning ++
        s.sortedTools.flatMap fun t => closingAt J s.id s.outputStatus R (.tool t.chatIndex) := by
  have hsorted : s.sortedTools.flatMap (s.toolDoneEvents J) =
      s.sortedTools.flatMap fun t => closingAt J s.id s.outputStatus R (.tool t.chatIndex) := by
    apply List.flatMap_congr
    intro t ht
    exact toolDoneEvents_eq h ((List.perm_insertionSort _ _).mem_iff.mp ht)
  show s.textDoneEvents ++ s.reasoningDoneEvents ++ _ = _
  rw [textDoneEvents_eq (J := J) h, reasoningDoneEvents_eq (J := J) h, hsorted]

def sits (e : StreamEvent) (n : ℕ) : Bool := decide (e.outputIndex = some (n : ℤ))

theorem sits_of_index {e : StreamEvent} {n : ℕ} (h : e.outputIndex = some (n : ℤ)) (m : ℕ) :
    sits e m = decide (n = m) := by
  have hcast : (n : ℤ) = m ↔ n = m := by omega
  unfold sits
  rw [h]
  simp [hcast]

theorem sits_closing (responseID status : Text) (n m : ℕ) (k : OutputRef) (v : Entry) :
    ∀ e ∈ closing J responseID status n k v, sits e m = decide (n = m) := by
  intro e he
  have hindex : e.outputIndex = some (n : ℤ) := by
    unfold closing at he
    rcases k <;> simp only [List.mem_cons, List.not_mem_nil, or_false] at he <;>
      rcases he with rfl | rfl <;> rfl
  exact sits_of_index hindex m

theorem filter_closingAt {responseID status : Text} {n : ℕ} {k : OutputRef} {v : Entry}
    (hn : R.entries[n]? = some (k, v)) (j : OutputRef) :
    (closingAt J responseID status R j).filter (sits · n) =
      if j = k then closing J responseID status n k v else [] := by
  unfold closingAt
  by_cases hj : j = k
  · rw [if_pos hj, hj, Roster.get?_eq hn, Roster.position_eq (Roster.keys_getElem? hn)]
    rw [List.filter_eq_self]
    intro e he
    rw [sits_closing _ _ n n k v e he]
    simp
  · rw [if_neg hj]
    rcases R.get? j with _ | w
    · rfl
    rw [List.filter_eq_nil_iff]
    intro e he
    rw [sits_closing _ _ _ n j w e he]
    simpa using Roster.position_ne (Roster.keys_getElem? hn) hj

theorem flatMap_ite_nodup {l : List ChatToResponsesStreamTool} {j : ℤ} (C : List StreamEvent)
    (hnodup : (l.map ChatToResponsesStreamTool.chatIndex).Nodup)
    (hj : j ∈ l.map ChatToResponsesStreamTool.chatIndex) :
    (l.flatMap fun t => if t.chatIndex = j then C else []) = C := by
  induction l with
  | nil => cases hj
  | cons a l ih =>
    rw [List.map_cons, List.nodup_cons] at hnodup
    rw [List.flatMap_cons]
    by_cases ha : a.chatIndex = j
    · have hrest : (l.flatMap fun t => if t.chatIndex = j then C else []) = [] := by
        rw [List.flatMap_eq_nil_iff]
        intro t ht
        apply if_neg
        intro heq
        apply hnodup.1
        rw [ha, ← heq]
        exact List.mem_map.mpr ⟨t, ht, rfl⟩
      rw [if_pos ha, hrest, List.append_nil]
    · rw [if_neg ha]
      apply ih hnodup.2
      rcases List.mem_cons.mp hj with rfl | hj'
      · exact absurd rfl ha
      · exact hj'

theorem mem_toolsByIndex (h : Refines s R false) {j : ℤ} (hj : (R.get? (.tool j)).isSome = true) :
    j ∈ s.toolsByIndex.map ChatToResponsesStreamTool.chatIndex := by
  obtain ⟨v, hv⟩ := Option.isSome_iff_exists.mp hj
  have htool := h.tools j
  rw [hv] at htool
  have hmem := List.mem_of_find?_eq_some htool
  exact List.mem_map.mpr ⟨_, hmem, rfl⟩

theorem filter_doneDeltaEvents (h : Refines s R false) {n : ℕ} {k : OutputRef} {v : Entry}
    (hn : R.entries[n]? = some (k, v)) :
    (s.doneDeltaEvents J).2.filter (sits · n) = closing J s.id s.outputStatus n k v := by
  have hperm : s.sortedTools.Perm s.toolsByIndex := List.perm_insertionSort _ _
  rw [doneDeltaEvents_eq h, List.filter_append, List.filter_append, filter_closingAt hn,
    filter_closingAt hn, List.filter_flatMap]
  have htools : (s.sortedTools.flatMap fun t =>
      (closingAt J s.id s.outputStatus R (.tool t.chatIndex)).filter (sits · n)) =
      s.sortedTools.flatMap fun t =>
        if OutputRef.tool t.chatIndex = k then closing J s.id s.outputStatus n k v else [] :=
    List.flatMap_congr fun t _ => filter_closingAt hn (.tool t.chatIndex)
  rw [htools]
  cases k with
  | message | reasoning => simp
  | tool j =>
    have hj : j ∈ s.sortedTools.map ChatToResponsesStreamTool.chatIndex :=
      (hperm.map _).mem_iff.mpr (mem_toolsByIndex h (by rw [Roster.get?_eq hn]; rfl))
    have hnodup : (s.sortedTools.map ChatToResponsesStreamTool.chatIndex).Nodup :=
      (hperm.map _).nodup_iff.mpr h.nodup
    have hone := flatMap_ite_nodup (closing J s.id s.outputStatus n (.tool j) v) hnodup hj
    simpa using hone

theorem mem_doneDeltaEvents (h : Refines s R false) {e : StreamEvent}
    (he : e ∈ (s.doneDeltaEvents J).2) :
    ∃ n k v, R.entries[n]? = some (k, v) ∧ e ∈ closing J s.id s.outputStatus n k v := by
  have hat : ∀ k, e ∈ closingAt J s.id s.outputStatus R k →
      ∃ n k v, R.entries[n]? = some (k, v) ∧ e ∈ closing J s.id s.outputStatus n k v := by
    intro k hk
    unfold closingAt at hk
    rcases hget : R.get? k with _ | w
    · rw [hget] at hk
      cases hk
    · have hmem := (R.mem_keys_iff k).mpr (by rw [hget]; rfl)
      obtain ⟨n, v, hn⟩ := Roster.exists_getElem?_of_mem hmem
      rw [Roster.get?_eq hn, Roster.position_eq (Roster.keys_getElem? hn)] at hk
      exact ⟨n, k, v, hn, hk⟩
  rw [doneDeltaEvents_eq h, List.mem_append, List.mem_append] at he
  rcases he with (he | he) | he
  · exact hat _ he
  · exact hat _ he
  · obtain ⟨t, -, ht⟩ := List.mem_flatMap.mp he
    exact hat _ ht

theorem doneDeltaEvents_refines {done : Bool} (h : Refines s R done) :
    Refines (s.doneDeltaEvents J).1 R true where
  order := h.order
  next := h.next
  text := h.text
  textDone := by
    show (s.textStarted || s.textDone) = (true && s.textStarted)
    rw [h.textDone]
    cases s.textStarted <;> simp
  reasoning := h.reasoning
  reasoningDone := by
    show (s.reasoningStarted || s.reasoningDone) = (true && s.reasoningStarted)
    rw [h.reasoningDone]
    cases s.reasoningStarted <;> simp
  tools k := by
    have hmap := find?_map_tools (g := fun t => { t with done := true }) (fun _ => rfl)
      s.toolsByIndex k
    refine hmap.trans ?_
    rw [show (s.toolsByIndex.find? fun t => decide (t.chatIndex = k)) = s.tool? k from rfl,
      h.tools k, Option.map_map]
    rfl
  nodup := by
    show ((s.toolsByIndex.map fun t => { t with done := true }).map
      ChatToResponsesStreamTool.chatIndex).Nodup
    rw [List.map_map]
    exact h.nodup

theorem doneDeltaEvents_closed (h : Refines s R true) : (s.doneDeltaEvents J).2 = [] := by
  have htext : s.textDoneEvents = [] := by
    unfold textDoneEvents
    rw [h.textDone]
    cases s.textStarted <;> rfl
  have hreasoning : s.reasoningDoneEvents = [] := by
    unfold reasoningDoneEvents
    rw [h.reasoningDone]
    cases s.reasoningStarted <;> rfl
  have htools : s.sortedTools.flatMap (s.toolDoneEvents J) = [] := by
    rw [List.flatMap_eq_nil_iff]
    intro t ht
    have hmem : t ∈ s.toolsByIndex := (List.perm_insertionSort _ _).mem_iff.mp ht
    have htool := h.tools t.chatIndex
    rw [show s.tool? t.chatIndex = some t from find?_of_nodup h.nodup hmem] at htool
    obtain ⟨v, -, hv⟩ := Option.map_eq_some_iff.mp htool.symm
    rw [← hv]
    rfl
  show s.textDoneEvents ++ s.reasoningDoneEvents ++ _ = []
  rw [htext, hreasoning, htools]
  rfl

theorem finalResponse_output {done : Bool} (h : Refines s R done) :
    (s.finalResponse J).output =
      R.entries.map fun e => itemOf J s.id s.outputStatus e.1 e.2 := by
  have hitem : ∀ e ∈ R.entries,
      s.outputItem J s.outputStatus e.1 = some (itemOf J s.id s.outputStatus e.1 e.2) := by
    rintro ⟨k, v⟩ he
    obtain ⟨n, hn⟩ := List.getElem?_of_mem he
    have hget := Roster.get?_eq hn
    cases k with
    | message =>
      have hcontent := h.text.holds
      rw [hget] at hcontent
      show some (messageOutput s.messageID _ s.text) = _
      rw [hcontent]
      rfl
    | reasoning =>
      have hcontent := h.reasoning.holds
      rw [hget] at hcontent
      show some (reasoningOutput s.reasoningID _ s.reasoning) = _
      rw [hcontent]
      rfl
    | tool j =>
      show (s.tool? j).map _ = _
      rw [h.tools j, hget]
      rfl
  show s.outputOrder.filterMap (s.outputItem J s.outputStatus) = _
  rw [h.order]
  calc (R.entries.map Prod.fst).filterMap (s.outputItem J s.outputStatus)
      = R.entries.filterMap (s.outputItem J s.outputStatus ∘ Prod.fst) := List.filterMap_map
    _ = R.entries.filterMap fun e => some (itemOf J s.id s.outputStatus e.1 e.2) :=
      List.filterMap_congr hitem
    _ = R.entries.map fun e => itemOf J s.id s.outputStatus e.1 e.2 := by
      rw [List.filterMap_eq_map']

end Done

end NewApi.RelayConvert
