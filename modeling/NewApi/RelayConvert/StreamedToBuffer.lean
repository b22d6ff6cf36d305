import NewApi.RelayConvert.StreamedCalls

/-!
# The buffered accumulator follows the calls

Every event of a call changes only the tool at the place of the call.
-/

namespace NewApi.RelayConvert

open NewApi.Dto ResponsesBufferedAccumulator

structure Holds (a : ResponsesBufferedAccumulator) (c : StreamedCall) (t : Track) (i : ℕ)
    (tool : ResponsesBufferedTool) : Prop where
  place : a.outputIndexToToolIdx.lookup c.outputIndex = some i
  byID : a.itemIDToToolIdx.lookup c.itemID = if t.withID then some i else none
  entry : a.tools[i]? = some tool
  callID : tool.callID = c.shownID
  name : tool.name = t.name
  args : tool.arguments = t.args

structure Buffers (a : ResponsesBufferedAccumulator) (c : StreamedCall) (t : Track) : Prop where
  noPlace : t.known = false → a.outputIndexToToolIdx.lookup c.outputIndex = none
  noID : t.known = false → a.itemIDToToolIdx.lookup c.itemID = none
  waitIndex : t.known = false →
    (a.pendingByOutputIndex.lookup c.outputIndex).getD [] = t.waitIndex
  waitID : t.known = false → (a.pendingByItemID.lookup c.itemID).getD [] = t.waitID
  known : t.known = true → ∃ i tool, Holds a c t i tool

structure Placed (calls : List StreamedCall) (a : ResponsesBufferedAccumulator) : Prop where
  owner : ∀ i, i < a.tools.length →
    ∃ c ∈ calls, a.outputIndexToToolIdx.lookup c.outputIndex = some i
  bound : ∀ n i, a.outputIndexToToolIdx.lookup n = some i → i < a.tools.length
  apart : ∀ n n' i, a.outputIndexToToolIdx.lookup n = some i →
    a.outputIndexToToolIdx.lookup n' = some i → n = n'

structure Writes (c : StreamedCall) (a a' : ResponsesBufferedAccumulator) : Prop where
  byIndex : ∀ n, n ≠ c.outputIndex →
    a'.outputIndexToToolIdx.lookup n = a.outputIndexToToolIdx.lookup n
  byID : ∀ x, x ≠ c.itemID → a'.itemIDToToolIdx.lookup x = a.itemIDToToolIdx.lookup x
  waitIndex : ∀ n, n ≠ c.outputIndex →
    a'.pendingByOutputIndex.lookup n = a.pendingByOutputIndex.lookup n
  waitID : ∀ x, x ≠ c.itemID → a'.pendingByItemID.lookup x = a.pendingByItemID.lookup x
  tools : ∀ i, i < a.tools.length → a'.outputIndexToToolIdx.lookup c.outputIndex ≠ some i →
    a'.tools[i]? = a.tools[i]?
  own : (a'.tools.length = a.tools.length ∧
      a'.outputIndexToToolIdx.lookup c.outputIndex =
        a.outputIndexToToolIdx.lookup c.outputIndex) ∨
    (a'.tools.length = a.tools.length + 1 ∧
      a.outputIndexToToolIdx.lookup c.outputIndex = none ∧
      a'.outputIndexToToolIdx.lookup c.outputIndex = some a.tools.length)
  text : a'.text = a.text

section Writes

variable {calls : List StreamedCall} {c d : StreamedCall} {t : Track}
  {a a' : ResponsesBufferedAccumulator}

theorem Writes.origin (h : Writes c a a') {n : ℤ} {i : ℕ}
    (hn : a'.outputIndexToToolIdx.lookup n = some i) :
    a.outputIndexToToolIdx.lookup n = some i ∨
      (n = c.outputIndex ∧ i = a.tools.length ∧ a'.tools.length = a.tools.length + 1) := by
  by_cases heq : n = c.outputIndex
  · subst heq
    rcases h.own with ⟨-, hsame⟩ | ⟨hlen, -, hnew⟩
    · exact .inl (hsame.symm.trans hn)
    · rw [hnew] at hn
      exact .inr ⟨rfl, (Option.some.inj hn).symm, hlen⟩
  · exact .inl ((h.byIndex n heq).symm.trans hn)

theorem Placed.writes (h : Placed calls a) (hw : Writes c a a') (hc : c ∈ calls) :
    Placed calls a' := by
  refine ⟨?_, ?_, ?_⟩
  · intro i hi
    by_cases hold : i < a.tools.length
    · obtain ⟨d, hd, hplace⟩ := h.owner i hold
      by_cases hindex : d.outputIndex = c.outputIndex
      · rcases hw.own with ⟨-, hsame⟩ | ⟨-, hnone, -⟩
        · exact ⟨c, hc, by rw [hsame, ← hindex]; exact hplace⟩
        · rw [← hindex, hplace] at hnone
          cases hnone
      · exact ⟨d, hd, (hw.byIndex _ hindex).trans hplace⟩
    · rcases hw.own with ⟨hlen, -⟩ | ⟨hlen, -, hnew⟩
      · omega
      · have heq : i = a.tools.length := by omega
        exact ⟨c, hc, by rw [heq]; exact hnew⟩
  · intro n i hn
    rcases hw.origin hn with hold | ⟨-, hi, hlen⟩
    · have hlt := h.bound n i hold
      rcases hw.own with ⟨hlen, -⟩ | ⟨hlen, -, -⟩ <;> omega
    · omega
  · intro n n' i hn hn'
    rcases hw.origin hn with hold | ⟨heq, hi, -⟩
    · rcases hw.origin hn' with hold' | ⟨-, hi', -⟩
      · exact h.apart n n' i hold hold'
      · have hlt := h.bound n i hold
        omega
    · rcases hw.origin hn' with hold' | ⟨heq', -, -⟩
      · have hlt := h.bound n' i hold'
        omega
      · exact heq.trans heq'.symm

theorem Buffers.other (h : Buffers a d t) (hplaced : Placed calls a) (hplaced' : Placed calls a')
    (hw : Writes c a a') (hindex : d.outputIndex ≠ c.outputIndex) (hid : d.itemID ≠ c.itemID) :
    Buffers a' d t := by
  refine ⟨?_, ?_, ?_, ?_, ?_⟩
  · intro hk
    rw [hw.byIndex _ hindex]
    exact h.noPlace hk
  · intro hk
    rw [hw.byID _ hid]
    exact h.noID hk
  · intro hk
    rw [hw.waitIndex _ hindex]
    exact h.waitIndex hk
  · intro hk
    rw [hw.waitID _ hid]
    exact h.waitID hk
  · intro hk
    obtain ⟨i, tool, hh⟩ := h.known hk
    have hplace := (hw.byIndex _ hindex).trans hh.place
    refine ⟨i, tool, hplace, ?_, ?_, hh.callID, hh.name, hh.args⟩
    · rw [hw.byID _ hid]
      exact hh.byID
    · rw [hw.tools i (hplaced.bound _ _ hh.place)]
      · exact hh.entry
      · intro hown
        exact hindex (hplaced'.apart _ _ _ hplace hown)

theorem writes_set {i : ℕ} (hplace : a.outputIndexToToolIdx.lookup c.outputIndex = some i)
    (tool : ResponsesBufferedTool) : Writes c a { a with tools := a.tools.set i tool } := by
  refine ⟨fun _ _ => rfl, fun _ _ => rfl, fun _ _ => rfl, fun _ _ => rfl, ?_,
    .inl ⟨List.length_set, rfl⟩, rfl⟩
  intro j _ hne
  refine List.getElem?_set_ne ?_
  intro heq
  rw [heq] at hplace
  exact hne hplace

theorem Buffers.of_known (hk : t.known = true) {i : ℕ} {tool : ResponsesBufferedTool}
    (h : Holds a c t i tool) : Buffers a c t := by
  have hno : t.known ≠ false := by rw [hk]; exact Bool.noConfusion
  exact ⟨fun h => absurd h hno, fun h => absurd h hno, fun h => absurd h hno,
    fun h => absurd h hno, fun _ => ⟨i, tool, h⟩⟩

end Writes

section Events

variable {J : StringCodec} {calls : List StreamedCall} {c : StreamedCall} {t : Track} {e : Event}
  {a : ResponsesBufferedAccumulator} {item : ResponsesOutput}

/-- The id that the buffer looks a tool up by is the one beside the item, or the item's own. -/
theorem findToolIndex_eq (ho : c.Owns J e) : ∃ id : Text, (id = [] ∨ id = c.itemID) ∧
    (id = [] → responseStreamEventItemID e = []) ∧
    a.findToolIndex e = (e.outputIndex.bind fun n => a.outputIndexToToolIdx.lookup n).or
      (if id ≠ [] then a.itemIDToToolIdx.lookup id else none) := by
  unfold findToolIndex
  by_cases hne : trimSpace e.itemID ≠ []
  · refine ⟨trimSpace e.itemID, ho.beside, fun h => absurd h hne, ?_⟩
    rw [if_pos hne]
  · rw [if_neg hne]
    rcases hitem : e.item with _ | item
    · refine ⟨[], .inl rfl, fun _ => ?_, rfl⟩
      rw [eventItemID_of_none hitem]
      exact not_not.mp hne
    · have htool : toolItemOf e = some item := ho.item.symm.trans hitem
      refine ⟨trimSpace item.id, ?_, fun hempty => ?_, rfl⟩
      · rw [← itemOwnID_of_item htool]
        exact itemOwnID_owned ho
      · unfold responseStreamEventItemID
        rw [hitem]
        dsimp only
        rw [if_neg (not_not_intro hempty)]
        exact not_not.mp hne

theorem findToolIndex_unknown (h : Buffers a c t) (hk : t.known = false) (ho : c.Owns J e) :
    a.findToolIndex e = none := by
  obtain ⟨id, hid, -, hfind⟩ := findToolIndex_eq (a := a) ho
  have hfirst : (e.outputIndex.bind fun n => a.outputIndexToToolIdx.lookup n) = none := by
    rcases ho.index with hn | hn
    · rw [hn]
      rfl
    · rw [hn]
      exact h.noPlace hk
  rw [hfind, hfirst, Option.none_or]
  by_cases hne : id = []
  · rw [if_neg (not_not_intro hne)]
  · rw [if_pos hne, hid.resolve_left hne]
    exact h.noID hk

theorem findToolIndex_known {i : ℕ} {tool : ResponsesBufferedTool} (hh : Holds a c t i tool)
    (ho : c.Owns J e) : a.findToolIndex e =
      if e.outputIndex = none then (if t.withID then some i else none) else some i := by
  obtain ⟨id, hid, hempty, hfind⟩ := findToolIndex_eq (a := a) ho
  rw [hfind]
  by_cases hn : e.outputIndex = none
  · have hne : id ≠ [] := fun h => ho.either.resolve_left (fun hno => hno hn) (hempty h)
    rw [if_pos hne, hid.resolve_left hne, hn, hh.byID]
    rfl
  · rw [index_of_ne ho hn]
    show (a.outputIndexToToolIdx.lookup c.outputIndex).or _ = some i
    rw [hh.place]
    rfl

theorem processItem_found {i : ℕ} {tool : ResponsesBufferedTool}
    (hfind : a.findToolIndex e = some i) (htool : a.tools[i]? = some tool) :
    a.processItem J e item =
      { a with
        tools := a.tools.set i
          { applyToolMetadata tool item with
            arguments := if item.argumentsString J ≠ [] then item.argumentsString J
              else tool.arguments } } := by
  have hget : a.tools.getD i {} = tool := by
    rw [List.getD_eq_getElem?_getD, htool]
    rfl
  unfold processItem ensureTool
  rw [hfind]
  dsimp only
  rw [hget]
  by_cases hargs : item.argumentsString J ≠ []
  · rw [if_pos hargs, if_pos hargs]
  · rw [if_neg hargs, if_neg hargs]
    rfl

def placedNew (J : StringCodec) (a : ResponsesBufferedAccumulator) (item : ResponsesOutput)
    (n : ℤ) : ResponsesBufferedAccumulator :=
  { a with
    tools := a.tools ++
      [{ applyToolMetadata {} item with
         arguments := if item.argumentsString J ≠ [] then item.argumentsString J
           else (a.pendingByOutputIndex.lookup n).getD [] ++
             (if trimSpace item.id = [] then []
               else (a.pendingByItemID.lookup (trimSpace item.id)).getD []) }]
    outputIndexToToolIdx := a.outputIndexToToolIdx.insert n a.tools.length
    itemIDToToolIdx := if trimSpace item.id = [] then a.itemIDToToolIdx
      else a.itemIDToToolIdx.insert (trimSpace item.id) a.tools.length
    pendingByOutputIndex := a.pendingByOutputIndex.erase n
    pendingByItemID := if trimSpace item.id = [] then a.pendingByItemID
      else a.pendingByItemID.erase (trimSpace item.id) }

theorem set_last {α : Type} (l : List α) (x y : α) : (l ++ [x]).set l.length y = l ++ [y] := by
  rw [List.set_append_right _ _ le_rfl, Nat.sub_self]
  rfl

theorem processItem_new {n : ℤ} (hfind : a.findToolIndex e = none)
    (hn : e.outputIndex = some n) : a.processItem J e item = placedNew J a item n := by
  unfold processItem ensureTool
  rw [hfind]
  unfold drainOutputIndex
  rw [hn]
  unfold drainItemID placedNew
  by_cases hid : trimSpace item.id = []
  · have hempty : (applyToolMetadata {} item).itemID = [] := by
      exact if_neg fun hne => hne hid
    dsimp only
    rw [if_pos hempty]
    rw [set_last]
    simp only [if_pos hid, List.append_nil]
    by_cases hargs : item.argumentsString J ≠ []
    · rw [if_pos hargs, if_pos hargs]
    · rw [if_neg hargs, if_neg hargs]
      rfl
  · have hsome : (applyToolMetadata {} item).itemID = trimSpace item.id := by
      exact if_pos hid
    dsimp only
    rw [if_neg (by rw [hsome]; exact hid)]
    rw [set_last, hsome]
    simp only [if_neg hid]
    by_cases hargs : item.argumentsString J ≠ []
    · rw [if_pos hargs, if_pos hargs]
    · rw [if_neg hargs, if_neg hargs]
      rfl

theorem metadata_spec (hc : c.Proper) (ho : c.Owns J e) (ok : StepOK J c t e)
    (hitem : toolItemOf e = some item) {tool : ResponsesBufferedTool}
    (hcall : (t.known = false ∧ tool.callID = []) ∨ tool.callID = c.shownID)
    (hname : tool.name = t.name) : (applyToolMetadata tool item).callID = c.shownID ∧
      (applyToolMetadata tool item).name = (t.step J e).name := by
  refine ⟨callID_joined hc ho ok hitem hcall, ?_⟩
  rw [step_item (isItem_of_item hitem), itemName_of_item hitem, ← hname]
  rfl

theorem writes_placedNew (hid : trimSpace item.id = [] ∨ trimSpace item.id = c.itemID)
    (hnone : a.outputIndexToToolIdx.lookup c.outputIndex = none) :
    Writes c a (placedNew J a item c.outputIndex) := by
  have hnew : (placedNew J a item c.outputIndex).outputIndexToToolIdx.lookup c.outputIndex =
      some a.tools.length := AList.lookup_insert _
  refine ⟨?_, ?_, ?_, ?_, ?_, .inr ⟨List.length_append, hnone, hnew⟩, rfl⟩
  · intro n hn
    exact AList.lookup_insert_ne hn
  · intro x hx
    show AList.lookup x (if trimSpace item.id = [] then _ else _) = _
    by_cases hempty : trimSpace item.id = []
    · rw [if_pos hempty]
    · rw [if_neg hempty, hid.resolve_left hempty]
      exact AList.lookup_insert_ne hx
  · intro n hn
    exact AList.lookup_erase_ne hn
  · intro x hx
    show AList.lookup x (if trimSpace item.id = [] then _ else _) = _
    by_cases hempty : trimSpace item.id = []
    · rw [if_pos hempty]
    · rw [if_neg hempty, hid.resolve_left hempty]
      exact AList.lookup_erase_ne hx
  · intro i hi _
    exact List.getElem?_append_left hi

theorem placedNew_holds (hc : c.Proper) (h : Buffers a c t) (wf : t.WF) (hk : t.known = false)
    (ho : c.Owns J e) (ok : StepOK J c t e) (hitem : toolItemOf e = some item) :
    ∃ tool, Holds (placedNew J a item c.outputIndex) c (t.step J e) a.tools.length tool := by
  have his : isItem e = true := isItem_of_item hitem
  have hsame := itemOwnID_of_item hitem
  have hmeta : (applyToolMetadata {} item).callID = c.shownID ∧
      (applyToolMetadata {} item).name = (t.step J e).name :=
    metadata_spec hc ho ok hitem (.inl ⟨hk, rfl⟩) (wf.name hk).symm
  obtain ⟨hcallID, hname⟩ := hmeta
  have hkno : ¬ t.known = true := by rw [hk]; exact Bool.false_ne_true
  refine ⟨_, AList.lookup_insert _, ?_, List.getElem?_concat_length, hcallID, hname, ?_⟩
  · rw [step_item his]
    rw [if_neg hkno]
    show AList.lookup c.itemID (if trimSpace item.id = [] then _ else _) = _
    unfold identifies
    rw [← hsame]
    by_cases hempty : itemOwnID e = []
    · rw [hempty]
      exact h.noID hk
    · rw [if_neg hempty, decide_eq_true hempty, (itemOwnID_owned ho).resolve_left hempty]
      exact AList.lookup_insert _
  · rw [step_item his, itemArgs_of_item hitem]
    dsimp only
    rw [if_neg hkno, h.waitIndex hk]
    have hid : (if trimSpace item.id = [] then []
        else (a.pendingByItemID.lookup (trimSpace item.id)).getD []) = t.waitID := by
      rw [← hsame]
      by_cases hempty : itemOwnID e = []
      · rw [if_pos hempty]
        refine (ok.unnamed hk his ?_).symm
        unfold identifies
        rw [hempty]
        rfl
      · rw [if_neg hempty, (itemOwnID_owned ho).resolve_left hempty]
        exact h.waitID hk
    rw [hid]

theorem processItem_buffers (hc : c.Proper) (hplaced : Placed calls a) (h : Buffers a c t)
    (wf : t.WF) (ho : c.Owns J e) (ok : StepOK J c t e) (hitem : toolItemOf e = some item) :
    Writes c a (a.processItem J e item) ∧ Buffers (a.processItem J e item) c (t.step J e) := by
  have his : isItem e = true := isItem_of_item hitem
  have hn : e.outputIndex = some c.outputIndex := index_of_ne ho (ok.indexed his)
  have hknown : (t.step J e).known = true := by rw [step_item his]
  rcases hk : t.known with _ | _
  · have hid : trimSpace item.id = [] ∨ trimSpace item.id = c.itemID := by
      rw [← itemOwnID_of_item hitem]
      exact itemOwnID_owned ho
    obtain ⟨tool, hh⟩ := placedNew_holds hc h wf hk ho ok hitem
    rw [processItem_new (findToolIndex_unknown h hk ho) hn]
    exact ⟨writes_placedNew hid (h.noPlace hk), .of_known hknown hh⟩
  · obtain ⟨i, tool, hh⟩ := h.known hk
    have hfind : a.findToolIndex e = some i := by
      rw [findToolIndex_known hh ho, hn]
      rfl
    obtain ⟨hcallID, hname⟩ := metadata_spec hc ho ok hitem (.inr hh.callID) hh.name
    rw [processItem_found hfind hh.entry]
    refine ⟨writes_set hh.place _, .of_known hknown ⟨hh.place, ?_,
      List.getElem?_set_self (hplaced.bound _ _ hh.place), hcallID, hname, ?_⟩⟩
    · rw [step_item his]
      rw [if_pos hk]
      exact hh.byID
    · rw [step_item his, itemArgs_of_item hitem]
      dsimp only
      rw [if_pos hk, hh.args]

theorem processDelta_buffers (hc : c.Proper) (hplaced : Placed calls a) (h : Buffers a c t)
    (ho : c.Owns J e) (ok : StepOK J c t e) (hi : isItem e = false) (hd : isArgsDelta e = true) :
    Writes c a (a.processDelta e) ∧ Buffers (a.processDelta e) c (t.step J e) := by
  have hitem := item_none ho hi
  unfold processDelta
  rcases hk : t.known with _ | _
  · rw [findToolIndex_unknown h hk ho]
    by_cases hn : e.outputIndex = none
    · rw [hn, id_of_no_index ho hitem hn, step_delta_id hi hd hk hn]
      rw [if_neg hc.itemID]
      refine ⟨⟨fun _ _ => rfl, fun _ _ => rfl, fun _ _ => rfl,
        fun x hx => AList.lookup_insert_ne hx, fun _ _ _ => rfl, .inl ⟨rfl, rfl⟩, rfl⟩, ?_⟩
      refine ⟨h.noPlace, h.noID, h.waitIndex, ?_, ?_⟩
      · intro _
        rw [AList.lookup_insert, h.waitID hk]
        rfl
      · intro hyes
        rw [show t.known = true from hyes] at hk
        cases hk
    · rw [index_of_ne ho hn, step_delta_index hi hd hk hn]
      refine ⟨⟨fun _ _ => rfl, fun _ _ => rfl, fun n hne => AList.lookup_insert_ne hne,
        fun _ _ => rfl, fun _ _ _ => rfl, .inl ⟨rfl, rfl⟩, rfl⟩, ?_⟩
      refine ⟨h.noPlace, h.noID, ?_, h.waitID, ?_⟩
      · intro _
        rw [AList.lookup_insert, h.waitIndex hk]
        rfl
      · intro hyes
        rw [show t.known = true from hyes] at hk
        cases hk
  · obtain ⟨i, tool, hh⟩ := h.known hk
    rw [step_delta_known hi hd hk, findToolIndex_known hh ho]
    by_cases hfound : e.outputIndex = none ∧ t.withID = false
    · -- the buffer does not know the id: such a delta is empty, and waits for nothing
      obtain ⟨hn, hno⟩ := hfound
      have hempty : e.delta = [] := by
        by_contra hne
        rw [ok.delta hk (brings_of_delta_ne hd hne) hn] at hno
        cases hno
      have hplace : (if e.outputIndex = none then (if t.withID = true then some i else none)
          else some i) = none := by
        rw [if_pos hn, hno]
        rfl
      rw [hplace, hn, id_of_no_index ho hitem hn, hempty, List.append_nil]
      rw [if_neg hc.itemID]
      refine ⟨⟨fun _ _ => rfl, fun _ _ => rfl, fun _ _ => rfl,
        fun x hx => AList.lookup_insert_ne hx, fun _ _ _ => rfl, .inl ⟨rfl, rfl⟩, rfl⟩, ?_⟩
      exact .of_known hk ⟨hh.place, hh.byID, hh.entry, hh.callID, hh.name, hh.args⟩
    · have hplace : (if e.outputIndex = none then (if t.withID = true then some i else none)
          else some i) = some i := by
        by_cases hn : e.outputIndex = none
        · have hyes : t.withID = true := by
            by_contra hno
            exact hfound ⟨hn, Bool.eq_false_iff.mpr hno⟩
          rw [if_pos hn, if_pos hyes]
        · rw [if_neg hn]
      have hget : a.tools.getD i {} = tool := by
        rw [List.getD_eq_getElem?_getD, hh.entry]
        rfl
      rw [hplace]
      dsimp only
      rw [hget]
      refine ⟨writes_set hh.place _, .of_known hk ⟨hh.place, hh.byID,
        List.getElem?_set_self (hplaced.bound _ _ hh.place), hh.callID, hh.name, ?_⟩⟩
      rw [hh.args]

theorem toolEvent_buffers (hc : c.Proper) (hplaced : Placed calls a) (h : Buffers a c t)
    (wf : t.WF) (ho : c.Owns J e) (ok : StepOK J c t e) (ht : isToolEvent e = true) :
    Writes c a (a.processEvent J e) ∧ Buffers (a.processEvent J e) c (t.step J e) := by
  unfold processEvent
  rcases hi : isItem e with _ | _
  · rcases hd : isArgsDelta e with _ | _
    · have hdone : e.type = .functionArgsDone ∨ e.type = .customToolInputDone := by
        unfold isToolEvent isArgsDone at ht
        rw [hi, hd] at ht
        simpa using ht
      rw [step_other hi hd]
      have hsame : Writes c a a ∧ Buffers a c t :=
        ⟨⟨fun _ _ => rfl, fun _ _ => rfl, fun _ _ => rfl, fun _ _ => rfl, fun _ _ _ => rfl,
          .inl ⟨rfl, rfl⟩, rfl⟩, h⟩
      rcases hdone with htype | htype
      · rw [htype]
        exact hsame
      · rw [htype]
        exact hsame
    · have htype : e.type = .functionArgsDelta ∨ e.type = .customToolInputDelta := by
        unfold isArgsDelta at hd
        simpa using hd
      have hstep := processDelta_buffers hc hplaced h ho ok hi hd
      rcases htype with htype | htype
      · rw [htype]
        exact hstep
      · rw [htype]
        exact hstep
  · obtain ⟨item, hitem⟩ := Option.isSome_iff_exists.mp hi
    obtain ⟨htype, htool⟩ := item_event hitem
    have hsome : e.item = some item := ho.item.trans hitem
    have hstep := processItem_buffers hc hplaced h wf ho ok hitem
    rcases htype with htype | htype
    all_goals
      rw [htype, hsome]
      dsimp only
      rw [if_pos htool]
      exact hstep

theorem plainEvent_buffers (ht : isToolEvent e = false) :
    ∃ reasoning, a.processEvent J e = { a with
      text := a.text ++ textOf e
      reasoning := reasoning } := by
  unfold isToolEvent at ht
  rw [Bool.or_eq_false_iff, Bool.or_eq_false_iff] at ht
  obtain ⟨⟨hi, hd⟩, -⟩ := ht
  unfold isArgsDelta at hd
  unfold textOf processEvent
  cases htype : e.type with
  | outputTextDelta => exact ⟨_, rfl⟩
  | functionArgsDelta | customToolInputDelta =>
    rw [htype] at hd
    cases hd
  | outputItemAdded | outputItemDone =>
    refine ⟨a.reasoning, ?_⟩
    rw [if_neg EventType.noConfusion, List.append_nil]
    rcases hitem : e.item with _ | item
    · rfl
    have hno : isResponsesToolOutputType item.type = false := by
      unfold isItem toolItemOf at hi
      rw [htype, hitem] at hi
      simpa [Option.filter] using hi
    dsimp only
    rw [if_neg (ne_true_of_eq_false hno)]
  | reasoningSummaryDelta | reasoningTextDelta =>
    refine ⟨a.reasoning ++ e.delta, ?_⟩
    rw [if_neg EventType.noConfusion, List.append_nil]
  | _ =>
    refine ⟨a.reasoning, ?_⟩
    rw [if_neg EventType.noConfusion, List.append_nil]

end Events

structure Buffering (J : StringCodec) (calls : List StreamedCall) (p : List Event)
    (a : ResponsesBufferedAccumulator) : Prop where
  placed : Placed calls a
  each : ∀ c ∈ calls, Buffers a c (track J (p.filter c.names))
  text : a.text = p.flatMap textOf

section Run

variable {J : StringCodec} {calls : List StreamedCall} {body p : List Event} {e : Event}
  {a : ResponsesBufferedAccumulator}

theorem buffering_new : Buffering J calls [] newResponsesBufferedAccumulator := by
  refine ⟨⟨?_, ?_, ?_⟩, ?_, rfl⟩
  · intro i hi
    exact absurd hi (Nat.not_lt_zero i)
  · intro n i h
    cases h
  · intro n n' i h
    cases h
  · intro c _
    exact ⟨fun _ => rfl, fun _ => rfl, fun _ => rfl, fun _ => rfl, fun h => by cases h⟩

theorem Buffering.event (hs : Streamed J calls body)
    (hr : ∀ c ∈ calls, Regular J c (body.filter c.names)) {after : List Event}
    (hbody : body = p ++ e :: after) (h : Buffering J calls p a) :
    Buffering J calls (p ++ [e]) (a.processEvent J e) := by
  have hmem : e ∈ body := by rw [hbody]; exact List.mem_append_right _ List.mem_cons_self
  rcases ht : isToolEvent e with _ | _
  · obtain ⟨reasoning, hplain⟩ := plainEvent_buffers (J := J) (a := a) ht
    rw [hplain]
    refine ⟨⟨h.placed.owner, h.placed.bound, h.placed.apart⟩, ?_, ?_⟩
    · intro c hc
      have hn : c.names e = false := by
        unfold StreamedCall.names
        rw [ht, Bool.false_and]
      have hold := h.each c hc
      rw [filter_snoc_other hn]
      refine ⟨hold.noPlace, hold.noID, hold.waitIndex, hold.waitID, ?_⟩
      intro hk
      obtain ⟨i, tool, hh⟩ := hold.known hk
      exact ⟨i, tool, hh.place, hh.byID, hh.entry, hh.callID, hh.name, hh.args⟩
    · rw [List.flatMap_append, ← h.text, List.flatMap_singleton]
  · obtain ⟨c, hc, ho⟩ := hs.owned e hmem ht
    have hn := names_of_owns ho ht
    obtain ⟨hwrites, hbuffers⟩ := toolEvent_buffers (hs.proper c hc) h.placed (h.each c hc)
      track_wf ho (hs.stepOK hc (hr c hc) hbody hn) ht
    have hplaced := h.placed.writes hwrites hc
    refine ⟨hplaced, ?_, ?_⟩
    · intro d hd
      by_cases hsame : d = c
      · subst hsame
        rw [filter_snoc_own hn, track_snoc]
        exact hbuffers
      · have hother : d.names e = false := by
          by_contra hyes
          exact hsame (hs.own hc hd ho (Bool.not_eq_false _ |>.mp hyes))
        rw [filter_snoc_other hother]
        refine (h.each d hd).other h.placed hplaced hwrites ?_ ?_
        · exact fun heq => hsame (hs.index_inj hd hc heq)
        · exact fun heq => hsame (hs.id_inj hd hc heq)
    · rw [hwrites.text, h.text, List.flatMap_append, List.flatMap_singleton,
        textOf_tool ht, List.append_nil]

theorem Buffering.run (hs : Streamed J calls body)
    (hr : ∀ c ∈ calls, Regular J c (body.filter c.names)) {rest : List Event}
    (hbody : body = p ++ rest) (h : Buffering J calls p a) :
    Buffering J calls body (bufferEvents J rest a) := by
  induction rest generalizing p a with
  | nil =>
    rw [hbody, List.append_nil]
    exact h
  | cons e rest ih => exact ih (by rw [hbody]; simp) (h.event hs hr hbody)

end Run

end NewApi.RelayConvert
