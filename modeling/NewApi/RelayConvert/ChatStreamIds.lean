import NewApi.RelayConvert.ChatStreamStory

/-!
# The item ids of a converted chat stream

An item is announced with the id known at its first fragment.
-/

namespace NewApi.RelayConvert

open NewApi.Dto ChatToResponsesStreamState

/-! ## The condition -/

def openingID (fs : List Fragment) (k : OutputRef) : Text :=
  ((fs.find? fun f => decide (f.key = k)).map fun f => f.fresh.id).getD []

def Fragment.Keeps (opening final : Text) : Fragment → Prop
  | .tool _ call => trimSpace call.id = [] ∨ trimSpace call.id = opening
  | .text responseID _ => responseID = final
  | .reasoning responseID _ => responseID = final

instance (opening final : Text) (f : Fragment) : Decidable (f.Keeps opening final) := by
  unfold Fragment.Keeps
  split <;> infer_instance

def IdsKept (rid : Text) (chunks : List Chunk) : Prop :=
  ∀ f ∈ fragments rid chunks,
    f.Keeps (openingID (fragments rid chunks) f.key) (responseID rid chunks)

instance (rid : Text) (chunks : List Chunk) : Decidable (IdsKept rid chunks) := by
  unfold IdsKept
  infer_instance

def toolCallsOf (chunks : List Chunk) : List ToolCallResponse :=
  chunks.flatMap fun chunk => chunk.choices.flatMap fun choice => choice.delta.toolCalls

def OneCallID (chunks : List Chunk) : Prop :=
  ∀ a ∈ toolCallsOf chunks, ∀ b ∈ toolCallsOf chunks, a.index.getD 0 = b.index.getD 0 →
    trimSpace a.id ≠ [] → trimSpace b.id ≠ [] → trimSpace a.id = trimSpace b.id

instance (chunks : List Chunk) : Decidable (OneCallID chunks) := by
  unfold OneCallID
  infer_instance

variable {chunks : List Chunk} {f : Fragment}

theorem mem_toolCallsOf {rid r : Text} {call : ToolCallResponse}
    (h : Fragment.tool r call ∈ fragments rid chunks) : call ∈ toolCallsOf chunks := by
  induction chunks generalizing rid with
  | nil => cases h
  | cons chunk chunks ih =>
    rw [fragments_cons, List.mem_append] at h
    unfold toolCallsOf
    rw [List.flatMap_cons, List.mem_append]
    rcases h with h | h
    · left
      obtain ⟨choice, hc, hf⟩ := List.mem_flatMap.mp h
      refine List.mem_flatMap.mpr ⟨choice, hc, ?_⟩
      unfold choiceFragments at hf
      rw [List.mem_append, List.mem_append] at hf
      rcases hf with (hf | hf) | hf
      · split at hf <;> simp at hf
      · split at hf <;> simp at hf
      · obtain ⟨call', hcall, heq⟩ := List.mem_map.mp hf
        cases heq
        exact hcall
    · exact Or.inr (ih h)

def Fragment.rid : Fragment → Text
  | .reasoning responseID _ => responseID
  | .text responseID _ => responseID
  | .tool responseID _ => responseID

theorem rid_of_mem_choiceFragments {r : Text} {delta : ChoiceDelta}
    (h : f ∈ choiceFragments r delta) : f.rid = r := by
  unfold choiceFragments at h
  rw [List.mem_append, List.mem_append] at h
  rcases h with (h | h) | h
  · split at h
    · rw [List.mem_singleton.mp h]
      rfl
    · cases h
  · split at h
    · rw [List.mem_singleton.mp h]
      rfl
    · cases h
  · obtain ⟨call, -, rfl⟩ := List.mem_map.mp h
    rfl

theorem rid_of_mem_fragments {rid : Text} (h : f ∈ fragments rid chunks) :
    ∃ before after, chunks = before ++ after ∧ f.rid = responseID rid before := by
  induction chunks generalizing rid with
  | nil => cases h
  | cons chunk chunks ih =>
    rw [fragments_cons, List.mem_append] at h
    rcases h with h | h
    · obtain ⟨choice, -, hf⟩ := List.mem_flatMap.mp h
      exact ⟨[chunk], chunks, rfl, rid_of_mem_choiceFragments hf⟩
    · obtain ⟨before, after, hsplit, hrid⟩ := ih h
      exact ⟨chunk :: before, after, by rw [hsplit]; rfl, hrid⟩

theorem responseID_of_final {rid : Text} {seen later : List Chunk} (hf : f ∈ fragments rid seen)
    (hfinal : f.rid = responseID rid (seen ++ later)) :
    responseID rid seen = responseID rid (seen ++ later) := by
  obtain ⟨before, after, rfl, hrid⟩ := rid_of_mem_fragments hf
  rw [List.append_assoc, responseID_append] at hfinal
  rw [hrid] at hfinal
  have hbetween := responseID_between hfinal.symm
  rw [List.append_assoc, responseID_append, hbetween, responseID_append, ← hfinal]

/-! ## One item in a whole run -/

theorem sits_added (n : ℕ) (f : Fragment) (m : ℕ) : sits (f.added n) m = decide (n = m) := by
  apply sits_of_index
  rcases f with ⟨r, d⟩ | ⟨r, d⟩ | ⟨r, call⟩ <;> rfl

theorem sits_touch (n : ℕ) (v : Entry) (f : Fragment) (m : ℕ) :
    ∀ e ∈ f.touch n v, sits e m = decide (n = m) := by
  intro e he
  apply sits_of_index
  unfold Fragment.touch at he
  rcases f with ⟨r, d⟩ | ⟨r, d⟩ | ⟨r, call⟩
  · rw [List.mem_singleton.mp he]
  · rw [List.mem_singleton.mp he]
  · dsimp only at he
    split at he
    · rw [List.mem_singleton.mp he]
    · cases he

def itemsOf (rid : Text) (chunks : List Chunk) : Items :=
  Items.puts Roster.empty (fragments rid chunks)

section Item

variable {J : StringCodec} {rid : Text} {chunks : List Chunk} {events : List StreamEvent}
  {sd sf : ChatToResponsesStreamState} {n : ℕ} {k : OutputRef} {v : Entry}

structure ItemRun (fs : List Fragment) (n : ℕ) (k : OutputRef) (v : Entry) (x : Fragment)
    (rest : List Fragment) : Prop where
  inputs : (fs.filter fun f => decide (f.key = k)) = x :: rest
  events : (Items.emits Roster.empty fs).filter (sits · n) =
    x.added n :: Roster.touches Fragment.absorb Fragment.touch n x.fresh (x :: rest)
  entry : v = (x :: rest).foldl Fragment.absorb x.fresh

variable {rest : List Fragment} {x : Fragment} {fs : List Fragment}

theorem exists_fragments (hn : (Items.puts Roster.empty fs).entries[n]? = some (k, v)) :
    ∃ x rest, ItemRun fs n k v x rest := by
  obtain ⟨x, rest, hfilter, hevents, hv⟩ :=
    Roster.filter_emits_new sits sits_added sits_touch (Nat.zero_le n) hn
  exact ⟨x, rest, hfilter, hevents, hv⟩

theorem ItemRun.key_eq (h : ItemRun fs n k v x rest) : ∀ f ∈ x :: rest, f ∈ fs ∧ f.key = k := by
  intro f hf
  rw [← h.inputs] at hf
  obtain ⟨hmem, hk⟩ := List.mem_filter.mp hf
  exact ⟨hmem, of_decide_eq_true hk⟩

theorem ItemRun.opening (h : ItemRun fs n k v x rest) : openingID fs k = x.fresh.id := by
  have hhead : (fs.filter fun f => decide (f.key = k)).head? =
      fs.find? fun f => decide (f.key = k) := List.head?_filter
  rw [h.inputs] at hhead
  unfold openingID
  rw [← hhead]
  rfl

theorem ItemRun.content (h : ItemRun (fragments rid chunks) n k v x rest) :
    v.content = inputContent k chunks := by
  have hfresh : x.fresh.content = [] := by
    rcases x with ⟨r, d⟩ | ⟨r, d⟩ | ⟨r, call⟩ <;> rfl
  rw [h.entry, content_foldl, hfresh, ← content_fragments k rid chunks, h.inputs]
  rfl

theorem fresh_id_ne_nil (f : Fragment) : f.fresh.id ≠ [] := by
  rcases f with ⟨r, d⟩ | ⟨r, d⟩ | ⟨r, call⟩
  · simp [Fragment.fresh]
  · simp [Fragment.fresh]
  show (if trimSpace call.id = [] then generatedCallID r (call.index.getD 0)
    else trimSpace call.id) ≠ []
  split
  · simp [generatedCallID]
  · assumption

theorem itemContent_itemOf (r status : Text) : itemContent J (itemOf J r status k v) = v.content := by
  cases k with
  | message => simp [itemContent, itemOf, messageOutput]
  | reasoning => simp [itemContent, itemOf, reasoningOutput]
  | tool j => exact jsonRawMessageToString_marshal J v.content

theorem type_itemOf (r status : Text) : (itemOf J r status k v).type = k.outputType := by
  cases k <;> rfl

def finalItemID (r : Text) (k : OutputRef) (v : Entry) : Text :=
  match k with
  | .message => r ++ "_msg_0".toList
  | .reasoning => r ++ "_reasoning_0".toList
  | .tool _ => v.id

theorem id_itemOf (r status : Text) :
    (itemOf J r status k v).id = finalItemID r k v := by
  cases k <;> rfl

theorem keepsID_of_keeps {i final : Text} {f : Fragment} (h : f.Keeps i final)
    (hi : ∀ v : Entry, v.id = i → finalItemID final f.key v = i) : f.KeepsID i := by
  intro v hv
  rcases f with ⟨r, d⟩ | ⟨r, d⟩ | ⟨r, call⟩
  · rw [show r = final from h]
    exact hi v hv
  · rw [show r = final from h]
    exact hi v hv
  · show (if trimSpace call.id ≠ [] then trimSpace call.id else v.id) = i
    rcases h with h | h
    · rw [if_neg (not_not.mpr h)]
      exact hv
    · rw [h]
      split
      · rfl
      · exact hv

theorem opening_final {i final : Text} (h : x.Keeps i final) (hx : x.fresh.id = i) (v : Entry)
    (hv : v.id = i) : finalItemID final x.key v = i := by
  rcases x with ⟨r, d⟩ | ⟨r, d⟩ | ⟨r, call⟩
  · rw [← show r = final from h]
    exact hx
  · rw [← show r = final from h]
    exact hx
  · exact hv

theorem ItemRun.kept (h : ItemRun (fragments rid chunks) n k v x rest) (hids : IdsKept rid chunks) :
    (∀ e ∈ Roster.touches Fragment.absorb Fragment.touch n x.fresh (x :: rest),
        itemIDs e = [x.fresh.id]) ∧ finalItemID (responseID rid chunks) k v = x.fresh.id := by
  have hkeeps : ∀ f ∈ x :: rest, f.key = k ∧ f.Keeps x.fresh.id (responseID rid chunks) := by
    intro f hf
    obtain ⟨hmem, hk⟩ := h.key_eq f hf
    have hkeep := hids f hmem
    rw [hk, h.opening] at hkeep
    exact ⟨hk, hkeep⟩
  obtain ⟨hxk, hx⟩ := hkeeps x List.mem_cons_self
  have hfinal : ∀ w : Entry, w.id = x.fresh.id →
      finalItemID (responseID rid chunks) k w = x.fresh.id := by
    intro w hw
    rw [← hxk]
    exact opening_final hx rfl w hw
  have hkeepID : ∀ f ∈ x :: rest, f.KeepsID x.fresh.id := by
    intro f hf
    obtain ⟨hfk, hkeep⟩ := hkeeps f hf
    apply keepsID_of_keeps hkeep
    rw [hfk]
    exact hfinal
  obtain ⟨htouch, hlast⟩ := itemIDs_touches (n := n) (fresh_id_ne_nil x) hkeepID rfl
  rw [← h.entry] at hlast
  exact ⟨htouch, hfinal v hlast⟩

theorem itemIDs_added (f : Fragment) :
    itemIDs (f.added n) ≠ [] ∧ ∀ i ∈ itemIDs (f.added n), i = f.fresh.id := by
  rcases f with ⟨r, d⟩ | ⟨r, d⟩ | ⟨r, call⟩
  · simp [itemIDs, Fragment.added]
  · simp [itemIDs, Fragment.added]
  · have hne := fresh_id_ne_nil (.tool r call)
    simp [itemIDs, Fragment.added, hne]

theorem closing_eq (r status : Text) : ∃ closed done,
    closing J r status n k v = [closed, done] ∧ closed.type = k.closedType ∧
      done.type = .outputItemDone ∧ done.item = some (itemOf J r status k v) ∧
      (∀ part, closed.part = some part → part = v.content) ∧
      closed.itemID = finalItemID r k v ∧ closed.item = none ∧ done.itemID = [] := by
  cases k with
  | message | tool j =>
    refine ⟨_, _, rfl, rfl, rfl, rfl, ?_, rfl, rfl, rfl⟩
    intro part hpart
    cases hpart
  | reasoning =>
    refine ⟨_, _, rfl, rfl, rfl, rfl, ?_, rfl, rfl, rfl⟩
    intro part hpart
    cases hpart
    rfl

theorem added_item : ∃ first, (x.added n).item = some first ∧
    first.type = x.key.outputType ∧ (x.added n).type = .outputItemAdded := by
  rcases x with ⟨r, d⟩ | ⟨r, d⟩ | ⟨r, call⟩ <;> exact ⟨_, rfl, rfl, rfl⟩

/-! ## Both directions -/

theorem Ending.close_id (hend : Ending J rid chunks Roster.empty events sd sf)
    (h : ItemRun (fragments rid chunks) n k v x rest) (hids : IdsKept rid chunks) :
    finalItemID sd.id k v = finalItemID sf.id k v := by
  obtain ⟨seen, later, hchunks, hseen, hsd⟩ := hend.closeID
  obtain ⟨hmem, hxk⟩ := h.key_eq x List.mem_cons_self
  have hkeep := hids x hmem
  rcases x with ⟨r, d⟩ | ⟨r, d⟩ | ⟨r, call⟩
  · have hrid : responseID rid seen = responseID rid chunks := by
      rw [← hseen] at hmem
      rw [hchunks]
      apply responseID_of_final hmem
      rw [← hchunks]
      exact hkeep
    rw [hend.finalID, hsd, hrid]
  · have hrid : responseID rid seen = responseID rid chunks := by
      rw [← hseen] at hmem
      rw [hchunks]
      apply responseID_of_final hmem
      rw [← hchunks]
      exact hkeep
    rw [hend.finalID, hsd, hrid]
  · rw [← hxk]
    rfl

theorem outputStatus_eq {s s' : ChatToResponsesStreamState} (h : s'.status = s.status) :
    s'.outputStatus = s.outputStatus := by
  unfold outputStatus
  rw [h]

theorem itemOf_congr {r r' : Text} (status : Text)
    (h : finalItemID r k v = finalItemID r' k v) :
    itemOf J r status k v = itemOf J r' status k v := by
  cases k with
  | message => exact congrArg (messageOutput · status v.content) h
  | reasoning => exact congrArg (reasoningOutput · status v.content) h
  | tool j => rfl

theorem Ending.filter (hend : Ending J rid chunks Roster.empty events sd sf)
    (hn : (itemsOf rid chunks).entries[n]? = some (k, v))
    (h : ItemRun (fragments rid chunks) n k v x rest) :
    (Items.emits Roster.empty (fragments rid chunks) ++ (sd.doneDeltaEvents J).2).filter
        (sits · n) =
      x.added n :: Roster.touches Fragment.absorb Fragment.touch n x.fresh (x :: rest) ++
        closing J sd.id sd.outputStatus n k v := by
  rw [List.filter_append, h.events, filter_doneDeltaEvents hend.closes hn]

theorem Ending.story (hend : Ending J rid chunks Roster.empty events sd sf)
    (hids : IdsKept rid chunks) (hn : (itemsOf rid chunks).entries[n]? = some (k, v)) :
    ItemStory J k (inputContent k chunks) (itemOf J sf.id sf.outputStatus k v)
      ((Items.emits Roster.empty (fragments rid chunks) ++ (sd.doneDeltaEvents J).2).filter
        (sits · n)) := by
  obtain ⟨x, rest, h⟩ := exists_fragments hn
  obtain ⟨htouch, hfinal⟩ := h.kept hids
  have hclose := hend.close_id h hids
  have hitem : itemOf J sd.id sd.outputStatus k v = itemOf J sf.id sf.outputStatus k v := by
    rw [outputStatus_eq hend.status]
    exact itemOf_congr _ hclose
  obtain ⟨closed, done, hclosing, hct, hdt, hdi, hpart, hcid, hci, hdid⟩ :=
    closing_eq (J := J) (n := n) (k := k) (v := v) sd.id sd.outputStatus
  obtain ⟨first, hfirst, hft, hat⟩ := added_item (n := n) (x := x)
  have hkeys := fun f hf => (h.key_eq f hf).2
  have hid : (itemOf J sf.id sf.outputStatus k v).id = x.fresh.id := by
    rw [id_itemOf, hend.finalID, hfinal]
  rw [hend.filter hn h, hclosing]
  refine ⟨⟨x.added n, _, closed, done, rfl, hat, ⟨first, hfirst, ?_⟩, type_touches hkeys, hct, hdt,
    hdi.trans (congrArg some hitem), ?_, ?_⟩, ?_, type_itemOf _ _, ?_⟩
  · rw [hft, (h.key_eq x List.mem_cons_self).2]
  · rw [delta_touches, ← h.inputs, content_fragments]
  · intro part hp
    rw [hpart part hp, h.content]
  · rw [itemContent_itemOf, h.content]
  · intro e he
    rw [hid]
    rw [List.cons_append, List.mem_cons, List.mem_append] at he
    rcases he with rfl | he | he
    · exact itemIDs_added x
    · rw [htouch e he]
      simp
    · have hclosed : itemIDs closed = [x.fresh.id] := by
        unfold itemIDs
        rw [hcid, hclose, hend.finalID, hfinal, hci, if_neg (fresh_id_ne_nil x)]
        rfl
      have hdone : itemIDs done = [x.fresh.id] := by
        unfold itemIDs
        rw [hdid, hdi, hitem, ← hid]
        rfl
      rcases List.mem_cons.mp he with rfl | he
      · rw [hclosed]
        simp
      · rw [List.mem_singleton.mp he, hdone]
        simp

theorem exists_touch {f : Fragment} (hf : f ∈ fs) (ht : ∀ j, f.key ≠ .tool j) (w : Entry) :
    ∃ e ∈ Roster.touches Fragment.absorb Fragment.touch n w fs, f.fresh.id ∈ itemIDs e := by
  induction fs generalizing w with
  | nil => cases hf
  | cons g fs ih =>
    rcases List.mem_cons.mp hf with rfl | hf'
    · rcases f with ⟨r, d⟩ | ⟨r, d⟩ | ⟨r, call⟩
      · exact ⟨_, List.mem_append_left _ (List.mem_singleton_self _), by
          simp [itemIDs, Fragment.absorb, Fragment.fresh]⟩
      · exact ⟨_, List.mem_append_left _ (List.mem_singleton_self _), by
          simp [itemIDs, Fragment.absorb, Fragment.fresh]⟩
      · exact absurd rfl (ht (call.index.getD 0))
    · obtain ⟨e, he, hid⟩ := ih hf' (Fragment.absorb w g)
      exact ⟨e, List.mem_append_right _ he, hid⟩

def Fragment.callID : Fragment → Text
  | .tool _ call => trimSpace call.id
  | _ => []

theorem foldl_callID {y : Text} (hy : y ≠ []) (htool : ∀ f ∈ fs, ∃ j, f.key = .tool j)
    (hall : ∀ f ∈ fs, f.callID = [] ∨ f.callID = y) (w : Entry)
    (h : w.id = y ∨ ∃ f ∈ fs, f.callID = y) : (fs.foldl Fragment.absorb w).id = y := by
  induction fs generalizing w with
  | nil =>
    rcases h with h | ⟨f, hf, -⟩
    · exact h
    · cases hf
  | cons g fs ih =>
    apply ih (fun f hf => htool f (List.mem_cons_of_mem g hf))
      (fun f hf => hall f (List.mem_cons_of_mem g hf))
    obtain ⟨j, hj⟩ := htool g List.mem_cons_self
    have hg := hall g List.mem_cons_self
    rcases g with ⟨r, d⟩ | ⟨r, d⟩ | ⟨r, call⟩
    · cases hj
    · cases hj
    dsimp only [Fragment.absorb]
    rcases hg with hblank | hbrings
    · have hid : trimSpace call.id = [] := hblank
      rw [if_neg (not_not.mpr hid)]
      rcases h with h | ⟨f, hf, hfy⟩
      · exact Or.inl h
      · rcases List.mem_cons.mp hf with rfl | hf'
        · exact absurd (hfy.symm.trans hblank) hy
        · exact Or.inr ⟨f, hf', hfy⟩
    · left
      rw [if_pos (by rw [show trimSpace call.id = y from hbrings]; exact hy)]
      exact hbrings

theorem callID_eq (hone : OneCallID chunks) {f g : Fragment} (hf : f ∈ fragments rid chunks)
    (hg : g ∈ fragments rid chunks) (hk : f.key = g.key) (hfy : f.callID ≠ []) :
    g.callID = [] ∨ g.callID = f.callID := by
  rcases f with ⟨r, d⟩ | ⟨r, d⟩ | ⟨r, call⟩
  · exact absurd rfl hfy
  · exact absurd rfl hfy
  rcases g with ⟨r', d'⟩ | ⟨r', d'⟩ | ⟨r', call'⟩
  · cases hk
  · cases hk
  by_cases hblank : trimSpace call'.id = []
  · exact Or.inl hblank
  right
  have hindex : call'.index.getD 0 = call.index.getD 0 := by
    have hk' : OutputRef.tool (call.index.getD 0) = .tool (call'.index.getD 0) := hk
    exact (OutputRef.tool.inj hk').symm
  exact hone call' (mem_toolCallsOf hg) call (mem_toolCallsOf hf) hindex hblank hfy

theorem Ending.kept (hend : Ending J rid chunks Roster.empty events sd sf)
    (hone : OneCallID chunks)
    (hids : ∀ n k v, (itemsOf rid chunks).entries[n]? = some (k, v) →
      ∀ e ∈ (Items.emits Roster.empty (fragments rid chunks) ++ (sd.doneDeltaEvents J).2).filter
        (sits · n), ∀ i ∈ itemIDs e, i = (itemOf J sf.id sf.outputStatus k v).id) :
    IdsKept rid chunks := by
  intro f hf
  have hkey : f.key ∈ (itemsOf rid chunks).keys :=
    (Roster.mem_keys_puts _ _ _ _ _ _).mpr (Or.inr ⟨f, hf, rfl⟩)
  obtain ⟨n, v, hn⟩ := Roster.exists_getElem?_of_mem hkey
  obtain ⟨x, rest, h⟩ := exists_fragments hn
  have hmem : f ∈ x :: rest := by
    rw [← h.inputs]
    exact List.mem_filter.mpr ⟨hf, by simp⟩
  have hid := hids n f.key v hn
  rw [hend.filter hn h, hend.finalID] at hid
  rw [h.opening]
  rcases hfc : f with ⟨r, d⟩ | ⟨r, d⟩ | ⟨r, call⟩
  · obtain ⟨e, he, hin⟩ := exists_touch (n := n) hmem (by simp [hfc, Fragment.key]) x.fresh
    have hsame := hid e (List.mem_append_left _ (List.mem_cons_of_mem _ he)) _ hin
    rw [hfc] at hsame
    exact List.append_cancel_right hsame
  · obtain ⟨e, he, hin⟩ := exists_touch (n := n) hmem (by simp [hfc, Fragment.key]) x.fresh
    have hsame := hid e (List.mem_append_left _ (List.mem_cons_of_mem _ he)) _ hin
    rw [hfc] at hsame
    exact List.append_cancel_right hsame
  · by_cases hblank : trimSpace call.id = []
    · exact Or.inl hblank
    right
    have hcall : f.callID = trimSpace call.id := by rw [hfc]; rfl
    have hlast : v.id = trimSpace call.id := by
      rw [h.entry]
      apply foldl_callID hblank
      · intro g hg
        rw [(h.key_eq g hg).2, hfc]
        exact ⟨_, rfl⟩
      · intro g hg
        obtain ⟨hgmem, hgk⟩ := h.key_eq g hg
        rw [← hcall]
        exact callID_eq hone hf hgmem hgk.symm (by rw [hcall]; exact hblank)
      · exact Or.inr ⟨f, hmem, hcall⟩
    have hadded := hid (x.added n) (List.mem_append_left _ List.mem_cons_self)
    obtain ⟨i, hi⟩ := List.exists_mem_of_ne_nil _ (itemIDs_added (n := n) x).1
    have hfresh := (itemIDs_added x).2 i hi
    have hfinal := hadded i hi
    rw [hfc] at hfinal
    rw [← hlast, ← hfresh, hfinal]
    rfl

end Item

/-! ## The whole stream -/

def startedState (rid model : Text) (now : ℤ) : ChatToResponsesStreamState :=
  { newChatToResponsesStreamState rid model now with sentCreated := true }

theorem refines_started (rid model : Text) (now : ℤ) :
    Refines (startedState rid model now) Roster.empty false where
  order := rfl
  next := rfl
  text := ⟨rfl, (fun h => by cases h), rfl⟩
  textDone := rfl
  reasoning := ⟨rfl, (fun h => by cases h), rfl⟩
  reasoningDone := rfl
  tools _ := rfl
  nodup := List.nodup_nil

theorem convertStream_ending (J : StringCodec) (rid model : Text) (now : ℤ)
    (hc : ChatChunks chunks) : ∃ created rest sd sf, created.type = .created ∧
      convertStream J rid model now chunks = created :: rest ∧
      Ending J rid chunks Roster.empty rest sd sf := by
  obtain ⟨chunk, chunks', rfl⟩ := List.exists_cons_of_ne_nil hc.nonempty
  obtain ⟨created, htype, hrun⟩ := streamChunks_created (J := J)
    (s := newChatToResponsesStreamState rid model now) rfl chunk chunks'
  obtain ⟨sd, sf, hend⟩ := exists_ending (J := J) (refines_started rid model now) rfl rfl hc.choice
    hc.finish
  refine ⟨created, _, sd, sf, htype, ?_, hend⟩
  unfold convertStream restEvents
  rw [hrun]
  rfl

section Whole

variable {J : StringCodec} {rid : Text} {chunks : List Chunk} {rest : List StreamEvent}
  {sd sf : ChatToResponsesStreamState}

theorem Ending.index (hend : Ending J rid chunks Roster.empty rest sd sf) {e : StreamEvent}
    (he : e ∈ Items.emits Roster.empty (fragments rid chunks) ++ (sd.doneDeltaEvents J).2) :
    ∃ n k v, (itemsOf rid chunks).entries[n]? = some (k, v) ∧ sits e n = true := by
  rcases List.mem_append.mp he with he | he
  · obtain ⟨n, hn, hsits⟩ := Roster.sits_emits_lt sits sits_added sits_touch e he
    exact ⟨n, _, _, List.getElem?_eq_getElem hn, hsits⟩
  · obtain ⟨n, k, v, hn, hmem⟩ := mem_doneDeltaEvents hend.closes he
    refine ⟨n, k, v, hn, ?_⟩
    rw [sits_closing _ _ n n k v e hmem]
    simp

theorem ItemStory.between {k : OutputRef} {content : Text} {item : ResponsesOutput}
    {events : List StreamEvent} (h : ItemStory J k content item events) :
    ∀ e ∈ events, e.type ≠ .created ∧ isTerminal e.type = false := by
  obtain ⟨added, deltas, closed, done, rfl, hat, -, hdt, hct, hdone, -⟩ := h.shape
  intro e he
  rw [List.cons_append, List.mem_cons, List.mem_append] at he
  rcases he with rfl | he | he
  · rw [hat]
    decide
  · rw [hdt e he]
    cases k <;> simp [OutputRef.deltaType, isTerminal]
  · rcases List.mem_cons.mp he with rfl | he
    · rw [hct]
      cases k <;> simp [OutputRef.closedType, isTerminal]
    · rw [List.mem_singleton.mp he, hdone]
      decide

theorem Ending.told (hend : Ending J rid chunks Roster.empty rest sd sf)
    (hids : IdsKept rid chunks) {created terminal : StreamEvent} (hcreated : created.type = .created)
    (hlast : isTerminal terminal.type = true)
    (hresp : terminal.response = some (sf.finalResponse J)) :
    Told J chunks created
      (Items.emits Roster.empty (fragments rid chunks) ++ (sd.doneDeltaEvents J).2) terminal
      (sf.finalResponse J) (itemsOf rid chunks).keys := by
  have houtput := finalResponse_output (J := J) hend.final
  have hlength : (itemsOf rid chunks).keys.length = (itemsOf rid chunks).entries.length :=
    List.length_map ..
  constructor
  · exact hcreated
  · exact hlast
  · exact hresp
  · intro e he
    obtain ⟨n, k, v, hn, hsits⟩ := hend.index he
    exact (hend.story hids hn).between e (List.mem_filter.mpr ⟨he, hsits⟩)
  · exact (itemsOf rid chunks).nodup
  · intro k
    rw [← mem_fragments k rid chunks]
    refine (Roster.mem_keys_puts _ _ _ _ _ _).trans ?_
    simp [Roster.keys, Roster.empty]
  · rw [houtput, List.length_map, hlength]
    rfl
  · intro e he
    obtain ⟨n, k, v, hn, hsits⟩ := hend.index he
    have hlt := (List.getElem?_eq_some_iff.mp hn).1
    exact ⟨n, by omega, of_decide_eq_true hsits⟩
  · intro n k item hk hitem
    rw [houtput, List.getElem?_map] at hitem
    obtain ⟨⟨k', v⟩, hn, rfl⟩ := Option.map_eq_some_iff.mp hitem
    have hk' := Roster.keys_getElem? hn
    rw [show (Items.puts Roster.empty (fragments rid chunks)).keys[n]? = some k from hk,
      Option.some.injEq] at hk'
    rw [hk']
    exact hend.story hids hn

end Whole

theorem idsKept_of_wellFormedStream {J : StringCodec} {rid model : Text} {now : ℤ}
    (hc : ChatChunks chunks) (hone : OneCallID chunks)
    (h : WellFormedStream J chunks (convertStream J rid model now chunks)) :
    IdsKept rid chunks := by
  obtain ⟨created, rest, sd, sf, hcreated, hrun, hend⟩ := convertStream_ending J rid model now hc
  obtain ⟨type, -, hevents⟩ := hend.events
  obtain ⟨created', between, terminal, resp, keys, hcut, htold⟩ := h
  rw [hrun, hevents, List.cons_append, List.cons.injEq] at hcut
  obtain ⟨hbetween, hterminal⟩ := List.append_inj' hcut.2 rfl
  rw [List.cons.injEq] at hterminal
  have hresp := htold.response
  rw [← hterminal.1, Option.some.injEq] at hresp
  have houtput := finalResponse_output (J := J) hend.final
  apply hend.kept hone
  intro n k v hn e he i hi
  have hitem : resp.output[n]? = some (itemOf J sf.id sf.outputStatus k v) := by
    rw [← hresp, houtput, List.getElem?_map]
    exact congrArg (Option.map _) hn
  have hlt : n < keys.length := by
    rw [← htold.length]
    exact (List.getElem?_eq_some_iff.mp hitem).1
  have hstory := htold.items n _ _ (List.getElem?_eq_getElem hlt) hitem
  rw [← hbetween] at hstory
  exact (hstory.ids e he).2 i hi

/-- A chat stream becomes a well formed stream of Responses events exactly when no fragment and no
later chunk brings another id for an item that was added before. -/
theorem chat_stream_well_formed_iff (J : StringCodec) (rid model : Text) (now : ℤ)
    (chunks : List Chunk) (hc : ChatChunks chunks) (hone : OneCallID chunks) :
    WellFormedStream J chunks (convertStream J rid model now chunks) ↔ IdsKept rid chunks := by
  constructor
  · exact idsKept_of_wellFormedStream hc hone
  · intro hids
    obtain ⟨created, rest, sd, sf, hcreated, hrun, hend⟩ :=
      convertStream_ending J rid model now hc
    obtain ⟨type, htype, hevents⟩ := hend.events
    have hlast : isTerminal type = true := by
      rcases htype with rfl | rfl <;> rfl
    let terminal : StreamEvent := { type := type, response := some (sf.finalResponse J) }
    have htold : Told J chunks created _ terminal (sf.finalResponse J) _ :=
      hend.told hids hcreated hlast rfl
    refine ⟨created, _, terminal, sf.finalResponse J, _, ?_, htold⟩
    rw [hrun, hevents, List.cons_append]

def twoCalls : List Chunk :=
  [{ id := "chatcmpl".toList
     choices := [{ delta :=
       { reasoningContent := some "hm".toList
         toolCalls := [{ index := some 1, id := "call_b".toList, name := "g".toList }] } }] },
   { choices := [{ delta :=
       { content := some "Let me see".toList
         toolCalls := [{ index := some 0, id := "call_a".toList, name := "f".toList,
                         arguments := "[1".toList },
                       { index := some 1, arguments := "[2]".toList }] } }] },
   { choices := [{ delta := { toolCalls := [{ index := some 0, arguments := "]".toList }] }
                   finishReason := some "tool_calls".toList }] },
   { usage := some { promptTokens := 3, completionTokens := 5 } }]

theorem chat_stream_well_formed_two_calls :
    WellFormedStream quotedStrings twoCalls
      (convertStream quotedStrings [] "m".toList 7 twoCalls) :=
  (chat_stream_well_formed_iff quotedStrings [] "m".toList 7 twoCalls
    ⟨by decide, by decide, by decide⟩ (by decide)).mpr (by decide)

def lateID : List Chunk :=
  [{ choices := [{ delta := { toolCalls := [{ index := some 0, name := "f".toList }] } }] },
   { choices := [{ delta := { toolCalls := [{ index := some 0, id := "call_1".toList,
                                              arguments := "[]".toList }] }
                   finishReason := some "tool_calls".toList }] }]

/-- The item is added as `resp_call_0` and goes on as `call_1`. -/
theorem late_id_splits_item :
    ChatChunks lateID ∧ OneCallID lateID ∧
      ∀ J : StringCodec,
        ((convertStream J "resp".toList "m".toList 7 lateID).map fun e =>
            (e.type, e.outputIndex, itemIDs e)) =
          [(.created, none, []),
           (.outputItemAdded, some 0, ["resp_call_0".toList, "resp_call_0".toList]),
           (.functionArgsDelta, some 0, ["call_1".toList]),
           (.functionArgsDone, some 0, ["call_1".toList]),
           (.outputItemDone, some 0, ["call_1".toList]),
           (.completed, none, [])] ∧
        ¬ WellFormedStream J lateID (convertStream J "resp".toList "m".toList 7 lateID) := by
  have hc : ChatChunks lateID := ⟨by decide, by decide, by decide⟩
  have hone : OneCallID lateID := by decide
  have hlost : ¬ IdsKept "resp".toList lateID := by decide
  refine ⟨hc, hone, fun J => ⟨rfl, fun h => hlost ?_⟩⟩
  exact idsKept_of_wellFormedStream hc hone h

end NewApi.RelayConvert
