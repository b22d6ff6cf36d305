import NewApi.RelayConvert.ResponsesBuffered
import NewApi.RelayConvert.ResponsesStream

/-!
# The tool calls of a Responses stream

A call is known from its first output item event on; arguments that come earlier wait.
-/

namespace NewApi.RelayConvert

open NewApi.Dto

abbrev Event := ResponsesStreamResponse

def toolItemOf (e : Event) : Option ResponsesOutput :=
  if e.type = .outputItemAdded ∨ e.type = .outputItemDone then
    e.item.filter fun item => isResponsesToolOutputType item.type
  else none

def isItem (e : Event) : Bool := (toolItemOf e).isSome

def isArgsDelta (e : Event) : Bool :=
  decide (e.type = .functionArgsDelta) || decide (e.type = .customToolInputDelta)

def isArgsDone (e : Event) : Bool :=
  decide (e.type = .functionArgsDone) || decide (e.type = .customToolInputDone)

def isToolEvent (e : Event) : Bool := isItem e || isArgsDelta e || isArgsDone e

def carriesID (e : Event) : Bool := decide (responseStreamEventItemID e ≠ [])

def itemOwnID (e : Event) : Text := ((toolItemOf e).map fun item => trimSpace item.id).getD []

/-- The item has its id in itself, not only beside it in the event. -/
def identifies (e : Event) : Bool := decide (itemOwnID e ≠ [])

def bringsArgs (e : Event) : Bool := isArgsDelta e && decide (e.delta ≠ [])

def itemArgs (J : StringCodec) (e : Event) : Text :=
  ((toolItemOf e).map (ResponsesOutput.argumentsString J)).getD []

def itemName (e : Event) : Text := ((toolItemOf e).map fun item => trimSpace item.name).getD []

def itemCallID (e : Event) : Text := ((toolItemOf e).map fun item => trimSpace item.callId).getD []

structure StreamedCall where
  outputIndex : ℤ
  itemID : Text
  callID : Text
  name : Text
  arguments : Text
  deriving DecidableEq, Repr

namespace StreamedCall

def shownID (c : StreamedCall) : Text := if c.callID = [] then c.itemID else c.callID

structure Proper (c : StreamedCall) : Prop where
  itemID : c.itemID ≠ []
  itemID_trimmed : trimSpace c.itemID = c.itemID
  callID_trimmed : trimSpace c.callID = c.callID

def names (c : StreamedCall) (e : Event) : Bool :=
  isToolEvent e && (decide (e.outputIndex = some c.outputIndex) ||
    decide (responseStreamEventItemID e = c.itemID))

/-- An event of the call carries its output index, its item id or both. An item in it is the item
of the call, as far as it says, with no arguments or with the complete ones. -/
structure Owns (J : StringCodec) (c : StreamedCall) (e : Event) : Prop where
  index : e.outputIndex = none ∨ e.outputIndex = some c.outputIndex
  id : responseStreamEventItemID e = [] ∨ responseStreamEventItemID e = c.itemID
  beside : trimSpace e.itemID = [] ∨ trimSpace e.itemID = c.itemID
  either : e.outputIndex ≠ none ∨ responseStreamEventItemID e ≠ []
  item : e.item = toolItemOf e
  callID : itemCallID e = [] ∨ itemCallID e = c.callID
  name : itemName e = [] ∨ itemName e = c.name
  args : itemArgs J e = [] ∨ itemArgs J e = c.arguments

end StreamedCall

def deltas (es : List Event) : Text := es.flatMap fun e => if isArgsDelta e then e.delta else []

structure Complete (J : StringCodec) (c : StreamedCall) (es : List Event) : Prop where
  after : ∀ before e after, es = before ++ e :: after → itemArgs J e ≠ [] →
    ∀ d ∈ after, bringsArgs d = false
  spelled : deltas es = [] ∨ deltas es = c.arguments

def ends (e : Event) : Bool :=
  match e.type with
  | .completed | .done | .incomplete | .failed | .error => true
  | _ => false

def textOf (e : Event) : Text := if e.type = .outputTextDelta then e.delta else []

structure Streamed (J : StringCodec) (calls : List StreamedCall) (body : List Event) : Prop where
  indices : (calls.map StreamedCall.outputIndex).Nodup
  ids : (calls.map StreamedCall.itemID).Nodup
  proper : ∀ c ∈ calls, c.Proper
  running : ∀ e ∈ body, ends e = false
  owned : ∀ e ∈ body, isToolEvent e = true → ∃ c ∈ calls, c.Owns J e
  introduced : ∀ c ∈ calls, ∃ e ∈ body, c.names e = true ∧ isItem e = true ∧
    e.outputIndex ≠ none ∧ carriesID e = true
  complete : ∀ c ∈ calls, Complete J c (body.filter c.names)

/-- The events of a call that both accumulators file under one tool, in the same order:
every item event has the output index; the arguments are only declared done for a tool that is
there, under the key that is used; the first item event has the call id, or its own id where the
call has none; it also has its own id, or all deltas have the output index; and no delta that
waits under the item id is overtaken by one that waits under the output index, unless the
arguments never come again. -/
structure Regular (J : StringCodec) (c : StreamedCall) (es : List Event) : Prop where
  indexed : ∀ e ∈ es, isItem e = true → e.outputIndex ≠ none
  announced : ∀ before e after, es = before ++ e :: after → isArgsDone e = true →
    (∃ i ∈ before, isItem i = true) ∧
      (e.outputIndex = none → ∃ i ∈ before, isItem i = true ∧ carriesID i = true)
  called : ∀ before i after, es = before ++ i :: after → isItem i = true →
    (∀ j ∈ before, isItem j = false) →
    itemCallID i = c.callID ∧ (c.callID ≠ [] ∨ identifies i = true)
  identified : ∀ before i after, es = before ++ i :: after → isItem i = true →
    (∀ j ∈ before, isItem j = false) →
    identifies i = true ∨ ∀ d ∈ es, bringsArgs d = true → d.outputIndex ≠ none
  ordered : ∀ before i after, es = before ++ i :: after → isItem i = true →
    (∀ j ∈ before, isItem j = false) →
    (∀ j ∈ after, itemArgs J j = []) ∨
      before.Pairwise fun d d' => bringsArgs d = true → d.outputIndex = none →
        bringsArgs d' = true → d'.outputIndex = none

/-- The call as its events tell it: without a call id where none of them has one. -/
def StreamedCall.asTold (c : StreamedCall) (es : List Event) : StreamedCall :=
  { c with callID := if es.any fun e => decide (itemCallID e ≠ []) then c.callID else [] }

/-! ## Tracking one call -/

structure Track where
  known : Bool := false
  /-- The first output item event had the item id in its item. -/
  withID : Bool := false
  /-- Some output item event carried the item id. -/
  idKnown : Bool := false
  name : Text := []
  args : Text := []
  waitIndex : Text := []
  waitID : Text := []
  deriving DecidableEq, Repr

def Track.step (J : StringCodec) (t : Track) (e : Event) : Track :=
  if isItem e then
    { known := true
      withID := if t.known then t.withID else identifies e
      idKnown := t.idKnown || carriesID e
      name := if itemName e ≠ [] then itemName e else t.name
      args := if itemArgs J e ≠ [] then itemArgs J e
        else if t.known then t.args else t.waitIndex ++ t.waitID
      waitIndex := []
      waitID := [] }
  else if isArgsDelta e then
    if t.known then { t with args := t.args ++ e.delta }
    else if e.outputIndex.isSome then { t with waitIndex := t.waitIndex ++ e.delta }
    else { t with waitID := t.waitID ++ e.delta }
  else t

def track (J : StringCodec) (es : List Event) : Track := es.foldl (Track.step J) {}

structure StepOK (J : StringCodec) (c : StreamedCall) (t : Track) (e : Event) : Prop where
  indexed : isItem e = true → e.outputIndex ≠ none
  announced : isArgsDone e = true → t.known = true ∧ (e.outputIndex = none → t.idKnown = true)
  called : t.known = false → isItem e = true →
    itemCallID e = c.callID ∧ (c.callID ≠ [] ∨ identifies e = true)
  delta : t.known = true → bringsArgs e = true → e.outputIndex = none → t.withID = true
  unnamed : t.known = false → isItem e = true → identifies e = false → t.waitID = []
  args : itemArgs J e ≠ [] → t.known = true → t.args = [] ∨ t.args = itemArgs J e
  named : itemName e ≠ [] → t.name = [] ∨ t.name = itemName e

section Step

variable {J : StringCodec} {t : Track} {e : Event}

theorem itemArgs_of_not_item (h : isItem e = false) : itemArgs J e = [] := by
  unfold itemArgs
  rw [Option.isSome_eq_false_iff.mp h |> Option.isNone_iff_eq_none.mp]
  rfl

theorem step_item (h : isItem e = true) : t.step J e =
    { known := true
      withID := if t.known then t.withID else identifies e
      idKnown := t.idKnown || carriesID e
      name := if itemName e ≠ [] then itemName e else t.name
      args := if itemArgs J e ≠ [] then itemArgs J e
        else if t.known then t.args else t.waitIndex ++ t.waitID
      waitIndex := []
      waitID := [] } := if_pos h

theorem step_delta_known (hi : isItem e = false) (hd : isArgsDelta e = true)
    (hk : t.known = true) : t.step J e = { t with args := t.args ++ e.delta } := by
  unfold Track.step
  rw [if_neg (ne_true_of_eq_false hi), if_pos hd, if_pos hk]

theorem step_delta_index (hi : isItem e = false) (hd : isArgsDelta e = true)
    (hk : t.known = false) (hn : e.outputIndex ≠ none) :
    t.step J e = { t with waitIndex := t.waitIndex ++ e.delta } := by
  unfold Track.step
  rw [if_neg (ne_true_of_eq_false hi), if_pos hd,
    if_neg (ne_true_of_eq_false hk), if_pos (Option.isSome_iff_ne_none.mpr hn)]

theorem step_delta_id (hi : isItem e = false) (hd : isArgsDelta e = true)
    (hk : t.known = false) (hn : e.outputIndex = none) :
    t.step J e = { t with waitID := t.waitID ++ e.delta } := by
  unfold Track.step
  rw [if_neg (ne_true_of_eq_false hi), if_pos hd,
    if_neg (ne_true_of_eq_false hk), hn]
  rfl

theorem step_other (hi : isItem e = false) (hd : isArgsDelta e = false) : t.step J e = t := by
  unfold Track.step
  rw [if_neg (ne_true_of_eq_false hi), if_neg (ne_true_of_eq_false hd)]

theorem step_not_item (hi : isItem e = false) : (t.step J e).known = t.known ∧
    (t.step J e).withID = t.withID ∧ (t.step J e).idKnown = t.idKnown ∧
    (t.step J e).name = t.name := by
  rcases hd : isArgsDelta e with _ | _
  · rw [step_other hi hd]
    exact ⟨rfl, rfl, rfl, rfl⟩
  · rcases hk : t.known with _ | _
    · by_cases hn : e.outputIndex = none
      · rw [step_delta_id hi hd hk hn]
        exact ⟨hk, rfl, rfl, rfl⟩
      · rw [step_delta_index hi hd hk hn]
        exact ⟨hk, rfl, rfl, rfl⟩
    · rw [step_delta_known hi hd hk]
      exact ⟨hk, rfl, rfl, rfl⟩

theorem item_of_toolItem {item : ResponsesOutput} (h : toolItemOf e = some item) :
    e.item = some item := by
  unfold toolItemOf at h
  split at h
  · exact (Option.filter_eq_some_iff.mp h).1
  · cases h

theorem itemOwnID_of_item {item : ResponsesOutput} (h : toolItemOf e = some item) :
    itemOwnID e = trimSpace item.id := by
  unfold itemOwnID
  rw [h]
  rfl

theorem eventItemID_of_identifies (h : itemOwnID e ≠ []) :
    responseStreamEventItemID e = itemOwnID e := by
  rcases hitem : toolItemOf e with _ | item
  · unfold itemOwnID at h
    rw [hitem] at h
    exact absurd rfl h
  · rw [itemOwnID_of_item hitem] at h ⊢
    unfold responseStreamEventItemID
    rw [item_of_toolItem hitem]
    exact if_pos h

theorem carriesID_of_identifies (h : identifies e = true) : carriesID e = true := by
  have hne : itemOwnID e ≠ [] := of_decide_eq_true h
  unfold carriesID
  rw [eventItemID_of_identifies hne]
  exact h

theorem identifies_of_no_id (h : responseStreamEventItemID e = []) : identifies e = false := by
  refine Bool.eq_false_iff.mpr fun hyes => ?_
  have hcarries : responseStreamEventItemID e ≠ [] :=
    of_decide_eq_true (carriesID_of_identifies hyes)
  exact hcarries h

theorem not_delta_of_item (h : isItem e = true) : isArgsDelta e = false := by
  unfold isItem toolItemOf at h
  unfold isArgsDelta
  split at h
  · rename_i htype
    rcases htype with htype | htype <;> rw [htype] <;> rfl
  · cases h

theorem not_done_of_item (h : isItem e = true) : isArgsDone e = false := by
  unfold isItem toolItemOf at h
  unfold isArgsDone
  split at h
  · rename_i htype
    rcases htype with htype | htype <;> rw [htype] <;> rfl
  · cases h

theorem brings_of_delta_ne (hd : isArgsDelta e = true) (h : e.delta ≠ []) : bringsArgs e = true := by
  unfold bringsArgs
  rw [hd, decide_eq_true h]
  rfl

theorem delta_of_not_brings (hd : isArgsDelta e = true) (h : bringsArgs e = false) :
    e.delta = [] := by
  by_contra hne
  rw [brings_of_delta_ne hd hne] at h
  cases h

end Step

section Run

variable {J : StringCodec} {c : StreamedCall} {es : List Event}

theorem track_snoc (e : Event) : track J (es ++ [e]) = (track J es).step J e :=
  List.foldl_concat ..

theorem track_append (rest : List Event) :
    track J (es ++ rest) = rest.foldl (Track.step J) (track J es) := List.foldl_append

theorem deltas_append (rest : List Event) : deltas (es ++ rest) = deltas es ++ deltas rest :=
  List.flatMap_append

theorem deltas_cons (e : Event) :
    deltas (e :: es) = (if isArgsDelta e then e.delta else []) ++ deltas es := List.flatMap_cons

theorem deltas_of_not_brings (h : ∀ d ∈ es, bringsArgs d = false) : deltas es = [] := by
  refine List.flatMap_eq_nil_iff.mpr ?_
  intro d hd
  rcases ha : isArgsDelta d with _ | _
  · rfl
  · exact delta_of_not_brings ha (h d hd)

theorem known_iff : (track J es).known = true ↔ ∃ i ∈ es, isItem i = true := by
  induction es using List.reverseRecOn with
  | nil => simp [track]
  | append_singleton es e ih =>
    rw [track_snoc]
    rcases hi : isItem e with _ | _
    · rw [(step_not_item hi).1, ih]
      simp [hi]
    · rw [step_item hi]
      simp [hi]

theorem idKnown_iff : (track J es).idKnown = true ↔
    ∃ i ∈ es, isItem i = true ∧ carriesID i = true := by
  induction es using List.reverseRecOn with
  | nil => simp [track]
  | append_singleton es e ih =>
    rw [track_snoc]
    rcases hi : isItem e with _ | _
    · rw [(step_not_item hi).2.2.1, ih]
      simp [hi]
    · rw [step_item hi]
      simp only [Bool.or_eq_true, ih, List.mem_append, List.mem_singleton]
      constructor
      · rintro (⟨i, hmem, hitem⟩ | he)
        · exact ⟨i, .inl hmem, hitem⟩
        · exact ⟨e, .inr rfl, hi, he⟩
      · rintro ⟨i, hmem | rfl, hitem⟩
        · exact .inl ⟨i, hmem, hitem⟩
        · exact .inr hitem.2

structure Track.WF (t : Track) : Prop where
  noIndex : t.known = true → t.waitIndex = []
  noID : t.known = true → t.waitID = []
  withID : t.withID = true → t.idKnown = true
  idKnown : t.idKnown = true → t.known = true
  name : t.known = false → t.name = []

theorem Track.WF.step {t : Track} (h : t.WF) (e : Event) : (t.step J e).WF := by
  rcases hi : isItem e with _ | _
  · obtain ⟨hknown, hwith, hid, hname⟩ := step_not_item (J := J) (t := t) hi
    have hwait : t.known = true →
        (t.step J e).waitIndex = t.waitIndex ∧ (t.step J e).waitID = t.waitID := by
      intro hk
      rcases hd : isArgsDelta e with _ | _
      · rw [step_other hi hd]
        exact ⟨rfl, rfl⟩
      · rw [step_delta_known hi hd hk]
        exact ⟨rfl, rfl⟩
    refine ⟨?_, ?_, ?_, ?_, ?_⟩
    · intro hk
      rw [hknown] at hk
      rw [(hwait hk).1]
      exact h.noIndex hk
    · intro hk
      rw [hknown] at hk
      rw [(hwait hk).2]
      exact h.noID hk
    · rw [hwith, hid]
      exact h.withID
    · rw [hid, hknown]
      exact h.idKnown
    · rw [hknown, hname]
      exact h.name
  · rw [step_item hi]
    refine ⟨fun _ => rfl, fun _ => rfl, ?_, fun _ => rfl, fun hk => by cases hk⟩
    intro hw
    rcases hk : t.known with _ | _
    · rw [hk] at hw
      rw [carriesID_of_identifies hw, Bool.or_true]
    · rw [hk] at hw
      rw [h.withID hw, Bool.true_or]

theorem track_wf : (track J es).WF := by
  induction es using List.reverseRecOn with
  | nil => exact ⟨fun _ => rfl, fun _ => rfl, fun h => h, fun h => h, fun _ => rfl⟩
  | append_singleton es e ih =>
    rw [track_snoc]
    exact ih.step e

theorem track_name (ho : ∀ e ∈ es, c.Owns J e) :
    (track J es).name = [] ∨ (track J es).name = c.name := by
  induction es using List.reverseRecOn with
  | nil => exact .inl rfl
  | append_singleton es e ih =>
    have hrest := ih fun j hj => ho j (List.mem_append_left _ hj)
    rw [track_snoc]
    rcases hi : isItem e with _ | _
    · rw [(step_not_item hi).2.2.2]
      exact hrest
    · rw [step_item hi]
      by_cases hne : itemName e ≠ []
      · rw [if_pos hne]
        exact (ho e (List.mem_append_right _ (List.mem_singleton_self e))).name
      · rw [if_neg hne]
        exact hrest

/-! ## What waits, and what has arrived -/

theorem unknown_of_no_item (h : ∀ j ∈ es, isItem j = false) : (track J es).known = false := by
  rw [Bool.eq_false_iff, Ne, known_iff]
  rintro ⟨i, hmem, hi⟩
  rw [h i hmem] at hi
  cases hi

theorem waitID_nil (h : ∀ j ∈ es, isItem j = false)
    (hx : ∀ d ∈ es, bringsArgs d = true → d.outputIndex ≠ none) : (track J es).waitID = [] := by
  induction es using List.reverseRecOn with
  | nil => rfl
  | append_singleton es e ih =>
    have hrest := ih (fun j hj => h j (List.mem_append_left _ hj))
      (fun d hd => hx d (List.mem_append_left _ hd))
    have hk := unknown_of_no_item (J := J) (fun j hj => h j (List.mem_append_left [e] hj))
    have he : e ∈ es ++ [e] := List.mem_append_right _ (List.mem_singleton_self e)
    have hi := h e he
    rw [track_snoc]
    rcases hd : isArgsDelta e with _ | _
    · rw [step_other hi hd]
      exact hrest
    · by_cases hn : e.outputIndex = none
      · rw [step_delta_id hi hd hk hn]
        have hempty : e.delta = [] := by
          by_contra hne
          exact hx e he (brings_of_delta_ne hd hne) hn
        rw [hrest, hempty]
        rfl
      · rw [step_delta_index hi hd hk hn]
        exact hrest

theorem waits_in_order (h : ∀ j ∈ es, isItem j = false)
    (ho : es.Pairwise fun d d' => bringsArgs d = true → d.outputIndex = none →
      bringsArgs d' = true → d'.outputIndex = none) :
    (track J es).waitIndex ++ (track J es).waitID = deltas es := by
  induction es using List.reverseRecOn with
  | nil => rfl
  | append_singleton es e ih =>
    rw [List.pairwise_append] at ho
    have hpre : ∀ j ∈ es, isItem j = false := fun j hj => h j (List.mem_append_left _ hj)
    have hrest := ih hpre ho.1
    have hk := unknown_of_no_item (J := J) hpre
    have hi := h e (List.mem_append_right _ (List.mem_singleton_self e))
    rw [track_snoc, deltas_append, ← hrest]
    show _ = _ ++ ((if isArgsDelta e then e.delta else []) ++ [])
    rw [List.append_nil]
    rcases hd : isArgsDelta e with _ | _
    · rw [step_other hi hd]
      exact (List.append_nil _).symm
    · rw [if_pos rfl]
      by_cases hn : e.outputIndex = none
      · rw [step_delta_id hi hd hk hn]
        exact (List.append_assoc ..).symm
      · rw [step_delta_index hi hd hk hn]
        by_cases hempty : e.delta = []
        · rw [hempty, List.append_nil, List.append_nil]
        · -- nothing waits under the item id, for `e` would overtake it
          have hnone : (track J es).waitID = [] := by
            refine waitID_nil hpre ?_
            intro d hmem hb hdn
            exact hn (ho.2.2 d hmem e (List.mem_singleton_self e) hb hdn
              (brings_of_delta_ne hd hempty))
          rw [hnone, List.append_nil, List.append_nil]

theorem args_foldl_append {t : Track} (hk : t.known = true) (h : ∀ j ∈ es, itemArgs J j = []) :
    (es.foldl (Track.step J) t).args = t.args ++ deltas es := by
  induction es generalizing t with
  | nil => exact (List.append_nil _).symm
  | cons e es ih =>
    have hrest : ∀ j ∈ es, itemArgs J j = [] := fun j hj => h j (List.mem_cons_of_mem _ hj)
    have hnone := h e List.mem_cons_self
    rw [List.foldl_cons, deltas_cons]
    rcases hi : isItem e with _ | _
    · have hk' : (t.step J e).known = true := (step_not_item hi).1.trans hk
      rw [ih hk' hrest]
      rcases hd : isArgsDelta e with _ | _
      · rw [step_other hi hd]
        rfl
      · rw [step_delta_known hi hd hk]
        exact List.append_assoc ..
    · have hk' : (t.step J e).known = true := by rw [step_item hi]
      rw [ih hk' hrest, step_item hi, not_delta_of_item hi]
      show (if itemArgs J e ≠ [] then itemArgs J e else if t.known then t.args
        else t.waitIndex ++ t.waitID) ++ deltas es = _
      rw [if_neg (fun hne => hne hnone), if_pos hk]
      rfl

theorem args_foldl_stay {t : Track} {a : Text} (hk : t.known = true) (ha : t.args = a)
    (hargs : ∀ j ∈ es, itemArgs J j = [] ∨ itemArgs J j = a)
    (hno : ∀ d ∈ es, bringsArgs d = false) : (es.foldl (Track.step J) t).args = a := by
  induction es generalizing t with
  | nil => exact ha
  | cons e es ih =>
    have hstep : (t.step J e).known = true ∧ (t.step J e).args = a := by
      rcases hi : isItem e with _ | _
      · refine ⟨(step_not_item hi).1.trans hk, ?_⟩
        rcases hd : isArgsDelta e with _ | _
        · rw [step_other hi hd]
          exact ha
        · rw [step_delta_known hi hd hk, delta_of_not_brings hd (hno e List.mem_cons_self)]
          exact (List.append_nil _).trans ha
      · rw [step_item hi]
        refine ⟨rfl, ?_⟩
        show (if itemArgs J e ≠ [] then itemArgs J e else if t.known then t.args
          else t.waitIndex ++ t.waitID) = a
        rw [if_pos hk]
        by_cases hne : itemArgs J e ≠ []
        · rw [if_pos hne]
          exact (hargs e List.mem_cons_self).resolve_left hne
        · rw [if_neg hne]
          exact ha
    exact ih hstep.1 hstep.2 (fun j hj => hargs j (List.mem_cons_of_mem _ hj))
      (fun d hd => hno d (List.mem_cons_of_mem _ hd))

theorem withID_foldl {t : Track} (hk : t.known = true) :
    (es.foldl (Track.step J) t).withID = t.withID := by
  induction es generalizing t with
  | nil => rfl
  | cons e es ih =>
    rw [List.foldl_cons]
    rcases hi : isItem e with _ | _
    · obtain ⟨hknown, hwith, -, -⟩ := step_not_item (J := J) (t := t) hi
      rw [ih (hknown.trans hk), hwith]
    · rw [ih (by rw [step_item hi]), step_item hi]
      exact if_pos hk

theorem withID_of_first {i : Event} {rest : List Event} (hi : isItem i = true)
    (h : ∀ j ∈ es, isItem j = false) : (track J (es ++ i :: rest)).withID = identifies i := by
  have hk := unknown_of_no_item (J := J) h
  rw [track_append, List.foldl_cons, withID_foldl (by rw [step_item hi]), step_item hi]
  exact if_neg (ne_true_of_eq_false hk)

theorem first_item (h : ∃ i ∈ es, isItem i = true) : ∃ before i after,
    es = before ++ i :: after ∧ isItem i = true ∧ ∀ j ∈ before, isItem j = false := by
  obtain ⟨i, hfind⟩ := Option.isSome_iff_exists.mp (List.find?_isSome.mpr h)
  obtain ⟨hi, before, after, hes, hbefore⟩ := List.find?_eq_some_iff_append.mp hfind
  refine ⟨before, i, after, hes, hi, ?_⟩
  intro j hj
  simpa using hbefore j hj

end Run

section Regular

variable {J : StringCodec} {c : StreamedCall} {es before after : List Event} {e : Event}

theorem Regular.straight (hr : Regular J c es) {i : Event} (hes : es = before ++ i :: after)
    (hi : isItem i = true) (hbefore : ∀ j ∈ before, isItem j = false)
    (hlate : ∃ j ∈ after, itemArgs J j ≠ []) :
    (track J before).waitIndex ++ (track J before).waitID = deltas before := by
  rcases hr.ordered before i after hes hi hbefore with hnone | hpairs
  · obtain ⟨j, hj, hargs⟩ := hlate
    exact absurd (hnone j hj) hargs
  · exact waits_in_order hbefore hpairs

theorem Regular.args_before (hr : Regular J c es) (hc : Complete J c es)
    (ho : ∀ e ∈ es, c.Owns J e) (hes : es = before ++ e :: after) (hargs : itemArgs J e ≠ [])
    (hk : (track J before).known = true) :
    (track J before).args = [] ∨ (track J before).args = itemArgs J e := by
  have hfull : itemArgs J e = c.arguments := by
    have hmem : e ∈ es := by rw [hes]; exact List.mem_append_right _ List.mem_cons_self
    exact (ho e hmem).args.resolve_left hargs
  have hsub : ∀ j ∈ before, j ∈ es := fun j hj => by rw [hes]; exact List.mem_append_left _ hj
  rw [hfull]
  by_cases hearlier : ∃ j ∈ before, itemArgs J j ≠ []
  · -- an earlier item brought them already, and no delta came since
    right
    obtain ⟨j, hj, hjargs⟩ := hearlier
    obtain ⟨first, last, rfl⟩ := List.append_of_mem hj
    have hitem : isItem j = true := by
      by_contra hno
      exact hjargs (itemArgs_of_not_item (Bool.eq_false_iff.mpr hno))
    have hquiet : ∀ d ∈ last, bringsArgs d = false := by
      intro d hd
      refine hc.after first j (last ++ e :: after) (by rw [hes]; simp) hjargs d ?_
      exact List.mem_append_left _ hd
    have hlast : ∀ k ∈ last, itemArgs J k = [] ∨ itemArgs J k = c.arguments := by
      intro k hk
      exact (ho k (hsub k (by simp [hk]))).args
    rw [track_append, List.foldl_cons]
    refine args_foldl_stay ?_ ?_ hlast hquiet
    · rw [step_item hitem]
    · rw [step_item hitem]
      rw [if_pos hjargs]
      exact (ho j (hsub j hj)).args.resolve_left hjargs
  · -- all deltas are there, in their order
    push Not at hearlier
    have hall : deltas before = deltas es := by
      have hempty := deltas_of_not_brings (hc.after before e after hes hargs)
      have hitem : isItem e = true := by
        by_contra hno
        exact hargs (itemArgs_of_not_item (Bool.eq_false_iff.mpr hno))
      rw [hes, deltas_append, deltas_cons, hempty, not_delta_of_item hitem]
      exact (List.append_nil _).symm
    have hargs_eq : (track J before).args = deltas before := by
      obtain ⟨first, i, last, rfl, hi, hfirst⟩ := first_item (known_iff.mp hk)
      have hsplit : es = first ++ i :: (last ++ e :: after) := by rw [hes]; simp
      have hwait := hr.straight hsplit hi hfirst ⟨e, by simp, hargs⟩
      have hlast : ∀ j ∈ last, itemArgs J j = [] := fun j hj => hearlier j (by simp [hj])
      have hnone : itemArgs J i = [] := hearlier i (by simp)
      have hunknown := unknown_of_no_item (J := J) hfirst
      rw [track_append, List.foldl_cons, args_foldl_append (by rw [step_item hi]) hlast,
        step_item hi, deltas_append, deltas_cons, not_delta_of_item hi, ← hwait]
      show (if itemArgs J i ≠ [] then itemArgs J i else if (track J first).known then _
        else _) ++ _ = _
      rw [if_neg (fun hne => hne hnone), if_neg (ne_true_of_eq_false hunknown)]
      rfl
    rw [hargs_eq, hall]
    exact hc.spelled

theorem Regular.stepOK (hr : Regular J c es) (hc : Complete J c es) (ho : ∀ e ∈ es, c.Owns J e)
    (hes : es = before ++ e :: after) : StepOK J c (track J before) e := by
  have hmem : e ∈ es := by rw [hes]; exact List.mem_append_right _ List.mem_cons_self
  have hnone : (track J before).known = false → ∀ j ∈ before, isItem j = false := by
    intro hk j hj
    by_contra hitem
    rw [known_iff.mpr ⟨j, hj, Bool.not_eq_false _ |>.mp hitem⟩] at hk
    cases hk
  refine ⟨hr.indexed e hmem, ?_, ?_, ?_, ?_, ?_, ?_⟩
  · intro hd
    obtain ⟨hitem, hid⟩ := hr.announced before e after hes hd
    exact ⟨known_iff.mpr hitem, fun hn => idKnown_iff.mpr (hid hn)⟩
  · intro hk hi
    exact hr.called before e after hes hi (hnone hk)
  · intro hk hb hn
    obtain ⟨first, i, last, rfl, hi, hfirst⟩ := first_item (known_iff.mp hk)
    rcases hr.identified first i (last ++ e :: after) (by rw [hes]; simp) hi hfirst with hid | hall
    · rw [withID_of_first hi hfirst]
      exact hid
    · exact absurd hn (hall e hmem hb)
  · intro hk hi hid
    rcases hr.identified before e after hes hi (hnone hk) with hyes | hall
    · rw [hid] at hyes
      cases hyes
    · refine waitID_nil (hnone hk) ?_
      intro d hd
      exact hall d (by rw [hes]; exact List.mem_append_left _ hd)
  · exact fun hargs hk => hr.args_before hc ho hes hargs hk
  · intro hne
    rw [(ho e hmem).name.resolve_left hne]
    exact track_name fun j hj => ho j (by rw [hes]; exact List.mem_append_left _ hj)

end Regular

/-! ## What an event of a call says about it -/

section Owned

variable {J : StringCodec} {c : StreamedCall} {t : Track} {e : Event}

variable {item : ResponsesOutput}

theorem isItem_of_item (h : toolItemOf e = some item) : isItem e = true := by
  unfold isItem
  rw [h]
  rfl

theorem item_event (h : toolItemOf e = some item) :
    (e.type = .outputItemAdded ∨ e.type = .outputItemDone) ∧
      isResponsesToolOutputType item.type = true := by
  unfold toolItemOf at h
  split at h
  · rename_i htype
    exact ⟨htype, (Option.filter_eq_some_iff.mp h).2⟩
  · cases h

theorem itemArgs_of_item (h : toolItemOf e = some item) :
    itemArgs J e = item.argumentsString J := by
  unfold itemArgs
  rw [h]
  rfl

theorem itemName_of_item (h : toolItemOf e = some item) : itemName e = trimSpace item.name := by
  unfold itemName
  rw [h]
  rfl

theorem item_none (ho : c.Owns J e) (h : isItem e = false) : e.item = none := by
  rw [ho.item]
  exact Option.isNone_iff_eq_none.mp (Option.isSome_eq_false_iff.mp h)

theorem eventItemID_of_none (h : e.item = none) :
    responseStreamEventItemID e = trimSpace e.itemID := by
  unfold responseStreamEventItemID
  rw [h]

theorem id_of_no_index (ho : c.Owns J e) (h : e.item = none) (hn : e.outputIndex = none) :
    trimSpace e.itemID = c.itemID := by
  rw [← eventItemID_of_none h]
  exact ho.id.resolve_left (ho.either.resolve_left fun hne => hne hn)

theorem shownID_ne (hc : c.Proper) : c.shownID ≠ [] := by
  unfold StreamedCall.shownID
  split
  · exact hc.itemID
  · assumption

theorem shownID_trimmed (hc : c.Proper) : trimSpace c.shownID = c.shownID := by
  unfold StreamedCall.shownID
  split
  · exact hc.itemID_trimmed
  · exact hc.callID_trimmed

theorem index_of_ne (ho : c.Owns J e) (h : e.outputIndex ≠ none) :
    e.outputIndex = some c.outputIndex := ho.index.resolve_left h

theorem itemOwnID_owned (ho : c.Owns J e) : itemOwnID e = [] ∨ itemOwnID e = c.itemID := by
  by_cases hne : itemOwnID e = []
  · exact .inl hne
  · have heq := eventItemID_of_identifies hne
    rw [← heq] at hne ⊢
    exact .inr (ho.id.resolve_left hne)

theorem callID_joined (hc : c.Proper) (ho : c.Owns J e) (ok : StepOK J c t e)
    (hitem : toolItemOf e = some item) {callID : Text}
    (hold : (t.known = false ∧ callID = []) ∨ callID = c.shownID) :
    (if trimSpace item.callId ≠ [] then trimSpace item.callId
      else if callID = [] then trimSpace item.id else callID) = c.shownID := by
  have hcall : itemCallID e = trimSpace item.callId := by
    unfold itemCallID
    rw [hitem]
    rfl
  have his : isItem e = true := isItem_of_item hitem
  by_cases hne : trimSpace item.callId ≠ []
  · have heq : trimSpace item.callId = c.callID := by
      rw [← hcall] at hne ⊢
      exact ho.callID.resolve_left hne
    rw [if_pos hne, heq]
    rw [heq] at hne
    exact (if_neg hne).symm
  · rw [if_neg hne]
    rcases hold with ⟨hk, hempty⟩ | hshown
    · obtain ⟨hsame, hor⟩ := ok.called hk his
      have hnil : c.callID = [] := by
        rw [← hsame, hcall]
        exact not_not.mp hne
      have hown : itemOwnID e ≠ [] := of_decide_eq_true (hor.resolve_left fun h => h hnil)
      rw [if_pos hempty, ← itemOwnID_of_item hitem, (itemOwnID_owned ho).resolve_left hown]
      exact (if_pos hnil).symm
    · rw [hshown, if_neg (shownID_ne hc)]

end Owned

theorem textOf_tool {e : Event} (h : isToolEvent e = true) : textOf e = [] := by
  refine if_neg ?_
  intro htype
  unfold isToolEvent isItem toolItemOf isArgsDelta isArgsDone at h
  rw [htype] at h
  cases h

/-! ## The calls of a stream -/

section Streamed

variable {J : StringCodec} {calls : List StreamedCall} {body : List Event} {c d : StreamedCall}
  {e : Event}

theorem names_tool (h : c.names e = true) : isToolEvent e = true := by
  exact (Bool.and_eq_true _ _ |>.mp h).1

theorem names_of_owns (ho : c.Owns J e) (ht : isToolEvent e = true) : c.names e = true := by
  unfold StreamedCall.names
  rw [ht, Bool.true_and, Bool.or_eq_true]
  rcases ho.either with hne | hne
  · exact .inl (decide_eq_true (index_of_ne ho hne))
  · exact .inr (decide_eq_true (ho.id.resolve_left hne))

section

variable (h : Streamed J calls body)
include h

theorem Streamed.index_inj (hc : c ∈ calls) (hd : d ∈ calls) (heq : c.outputIndex = d.outputIndex) :
    c = d := List.inj_on_of_nodup_map h.indices hc hd heq

theorem Streamed.id_inj (hc : c ∈ calls) (hd : d ∈ calls) (heq : c.itemID = d.itemID) :
    c = d := List.inj_on_of_nodup_map h.ids hc hd heq

theorem Streamed.own (hc : c ∈ calls) (hd : d ∈ calls) (ho : c.Owns J e) (hn : d.names e = true) :
    d = c := by
  unfold StreamedCall.names at hn
  rw [Bool.and_eq_true, Bool.or_eq_true] at hn
  rcases hn.2 with hi | hi
  · have hindex := of_decide_eq_true hi
    rcases ho.index with hnone | hsome
    · rw [hnone] at hindex
      cases hindex
    · rw [hsome] at hindex
      exact h.index_inj hd hc (Option.some.inj hindex).symm
  · have hid := of_decide_eq_true hi
    rcases ho.id with hnone | hsome
    · rw [hnone] at hid
      exact absurd hid.symm (h.proper d hd).itemID
    · rw [hsome] at hid
      exact h.id_inj hd hc hid.symm

theorem Streamed.owns_of_names (hc : c ∈ calls) (he : e ∈ body) (hn : c.names e = true) :
    c.Owns J e := by
  obtain ⟨d, hd, ho⟩ := h.owned e he (names_tool hn)
  rw [h.own hd hc ho hn]
  exact ho

theorem Streamed.stepOK (hc : c ∈ calls) (hr : Regular J c (body.filter c.names))
    {before after : List Event} (hbody : body = before ++ e :: after) (hn : c.names e = true) :
    StepOK J c (track J (before.filter c.names)) e := by
  have hsplit : body.filter c.names = before.filter c.names ++ e :: after.filter c.names := by
    rw [hbody, List.filter_append, List.filter_cons_of_pos hn]
  refine hr.stepOK (h.complete c hc) ?_ hsplit
  intro d hd
  obtain ⟨hmem, hnames⟩ := List.mem_filter.mp hd
  exact h.owns_of_names hc hmem hnames

end

theorem owns_asTold {es : List Event} (ho : c.Owns J e) (he : e ∈ es) :
    (c.asTold es).Owns J e := by
  refine { ho with callID := ?_ }
  by_cases hcall : itemCallID e = []
  · exact .inl hcall
  · have hany : (es.any fun d => decide (itemCallID d ≠ [])) = true :=
      List.any_eq_true.mpr ⟨e, he, decide_eq_true hcall⟩
    refine .inr ?_
    rw [StreamedCall.asTold, if_pos hany]
    exact ho.callID.resolve_left hcall

theorem Streamed.asTold (h : Streamed J calls body) :
    Streamed J (calls.map fun c => c.asTold (body.filter c.names)) body := by
  refine ⟨?_, ?_, ?_, h.running, ?_, ?_, ?_⟩
  · rw [List.map_map]
    exact h.indices
  · rw [List.map_map]
    exact h.ids
  · refine List.forall_mem_map.mpr fun c hc => ⟨(h.proper c hc).itemID,
      (h.proper c hc).itemID_trimmed, ?_⟩
    unfold StreamedCall.asTold
    dsimp only
    split
    · exact (h.proper c hc).callID_trimmed
    · rfl
  · intro e he htool
    obtain ⟨c, hc, ho⟩ := h.owned e he htool
    exact ⟨_, List.mem_map_of_mem hc,
      owns_asTold ho (List.mem_filter.mpr ⟨he, names_of_owns ho htool⟩)⟩
  · exact List.forall_mem_map.mpr h.introduced
  · refine List.forall_mem_map.mpr fun c hc => ?_
    exact ⟨(h.complete c hc).after, (h.complete c hc).spelled⟩

theorem filter_snoc_own {before : List Event} (hn : c.names e = true) :
    (before ++ [e]).filter c.names = before.filter c.names ++ [e] := by
  rw [List.filter_append, List.filter_cons_of_pos hn, List.filter_nil]

theorem filter_snoc_other {before : List Event} (hn : c.names e = false) :
    (before ++ [e]).filter c.names = before.filter c.names := by
  rw [List.filter_append, List.filter_cons_of_neg (ne_true_of_eq_false hn),
    List.filter_nil, List.append_nil]

theorem Streamed.known (h : Streamed J calls body) (hc : c ∈ calls) :
    (track J (body.filter c.names)).known = true := by
  obtain ⟨e, he, hn, hi, -, -⟩ := h.introduced c hc
  exact known_iff.mpr ⟨e, List.mem_filter.mpr ⟨he, hn⟩, hi⟩

end Streamed

end NewApi.RelayConvert
