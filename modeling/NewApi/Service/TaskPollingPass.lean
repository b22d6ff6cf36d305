import Mathlib.Data.Int.Notation
import Mathlib.Data.List.Nodup
import Mathlib.Logic.Function.Basic
import NewApi.Lib.View
import NewApi.Service.TaskPolling

/-!
# One polling pass over the tasks of a platform (service/task_polling.go)

`taskM` maps an upstream id to the last task that has it, whatever its channel.
-/

namespace NewApi.Service.Polling.Pass

inductive Platform where
  | midjourney
  | suno
  | video
  deriving DecidableEq, Repr

structure TaskSet where
  tasks : List Task
  nodup : (tasks.map Task.id).Nodup
  unfinished : ∀ t ∈ tasks, t.unfinished = true

-- `taskM[upstreamID] = task`
def remember (m : Text → Option Task) (t : Task) : Text → Option Task :=
  if t.getUpstreamTaskID = [] then m else Function.update m t.getUpstreamTaskID (some t)

def taskM (tasks : List Task) : Text → Option Task := tasks.foldl remember fun _ => none

-- `taskChannelM[task.ChannelId]`
def taskChannelM (tasks : List Task) (channel : ℤ) : List Text :=
  (tasks.filter fun t => decide (t.getUpstreamTaskID ≠ []) && decide (t.channelId = channel)).map
    Task.getUpstreamTaskID

/-- The rows by id, and the copies that the pass keeps under their upstream id. -/
structure State where
  db : ℤ → Option Task
  mem : Text → Option Task

def start (ts : TaskSet) : State where
  db id := (ts.tasks.find? fun t => decide (t.id = id)).map fun t =>
    if t.getUpstreamTaskID = [] then bulkFailed none t else t
  mem := taskM ts.tasks

inductive Request where
  | missing (channel : ℤ)
  | suno (channel : ℤ) (item : SunoItem) (outcome : Outcome)
  | video (channel : ℤ) (id : Text) (now : ℤ) (a : VideoAnswer) (funded : Bool)
  deriving DecidableEq, Repr

structure World where
  known : ℤ → Bool
  hasAdaptor : Bool

def Asked (p : Platform) (w : World) (ts : TaskSet) : Request → Prop
  | .missing ch => p ≠ .midjourney ∧ w.known ch = false
  | .suno ch item _ =>
    p = .suno ∧ w.known ch = true ∧ w.hasAdaptor = true ∧ item.taskId ∈ taskChannelM ts.tasks ch
  | .video ch id _ _ _ =>
    p = .video ∧ w.known ch = true ∧ w.hasAdaptor = true ∧ id ∈ taskChannelM ts.tasks ch

def missingReason (p : Platform) (channel : ℤ) : Text :=
  if p = .suno then "获取渠道信息失败，请联系管理员，渠道ID：".toList ++ fmtInt channel
  else "Failed to get channel info, channel ID: ".toList ++ fmtInt channel

def hits (row : Option Task) (fromStatus : TaskStatus) : Bool :=
  decide (row.map Task.status = some fromStatus)

def writeRow (row : Option Task) (t : Task) : Write → Option Task
  | .skip => row
  | .change st | .finish st | .finishWithRefund st => if hits row st then some t else row

def settles (row : Option Task) : Write → Bool
  | .skip | .change _ => true
  | .finish st | .finishWithRefund st => hits row st

/-- The copy after `settleTaskBillingOnComplete`; only the copy gets the new quota. -/
def settled (c : Config) (t : Task) (goesOn funded : Bool) : Money → Task
  | .settle info =>
    if goesOn && funded then
      match repricedQuota c t info with
      | some q => { t with quota := q }
      | none => t
    else t
  | _ => t

def answered (c : Config) (row : Option Task) (t : Task) : Request → Option Task × Task
  | .missing _ => (row, t)
  | .suno _ item outcome =>
    let r := sunoUpdate c t item outcome
    (writeRow row r.1 r.2, r.1)
  | .video _ _ now a funded =>
    let r := videoUpdate c now t a
    (writeRow row r.1 r.2.1, settled c r.1 (settles row r.2.1) funded r.2.2)

def State.answer (c : Config) (s : State) (k : Text) (r : Request) : State :=
  match s.mem k with
  | none => s
  | some t =>
    let x := answered c (s.db t.id) t r
    ⟨Function.update s.db t.id x.1, Function.update s.mem k (some x.2)⟩

def State.failChannel (s : State) (p : Platform) (ts : TaskSet) (channel : ℤ) : State :=
  { s with
    db := fun id =>
      if (taskChannelM ts.tasks channel).any fun k => decide ((s.mem k).map Task.id = some id) then
        (s.db id).map (bulkFailed (some (missingReason p channel)))
      else s.db id }

def handle (c : Config) (p : Platform) (ts : TaskSet) (s : State) (r : Request) : State :=
  match r with
  | .missing ch => s.failChannel p ts ch
  | .suno _ item _ => s.answer c item.taskId r
  | .video _ id _ _ _ => s.answer c id r

def pass (c : Config) (p : Platform) (ts : TaskSet) (rs : List Request) : State :=
  rs.foldl (handle c p ts) (start ts)

/-! ### The law and when it holds -/

/-- The requests that a task may depend on: its own channel is gone, or answers about its id. -/
def own (t : Task) : Request → Bool
  | .missing ch => decide (ch = t.channelId)
  | .suno ch item _ => decide (ch = t.channelId) && decide (item.taskId = t.getUpstreamTaskID)
  | .video ch id _ _ _ => decide (ch = t.channelId) && decide (id = t.getUpstreamTaskID)

/-- A task depends only on the answers about it, and keeps its status where there is none. -/
structure Law (c : Config) (p : Platform) (ts : TaskSet) : Prop where
  frame : ∀ w, ∀ t ∈ ts.tasks, ∀ rs rs', (∀ r ∈ rs, Asked p w ts r) →
    (∀ r ∈ rs', Asked p w ts r) → rs.filter (own t) = rs'.filter (own t) →
    (pass c p ts rs).db t.id = (pass c p ts rs').db t.id
  kept : ∀ w, ∀ t ∈ ts.tasks, t.getUpstreamTaskID ≠ [] → ∀ rs, (∀ r ∈ rs, Asked p w ts r) →
    rs.filter (own t) = [] → ((pass c p ts rs).db t.id).map Task.status = some t.status

def OneChannel (ts : TaskSet) : Prop :=
  ∀ t ∈ ts.tasks, ∀ u ∈ ts.tasks, t.getUpstreamTaskID ≠ [] →
    t.getUpstreamTaskID = u.getUpstreamTaskID → t.channelId = u.channelId

/-! ### The two maps -/

section Maps

variable {tasks : List Task} {k : Text} {t : Task}

-- both inductions are over the list, for every map the loop may have built so far
theorem foldl_taskM_some {m : Text → Option Task}
    (h : tasks.foldl remember m k = some t) :
    m k = some t ∨ (t ∈ tasks ∧ t.getUpstreamTaskID = k ∧ k ≠ []) := by
  induction tasks generalizing m with
  | nil => exact .inl h
  | cons u tasks ih =>
    rw [List.foldl_cons] at h
    rcases ih h with hm | ⟨hmem, hk⟩
    · unfold remember at hm
      split at hm
      · exact .inl hm
      rename_i hu
      by_cases hk : k = u.getUpstreamTaskID
      · rw [hk, Function.update_self] at hm
        cases hm
        exact .inr ⟨List.mem_cons_self, hk.symm, by rw [hk]; exact hu⟩
      · rw [Function.update_of_ne hk] at hm
        exact .inl hm
    · exact .inr ⟨List.mem_cons_of_mem u hmem, hk⟩

theorem foldl_taskM_isSome {m : Text → Option Task}
    (h : (m k).isSome = true ∨ ∃ t ∈ tasks, t.getUpstreamTaskID = k ∧ k ≠ []) :
    (tasks.foldl remember m k).isSome = true := by
  induction tasks generalizing m with
  | nil =>
    rcases h with h | ⟨t, ht, _⟩
    · exact h
    · cases ht
  | cons u tasks ih =>
    apply ih
    unfold remember
    rcases h with h | ⟨t, ht, hk, hne⟩
    · left
      split
      · exact h
      by_cases hu : k = u.getUpstreamTaskID
      · rw [hu, Function.update_self]
        rfl
      · rw [Function.update_of_ne hu]
        exact h
    · rcases List.mem_cons.mp ht with rfl | ht
      · left
        rw [if_neg (by rw [hk]; exact hne), hk, Function.update_self]
        rfl
      · exact .inr ⟨t, ht, hk, hne⟩

theorem taskM_some (h : taskM tasks k = some t) :
    t ∈ tasks ∧ t.getUpstreamTaskID = k ∧ k ≠ [] := by
  rcases foldl_taskM_some h with h | h
  · cases h
  · exact h

theorem exists_taskM (ht : t ∈ tasks) (hne : t.getUpstreamTaskID ≠ []) :
    ∃ l, taskM tasks t.getUpstreamTaskID = some l :=
  Option.isSome_iff_exists.mp (foldl_taskM_isSome (.inr ⟨t, ht, rfl, hne⟩))

theorem mem_taskChannelM {ch : ℤ} : k ∈ taskChannelM tasks ch ↔
    ∃ t ∈ tasks, t.getUpstreamTaskID ≠ [] ∧ t.channelId = ch ∧ t.getUpstreamTaskID = k := by
  simp [taskChannelM, and_assoc]

end Maps

variable {c : Config} {p : Platform} {w : World} {ts : TaskSet} {s : State} {t : Task}

theorem TaskSet.eq_of_id {u : Task} (ht : t ∈ ts.tasks) (hu : u ∈ ts.tasks) (h : t.id = u.id) :
    t = u :=
  List.inj_on_of_nodup_map ts.nodup ht hu h

theorem start_db (ht : t ∈ ts.tasks) (hne : t.getUpstreamTaskID ≠ []) :
    (start ts).db t.id = some t := by
  have hfind : ts.tasks.find? (fun u => decide (u.id = t.id)) = some t := by
    rcases hf : ts.tasks.find? (fun u => decide (u.id = t.id)) with _ | u
    · have hno := List.find?_eq_none.mp hf t ht
      exact absurd (decide_eq_true rfl) hno
    · have hp := List.find?_some hf
      have hid : u.id = t.id := of_decide_eq_true hp
      rw [hf, TaskSet.eq_of_id (List.mem_of_find?_eq_some hf) ht hid]
  show (ts.tasks.find? (fun u => decide (u.id = t.id))).map _ = some t
  rw [hfind, Option.map_some, if_neg hne]

/-! ### What a request can change -/

theorem sunoUpdate_id {item : SunoItem} {outcome : Outcome} :
    (sunoUpdate c t item outcome).1.id = t.id := by
  unfold sunoUpdate
  split
  · rfl
  · dsimp only
    split
    · split <;> rfl
    · rfl

theorem videoTask_id {now : ℤ} {info : TaskInfo} {t' : Task}
    (h : videoTask c now t info = some t') : t'.id = t.id := by
  unfold videoTask at h
  dsimp only at h
  split at h <;> cases h <;> rfl

theorem videoUpdate_id {now : ℤ} {a : VideoAnswer} : (videoUpdate c now t a).1.id = t.id := by
  unfold videoUpdate
  split
  · rfl
  split
  · rfl
  rename_i t' ht'
  have hid := videoTask_id ht'
  split
  · split <;> exact hid
  · split <;> exact hid

theorem settled_id {goesOn funded : Bool} {m : Money} :
    (settled c t goesOn funded m).id = t.id := by
  unfold settled
  split
  · split
    · split <;> rfl
    · rfl
  · rfl

variable {r : Request} {k : Text} {ch : ℤ}

theorem answered_id {row : Option Task} : (answered c row t r).2.id = t.id := by
  cases r with
  | missing ch => rfl
  | suno ch item outcome => exact sunoUpdate_id
  | video ch id now a funded => exact settled_id.trans videoUpdate_id

def MemInv (ts : TaskSet) (s : State) : Prop :=
  ∀ k m, s.mem k = some m → ∃ l, taskM ts.tasks k = some l ∧ m.id = l.id

theorem answer_inv (h : MemInv ts s) : MemInv ts (s.answer c k r) := by
  unfold State.answer
  split
  · exact h
  rename_i m hm
  intro k' m' hm'
  by_cases hk : k' = k
  · subst hk
    dsimp only at hm'
    rw [Function.update_self] at hm'
    cases hm'
    obtain ⟨l, hl, hid⟩ := h k' m hm
    exact ⟨l, hl, answered_id.trans hid⟩
  · dsimp only at hm'
    rw [Function.update_of_ne hk] at hm'
    exact h k' m' hm'

theorem handle_inv (r : Request) (h : MemInv ts s) : MemInv ts (handle c p ts s r) := by
  cases r with
  | missing ch => exact h
  | suno ch item outcome | video ch id now a funded => exact answer_inv h

theorem start_inv : MemInv ts (start ts) := fun _ m hm => ⟨m, hm, rfl⟩

theorem MemInv.owner {m : Task} (h : MemInv ts s) (hm : s.mem k = some m) (ht : t ∈ ts.tasks)
    (hid : m.id = t.id) :
    k = t.getUpstreamTaskID ∧ taskM ts.tasks t.getUpstreamTaskID = some t := by
  obtain ⟨l, hl, hml⟩ := h k m hm
  obtain ⟨hmem, hup, _⟩ := taskM_some hl
  have heq : l = t := TaskSet.eq_of_id hmem ht (hml.symm.trans hid)
  subst heq
  exact ⟨hup.symm, by rw [hup]; exact hl⟩

theorem answer_db_of_ne {id : ℤ} (h : ∀ m, s.mem k = some m → m.id ≠ id) :
    (s.answer c k r).db id = s.db id := by
  unfold State.answer
  split
  · rfl
  · next m hm => exact Function.update_of_ne (h m hm).symm _ _

theorem answer_mem_of_ne {k k' : Text} (h : k' ≠ k) : (s.answer c k r).mem k' = s.mem k' := by
  unfold State.answer
  split
  · rfl
  · exact Function.update_of_ne h _ _

theorem failChannel_db_of_ne {ch id : ℤ}
    (h : ∀ k ∈ taskChannelM ts.tasks ch, ∀ m, s.mem k = some m → m.id ≠ id) :
    (s.failChannel p ts ch).db id = s.db id := by
  refine if_neg fun hany => ?_
  obtain ⟨k, hk, hid⟩ := List.any_eq_true.mp hany
  obtain ⟨m, hm, hmid⟩ := Option.map_eq_some_iff.mp (of_decide_eq_true hid)
  exact h k hk m hm hmid

/-! ### A task that another one hides in `taskM` -/

theorem hidden_local (ht : t ∈ ts.tasks) (hidden : taskM ts.tasks t.getUpstreamTaskID ≠ some t) :
    View.Local (handle c p ts) (MemInv ts) (Asked p w ts) (fun s => s.db t.id) (fun _ => false)
      (fun row _ => row) := by
  refine ⟨fun s r hs _ => handle_inv r hs, fun s r hs _ _ => ?_, fun _ _ _ _ ho => ?_⟩
  · have hne : ∀ k m, s.mem k = some m → m.id ≠ t.id := fun k m hm hid =>
      hidden (hs.owner hm ht hid).2
    cases r with
    | missing ch => exact failChannel_db_of_ne fun k _ m hm => hne k m hm
    | suno ch item outcome => exact answer_db_of_ne (hne item.taskId)
    | video ch id now a funded => exact answer_db_of_ne (hne id)
  · cases ho

/-! ### The task that `taskM` has -/

def act (c : Config) (p : Platform) (v : Option Task × Option Task) (r : Request) :
    Option Task × Option Task :=
  match v.2 with
  | none => v
  | some m =>
    match r with
    | .missing ch => (v.1.map (bulkFailed (some (missingReason p ch))), v.2)
    | _ => ((answered c v.1 m r).1, some (answered c v.1 m r).2)

theorem OneChannel.eq (h : OneChannel ts) (ht : t ∈ ts.tasks)
    (hk : t.getUpstreamTaskID ∈ taskChannelM ts.tasks ch) : ch = t.channelId := by
  obtain ⟨u, hu, hne, hch, heq⟩ := mem_taskChannelM.mp hk
  rw [← hch]
  exact h u hu t ht hne heq

theorem foreign_answer (hs : MemInv ts s) (ht : t ∈ ts.tasks) (hk : k ≠ t.getUpstreamTaskID) :
    ((s.answer c k r).db t.id, (s.answer c k r).mem t.getUpstreamTaskID) =
      (s.db t.id, s.mem t.getUpstreamTaskID) := by
  have hdb : (s.answer c k r).db t.id = s.db t.id :=
    answer_db_of_ne fun m hm hid => hk (hs.owner hm ht hid).1
  have hmem : (s.answer c k r).mem t.getUpstreamTaskID = s.mem t.getUpstreamTaskID :=
    answer_mem_of_ne hk.symm
  rw [hdb, hmem]

theorem own_answer (hs : MemInv ts s) (hlast : taskM ts.tasks t.getUpstreamTaskID = some t)
    (hr : ∀ ch, r ≠ .missing ch) : ((s.answer c t.getUpstreamTaskID r).db t.id,
        (s.answer c t.getUpstreamTaskID r).mem t.getUpstreamTaskID) =
      act c p (s.db t.id, s.mem t.getUpstreamTaskID) r := by
  unfold State.answer act
  cases hm : s.mem t.getUpstreamTaskID with
  | none => simp [hm]
  | some m =>
    obtain ⟨l, hl, hid⟩ := hs _ m hm
    rw [hlast] at hl
    cases hl
    cases r with
    | missing ch => exact absurd rfl (hr ch)
    | suno ch item outcome | video ch id now a funded => simp [hid]

theorem own_missing (hs : MemInv ts s) (hlast : taskM ts.tasks t.getUpstreamTaskID = some t) :
    ((s.failChannel p ts t.channelId).db t.id,
        (s.failChannel p ts t.channelId).mem t.getUpstreamTaskID) =
      act c p (s.db t.id, s.mem t.getUpstreamTaskID) (.missing t.channelId) := by
  obtain ⟨ht, _, hne⟩ := taskM_some hlast
  cases hm : s.mem t.getUpstreamTaskID with
  | none =>
    have hdb : (s.failChannel p ts t.channelId).db t.id = s.db t.id := by
      refine failChannel_db_of_ne fun k _ m hk hid => ?_
      rw [(hs.owner hk ht hid).1, hm] at hk
      cases hk
    rw [hdb]
    exact Prod.ext rfl hm
  | some m =>
    obtain ⟨l, hl, hid⟩ := hs _ m hm
    rw [hlast] at hl
    cases hl
    have hin : t.getUpstreamTaskID ∈ taskChannelM ts.tasks t.channelId :=
      mem_taskChannelM.mpr ⟨t, ht, hne, rfl, rfl⟩
    have hany : ((taskChannelM ts.tasks t.channelId).any fun k =>
        decide ((s.mem k).map Task.id = some t.id)) = true := by
      refine List.any_eq_true.mpr ⟨_, hin, decide_eq_true ?_⟩
      rw [hm, Option.map_some, hid]
    exact Prod.ext (if_pos hany) hm

theorem visible_local (h : OneChannel ts)
    (hlast : taskM ts.tasks t.getUpstreamTaskID = some t) :
    View.Local (handle c p ts) (MemInv ts) (Asked p w ts)
      (fun s => (s.db t.id, s.mem t.getUpstreamTaskID)) (own t) (act c p) := by
  have ht : t ∈ ts.tasks := (taskM_some hlast).1
  refine ⟨fun s r hs _ => handle_inv r hs, fun s r hs hr ho => ?_, fun s r hs hr ho => ?_⟩
  · cases r with
    | missing ch =>
      have hne : ch ≠ t.channelId := of_decide_eq_false ho
      have hdb : (s.failChannel p ts ch).db t.id = s.db t.id := by
        refine failChannel_db_of_ne fun k hk m hm hid => ?_
        rw [(hs.owner hm ht hid).1] at hk
        exact hne (h.eq ht hk)
      exact Prod.ext hdb rfl
    | suno ch item outcome | video ch id now a funded =>
      refine foreign_answer hs ht fun hk => ?_
      have hch : ch = t.channelId := h.eq ht (by rw [← hk]; exact hr.2.2.2)
      rw [own, decide_eq_true hch, decide_eq_true hk] at ho
      cases ho
  · cases r with
    | missing ch =>
      have hch : ch = t.channelId := of_decide_eq_true ho
      subst hch
      exact own_missing hs hlast
    | suno ch item outcome =>
      have hk : item.taskId = t.getUpstreamTaskID := by
        rw [own, Bool.and_eq_true] at ho
        exact of_decide_eq_true ho.2
      show ((s.answer c item.taskId _).db t.id, (s.answer c item.taskId _).mem _) = _
      rw [hk]
      exact own_answer hs hlast fun _ he => by cases he
    | video ch id now a funded =>
      have hk : id = t.getUpstreamTaskID := by
        rw [own, Bool.and_eq_true] at ho
        exact of_decide_eq_true ho.2
      rw [hk]
      exact own_answer hs hlast fun _ he => by cases he

theorem pass_db (h : OneChannel ts) (ht : t ∈ ts.tasks) :
    ∃ f : List Request → Option Task, f [] = (start ts).db t.id ∧
      ∀ rs, (∀ r ∈ rs, Asked p w ts r) → (pass c p ts rs).db t.id = f (rs.filter (own t)) := by
  by_cases hlast : taskM ts.tasks t.getUpstreamTaskID = some t
  · refine ⟨fun l => (l.foldl (act c p)
      ((start ts).db t.id, (start ts).mem t.getUpstreamTaskID)).1, rfl, fun rs hrs => ?_⟩
    have hview := (visible_local (c := c) (p := p) (w := w) h hlast).foldl start_inv hrs
    exact congrArg Prod.fst hview
  · refine ⟨fun _ => (start ts).db t.id, rfl, fun rs hrs => ?_⟩
    have hview := (hidden_local (c := c) (p := p) (w := w) ht hlast).foldl start_inv hrs
    rw [List.filter_false] at hview
    exact hview

theorem law_of_oneChannel (h : OneChannel ts) : Law c p ts := by
  refine ⟨fun w t ht rs rs' hrs hrs' heq => ?_, fun w t ht hne rs hrs hno => ?_⟩
  · obtain ⟨f, _, hf⟩ := pass_db (c := c) (p := p) (w := w) h ht
    rw [hf rs hrs, hf rs' hrs', heq]
  · obtain ⟨f, hnil, hf⟩ := pass_db (c := c) (p := p) (w := w) h ht
    rw [hf rs hrs, hno, hnil, start_db ht hne]
    rfl

/-! ### When an id has two channels -/

def successRequest (p : Platform) (ch : ℤ) (k : Text) : Request :=
  match p with
  | .suno => .suno ch ⟨k, .success, [], 0, 0, 0, []⟩ .unknown
  | _ => .video ch k 0 ⟨⟨.success, [], [], [], 0⟩, .unreadable, [], .unknown⟩ false

theorem sunoUpdate_success (item : SunoItem) (outcome : Outcome) (hs : t.status ≠ .success)
    (hitem : item.status = .success) (hreason : item.failReason = []) :
    sunoUpdate c t item outcome = (sunoTask t item, .finish t.status) := by
  have hnew : sunoStatus t item = .success := by
    unfold sunoStatus
    rw [hitem]
    rfl
  have hneeds : taskNeedsUpdate c t item = true := by
    have hne : decide (t.status ≠ item.status) = true := by
      rw [hitem]
      exact decide_eq_true hs
    simp [taskNeedsUpdate, hne]
  have hfailed : sunoFailed t item = false := by
    unfold sunoFailed
    rw [hreason, hnew]
    rfl
  have hterm : (sunoTask t item).status.terminal = true ∧ t.status ≠ (sunoTask t item).status := by
    show (sunoStatus t item).terminal = true ∧ t.status ≠ sunoStatus t item
    rw [hnew]
    exact ⟨rfl, hs⟩
  unfold sunoUpdate
  rw [if_neg (by rw [hneeds]; decide)]
  rw [if_pos hterm, hfailed]
  rfl

theorem videoUpdate_success (now : ℤ) (a : VideoAnswer) (hs : t.status ≠ .success)
    (ha : a.info.status = .success) :
    ∃ t', t'.status = .success ∧
      videoUpdate c now t a = (t', .finish t.status, .settle a.info) := by
  have hres : videoResult a = some a.info := by
    unfold videoResult
    rw [ha]
    rfl
  obtain ⟨t', htask, hstatus⟩ : ∃ t', videoTask c now { t with data := a.data } a.info = some t' ∧
      t'.status = .success := by
    unfold videoTask
    rw [ha]
    exact ⟨_, rfl, rfl⟩
  refine ⟨t', hstatus, ?_⟩
  have hterm : t'.status.terminal = true ∧ t.status ≠ t'.status := by
    rw [hstatus]
    exact ⟨rfl, hs⟩
  have hnofail : ¬ (t'.status = .failure ∧ t'.quota ≠ 0) := by
    rw [hstatus]
    rintro ⟨hf, _⟩
    cases hf
  unfold videoUpdate
  simp [hres, htask, if_pos hterm, if_neg hnofail, if_pos hstatus]

theorem answered_success (ch : ℤ) (k : Text) (hs : t.status ≠ .success) :
    ((answered c (some t) t (successRequest p ch k)).1).map Task.status = some .success := by
  have hhits : hits (some t) t.status = true := decide_eq_true rfl
  have hvideo : ((answered c (some t) t (.video ch k 0
      ⟨⟨.success, [], [], [], 0⟩, .unreadable, [], .unknown⟩ false)).1).map Task.status =
      some .success := by
    obtain ⟨t', hstatus, hupdate⟩ := videoUpdate_success (c := c) 0
      ⟨⟨.success, [], [], [], 0⟩, .unreadable, [], .unknown⟩ hs rfl
    simp [answered, hupdate, writeRow, hhits, hstatus]
  cases p with
  | suno =>
    have hupdate := sunoUpdate_success (c := c) ⟨k, .success, [], 0, 0, 0, []⟩ .unknown hs
      rfl rfl
    simp only [successRequest, answered, hupdate, writeRow, hhits, if_true]
    rfl
  | video | midjourney => exact hvideo

theorem handle_success (ch : ℤ) {l : Task} (hlast : taskM ts.tasks l.getUpstreamTaskID = some l) :
    ((handle c p ts (start ts) (successRequest p ch l.getUpstreamTaskID)).db l.id).map
      Task.status = some .success := by
  obtain ⟨hl, _, hne⟩ := taskM_some hlast
  have hopen : l.status ≠ .success := by
    intro hs
    have hu := ts.unfinished l hl
    rw [Task.unfinished, hs, Bool.and_eq_true] at hu
    exact absurd hu.2 (by decide)
  have hanswer : ∀ r, ((start ts).answer c l.getUpstreamTaskID r).db l.id =
      (answered c (some l) l r).1 := by
    intro r
    have hmem : (start ts).mem l.getUpstreamTaskID = some l := hlast
    simp [State.answer, hmem, start_db hl hne]
  have hsucc := answered_success (c := c) (p := p) ch l.getUpstreamTaskID hopen
  rw [← hanswer] at hsucc
  cases p with
  | suno | video | midjourney => exact hsucc

theorem asked_success (hp : p ≠ .midjourney) (hk : k ∈ taskChannelM ts.tasks ch) :
    Asked p ⟨fun _ => true, true⟩ ts (successRequest p ch k) := by
  cases p with
  | midjourney => exact absurd rfl hp
  | suno | video => exact ⟨rfl, rfl, rfl, hk⟩

theorem own_success (hch : ch ≠ t.channelId) : own t (successRequest p ch k) = false := by
  cases p <;> simp [successRequest, own, decide_eq_false hch]

theorem Law.channel_eq {l : Task} (h : Law c p ts) (hp : p ≠ .midjourney) (ht : t ∈ ts.tasks)
    (hne : t.getUpstreamTaskID ≠ []) (hlast : taskM ts.tasks t.getUpstreamTaskID = some l) :
    t.channelId = l.channelId := by
  by_contra hch
  obtain ⟨hl, hup, _⟩ := taskM_some hlast
  have hk : l.getUpstreamTaskID ∈ taskChannelM ts.tasks t.channelId :=
    mem_taskChannelM.mpr ⟨t, ht, hne, rfl, hup.symm⟩
  have hasked : ∀ r ∈ [successRequest p t.channelId l.getUpstreamTaskID],
      Asked p ⟨fun _ => true, true⟩ ts r := by
    intro r hr
    rw [List.mem_singleton.mp hr]
    exact asked_success hp hk
  have hno : [successRequest p t.channelId l.getUpstreamTaskID].filter (own l) = [] := by
    rw [List.filter_cons_of_neg (by rw [own_success hch]; decide), List.filter_nil]
  have hkept := h.kept _ l hl (by rw [hup]; exact hne) _ hasked hno
  have hsucc := handle_success (c := c) (p := p) t.channelId (l := l)
    (by rw [hup]; exact hlast)
  have hstatus : some l.status = some .success := hkept.symm.trans hsucc
  have hu := ts.unfinished l hl
  rw [Task.unfinished, Option.some.inj hstatus, Bool.and_eq_true] at hu
  exact absurd hu.2 (by decide)

/-- The answers of a channel stay on its tasks exactly when no upstream id has two channels. -/
theorem poll_answers_stay_on_channel (c : Config) (p : Platform) (ts : TaskSet) :
    Law c p ts ↔ p = .midjourney ∨ OneChannel ts := by
  constructor
  · intro h
    by_cases hp : p = .midjourney
    · exact .inl hp
    refine .inr fun t ht u hu hne heq => ?_
    obtain ⟨l, hl⟩ := exists_taskM ht hne
    have htl := h.channel_eq hp ht hne hl
    have hul := h.channel_eq hp hu (by rw [← heq]; exact hne) (by rw [← heq]; exact hl)
    exact htl.trans hul.symm
  · rintro (rfl | h)
    · -- nothing is asked for this platform, so a pass is empty
      have hnil : ∀ w rs, (∀ r ∈ rs, Asked .midjourney w ts r) → rs = [] := by
        intro w rs hrs
        cases rs with
        | nil => rfl
        | cons r rs =>
          have hr := hrs r List.mem_cons_self
          cases r with
          | missing ch => exact absurd rfl hr.1
          | suno ch item outcome | video ch id now a funded => cases hr.1
      refine ⟨fun w t ht rs rs' hrs hrs' _ => ?_, fun w t ht hne rs hrs _ => ?_⟩
      · rw [hnil w rs hrs, hnil w rs' hrs']
      · rw [hnil w rs hrs]
        exact congrArg (Option.map Task.status) (start_db ht hne)
    · exact law_of_oneChannel h

def sharedId : TaskSet where
  tasks :=
    [⟨1, "a".toList, "u".toList, 7, 100, false, .inProgress, [], 1, 1, 0, "30%".toList, [], []⟩,
      ⟨2, "b".toList, "u".toList, 8, 100, false, .inProgress, [], 1, 1, 0, "30%".toList, [], []⟩]
  nodup := by decide
  unfinished := by decide

/-- Channel 7 answers about its own task, and the task of channel 8 is stored as a success. -/
theorem poll_answer_crosses_channels :
    ¬ Law ⟨[], id, fun _ _ => 0, fun _ _ => none⟩ .video sharedId ∧
      ((pass ⟨[], id, fun _ _ => 0, fun _ _ => none⟩ .video sharedId
        [successRequest .video 7 "u".toList]).db 1).map Task.status = some .inProgress ∧
      ((pass ⟨[], id, fun _ _ => 0, fun _ _ => none⟩ .video sharedId
        [successRequest .video 7 "u".toList]).db 2).map Task.status = some .success := by
  refine ⟨fun h => ?_, by decide +kernel, by decide +kernel⟩
  have hmem : sharedId.tasks[0] ∈ sharedId.tasks := List.mem_cons_self
  have hlast : taskM sharedId.tasks sharedId.tasks[0].getUpstreamTaskID = some sharedId.tasks[1] :=
    rfl
  have hch := h.channel_eq (by decide) hmem (by decide) hlast
  exact absurd hch (by decide)

end NewApi.Service.Polling.Pass
