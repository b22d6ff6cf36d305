import NewApi.Common.Text

/-!
# What a polling pass does with one answer (service/task_polling.go, task_billing.go)
-/

namespace NewApi.Service.Polling

/-- A status is any text; `other` holds the texts without a constant. -/
inductive TaskStatus where
  | notStart
  | submitted
  | queued
  | inProgress
  | failure
  | success
  | unknown
  | other (name : Text)
  deriving DecidableEq, Repr

def TaskStatus.terminal (s : TaskStatus) : Bool := decide (s = .success) || decide (s = .failure)

def TaskStatus.empty : TaskStatus := .other []

structure Task where
  id : Int
  taskId : Text
  upstreamTaskId : Text
  channelId : Int
  quota : Int
  perCallBilling : Bool
  status : TaskStatus
  failReason : Text
  submitTime : Int
  startTime : Int
  finishTime : Int
  progress : Text
  resultURL : Text
  data : Text
  deriving DecidableEq, Repr

def Task.getUpstreamTaskID (t : Task) : Text :=
  if t.upstreamTaskId ≠ [] then t.upstreamTaskId else t.taskId

/-- The `WHERE` of `GetAllUnFinishSyncTasks`. -/
def Task.unfinished (t : Task) : Bool :=
  decide (t.progress ≠ "100%".toList) && !t.status.terminal

/-- `classifyTaskTerminalFailureBilling` of a response body. -/
inductive Outcome where
  | billable
  | nonBillable
  | unknown
  deriving DecidableEq, Repr

structure SunoItem where
  taskId : Text
  status : TaskStatus
  failReason : Text
  submitTime : Int
  startTime : Int
  finishTime : Int
  data : Text
  deriving DecidableEq, Repr

structure TaskInfo where
  status : TaskStatus
  reason : Text
  url : Text
  progress : Text
  totalTokens : Int
  deriving DecidableEq, Repr

/-- How a body reads as `GeneralErrorResponse` when the parsed status is empty. -/
inductive ErrorBody where
  | unreadable
  | tooManyRequests
  | openAIError
  | unrecognized
  deriving DecidableEq, Repr

structure VideoAnswer where
  info : TaskInfo
  errorBody : ErrorBody
  data : Text
  outcome : Outcome
  deriving DecidableEq, Repr

structure Config where
  serverAddress : Text
  /-- The sorted bytes of the marshalled data. -/
  marshalSorted : Text → Text
  /-- `AdjustBillingOnComplete` of the adaptor. -/
  adjustBillingOnComplete : Task → TaskInfo → Int
  /-- The quota of `RecalculateTaskQuotaByTokens`, where it gets that far. -/
  quotaByTokens : Task → Int → Option Int

/-- The statement an answer leads to. All but `skip` are guarded by the old status; after
`change` nobody looks at whether a row was hit. -/
inductive Write where
  | skip
  | change (fromStatus : TaskStatus)
  | finish (fromStatus : TaskStatus)
  | finishWithRefund (fromStatus : TaskStatus)
  deriving DecidableEq, Repr

inductive Money where
  | keep
  | settle (info : TaskInfo)
  | refund
  deriving DecidableEq, Repr

/-- `transitionTaskTerminalFailure`: only a proof that nothing was billed gives a refund. -/
def transitionTaskTerminalFailure (t : Task) (fromStatus : TaskStatus) (outcome : Outcome) :
    Write :=
  if outcome ≠ .nonBillable ∨ t.quota = 0 then .finish fromStatus
  else .finishWithRefund fromStatus

def taskNeedsUpdate (c : Config) (t : Task) (item : SunoItem) : Bool :=
  decide (t.submitTime ≠ item.submitTime) || decide (t.startTime ≠ item.startTime) ||
    decide (t.finishTime ≠ item.finishTime) || decide (t.status ≠ item.status) ||
    decide (t.failReason ≠ item.failReason) ||
    (t.status.terminal && decide (t.progress ≠ "100%".toList)) ||
    decide (c.marshalSorted t.data ≠ c.marshalSorted item.data)

def sunoStatus (t : Task) (item : SunoItem) : TaskStatus :=
  if item.status ≠ .empty then item.status else t.status

/-- The `failed` of the source: a fail reason counts whatever the status is. -/
def sunoFailed (t : Task) (item : SunoItem) : Bool :=
  decide (item.failReason ≠ []) || decide (sunoStatus t item = .failure)

def sunoTask (t : Task) (item : SunoItem) : Task :=
  { t with
    status := sunoStatus t item
    failReason := if item.failReason ≠ [] then item.failReason else t.failReason
    submitTime := if item.submitTime ≠ 0 then item.submitTime else t.submitTime
    startTime := if item.startTime ≠ 0 then item.startTime else t.startTime
    finishTime := if item.finishTime ≠ 0 then item.finishTime else t.finishTime
    progress :=
      if sunoFailed t item ∨ item.status = .success then "100%".toList else t.progress
    data := item.data }

def sunoUpdate (c : Config) (t : Task) (item : SunoItem) (outcome : Outcome) : Task × Write :=
  if taskNeedsUpdate c t item = false then (t, .skip)
  else
    let t' := sunoTask t item
    if t'.status.terminal ∧ t.status ≠ t'.status then
      if sunoFailed t item then (t', transitionTaskTerminalFailure t' t.status outcome)
      else (t', .finish t.status)
    else (t', .change t.status)

def failTaskInfo (reason : Text) : TaskInfo := ⟨.failure, reason, [], [], 0⟩

/-- The result after the check for an empty status; `none` for a 429. -/
def videoResult (a : VideoAnswer) : Option TaskInfo :=
  if a.info.status = .empty then
    match a.errorBody with
    | .unreadable => some a.info
    | .tooManyRequests => none
    | .openAIError => some (failTaskInfo "upstream returned error".toList)
    | .unrecognized => some (failTaskInfo "upstream returned unrecognized message".toList)
  else some a.info

def buildProxyURL (c : Config) (taskId : Text) : Text :=
  c.serverAddress ++ "/v1/videos/".toList ++ taskId ++ "/content".toList

def resultURLOf (c : Config) (t : Task) (info : TaskInfo) : Text :=
  if "data:".toList.isPrefixOf info.url then buildProxyURL c t.taskId
  else if info.url ≠ [] then info.url
  else buildProxyURL c t.taskId

def orNow (time now : Int) : Int := if time = 0 then now else time

/-- The `switch` on the status; `none` for a status it does not know. -/
def videoTask (c : Config) (now : Int) (t : Task) (info : TaskInfo) : Option Task :=
  let progress (p : Text) : Text := if info.progress ≠ [] then info.progress else p
  match info.status with
  | .submitted => some { t with status := .submitted, progress := progress "10%".toList }
  | .queued => some { t with status := .queued, progress := progress "20%".toList }
  | .inProgress =>
    some { t with
      status := .inProgress
      progress := progress "30%".toList
      startTime := orNow t.startTime now }
  | .success =>
    some { t with
      status := .success
      progress := progress "100%".toList
      finishTime := orNow t.finishTime now
      resultURL := resultURLOf c t info }
  | .failure =>
    some { t with
      status := .failure
      progress := "100%".toList
      finishTime := orNow t.finishTime now
      failReason := info.reason }
  | _ => none

def sameSnapshot (t t' : Task) : Bool :=
  decide (t.status = t'.status) && decide (t.progress = t'.progress) &&
    decide (t.startTime = t'.startTime) && decide (t.finishTime = t'.finishTime) &&
    decide (t.failReason = t'.failReason) && decide (t.resultURL = t'.resultURL) &&
    decide (t.data = t'.data)

def moneyAfter (t' : Task) (info : TaskInfo) (outcome : Outcome) : Money :=
  if t'.status = .success then .settle info
  else if t'.status = .failure ∧ t'.quota ≠ 0 ∧ outcome = .nonBillable then .refund
  else .keep

def videoUpdate (c : Config) (now : Int) (t : Task) (a : VideoAnswer) : Task × Write × Money :=
  match videoResult a with
  | none => ({ t with data := a.data }, .skip, .keep)
  | some info =>
    match videoTask c now { t with data := a.data } info with
    | none => ({ t with data := a.data, status := info.status }, .skip, .keep)
    | some t' =>
      if t'.status.terminal ∧ t.status ≠ t'.status then
        if t'.status = .failure ∧ t'.quota ≠ 0 then
          (t', transitionTaskTerminalFailure t' t.status a.outcome, .keep)
        else (t', .finish t.status, if t'.status = .success then .settle info else .keep)
      else if sameSnapshot t t' then (t', .skip, moneyAfter t' info a.outcome)
      else (t', .change t.status, moneyAfter t' info a.outcome)

def finalQuota (c : Config) (t : Task) (info : TaskInfo) : Option Int :=
  if t.perCallBilling then none
  else if 0 < c.adjustBillingOnComplete t info then some (c.adjustBillingOnComplete t info)
  else if 0 < info.totalTokens then c.quotaByTokens t info.totalTokens
  else none

def repricedQuota (c : Config) (t : Task) (info : TaskInfo) : Option Int :=
  (finalQuota c t info).filter fun q => decide (0 < q) && decide (q ≠ t.quota)

def bulkFailed (failReason : Option Text) (t : Task) : Task :=
  { t with
    status := .failure
    progress := "100%".toList
    failReason := failReason.getD t.failReason }

theorem TaskStatus.terminal_iff {s : TaskStatus} :
    s.terminal = true ↔ s = .success ∨ s = .failure := by
  simp [TaskStatus.terminal]

inductive Write.Fits (old new : Task) : Write → Prop where
  | skip : Fits old new .skip
  | change : (new.status.terminal = true → old.status = new.status) →
      Fits old new (.change old.status)
  | finish : new.status.terminal = true → old.status ≠ new.status →
      Fits old new (.finish old.status)
  | finishWithRefund : new.status.terminal = true → old.status ≠ new.status →
      new.quota ≠ 0 → Fits old new (.finishWithRefund old.status)

theorem transition_fits {old new : Task} {outcome : Outcome} (ht : new.status.terminal = true)
    (hne : old.status ≠ new.status) :
    Write.Fits old new (transitionTaskTerminalFailure new old.status outcome) := by
  unfold transitionTaskTerminalFailure
  split
  · exact .finish ht hne
  · next h => exact .finishWithRefund ht hne fun hq => h (.inr hq)

theorem change_fits {old new : Task}
    (h : ¬ (new.status.terminal = true ∧ old.status ≠ new.status)) :
    Write.Fits old new (.change old.status) := by
  refine .change fun ht => ?_
  by_cases hs : old.status = new.status
  · exact hs
  · exact absurd ⟨ht, hs⟩ h

theorem sunoUpdate_fits (c : Config) (t : Task) (item : SunoItem) (outcome : Outcome) :
    (sunoUpdate c t item outcome).2.Fits t (sunoUpdate c t item outcome).1 := by
  unfold sunoUpdate
  split
  · exact .skip
  dsimp only
  split
  · next h =>
    split
    · exact transition_fits h.1 h.2
    · exact .finish h.1 h.2
  · next h => exact change_fits h

theorem videoUpdate_fits (c : Config) (now : Int) (t : Task) (a : VideoAnswer) :
    (videoUpdate c now t a).2.1.Fits t (videoUpdate c now t a).1 := by
  unfold videoUpdate
  split
  · exact .skip
  split
  · exact .skip
  split
  · next h =>
    split
    · exact transition_fits h.1 h.2
    · exact .finish h.1 h.2
  · next h =>
    split
    · exact .skip
    · exact change_fits h

end NewApi.Service.Polling
