import NewApi.Common.Text
import NewApi.Lib.Balance
import NewApi.Lib.Interleaving
import NewApi.Types.Error

/-!
# The durable refund of one task (model/billing_outbox.go, task_refund.go)

The claim is a lease: it moves `next_attempt_at` 60 s ahead and nothing else keeps a second worker
out.
-/

namespace NewApi.Model.TaskRefund

open Transition Balance

inductive Stage where
  | pending
  | fundingDone
  | tokenDone
  deriving DecidableEq, Repr

structure Event where
  stage : Stage
  attempts : ℤ
  nextAttemptAt : ℤ
  deriving DecidableEq, Repr

structure Task where
  quota : ℤ
  billingSource : Text
  subscriptionId : ℤ
  billingOverageSource : Text
  billingOverageQuota : ℤ
  tokenId : ℤ
  deriving DecidableEq, Repr

/-- The event row and the three rows the refund can credit; a row may be missing. The
attributed part of a balance is what this event has credited. -/
structure Store where
  event : Row ℕ (Option Event)
  user : Row ℕ (Option Balance)
  subscription : Row ℕ (Option Balance)
  token : Row ℕ (Option Balance)

def refundParts (task : Task) : Except GoError (ℤ × ℤ) :=
  if task.quota < 0 then .error (GoError.new "task refund quota cannot be negative".toList)
  else if task.quota = 0 then .ok (0, 0)
  else if task.billingSource = "subscription".toList then
    if task.subscriptionId ≤ 0 then
      .error (GoError.new "subscription task refund is missing subscription id".toList)
    else if task.billingOverageSource ≠ [] then
      if task.billingOverageSource ≠ "wallet".toList then
        .error (GoError.new ("unsupported task billing overage source \x22".toList ++
          task.billingOverageSource ++ "\x22".toList))
      else if task.billingOverageQuota < 0 ∨ task.quota < task.billingOverageQuota then
        .error (GoError.new ("invalid task billing overage quota ".toList ++
          fmtInt task.billingOverageQuota ++ " for total quota ".toList ++ fmtInt task.quota))
      else .ok (task.billingOverageQuota, task.quota - task.billingOverageQuota)
    else .ok (0, task.quota)
  else .ok (task.quota, 0)

inductive Pc where
  | claim
  | readEvent
  | readStage
  | fundingStage
  | fundingTask
  | refundSubscription (wallet subscription : ℤ)
  | refundWallet (wallet subscription : ℤ)
  | advanceFunding (wallet subscription : ℤ)
  | commitFunding (wallet subscription : ℤ)
  | tokenStage
  | tokenTask
  | readToken
  | updateToken
  | advanceToken
  | commitToken
  | deliverLog
  | deleteEvent
  | recordFailure
  | done
  deriving DecidableEq, Repr

inductive Action where
  | run (now : ℤ)
  | fail
  | crash
  | changeUser (d : ℤ)
  | changeSubscription (d : ℤ)
  | changeToken (d : ℤ)
  | deleteToken
  deriving DecidableEq, Repr

namespace Store

def commit (s : Store) (i : ℕ) : Store :=
  { event := s.event.commit i
    user := s.user.commit i
    subscription := s.subscription.commit i
    token := s.token.commit i }

def abort (s : Store) (i : ℕ) : Store :=
  { event := s.event.abort i
    user := s.user.abort i
    subscription := s.subscription.abort i
    token := s.token.abort i }

end Store

variable (task : Task) (i : ℕ) (s : Store)

def failed : Option (Store × Pc) := some (s.abort i, .recordFailure)

def afterSubscription (wallet subscription : ℤ) : Pc :=
  if 0 < wallet then .refundWallet wallet subscription else .advanceFunding wallet subscription

def afterTask (wallet subscription : ℤ) : Pc :=
  if 0 < subscription then .refundSubscription wallet subscription
  else afterSubscription wallet subscription

def changeEvent (f : Event → Option (Option Event)) (hit miss : Pc) : Option (Store × Pc) :=
  if s.event.free i then
    match (s.event.select i).bind f with
    | some e => some ({ s with event := s.event.autocommit i e }, hit)
    | none => some (s, miss)
  else none

/-- `UPDATE ... SET stage = ? WHERE id = ? AND stage = ?`; whether a row matched is not
looked at. -/
def advance (old new : Stage) (pc : Pc) : Option (Store × Pc) :=
  if s.event.free i then
    match s.event.select i with
    | some e =>
      if e.stage = old then
        some ({ s with event := s.event.write i (some { e with stage := new }) }, pc)
      else some (s, pc)
    | none => some (s, pc)
  else none

/-- `processBillingOutboxEvent` and the failure record of its callers. -/
def statement (now : ℤ) : Pc → Option (Store × Pc)
  | .claim =>
    changeEvent i s (fun e => if e.nextAttemptAt ≤ now then
      some (some { e with nextAttemptAt := now + 60 }) else none) .readEvent .done
  | .readEvent =>
    match s.event.select i with
    | some _ => some (s, .readStage)
    | none => some (s, .done)
  | .readStage =>
    match s.event.select i with
    | none => some (s, .done)
    | some e =>
      match e.stage with
      | .pending => some (s, .fundingStage)
      | .fundingDone => some (s, .tokenStage)
      | .tokenDone => some (s, .deliverLog)
  | .fundingStage =>
    match s.event.select i with
    | none => failed i s
    | some e => if e.stage = .pending then some (s, .fundingTask) else some (s, .readStage)
  | .fundingTask =>
    match refundParts task with
    | .error _ => failed i s
    | .ok (wallet, subscription) => some (s, afterTask wallet subscription)
  | .refundSubscription wallet subscription =>
    if s.subscription.free i then
      match s.subscription.select i with
      | some b =>
        if subscription ≤ b.amount then
          some ({ s with subscription := s.subscription.write i (some (b.unuse subscription)) },
            afterSubscription wallet subscription)
        else failed i s
      | none => failed i s
    else none
  | .refundWallet wallet subscription =>
    if s.user.free i then
      match s.user.select i with
      | some b =>
        some ({ s with user := s.user.write i (some (b.refund wallet)) },
          .advanceFunding wallet subscription)
      | none => failed i s
    else none
  | .advanceFunding wallet subscription =>
    advance i s .pending .fundingDone (.commitFunding wallet subscription)
  | .commitFunding _ _ => some (s.commit i, .readStage)
  | .tokenStage =>
    match s.event.select i with
    | none => failed i s
    | some e => if e.stage = .fundingDone then some (s, .tokenTask) else some (s, .readStage)
  | .tokenTask => some (s, if 0 < task.tokenId then .readToken else .advanceToken)
  | .readToken =>
    match s.token.select i with
    | some _ => some (s, .updateToken)
    | none => some (s, .advanceToken)
  | .updateToken =>
    if s.token.free i then
      match s.token.select i with
      | some b =>
        some ({ s with token := s.token.write i (some (b.refund task.quota)) }, .advanceToken)
      | none => some (s, .advanceToken)
    else none
  | .advanceToken => advance i s .fundingDone .tokenDone .commitToken
  | .commitToken => some (s.commit i, .readStage)
  | .deliverLog => some (s, .deleteEvent)
  | .deleteEvent => changeEvent i s (fun _ => some none) .done .done
  | .recordFailure =>
    changeEvent i s (fun e => some (some
      { e with attempts := e.attempts + 1, nextAttemptAt := now + 15 })) .done .done
  | .done => none

def step (pc : Pc) : Action → Option (Store × Pc)
  | .run now => statement task i s now pc
  | .fail => if pc = .done then none else failed i s
  | .crash => if pc = .done then none else some (s.abort i, .done)
  | .changeUser d => (outside s.user (some ∘ .change d)).map fun r => ({ s with user := r }, pc)
  | .changeSubscription d =>
    (outside s.subscription (some ∘ .change d)).map fun r => ({ s with subscription := r }, pc)
  | .changeToken d => (outside s.token (some ∘ .change d)).map fun r => ({ s with token := r }, pc)
  | .deleteToken => (outside s.token fun _ => none).map fun r => ({ s with token := r }, pc)

abbrev State := Processes ℕ Store Pc

end NewApi.Model.TaskRefund
