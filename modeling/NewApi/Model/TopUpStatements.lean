import NewApi.Lib.Balance
import NewApi.Lib.Interleaving
import NewApi.Model.TopUp

/-!
# Settling and closing one top-up order concurrently (model/topup.go)

Settlement and the expiry sweep lock the row; `UpdatePendingTopUpStatus` and `FailTopUpOrder` read it
without a lock and save the whole row.
-/

namespace NewApi.Model.Settlement

open Transition Balance

/-- The decision of the direct-chain `prepare` on its event: it matches the invoice, it was
mined after the deadline, or it is refused. -/
inductive Verdict where
  | valid
  | late
  | refused
  deriving DecidableEq, Repr

structure Completion where
  expectedProvider : Option PaymentProvider
  allowExpired : Bool
  event : Option Verdict
  deriving DecidableEq, Repr

namespace Completion

def allowExpiredSettlement (c : Completion) : Bool :=
  c.allowExpired &&
    match c.expectedProvider with
    | some .yooKassa => true
    | some p => p.isDirect
    | none => false

end Completion

inductive Op where
  | complete (c : Completion)
  | manualComplete
  | updatePending (expectedProvider : Option PaymentProvider) (target : TopUpStatus)
  | failOrder (expectedProvider : Option PaymentProvider)
  | expireStale
  deriving DecidableEq, Repr

structure Setup where
  op : ℕ → Op
  sources : QuotaSources
  policyTTL : ℤ

structure Payment where
  status : DirectCryptoStatus
  expiresAt : ℤ
  deriving DecidableEq, Repr

/-- The order, its user's row and its direct payment. The attributed part of the user's
quota is what this order has added. -/
structure Store where
  topUp : Row ℕ TopUp
  user : Row ℕ (Option Balance)
  payment : Row ℕ (Option Payment)

inductive Pc where
  | start
  | lockTopUp (c : Completion)
  | checkExpiry (c : Completion) (t : TopUp)
  | saveExpired (t : TopUp)
  | expirePayment
  | prepare (c : Completion) (t : TopUp)
  | expireLate
  | compareAndSet (c : Completion) (t : TopUp) (quota : ℤ)
  | markPaid (c : Completion) (t : TopUp) (quota : ℤ)
  | addQuota (c : Completion) (t : TopUp) (quota : ℤ)
  | reward
  | commitCredit
  | checkPending (t : TopUp) (target : TopUpStatus)
  | savePending (t : TopUp) (status : TopUpStatus) (byPolicy : Bool)
  | readFailed (expectedProvider : Option PaymentProvider)
  | saveFailed (t : TopUp)
  | lockStale
  | checkStale (t : TopUp)
  | updateStale (t : TopUp)
  | commit
  | done
  deriving DecidableEq, Repr

inductive Action where
  | run (now : ℤ)
  | fail
  | changeUser (d : ℤ)
  deriving DecidableEq, Repr

namespace Store

def commit (s : Store) (i : ℕ) : Store :=
  ⟨s.topUp.commit i, s.user.commit i, s.payment.commit i⟩

def abort (s : Store) (i : ℕ) : Store :=
  ⟨s.topUp.abort i, s.user.abort i, s.payment.abort i⟩

def writeTopUp (s : Store) (i : ℕ) (t : TopUp) : Store := { s with topUp := s.topUp.write i t }

end Store

variable (c : Setup) (i : ℕ) (s : Store)

def rollback : Option (Store × Pc) := some (s.abort i, .done)

/-- An error after which `completeTopUpCASWithOptions` closes the order. -/
def rollbackAndFail (comp : Completion) : Option (Store × Pc) :=
  some (s.abort i, .readFailed comp.expectedProvider)

def mismatch (expected : Option PaymentProvider) (t : TopUp) : Bool :=
  match expected with
  | none => false
  | some p => decide (t.paymentProvider ≠ p)

/-- `pendingTopUpExpired`: a direct order locks its payment row. -/
def pendingTopUpExpired (t : TopUp) (now : ℤ) (next : Bool → Pc) : Option (Store × Pc) :=
  if t.paymentProvider.isDirect then
    if s.payment.free i then
      match s.payment.select i with
      | none => rollback i s
      | some p => some ({ s with payment := s.payment.write i (some p) },
          next (directExpired p.status p.expiresAt now))
    else none
  else some (s, next (t.ttlExpired c.policyTTL now))

def afterExpired (t : TopUp) : Pc := if t.paymentProvider.isDirect then .expirePayment else .commit

def prepared (comp : Completion) (t : TopUp) : Option (Store × Pc) :=
  match resolveTopUpQuota c.sources t with
  | .error .settlementAmbiguous => rollbackAndFail i s comp
  | .error _ => rollback i s
  | .ok quota => some (s, .compareAndSet comp t quota)

def preparedDirect (comp : Completion) (t : TopUp) (verdict : Verdict) : Option (Store × Pc) :=
  if s.payment.free i then
    match s.payment.select i with
    | none => rollback i s
    | some p =>
      let s' := { s with payment := s.payment.write i (some p) }
      if p.status = .pending ∨ p.status = .expired then
        match verdict with
        | .refused => rollback i s
        | .late => some (s', .expireLate)
        | .valid => prepared c i s' comp t
      else rollback i s
  else none

def first : Op → Option (Store × Pc)
  | .complete comp => some (s, .lockTopUp comp)
  | .manualComplete =>
    if (s.topUp.select i).paymentProvider.isDirect then some (s, .done)
    else some (s, .lockTopUp ⟨none, false, none⟩)
  | .updatePending expected target =>
    let t := s.topUp.select i
    if mismatch expected t = true then rollback i s
    else if t.status ≠ .pending then rollback i s
    else some (s, .checkPending t target)
  | .failOrder expected => some (s, .readFailed expected)
  | .expireStale =>
    let t := s.topUp.select i
    if t.status = .pending ∧ 0 < t.createTime then some (s, .lockStale) else some (s, .done)

def statement (now : ℤ) : Pc → Option (Store × Pc)
  | .start => first i s (c.op i)
  | .lockTopUp comp =>
    if s.topUp.free i then
      let t := s.topUp.select i
      if mismatch comp.expectedProvider t = true then rollback i s
      else if t.status = .success then rollback i s
      else if t.status ≠ .pending ∧
          ¬ (comp.allowExpiredSettlement = true ∧ t.status = .expired) then rollback i s
      else
        some (s.writeTopUp i t,
          if comp.allowExpiredSettlement then .prepare comp t else .checkExpiry comp t)
    else none
  | .checkExpiry comp t =>
    pendingTopUpExpired c i s t now fun expired =>
      if expired then .saveExpired t else .prepare comp t
  | .saveExpired t =>
    if s.topUp.free i then
      some (s.writeTopUp i { t with status := .expired, completeTime := now }, afterExpired t)
    else none
  | .expirePayment =>
    if s.payment.free i then
      match s.payment.select i with
      | some p =>
        if p.status = .pending then
          some ({ s with payment := s.payment.write i (some { p with status := .expired }) },
            .commit)
        else some (s, .commit)
      | none => some (s, .commit)
    else none
  | .prepare comp t =>
    match comp.event with
    | none => prepared c i s comp t
    | some verdict => preparedDirect c i s comp t verdict
  | .expireLate =>
    if s.topUp.free i then
      let t := s.topUp.select i
      if t.status = .pending ∨ t.status = .expired then
        some (s.writeTopUp i { t with status := .expired, completeTime := now }, .expirePayment)
      else some (s, .expirePayment)
    else none
  | .compareAndSet comp t quota =>
    if s.topUp.free i then
      let row := s.topUp.select i
      if row.status = .pending ∨ comp.allowExpiredSettlement = true ∧ row.status = .expired then
        some (s.writeTopUp i { row with status := .success, completeTime := now },
          if comp.event.isSome then .markPaid comp t quota else .addQuota comp t quota)
      else some (s, .commit)
    else none
  | .markPaid comp t quota =>
    if s.payment.free i then
      match s.payment.select i with
      | some p =>
        if p.status = .pending ∨ p.status = .expired then
          some ({ s with payment := s.payment.write i (some { p with status := .paid }) },
            .addQuota comp t quota)
        else rollback i s
      | none => rollback i s
    else none
  | .addQuota comp t quota =>
    if s.user.free i then
      match s.user.select i with
      | some b => some ({ s with user := s.user.write i (some (b.refund quota)) }, .reward)
      | none => if t.hasPaymentSettlementSnapshot then rollbackAndFail i s comp else rollback i s
    else none
  -- the inviter's reward and the referral flag, on other rows
  | .reward => some (s, .commitCredit)
  | .commitCredit => some (s.commit i, .done)
  | .checkPending t target =>
    pendingTopUpExpired c i s t now fun expired =>
      .savePending t (if expired then .expired else target) expired
  | .savePending t status byPolicy =>
    if s.topUp.free i then
      some (s.writeTopUp i { t with status := status, completeTime := now },
        if byPolicy then afterExpired t else .commit)
    else none
  | .readFailed expected =>
    let t := s.topUp.select i
    if mismatch expected t = true then rollback i s
    else if t.status ≠ .pending then some (s, .done)
    else some (s, .saveFailed t)
  | .saveFailed t =>
    if s.topUp.free i then
      some (s.writeTopUp i { t with status := .failed, completeTime := now }, .commit)
    else none
  | .lockStale =>
    if s.topUp.free i then
      let t := s.topUp.select i
      if t.status = .pending then some (s.writeTopUp i t, .checkStale t) else rollback i s
    else none
  | .checkStale t =>
    pendingTopUpExpired c i s t now fun expired => if expired then .updateStale t else .commit
  | .updateStale t =>
    if s.topUp.free i then
      let row := s.topUp.select i
      if row.status = .pending then
        some (s.writeTopUp i { row with status := .expired, completeTime := now }, afterExpired t)
      else some (s, .commit)
    else none
  | .commit => some (s.commit i, .done)
  | .done => none

def step (pc : Pc) : Action → Option (Store × Pc)
  | .run now => statement c i s now pc
  | .fail => if pc = .done then none else rollback i s
  | .changeUser d => (outside s.user (some ∘ change d)).map fun r => ({ s with user := r }, pc)

abbrev State := Processes ℕ Store Pc

end NewApi.Model.Settlement
