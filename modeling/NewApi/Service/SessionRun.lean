import NewApi.Service.SessionConservation

/-!
# Runs of a billing session

A session is driven by any sequence of `Reserve`, `Settle` and `Refund`.
-/

namespace NewApi.Service

open Fallible

inductive SessionCall where
  | reserve (targetQuota : ℤ)
  | settle (actualQuota : ℤ)
  | refund
  deriving DecidableEq, Repr

variable {W : Type}

def SessionCall.exec (m : BillingModel W) (st : BillingSession × W) :
    SessionCall → Option GoError × BillingSession × W
  | .reserve n => st.1.reserve m n st.2
  | .settle q => st.1.settle m q st.2
  | .refund => st.1.refund m st.2

def runCalls (m : BillingModel W) (calls : List SessionCall) (st : BillingSession × W) :
    BillingSession × W :=
  calls.foldl (fun st call => (call.exec m st).2) st

@[simp] theorem runCalls_nil (m : BillingModel W) (st : BillingSession × W) :
    runCalls m [] st = st := rfl

@[simp] theorem runCalls_cons (m : BillingModel W) (call : SessionCall) (calls : List SessionCall)
    (st : BillingSession × W) :
    runCalls m (call :: calls) st = runCalls m calls (call.exec m st).2 := rfl

theorem runCalls_append (m : BillingModel W) (xs ys : List SessionCall)
    (st : BillingSession × W) : runCalls m (xs ++ ys) st = runCalls m ys (runCalls m xs st) :=
  List.foldl_append

def AlongCalls (m : BillingModel W) (P : BillingSession × W → SessionCall → Prop) :
    List SessionCall → BillingSession × W → Prop
  | [], _ => True
  | call :: calls, st => P st call ∧ AlongCalls m P calls (call.exec m st).2

variable {st : BillingSession × W}

theorem AlongCalls.imp {m : BillingModel W} {P Q : BillingSession × W → SessionCall → Prop}
    (hPQ : ∀ st call, P st call → Q st call) {calls : List SessionCall}
    (h : AlongCalls m P calls st) : AlongCalls m Q calls st := by
  induction calls generalizing st with
  | nil => trivial
  | cons call calls ih => exact ⟨hPQ _ _ h.1, ih h.2⟩

def RefundsLast (calls : List SessionCall) : Prop :=
  calls.Pairwise fun a b => a = .refund → b = .refund

theorem exec_settled (m : BillingModel W) (h : st.1.settled = true) (call : SessionCall) :
    (call.exec m st).2 = st := by
  cases call with
  | reserve n =>
    simp only [SessionCall.exec, BillingSession.reserve, h, Bool.true_or]
    split <;> rfl
  | settle q => simp [SessionCall.exec, BillingSession.settle, h]
  | refund => simp [SessionCall.exec, BillingSession.refund, h]

theorem run_settled (m : BillingModel W) (h : st.1.settled = true) (calls : List SessionCall) :
    runCalls m calls st = st := by
  induction calls with
  | nil => rfl
  | cons call calls ih => rw [runCalls_cons, exec_settled m h, ih]

theorem refund_refunded (m : BillingModel W) {s : BillingSession} {w : W}
    (h : s.refunded = true ∨ s.needsRefund = false) : s.refund m w = (none, s, w) := by
  unfold BillingSession.refund
  rcases h with h | h <;> simp [h]

theorem refund_idempotent (m : BillingModel W) (s : BillingSession) (w : W)
    (h : (s.refund m w).1 = none) :
    (s.refund m w).2.1.refund m (s.refund m w).2.2 = (none, (s.refund m w).2) := by
  by_cases hskip : (s.settled || s.refunded || !s.needsRefund) = true
  · have hsame : s.refund m w = (none, s, w) := by
      unfold BillingSession.refund
      rw [if_pos hskip]
    rw [hsame, hsame]
  · suffices hr : (s.refund m w).2.1.refunded = true from refund_refunded m (.inl hr)
    unfold BillingSession.refund at h ⊢
    rw [if_neg hskip] at h ⊢
    rcases h₁ : s.refundFunding m w with ⟨e | s₁, w₁⟩
    · rw [h₁] at h
      cases h
    rw [h₁] at h
    simp only at h ⊢
    rcases h₂ : s₁.refundExtra m w₁ with ⟨e | s₂, w₂⟩
    · rw [h₂] at h
      cases h
    rw [h₂] at h
    simp only at h ⊢
    rcases h₃ : s₂.refundToken m w₂ with ⟨e | s₃, w₃⟩
    · rw [h₃] at h
      cases h
    · rfl

theorem run_refunds (m : BillingModel W) {calls : List SessionCall}
    (hall : ∀ call ∈ calls, call = .refund) (h : st.1.refund m st.2 = (none, st)) :
    runCalls m calls st = st := by
  induction calls with
  | nil => rfl
  | cons call calls ih =>
    obtain rfl : call = .refund := hall call (by simp)
    rw [runCalls_cons]
    have hexec : (SessionCall.refund.exec m st).2 = st := congrArg Prod.snd h
    rw [hexec]
    exact ih fun c hc => hall c (by simp [hc])

section

variable {L : Ledger W} {b₀ : Books} {p : Bool}

theorem run_open {calls : List SessionCall} (st : BillingSession × W)
    (hno : SessionCall.refund ∉ calls) (h : st.1.Accounted b₀ (L.books st.2) p) (hun : st.1.Untouched) :
    (runCalls L.toBillingModel calls st).1.settled = true ∨
      (runCalls L.toBillingModel calls st).1.Accounted b₀
          (L.books (runCalls L.toBillingModel calls st).2) p ∧
        (runCalls L.toBillingModel calls st).1.Untouched ∧
        (st.1.Reconciled → (runCalls L.toBillingModel calls st).1.Reconciled) := by
  induction calls generalizing st with
  | nil => exact .inr ⟨h, hun, id⟩
  | cons call calls ih =>
    rw [runCalls_cons]
    have hno' : SessionCall.refund ∉ calls := fun hm => hno (by simp [hm])
    cases call with
    | refund => exact absurd (by simp) hno
    | reserve n =>
      obtain ⟨hacc, hun', hrec⟩ := BillingSession.reserve_accounted h hun n
      rcases ih _ hno' hacc hun' with hset | ⟨h₁, h₂, h₃⟩
      · exact .inl hset
      · exact .inr ⟨h₁, h₂, fun hr => h₃ (hrec hr)⟩
    | settle q =>
      rcases BillingSession.settle_accounted h hun q with ⟨hsame, hbooks⟩ | ⟨hset, -⟩
      · have hacc : ((SessionCall.settle q).exec L.toBillingModel st).2.1.Accounted b₀
            (L.books ((SessionCall.settle q).exec L.toBillingModel st).2.2) p := by
          simp only [SessionCall.exec]
          rw [hsame, hbooks]
          exact h
        have heq : ((SessionCall.settle q).exec L.toBillingModel st).2.1 = st.1 := hsame
        have hrun := ih _ hno' hacc (heq ▸ hun)
        rw [heq] at hrun
        exact hrun
      · have hset' : ((SessionCall.settle q).exec L.toBillingModel st).2.1.settled = true := hset
        rw [run_settled _ hset']
        exact .inl hset'

theorem run_refunds_accounted {calls : List SessionCall} (hall : ∀ call ∈ calls, call = .refund)
    {st : BillingSession × W} (h : st.1.Accounted b₀ (L.books st.2) p) :
    (runCalls L.toBillingModel calls st).1.Accounted b₀
      (L.books (runCalls L.toBillingModel calls st).2) p := by
  induction calls generalizing st with
  | nil => exact h
  | cons call calls ih =>
    obtain rfl : call = .refund := hall call (by simp)
    exact ih (fun c hc => hall c (by simp [hc])) (BillingSession.refund_accounted h).1

theorem run_accounted {calls : List SessionCall} (st : BillingSession × W)
    (horder : RefundsLast calls) (h : st.1.Accounted b₀ (L.books st.2) p) (hun : st.1.Untouched) :
    (runCalls L.toBillingModel calls st).1.settled = true ∨
      (runCalls L.toBillingModel calls st).1.Accounted b₀
        (L.books (runCalls L.toBillingModel calls st).2) p := by
  -- The first refund, if there is one, cuts the run in two.
  by_cases hmem : SessionCall.refund ∈ calls
  · obtain ⟨before, after, rfl, hno⟩ := List.eq_append_cons_of_mem hmem
    rw [runCalls_append]
    rcases run_open st hno h hun with hset | ⟨hacc, -⟩
    · rw [run_settled _ hset]
      exact .inl hset
    · refine .inr (run_refunds_accounted ?_ hacc)
      have htail := (List.pairwise_append.mp horder).2.1
      intro call hc
      rcases List.mem_cons.mp hc with rfl | hc
      · rfl
      · exact (List.pairwise_cons.mp htail).1 call hc rfl
  · rcases run_open st hmem h hun with hset | ⟨hacc, -⟩
    · exact .inl hset
    · exact .inr hacc

theorem refundsLast_split {before after : List SessionCall} {call : SessionCall}
    (h : RefundsLast (before ++ call :: after)) :
    RefundsLast before ∧ (call ≠ .refund → SessionCall.refund ∉ before) ∧
      (call = .refund → ∀ c ∈ after, c = .refund) := by
  obtain ⟨h₁, h₂, h₃⟩ := List.pairwise_append.mp h
  refine ⟨h₁, fun hne hm => ?_, fun hc c hmem => ?_⟩
  · exact hne (h₃ _ hm call (by simp) rfl)
  · exact (List.pairwise_cons.mp h₂).1 c hmem hc

end

/-- Every session that `NewBillingSession` returns for a fresh request id, driven by any
calls whose refunds come last, conserves money whichever underlying writes fail: a settled
session has debited its quota, a refunded one nothing, and an open one what
`RemainingHolds` says. The API key of a playground request is never debited. A wallet
session that was opened with a negative reserve and no trust bypass is left out of the
funding part of the first statement. -/
theorem session_conserves_money (L : Ledger W) (c : Context) (info : RelayInfo) (quota : ℤ)
    (w w₀ : W) (s : BillingSession)
    (hnew : newBillingSession L.toBillingModel c info quota w = (.ok s, w₀))
    (hfresh : (L.books w).record info.requestId = none)
    (calls : List SessionCall) (horder : RefundsLast calls) :
    let st := runCalls L.toBillingModel calls (s, w₀)
    let fundingDebit := Books.fundingDebit (L.books w) (L.books st.2)
    let tokenDebit := Books.tokenDebit (L.books w) (L.books st.2)
    (∀ before q after, calls = before ++ .settle q :: after →
      let st₁ := runCalls L.toBillingModel before (s, w₀)
      st₁.1.settled = false →
      (runCalls L.toBillingModel (before ++ [.settle q]) (s, w₀)).1.settled = true →
      (0 ≤ quota ∨ s.funding.source = .subscription ∨ s.trusted = true → fundingDebit = q) ∧
        (st₁.1.settleTokenErr L.toBillingModel q st₁.2 = none →
          tokenDebit = if info.isPlayground then 0 else q)) ∧
    (∀ before after, calls = before ++ .refund :: after →
      let st₁ := runCalls L.toBillingModel before (s, w₀)
      st₁.1.settled = false →
      (SessionCall.refund.exec L.toBillingModel st₁).1 = none →
      fundingDebit = 0 ∧ tokenDebit = 0) ∧
    (st.1.settled = false → st.1.remainingHolds = (fundingDebit, tokenDebit)) := by
  obtain ⟨hacc₀, hun₀, hrec₀⟩ := newBillingSession_accounted hfresh hnew
  refine ⟨?_, ?_, ?_⟩
  · intro before q after hsplit st₁ hopen hset
    subst hsplit
    have hno := (refundsLast_split horder).2.1 (by simp)
    obtain hset₁ | ⟨hacc, hun, hrec⟩ := run_open (s, w₀) hno hacc₀ hun₀
    · exact absurd (hopen.symm.trans hset₁) (by simp)
    rw [runCalls_append, runCalls_cons, runCalls_nil] at hset
    rw [runCalls_append, runCalls_cons, run_settled _ hset]
    rcases BillingSession.settle_accounted hacc hun q with ⟨hsame, -⟩ | ⟨-, hfund, htok⟩
    · exact absurd (hopen.symm.trans (hsame ▸ hset)) (by simp)
    · exact ⟨fun hq => hfund (hrec (hrec₀ hq)), htok⟩
  · intro before after hsplit st₁ hopen hnone
    subst hsplit
    obtain ⟨horder₁, -, hafter⟩ := refundsLast_split horder
    obtain hset₁ | hacc := run_accounted (s, w₀) horder₁ hacc₀ hun₀
    · exact absurd (hopen.symm.trans hset₁) (by simp)
    obtain ⟨hacc', hzero⟩ := BillingSession.refund_accounted hacc
    have hstop : runCalls L.toBillingModel after (SessionCall.refund.exec L.toBillingModel st₁).2 =
        (SessionCall.refund.exec L.toBillingModel st₁).2 :=
      run_refunds _ (hafter rfl) (refund_idempotent _ _ _ hnone)
    rw [runCalls_append, runCalls_cons, hstop]
    obtain ⟨hf, ht⟩ := BillingSession.debits_of_accounted hacc'
    obtain ⟨hf0, ht0⟩ := hzero hnone
    exact ⟨hf.trans hf0, ht.trans ht0⟩
  · intro hopen
    obtain hset | hacc := run_accounted (s, w₀) horder hacc₀ hun₀
    · exact absurd (hopen.symm.trans hset) (by simp)
    · obtain ⟨hf, ht⟩ := BillingSession.debits_of_accounted hacc
      rw [hf, ht]
      exact BillingSession.remainingHolds_of_accounted hacc

def bookRequest (pref : Text) (playground : Bool) : RelayInfo where
  userId := 1
  tokenId := 1
  tokenKey := "sk".toList
  tokenUnlimited := false
  isPlayground := playground
  forcePreConsume := false
  requestId := "r1".toList
  originModelName := "m".toList
  billingPreference := pref
  userQuota := 0
  finalPreConsumedQuota := 0
  billingSource := none
  billingOverageSource := none
  billingOverageQuota := 0
  subscriptionId := 0
  subscriptionPreConsumed := 0
  subscriptionPostDelta := 0
  subscriptionAmountTotal := 0
  subscriptionAmountUsedAfterPreConsume := 0
  subscriptionPlanId := 0
  subscriptionPlanTitle := []
  billingSettled := false
  settledQuota := 0
  releasedQuota := 0
  attemptNonBillable := false

def bookContext : Context := ⟨0, 0, fun _ => []⟩

def bookWorld (faults : List Bool) : BookWorld := ⟨⟨1000, 0, 1000, fun _ => none⟩, faults⟩

def bookRun (info : RelayInfo) (quota : ℤ) (calls : List SessionCall) (last : SessionCall)
    (faults : List Bool) : Option (Option GoError × Bool × ℤ × ℤ) :=
  match newBillingSession BookWorld.model bookContext info quota (bookWorld faults) with
  | (.ok s, w₀) =>
    let r := last.exec BookWorld.model (runCalls BookWorld.model calls (s, w₀))
    some (r.1, r.2.1.settled, Books.fundingDebit (bookWorld faults).books r.2.2.books,
      Books.tokenDebit (bookWorld faults).books r.2.2.books)
  | (.error _, _) => none

/-- A playground session settles at 10 without an error and its API key is not debited;
a wallet session opened with a reserve of -5 settles at 10 without an error and its wallet
is debited 15. -/
theorem settled_debits_differ_from_quota :
    bookRun (bookRequest "wallet_only".toList true) 5 [] (.settle 10) [] =
        some (none, true, 10, 0) ∧
      bookRun (bookRequest "wallet_only".toList false) (-5) [] (.settle 10) [] =
        some (none, true, 15, 10) := by
  decide

theorem session_conserves_money_after_failed_rollback :
    ∃ s w₀, newBillingSession bookLedger.toBillingModel bookContext
        (bookRequest "wallet_only".toList false) 5
        (bookWorld [false, false, false, true, true]) = (.ok s, w₀) ∧
      Books.fundingDebit (bookWorld []).books (bookLedger.books (runCalls bookLedger.toBillingModel
        [.reserve 20, .settle 12] (s, w₀)).2) = 12 ∧
      Books.tokenDebit (bookWorld []).books (bookLedger.books (runCalls bookLedger.toBillingModel
        [.reserve 20, .settle 12] (s, w₀)).2) = 12 := by
  refine ⟨_, _, rfl, ?_⟩
  have h := (session_conserves_money bookLedger bookContext
    (bookRequest "wallet_only".toList false) 5 (bookWorld [false, false, false, true, true])
    _ _ rfl rfl [.reserve 20, .settle 12] (by simp [RefundsLast])).1 [.reserve 20] 12 [] rfl
    rfl rfl
  exact ⟨h.1 (.inl (by decide)), h.2 rfl⟩

end NewApi.Service
