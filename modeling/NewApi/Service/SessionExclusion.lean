import NewApi.Service.SessionRun

/-!
# Settle and Refund of one session exclude each other, where they do

`Refund` checks `settled` and `refunded`, `Settle` checks `settled` alone.
-/

namespace NewApi.Service

open Fallible

variable {W : Type}

namespace BillingSession

def SettlesAtReserve (s : BillingSession) (q : ℤ) : Prop :=
  s.refunded = true → s.settled = false →
    (s.fundingSettled = true ∨ q = s.preConsumedQuota + s.unresolvedFunding) ∧
      (s.relayInfo.isPlayground = true ∨ q = s.tokenConsumed)

theorem settle_at_reserve (m : BillingModel W) {s : BillingSession} {q : ℤ} {w : W}
    (hfund : s.fundingSettled = true ∨ q = s.preConsumedQuota + s.unresolvedFunding)
    (htok : s.relayInfo.isPlayground = true ∨ q = s.tokenConsumed) :
    (s.settle m q w).2.2 = w := by
  unfold settle
  split
  · rfl
  have hskip : s.fundingSettled = true ∨ q - (s.preConsumedQuota + s.unresolvedFunding) = 0 :=
    hfund.imp_right fun h => by omega
  have hskip' : s.relayInfo.isPlayground = true ∨ q - s.tokenConsumed = 0 :=
    htok.imp_right fun h => by omega
  simp only [settleFunding, if_pos hskip, settleToken, if_pos hskip']

end BillingSession

def CallAtReserve (st : BillingSession × W) (call : SessionCall) : Prop :=
  ∀ q, call = .settle q → st.1.SettlesAtReserve q

def Excludes (m : BillingModel W) (st : BillingSession × W) (call : SessionCall) : Prop :=
  (st.1.settled = true → call = .refund → (call.exec m st).2.2 = st.2) ∧
    (st.1.refunded = true → ∀ q, call = .settle q → (call.exec m st).2.2 = st.2)

theorem excludes_of_atReserve (m : BillingModel W) (st : BillingSession × W)
    (call : SessionCall) (h : CallAtReserve st call) : Excludes m st call := by
  constructor
  · intro hset hcall
    rw [exec_settled m hset]
  · intro href q hcall
    cases hset : st.1.settled with
    | true => rw [exec_settled m hset]
    | false =>
      obtain ⟨hfund, htok⟩ := h q hcall href hset
      subst hcall
      exact BillingSession.settle_at_reserve m hfund htok

/-- In every run of any session, over any model and any failures of it: once the session
is settled no `Refund` touches the world, and once it is refunded no `Settle` does, if each
`Settle` on a refunded session asks for the quota that the session had reserved. -/
theorem settle_refund_exclusive (m : BillingModel W) (s : BillingSession) (w : W)
    (calls : List SessionCall) (hcond : AlongCalls m CallAtReserve calls (s, w)) :
    AlongCalls m (Excludes m) calls (s, w) :=
  hcond.imp (excludes_of_atReserve m)

theorem settle_refund_exclusive_at_reserve :
    AlongCalls BookWorld.model (Excludes BookWorld.model) [.refund, .settle 5]
      (BillingSession.opened (bookRequest [] false) (.wallet ⟨1, 5⟩) false 5, bookWorld []) := by
  refine settle_refund_exclusive BookWorld.model _ _ [.refund, .settle 5] ⟨?_, ?_, trivial⟩
  · intro q hq
    cases hq
  · intro q hq
    cases hq
    exact fun _ _ => ⟨.inr rfl, .inr rfl⟩

/-- A wallet session of 100 that was refunded in full is credited another 100, on the
wallet and on the API key, by `Settle(0)`. -/
theorem settle_after_refund_credits :
    bookRun (bookRequest "wallet_only".toList false) 100 [] .refund [] =
        some (none, false, 0, 0) ∧
      bookRun (bookRequest "wallet_only".toList false) 100 [.refund] (.settle 0) [] =
        some (none, true, -100, -100) := by
  decide

end NewApi.Service
