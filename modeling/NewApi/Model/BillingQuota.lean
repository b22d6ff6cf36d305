import NewApi.Model.Database

/-!
# Wallet and API-key writes of the billing path (model/billing_quota.go)

Every write goes straight to the database.
-/

namespace NewApi.Model

open NewApi.Service (Call)
open Fallible

def negativeQuota : GoError := GoError.new "quota 不能为负数！".toList

def errBillingUserQuotaInsufficient : GoError :=
  ⟨[.billingUserQuotaInsufficient], "user quota is insufficient".toList, none⟩

def errBillingTokenQuotaInsufficient : GoError :=
  ⟨[.billingTokenQuotaInsufficient], "token quota is insufficient".toList, none⟩

def errRecordNotFound : GoError := ⟨[.recordNotFound], "record not found".toList, none⟩

def insufficient (err : GoError) (available quota : ℤ) : GoError :=
  ⟨err.wraps, err.text ++ ": available=".toList ++ fmtInt available ++ " required=".toList ++
    fmtInt quota, none⟩

def Tables.addUserQuota (userID delta : ℤ) (t : Tables) : Tables :=
  { t with
    users := t.users.modify userID (fun u => { u with quota := u.quota + delta }) fun _ => rfl }

def Tables.addTokenQuota (tokenID delta : ℤ) (t : Tables) : Tables :=
  { t with
    tokens := t.tokens.modify tokenID
      (fun k => { k with
        remainQuota := k.remainQuota + delta
        usedQuota := k.usedQuota - delta }) fun _ => rfl }

/-- What a guarded update reports when no row qualified: a second read looks for the
balance, and its own failure is joined to the sentinel. -/
def explainInsufficient (err : GoError) (available : Tables → Except GoError ℤ) (quota : ℤ) :
    Call Db Unit := fun w =>
  match Db.query available w with
  | (.error e, w) => (.error ((GoError.join (some err) (some e)).getD err), w)
  | (.ok a, w) => (.error (insufficient err a quota), w)

def updateGuarded (guard : Tables → Bool) (f : Tables → Tables) (none : Call Db Unit) :
    Call Db Unit := fun w =>
  match Db.statement w with
  | (.error e, w) => (.error e, w)
  | (.ok _, w) =>
    if guard w.tables then (.ok (), { w with tables := f w.tables }) else none w

def reserveUserQuotaForBilling (userID quota : ℤ) : Call Db Unit := fun w =>
  if quota < 0 then (.error negativeQuota, w)
  else if quota = 0 then (.ok (), w)
  else
    updateGuarded (fun t => (t.users.find userID).any fun u => decide (quota ≤ u.quota))
      (Tables.addUserQuota userID (-quota))
      -- A missing user scans as quota 0.
      (explainInsufficient errBillingUserQuotaInsufficient
        (fun t => .ok (((t.users.find userID).map User.quota).getD 0)) quota) w

def adjustUserQuotaForBilling (userID delta : ℤ) : Call Db Unit := fun w =>
  if delta = 0 then (.ok (), w)
  else
    updateGuarded (fun t => (t.users.find userID).isSome) (Tables.addUserQuota userID delta)
      (fun w => (.error errRecordNotFound, w)) w

/-- `DebitUserQuotaForBilling`: the balance may become negative. -/
def debitUserQuotaForBilling (userID quota : ℤ) : Call Db Unit := fun w =>
  if quota < 0 then (.error negativeQuota, w) else adjustUserQuotaForBilling userID (-quota) w

def refundUserQuotaForBilling (userID quota : ℤ) : Call Db Unit := fun w =>
  if quota < 0 then (.error negativeQuota, w) else adjustUserQuotaForBilling userID quota w

/-- `ReserveTokenQuotaForBilling`: an unlimited key is not guarded by its balance. -/
def reserveTokenQuotaForBilling (tokenID quota : ℤ) (unlimited : Bool) : Call Db Unit := fun w =>
  if quota < 0 then (.error negativeQuota, w)
  else if quota = 0 then (.ok (), w)
  else
    updateGuarded
      (fun t => (t.tokens.find tokenID).any fun k => unlimited || decide (quota ≤ k.remainQuota))
      (Tables.addTokenQuota tokenID (-quota))
      (explainInsufficient errBillingTokenQuotaInsufficient
        (fun t => match t.tokens.find tokenID with
          | some k => .ok k.remainQuota
          | none => .error errRecordNotFound) quota) w

def adjustTokenQuotaForBilling (env : Env) (tokenID delta : ℤ) : Call Db Unit := fun w =>
  if delta = 0 then (.ok (), w)
  else
    match env.tokenAdjustFails with
    | some e => (.error e, w)
    | none =>
      if (w.tables.tokens.find tokenID).isSome then
        (.ok (), { w with tables := w.tables.addTokenQuota tokenID delta })
      else (.error errRecordNotFound, w)

def debitTokenQuotaForBilling (env : Env) (tokenID quota : ℤ) : Call Db Unit := fun w =>
  if quota < 0 then (.error negativeQuota, w)
  else adjustTokenQuotaForBilling env tokenID (-quota) w

def refundTokenQuotaForBilling (env : Env) (tokenID quota : ℤ) : Call Db Unit := fun w =>
  if quota < 0 then (.error negativeQuota, w)
  else adjustTokenQuotaForBilling env tokenID quota w

variable {r : Except GoError Unit} {w w' : Db}

theorem explainInsufficient_cases {err : GoError} {available : Tables → Except GoError ℤ}
    {quota : ℤ} (h : explainInsufficient err available quota w = (r, w')) :
    w'.tables = w.tables ∧ ∃ e, r = .error e := by
  unfold explainInsufficient at h
  rcases hq : Db.query available w with ⟨e | a, w₁⟩
  all_goals
    rw [hq] at h
    cases h
    exact ⟨Db.query_tables hq, _, rfl⟩

theorem updateGuarded_cases {guard : Tables → Bool} {f : Tables → Tables} {none : Call Db Unit}
    (hnone : ∀ w w' r, none w = (r, w') → w'.tables = w.tables ∧ ∃ e, r = .error e)
    (h : updateGuarded guard f none w = (r, w')) :
    (r = .ok () ∧ guard w.tables = true ∧ w'.tables = f w.tables) ∨
      (∃ e, r = .error e) ∧ w'.tables = w.tables := by
  unfold updateGuarded at h
  rcases hs : Db.statement w with ⟨e | _, w₁⟩
  · rw [hs] at h
    cases h
    exact .inr ⟨⟨_, rfl⟩, Db.statement_tables hs⟩
  · rw [hs] at h
    have ht := Db.statement_tables hs
    simp only at h
    split at h
    · next hg =>
      cases h
      exact .inl ⟨rfl, ht ▸ hg, by rw [ht]⟩
    · obtain ⟨ht', herr⟩ := hnone _ _ _ h
      exact .inr ⟨herr, ht'.trans ht⟩

theorem reserveUserQuotaForBilling_cases {userID quota : ℤ}
    (h : reserveUserQuotaForBilling userID quota w = (r, w')) :
    (r = .ok () ∧ (0 < quota → w'.tables = w.tables.addUserQuota userID (-quota))) ∨
      (∃ e, r = .error e) ∧ w'.tables = w.tables := by
  unfold reserveUserQuotaForBilling at h
  split at h
  · cases h
    exact .inr ⟨⟨_, rfl⟩, rfl⟩
  split at h
  · cases h
    exact .inl ⟨rfl, fun hq => by omega⟩
  rcases updateGuarded_cases (fun _ _ _ => explainInsufficient_cases) h with ⟨hr, -, ht⟩ | herr
  · exact .inl ⟨hr, fun _ => ht⟩
  · exact .inr herr

theorem reserveTokenQuotaForBilling_cases {tokenID quota : ℤ} {unlimited : Bool}
    (h : reserveTokenQuotaForBilling tokenID quota unlimited w = (r, w')) :
    (r = .ok () ∧ (quota = 0 ∧ w'.tables = w.tables ∨
        0 < quota ∧ (w.tables.tokens.find tokenID).isSome = true ∧
          w'.tables = w.tables.addTokenQuota tokenID (-quota))) ∨
      (∃ e, r = .error e) ∧ w'.tables = w.tables := by
  unfold reserveTokenQuotaForBilling at h
  split at h
  · cases h
    exact .inr ⟨⟨_, rfl⟩, rfl⟩
  split at h
  · next h0 =>
    cases h
    exact .inl ⟨rfl, .inl ⟨h0, rfl⟩⟩
  rcases updateGuarded_cases (fun _ _ _ => explainInsufficient_cases) h with ⟨hr, hg, ht⟩ | herr
  · refine .inl ⟨hr, .inr ⟨by omega, ?_, ht⟩⟩
    cases hf : w.tables.tokens.find tokenID with
    | none => simp [hf] at hg
    | some k => rfl
  · exact .inr herr

theorem addUserQuota_find_self (t : Tables) (userID delta : ℤ) :
    (t.addUserQuota userID delta).users.find userID =
      (t.users.find userID).map fun u => { u with quota := u.quota + delta } := by
  unfold Tables.addUserQuota
  rw [Table.find_modify_self]

theorem addUserQuota_zero (t : Tables) (userID : ℤ) : t.addUserQuota userID 0 = t := by
  have h : t.users.modify userID (fun u => { u with quota := u.quota + 0 }) (fun _ => rfl) =
      t.users := Table.modify_id _ _ _ _ fun u => by simp
  unfold Tables.addUserQuota
  rw [h]

theorem addTokenQuota_zero (t : Tables) (tokenID : ℤ) : t.addTokenQuota tokenID 0 = t := by
  have h : t.tokens.modify tokenID (fun k => { k with
      remainQuota := k.remainQuota + 0
      usedQuota := k.usedQuota - 0 }) (fun _ => rfl) = t.tokens :=
    Table.modify_id _ _ _ _ fun k => by simp
  unfold Tables.addTokenQuota
  rw [h]

theorem addTokenQuota_cancel (t : Tables) (tokenID quota : ℤ) :
    (t.addTokenQuota tokenID (-quota)).addTokenQuota tokenID quota = t := by
  unfold Tables.addTokenQuota
  simp only
  rw [Table.modify_modify_cancel]
  rintro ⟨id, remain, used⟩
  simp only [Token.mk.injEq, true_and]
  omega

end NewApi.Model
