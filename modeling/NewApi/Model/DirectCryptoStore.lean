import NewApi.Model.DirectCrypto

/-!
# Direct orders in the database (model/direct_crypto_payment.go, topup.go)

The operations on direct orders, each as the transactions it commits.
-/

namespace NewApi.Model.Direct

/-- The JSON of a metadata row: one event, or the list of late events that replaced it. An
event is known by its `event_id`, which the metadata of a settlement does not have. -/
inductive MetadataBody where
  | single (eventId : Option Text)
  | lateEvents (eventIds : List (Option Text))
  deriving DecidableEq, Repr

structure PaymentMetadata where
  tradeNo : Text
  paymentProvider : PaymentProvider
  externalPaymentId : Text
  body : MetadataBody
  deriving DecidableEq, Repr

inductive ReconciliationReason where
  | orphan
  | amountMismatch
  deriving DecidableEq, Repr

structure DirectCryptoReconciliation where
  network : Text
  eventId : Text
  tradeNo : Text
  txHash : Text
  eventIndex : Text
  contract : Text
  destination : Text
  amountUnits : ℕ
  expectedUnits : ℕ
  reason : ReconciliationReason
  blockTimestamp : ℤ
  deriving DecidableEq, Repr

structure Settlement where
  event : Option DirectUSDTTransferEvent
  quota : ℤ
  deriving DecidableEq, Repr

structure Store where
  topUps : Table TopUp.tradeNo
  payments : Table DirectCryptoPayment.tradeNo
  users : ℤ → Option ℤ
  metadata : List PaymentMetadata
  reconciliations : List DirectCryptoReconciliation
  settlements : Text → List Settlement

namespace Store

def empty (users : ℤ → Option ℤ) : Store where
  topUps := ⟨[], List.nodup_nil⟩
  payments := ⟨[], List.nodup_nil⟩
  users := users
  metadata := []
  reconciliations := []
  settlements := fun _ => []

def setTopUp (s : Store) (k : Text) (status : TopUpStatus) (now : ℤ) : Store :=
  { s with
    topUps := s.topUps.modify k (fun t => { t with status := status, completeTime := now })
      fun _ => rfl }

def setPayment (s : Store) (k : Text) (status : DirectCryptoStatus) : Store :=
  { s with
    payments := s.payments.modify k (fun p => { p with status := status }) fun _ => rfl }

def isReconciled (s : Store) (network eventId : Text) : Bool :=
  s.reconciliations.any fun r => decide (r.network = network) && decide (r.eventId = eventId)

def metadataTaken (s : Store) (tradeNo : Text) (provider : PaymentProvider) (eventId : Text) :
    Bool :=
  s.metadata.any fun m => decide (m.tradeNo = tradeNo) ||
    (decide (m.paymentProvider = provider) && decide (m.externalPaymentId = eventId))

def metadataOfEvent (s : Store) (provider : PaymentProvider) (eventId : Text) :
    Option PaymentMetadata :=
  s.metadata.find? fun m => decide (m.paymentProvider = provider) &&
    decide (m.externalPaymentId = eventId)

def addMetadata (s : Store) (m : PaymentMetadata) : Store :=
  { s with metadata := m :: s.metadata }

end Store

abbrev Result := Except TopUpError Unit × Store

variable (c : DirectConfig) (now : ℤ)

def expireDirectPaymentTx (tradeNo : Text) (s : Store) : Store :=
  match s.payments.find (trimSpace tradeNo) with
  | some p => if p.status = .pending then s.setPayment (trimSpace tradeNo) .expired else s
  | none => s

def pendingTopUpExpired (t : TopUp) (s : Store) : Except TopUpError Bool :=
  if t.paymentProvider.isDirect then
    match s.payments.find (trimSpace t.tradeNo) with
    | some p => .ok (directExpired p.status p.expiresAt now)
    | none => .error (.other "record not found".toList)
  else .ok (t.ttlExpired c.policyTTL now)

def expireTopUp (t : TopUp) (s : Store) : Store :=
  let s := s.setTopUp t.tradeNo .expired now
  if t.paymentProvider.isDirect then expireDirectPaymentTx t.tradeNo s else s

def mismatch (expected : Option PaymentProvider) (t : TopUp) : Bool :=
  match expected with
  | none => false
  | some p => decide (t.paymentProvider ≠ p)

def failTopUpOrder (tradeNo : Text) (expected : Option PaymentProvider) (s : Store) : Result :=
  if trimSpace tradeNo = [] then (.error (.other "tradeNo is empty".toList), s)
  else
    match s.topUps.find tradeNo with
    | none => (.error .notFound, s)
    | some t =>
      if mismatch expected t then (.error .paymentMethodMismatch, s)
      else if t.status ≠ .pending then (.ok (), s)
      else (.ok (), s.setTopUp tradeNo .failed now)

/-- What follows an error of the settlement transaction: a payment for a deleted user or of
an unclear amount closes the order. -/
def afterSettlementError (t : TopUp) (expected : Option PaymentProvider) (e : TopUpError)
    (s : Store) : Except TopUpError Bool × Store :=
  if e = .userNotFound ∧ t.hasPaymentSettlementSnapshot = true ∨ e = .settlementAmbiguous then
    (.error e, (failTopUpOrder now t.tradeNo expected s).2)
  else (.error e, s)

def expectsDirect (expected : Option PaymentProvider) : Bool :=
  match expected with
  | some p => p.isDirect
  | none => false

def allowsExpired (expected : Option PaymentProvider) : Bool :=
  expectsDirect expected || decide (expected = some .yooKassa)

/-- `completeTopUpCASWithOptions`: `prepare` finds the quota, `apply` credits it. The result
says whether this call has settled the order. -/
def completeTopUpCASWithOptions (tradeNo : Text) (expected : Option PaymentProvider)
    (allowExpired : Bool) (prepare : TopUp → Store → Except TopUpError ℤ)
    (apply : TopUp → ℤ → Store → Except TopUpError Store) (s : Store) :
    Except TopUpError Bool × Store :=
  let allowExpired := allowExpired && allowsExpired expected
  match s.topUps.find tradeNo with
  | none => (.error .notFound, s)
  | some t =>
    if mismatch expected t then (.error .paymentMethodMismatch, s)
    else if t.status = .success then (.ok false, s)
    else if t.status ≠ .pending ∧ ¬ (allowExpired = true ∧ t.status = .expired) then
      (.error .statusInvalid, s)
    else
      let settle : Except TopUpError Bool × Store :=
        match prepare t s with
        | .error e =>
          if allowExpired = true ∧ expectsDirect expected = true ∧ e = .directExpired then
            (.error .directExpired, expireTopUp now t s)
          else afterSettlementError now t expected e s
        | .ok quota =>
          match apply t quota (s.setTopUp tradeNo .success now) with
          | .error e => afterSettlementError now t expected e s
          | .ok s' => (.ok true, s')
      if allowExpired then settle
      else
        match pendingTopUpExpired c now t s with
        | .error e => (.error e, s)
        | .ok true => (.error .expired, expireTopUp now t s)
        | .ok false => settle

def creditUser (t : TopUp) (event : Option DirectUSDTTransferEvent) (quota : ℤ) (s : Store) :
    Except TopUpError Store :=
  match s.users t.userId with
  | none => .error .userNotFound
  | some q => .ok
    { s with
      users := fun u => if u = t.userId then some (q + quota) else s.users u
      settlements := fun k =>
        if k = t.tradeNo then ⟨event, quota⟩ :: s.settlements k else s.settlements k }

def manualCompleteTopUp (tradeNo : Text) (s : Store) : Result :=
  match s.topUps.find tradeNo with
  | none => (.error .notFound, s)
  | some t =>
    if t.paymentProvider.isDirect then
      if t.status = .success then (.ok (), s) else (.error .directInvalid, s)
    else
      let (r, s') := completeTopUpCASWithOptions c now tradeNo none false
        (fun t _ => resolveTopUpQuota c.sources t) (fun t quota s => creditUser t none quota s) s
      (r.map fun _ => (), s')

def updatePendingTopUpStatus (tradeNo : Text) (expected : Option PaymentProvider)
    (target : TopUpStatus) (s : Store) : Result :=
  match s.topUps.find tradeNo with
  | none => (.error .notFound, s)
  | some t =>
    if mismatch expected t then (.error .paymentMethodMismatch, s)
    else if t.status ≠ .pending then (.error .statusInvalid, s)
    else
      match pendingTopUpExpired c now t s with
      | .error e => (.error e, s)
      | .ok true => (.error .statusInvalid, expireTopUp now t s)
      | .ok false => (.ok (), s.setTopUp tradeNo target now)

def expireStaleTopUp (tradeNo : Text) (s : Store) : Result :=
  match s.topUps.find tradeNo with
  | none => (.ok (), s)
  | some t =>
    if t.status ≠ .pending then (.ok (), s)
    else
      match pendingTopUpExpired c now t s with
      | .error e => (.error e, s)
      | .ok false => (.ok (), s)
      | .ok true =>
        let s := s.setTopUp tradeNo .expired now
        if t.paymentProvider.isDirect = false then (.ok (), s)
        else
          match s.payments.find t.tradeNo with
          | some p => (.ok (), if p.status = .pending then s.setPayment t.tradeNo .expired else s)
          | none => (.ok (), s)

def expireStaleLoop : List Text → Store → Result
  | [], s => (.ok (), s)
  | k :: ks, s =>
    match expireStaleTopUp c now k s with
    | (.error e, s) => (.error e, s)
    | (.ok _, s) => expireStaleLoop ks s

/-- `ExpireStalePendingTopUps`; user 0 stands for all users. -/
def expireStalePendingTopUps (userId : ℤ) (s : Store) : Result :=
  let pending := s.topUps.rows.filter fun t =>
    decide (t.status = .pending) && decide (0 < t.createTime) &&
      (decide (userId = 0) || decide (t.userId = userId))
  expireStaleLoop c now (pending.map TopUp.tradeNo) s

def cancelDirectCryptoPayment (tradeNo : Text) (userId : ℤ) (s : Store) : Result :=
  let k := trimSpace tradeNo
  match s.topUps.find k with
  | none => (.error .notFound, s)
  | some t =>
    if t.userId ≠ userId then (.error .notFound, s)
    else
      match s.payments.find k with
      | none => (.error (.other "record not found".toList), s)
      | some p =>
        if p.userId ≠ userId then (.error (.other "record not found".toList), s)
        else if p.status = .cancelled then (.ok (), s)
        else if p.status ≠ .pending ∨ t.status ≠ .pending then (.error .directAlreadySettled, s)
        else (.ok (), (s.setTopUp k .cancelled now).setPayment k .cancelled)

/-- `expireDirectUSDTOrder`: the payment is looked up by the trimmed trade number. -/
def expireDirectUSDTOrder (tradeNo : Text) (s : Store) : Result :=
  let s' := expireDirectPaymentTx tradeNo s
  match s.topUps.find tradeNo with
  | none => (.ok (), s')
  | some t =>
    if t.paymentProvider.isDirect = true ∧ t.status = .pending then
      (.ok (), s'.setTopUp tradeNo .expired now)
    else (.ok (), s')

def getDirectCryptoPaymentStatus (tradeNo : Text) (s : Store) : Result :=
  let k := trimSpace tradeNo
  match s.payments.find k with
  | none => (.error (.other "record not found".toList), s)
  | some p =>
    let topUp := (s.topUps.find k).filter fun t => t.paymentProvider.isDirect
    if p.status = .paid then (.ok (), s)
    else if p.status = .pending then
      match topUp.map TopUp.status with
      | some .expired => (.ok (), s.setPayment k .expired)
      | some .failed => (.ok (), s.setPayment k .failed)
      | status =>
        if 0 < p.expiresAt ∧ p.expiresAt ≤ now then
          let s := s.setPayment k .expired
          (.ok (), if status = some .pending then s.setTopUp k .expired now else s)
        else (.ok (), s)
    else if p.status = .expired ∧ topUp.map TopUp.status = some .pending then
      (.ok (), s.setTopUp k .expired now)
    else (.ok (), s)

def recordLateDirectUSDTEvent (e : DirectUSDTTransferEvent) (provider : PaymentProvider)
    (s : Store) : Result :=
  let kept (s : Store) : Result := (.error .directExpired, s)
  let duplicate : Result := (.error (.other "duplicated key not allowed".toList), s)
  if s.metadataTaken e.tradeNo provider e.eventId = false then
    kept (s.addMetadata ⟨e.tradeNo, provider, e.eventId, .single (some e.eventId)⟩)
  else if (s.metadataOfEvent provider e.eventId).any (fun m => decide (m.tradeNo ≠ e.tradeNo)) then
    kept s
  else
    match s.metadata.find? fun m => decide (m.tradeNo = e.tradeNo) with
    | none => duplicate
    | some m =>
      if m.paymentProvider ≠ provider then duplicate
      else
        let save (body : MetadataBody) : Result := kept
          { s with
            metadata := s.metadata.map fun m =>
              if m.tradeNo = e.tradeNo then { m with body := body } else m }
        match m.body with
        | .single id =>
          if id = some e.eventId then kept s else save (.lateEvents [id, some e.eventId])
        | .lateEvents ids =>
          if some e.eventId ∈ ids then kept s else save (.lateEvents (ids ++ [some e.eventId]))

def recordLateIfValid (e : DirectUSDTTransferEvent) (provider : PaymentProvider)
    (p : DirectCryptoPayment) (s : Store) : Result :=
  match validateEvent c now e p true with
  | .error err => (.error err, s)
  | .ok _ => recordLateDirectUSDTEvent e provider s

/-- The `prepare` callback: the quota that the event pays for. -/
def prepareDirect (e : DirectUSDTTransferEvent) (t : TopUp) (s : Store) : Except TopUpError ℤ :=
  if s.isReconciled e.network e.eventId then .error .directEventAlreadyUsed
  else
    match s.payments.find e.tradeNo with
    | none => .error (.other "record not found".toList)
    | some p =>
      if p.status = .paid then
        if p.eventId = e.eventId then
          match validateEvent c now e p false with
          | .error err => .error err
          | .ok _ =>
            if p.txHash ≠ e.txHash ∨ p.eventIndex ≠ e.eventIndex then .error .directInvalid
            else .ok 0
        else .error .directAlreadySettled
      else if p.status ≠ .pending ∧ p.status ≠ .expired then .error .directAlreadySettled
      else if p.userId ≠ t.userId then .error .directInvalid
      else
        match validateEvent c now e p false with
        | .error err => .error err
        | .ok _ => resolveTopUpQuota c.sources t

def addSettlementMetadata (e : DirectUSDTTransferEvent) (provider : PaymentProvider) (s : Store) :
    Except TopUpError Store :=
  if s.metadataTaken e.tradeNo provider e.eventId = false then
    .ok (s.addMetadata ⟨e.tradeNo, provider, e.eventId, .single none⟩)
  else
    match s.metadataOfEvent provider e.eventId with
    | none => .error (.other "duplicated key not allowed".toList)
    | some m => if m.tradeNo ≠ e.tradeNo then .error .directEventAlreadyUsed else .ok s

def paidBy (e : DirectUSDTTransferEvent) (p : DirectCryptoPayment) : DirectCryptoPayment :=
  { p with
    status := .paid
    txHash := e.txHash
    eventIndex := e.eventIndex
    eventId := e.eventId
    observedUnits := e.amountUnits
    confirmations := e.confirmations }

/-- The `apply` callback: it records the event, marks the payment and credits the user. -/
def applyDirect (e : DirectUSDTTransferEvent) (provider : PaymentProvider) (t : TopUp) (quota : ℤ)
    (s : Store) : Except TopUpError Store :=
  match addSettlementMetadata e provider s with
  | .error err => .error err
  | .ok s =>
    match s.payments.find e.tradeNo with
    | none => .error .directAlreadySettled
    | some p =>
      if p.status = .pending ∨ p.status = .expired then
        creditUser t (some e) quota
          { s with payments := s.payments.modify e.tradeNo (paidBy e) fun _ => rfl }
      else .error .directAlreadySettled

def confirmPaid (e : DirectUSDTTransferEvent) (p : DirectCryptoPayment) : Except TopUpError Unit :=
  match validateEvent c now e p false with
  | .error err => .error err
  | .ok _ =>
    if p.txHash ≠ e.txHash ∨ p.eventIndex ≠ e.eventIndex then .error .directInvalid else .ok ()

def afterSettlement (e : DirectUSDTTransferEvent) (provider : PaymentProvider) :
    Except TopUpError Bool × Store → Result
  | (.ok applied, s) =>
    match s.payments.find e.tradeNo with
    | none => (.error (.other "record not found".toList), s)
    | some p =>
      if p.status = .paid ∧ p.eventId = e.eventId then (confirmPaid c now e p, s)
      else if applied = true ∨ p.status = .paid then (.error .directAlreadySettled, s)
      else (.error .statusInvalid, s)
  | (.error err, s) =>
    let current := s.payments.find e.tradeNo
    if err = .expired ∨ err = .directExpired then
      match current with
      | some p =>
        if p.status = .expired then recordLateIfValid c now e provider p s
        else (.error .directExpired, s)
      | none => (.error .directExpired, s)
    else
      match current with
      | some p =>
        if err = .directAlreadySettled ∧ p.status = .paid ∧ p.eventId = e.eventId then
          (confirmPaid c now e p, s)
        else if (err = .statusInvalid ∨ err = .directAlreadySettled) ∧
            (p.status = .cancelled ∨ p.status = .expired) then
          recordLateIfValid c now e provider p s
        else (.error err, s)
      | none => (.error err, s)

def beforeSettlement (e : DirectUSDTTransferEvent) (provider : PaymentProvider) (s : Store) :
    Option Result :=
  match s.payments.find e.tradeNo with
  | none => none
  | some p =>
    if p.status = .cancelled then some (recordLateIfValid c now e provider p s)
    else if p.status = .expired then
      match validateEvent c now e p false with
      | .ok _ => none
      | .error err =>
        if err = .directExpired then some (recordLateIfValid c now e provider p s)
        else some (.error err, s)
    else none

def settleDirectUSDTTRC20Event (input : DirectUSDTTransferEvent) (s : Store) : Result :=
  let e := input.normalized
  if (e.isEventValid c && validDirectUSDTNetwork c e.network e.contract) = false then
    (.error .directInvalid, s)
  else if s.isReconciled e.network e.eventId then (.error .directEventAlreadyUsed, s)
  else
    match s.topUps.find e.tradeNo with
    | none => (.error (.other "record not found".toList), s)
    | some t =>
      let provider := t.paymentProvider
      if provider.isDirect = false then (.error .directInvalid, s)
      else
        match beforeSettlement c now e provider s with
        | some r => r
        | none => afterSettlement c now e provider
            (completeTopUpCASWithOptions c now e.tradeNo (some provider) true
              (prepareDirect c now e) (applyDirect e provider) s)

def recordDirectUSDTReconciliationEvent (input : DirectUSDTTransferEvent)
    (reason : ReconciliationReason) (tradeNo : Text) (expectedUnits : ℕ) (s : Store) : Result :=
  let e := input.normalized
  if (e.isChainEventValid c && decide (trimSpace e.toAddress ≠ []) &&
      validDirectUSDTNetwork c e.network e.contract) = false then (.error .directInvalid, s)
  else if e.blockUnix ≤ 0 ∨ now < e.blockUnix then (.error .directInvalid, s)
  else if s.payments.rows.any fun p => decide (p.eventId = e.eventId) && decide (p.status = .paid)
  then (.ok (), s)
  else if s.isReconciled e.network e.eventId then (.ok (), s)
  else
    (.ok (),
      { s with
        reconciliations :=
          ⟨e.network, e.eventId, trimSpace tradeNo, e.txHash, e.eventIndex, e.contract, e.toAddress,
            e.amountUnits, expectedUnits, reason, e.blockUnix⟩ :: s.reconciliations })

/-- `DirectUSDTMinBaseUnits`. -/
def minBaseUnits : ℕ := 10000000

/-- `DirectUSDTNewMaxPendingSeconds`. -/
def maxPendingSeconds : ℤ := 86400

def directCryptoProvider : Text := "crypto_direct".toList

def orderValid (t : TopUp) (p : DirectCryptoPayment) : Bool :=
  decide (t.userId ≠ 0) && decide (p.userId = t.userId) && decide (minBaseUnits ≤ p.baseUnits) &&
    decide (trimSpace t.tradeNo ≠ []) && decide (trimSpace p.tradeNo = trimSpace t.tradeNo) &&
    equalFold (trimSpace t.paymentMethod) directCryptoProvider &&
    decide (t.paymentProvider = .direct .crypto) && decide (t.status = .pending) &&
    decide (0 < t.createTime) && decide (t.createTime = p.createdAt) &&
    decide (p.token = "USDT".toList) && validDirectUSDTNetwork c p.network p.contract &&
    decide (p.createdAt < p.expiresAt) && decide (p.expiresAt - p.createdAt ≤ maxPendingSeconds) &&
    decide (p.baseUnits < p.expectedUnits)

def creationRefused (p : DirectCryptoPayment) (s : Store) : Option TopUpError :=
  let recent := s.payments.rows.countP fun q =>
    decide (q.userId = p.userId) && decide (p.createdAt - 3600 ≤ q.createdAt)
  if s.users p.userId = none then some .userNotFound
  else if 0 < c.maxCreationsPerHour ∧ c.maxCreationsPerHour ≤ recent then
    some .directLimitExceeded
  else if s.payments.rows.any fun q => decide (q.userId = p.userId) &&
      decide (q.baseUnits = p.baseUnits) && (decide (q.status = .pending) ||
        (decide (q.status = .expired) && decide (p.createdAt ≤ q.expiresAt))) then
    some .directDuplicatePending
  else none

/-- `CreateDirectUSDTOrder` for a wallet and an exact amount that the allocation has chosen:
the stale orders of the user are swept, and both rows are inserted or none. -/
def createDirectUSDTOrder (t : TopUp) (p : DirectCryptoPayment) (s : Store) : Result :=
  let p := { p with network := toUpper (trimSpace p.network) }
  if orderValid c t p = false then (.error (.other "invalid direct USDT TRC20 order".toList), s)
  else
    let t :=
      { t with
        requestedAmount := (p.baseUnits : Rat) / 1000000
        paymentBaseAmount := (p.baseUnits : Rat) / 1000000
        paymentChargedAmount := (p.expectedUnits : Rat) / 1000000
        paymentPendingTTLSeconds := p.expiresAt - p.createdAt }
    match expireStalePendingTopUps c now t.userId s with
    | (.error e, s) => (.error e, s)
    | (.ok _, s) =>
      match creationRefused c p s with
      | some e => (.error e, s)
      | none =>
        if s.payments.rows.any fun q => decide (q.expectedUnits = p.expectedUnits) then
          (.error (.other "duplicated key not allowed".toList), s)
        else
          match s.topUps.insert t, s.payments.insert p with
          | some topUps, some payments =>
            (.ok (), { s with topUps := topUps, payments := payments })
          | _, _ => (.error (.other "duplicated key not allowed".toList), s)

inductive Op where
  | create (t : TopUp) (p : DirectCryptoPayment)
  | settle (e : DirectUSDTTransferEvent)
  | reconcile (e : DirectUSDTTransferEvent) (reason : ReconciliationReason) (tradeNo : Text)
      (expectedUnits : ℕ)
  | cancel (tradeNo : Text) (userId : ℤ)
  | expireStale (userId : ℤ)
  | expireOrder (tradeNo : Text)
  | getStatus (tradeNo : Text)
  | updatePending (tradeNo : Text) (expected : Option PaymentProvider) (target : TopUpStatus)
  | manualComplete (tradeNo : Text)
  | deleteUser (userId : ℤ)

def perform (s : Store) : Op → Result
  | .create t p => createDirectUSDTOrder c now t p s
  | .settle e => settleDirectUSDTTRC20Event c now e s
  | .reconcile e reason k units => recordDirectUSDTReconciliationEvent c now e reason k units s
  | .cancel k userId => cancelDirectCryptoPayment now k userId s
  | .expireStale userId => expireStalePendingTopUps c now userId s
  | .expireOrder k => expireDirectUSDTOrder now k s
  | .getStatus k => getDirectCryptoPaymentStatus now k s
  | .updatePending k expected target => updatePendingTopUpStatus c now k expected target s
  | .manualComplete k => manualCompleteTopUp c now k s
  | .deleteUser userId => (.ok (), { s with users := fun u => if u = userId then none else s.users u })

def next (s : Store) (op : ℤ × Op) : Option Store := some (perform c op.1 s op.2).2

end NewApi.Model.Direct
