import Mathlib.Data.List.Dedup
import NewApi.Lib.Grid
import NewApi.Model.DirectCryptoStore

/-!
# Exact amounts of direct orders (model/direct_crypto_payment.go)

A suffix tells the orders of one base amount apart: a random one or, when that is taken, the first
free one on the grid, wallet after wallet.
-/

namespace NewApi.Model.Direct.Allocation

/-- `setting.USDTReceivingWallet`. -/
structure Wallet where
  key : Text
  address : Text
  owner : Text
  destination : Text
  deriving DecidableEq, Repr

structure Reservation where
  receivingOwner : Text
  walletKey : Text
  suffixUnits : ℕ
  roundToCents : Bool
  roundPolicyCaptured : Bool
  deriving DecidableEq, Repr

structure Invoice extends DirectCryptoPayment, Reservation where
  deriving DecidableEq, Repr

structure Books where
  store : Store
  reservation : Text → Reservation

structure AllocationConfig extends DirectConfig where
  /-- `IsDirectUSDTNetworkMethodConfigured` and `DirectUSDTNetworkIsReady`. -/
  networkReady : Text → Bool
  usdtReceivingWallets : Text
  directUSDTWalletCandidates : Text → Except TopUpError (List Wallet)
  usdtTRC20RoundToCents : Bool
  amountTailLimitUnits : ℤ
  amountPrecision : ℤ
  /-- The minimum amount and the TTL of `CaptureDirectCryptoPolicy`. -/
  policy : Except TopUpError (Rat × ℤ)

inductive AllocationError where
  | exhausted
  | failed (e : TopUpError)
  deriving DecidableEq, Repr

def uint64Size : ℕ := 18446744073709551616

def normalizeDirectUSDTBaseUnits (units : ℕ) (roundToCents : Bool) : ℕ :=
  if roundToCents = false then units
  else if uint64Size - 1 - 5000 < units then units / 10000 * 10000
  else (units + 5000) / 10000 * 10000

def centsGrid : Grid := ⟨10000, 990000, 10000, by decide, by decide⟩

def tailGrid (limit : ℕ) (h : 2 ≤ limit) : Grid := ⟨1, limit - 1, 1, by decide, by omega⟩

def usdtTRC20AmountTailLimitForPrecision (precision : ℤ) : Option ℕ :=
  if precision = 3 then some 10
  else if precision = 4 then some 100
  else if precision = 5 then some 1000
  else if precision = 6 then some 10000
  else none

/-- `USDTTRC20AmountSuffixRangeForLimit`. -/
def amountSuffixRangeForLimit (limit : ℤ) : Except TopUpError Grid :=
  if h : 2 ≤ limit ∧ limit ≤ 10000 then .ok (tailGrid limit.toNat (by omega))
  else
    .error (.other
      "USDT TRC20 amount tail limit must be between 2 and 10000 micro-USDT".toList)

def directUSDTAmountSuffixRange (c : AllocationConfig) (roundToCents : Bool) :
    Except TopUpError Grid :=
  if roundToCents then .ok centsGrid
  else if c.amountTailLimitUnits = 10000 ∧ c.amountPrecision ≠ 6 then
    match usdtTRC20AmountTailLimitForPrecision c.amountPrecision with
    | some limit => amountSuffixRangeForLimit limit
    | none => amountSuffixRangeForLimit c.amountTailLimitUnits
  else amountSuffixRangeForLimit c.amountTailLimitUnits

abbrev Reads := ℕ → Except Text (UInt8 × UInt8)

/-- The rejection sampling of `randomDirectUSDTTRC20SuffixForPolicy`. -/
def sampleSuffix (g : Grid) (reads : Reads) : ℕ → ℕ → Except TopUpError ℕ
  | 0, _ => .error (.other "failed to sample a direct USDT amount suffix".toList)
  | n + 1, k =>
    match reads k with
    | .error e => .error (.other e)
    | .ok (high, low) =>
      let sample := high.toNat * 256 + low.toNat
      if 65536 - 65536 % g.size ≤ sample then sampleSuffix g reads n (k + 1)
      else .ok (g.min + sample % g.size * g.step)

def randomDirectUSDTTRC20SuffixForPolicy (g : Grid) (reads : Reads) : Except TopUpError ℕ :=
  sampleSuffix g reads 128 0

def disabled : TopUpError := .other "direct USDT TRC20 payments are disabled".toList
def invalidOrder : TopUpError := .other "invalid direct USDT TRC20 order".toList
def invalidExpiry : TopUpError := .other "direct USDT TRC20 order has invalid expiry".toList
def amountOverflow : TopUpError := .other "direct USDT TRC20 amount overflow".toList

/-- `DirectUSDTLegacyMaxPendingSeconds`. -/
def legacyMaxPendingSeconds : ℤ := 172800

def malformed (t : TopUp) (p : Invoice) : Bool :=
  decide (trimSpace t.tradeNo = []) || decide (trimSpace p.tradeNo ≠ trimSpace t.tradeNo) ||
    !equalFold (trimSpace t.paymentMethod) directCryptoProvider ||
    decide (t.paymentProvider ≠ .direct .crypto) || decide (t.status ≠ .pending) ||
    decide (t.createTime ≤ 0) || decide (t.createTime ≠ p.createdAt)

def badExpiry (p : Invoice) (longest : ℤ) : Prop :=
  p.expiresAt ≤ p.createdAt ∨ p.createdAt ≤ 0 ∨ longest < p.expiresAt - p.createdAt

instance (p : Invoice) (longest : ℤ) : Decidable (badExpiry p longest) :=
  inferInstanceAs (Decidable (_ ∨ _ ∨ _))

def applyPolicy (c : AllocationConfig) (t : TopUp) (p : Invoice) :
    Except TopUpError (TopUp × Invoice) :=
  let roundToCents := if p.roundPolicyCaptured then p.roundToCents else c.usdtTRC20RoundToCents
  let p :=
    { p with
      roundToCents := roundToCents
      baseUnits := normalizeDirectUSDTBaseUnits p.baseUnits roundToCents }
  if p.baseUnits < minBaseUnits then .error invalidOrder
  else if badExpiry p legacyMaxPendingSeconds then .error invalidExpiry
  else
    match c.policy with
    | .error e => .error e
    | .ok (minimum, ttl) =>
      let t :=
        { t with
          requestedAmount := (p.baseUnits : Rat) / 1000000
          paymentBaseAmount := (p.baseUnits : Rat) / 1000000
          paymentPendingTTLSeconds := ttl }
      let p := { p with roundPolicyCaptured := true, expiresAt := p.createdAt + ttl }
      if badExpiry p maxPendingSeconds then .error invalidExpiry
      else if (p.baseUnits : Rat) / 1000000 < minimum then
        .error (.other "direct USDT amount is below the configured method minimum".toList)
      else .ok (t, p)

def prepare (c : AllocationConfig) (t : TopUp) (p : Invoice) :
    Except TopUpError ((TopUp × Invoice) × List Wallet) :=
  let p := { p with network := toUpper (trimSpace p.network) }
  if c.networkReady p.network = false then .error disabled
  else if t.userId = 0 ∨ p.userId ≠ t.userId ∨ p.baseUnits < minBaseUnits then .error invalidOrder
  else if malformed t p then .error invalidOrder
  else if p.token ≠ "USDT".toList ∨
      validDirectUSDTNetwork c.toDirectConfig p.network p.contract = false then
    .error (.other "direct USDT order has invalid immutable asset".toList)
  else
    match c.directUSDTWalletCandidates p.network with
    | .error e => .error e
    | .ok [] => .error disabled
    | .ok (wallet :: wallets) =>
      if trimSpace c.usdtReceivingWallets = [] ∧
          sameDirectUSDTAddress c.toDirectConfig p.network p.address wallet.address = false then
        .error (.other
          ("direct USDT TRC20 order address does not match configured ".toList ++
            "receiving address".toList))
      else (applyPolicy c t p).map fun order => (order, wallet :: wallets)

/-- The payment belongs to the wallet: rows from before the wallet keys are known by their
address. -/
def onWallet (b : Books) (p : Invoice) (q : DirectCryptoPayment) : Bool :=
  decide ((b.reservation q.tradeNo).walletKey = p.walletKey) ||
    (decide (q.network = p.network) && decide (q.address = p.address))

def active (p : Invoice) (q : DirectCryptoPayment) : Bool :=
  decide (q.status = .pending) ||
    (decide (q.status = .expired) && decide (p.createdAt ≤ q.expiresAt))

def walletOccupied (b : Books) (p : Invoice) : Bool :=
  b.store.payments.rows.any fun q =>
    onWallet b p q && decide (q.baseUnits = p.baseUnits) && active p q

/-- The `usedSet` of the wallet. -/
def usedSuffixes (b : Books) (g : Grid) (p : Invoice) : List ℕ :=
  (((b.store.payments.rows.filter fun q => onWallet b p q && decide (q.baseUnits = p.baseUnits)).map
    fun q => (b.reservation q.tradeNo).suffixUnits).filter fun x => decide (g.Mem x)).dedup

/-- The `usedAmountSet` of the range. -/
def usedExpectedUnits (b : Books) (g : Grid) (p : Invoice) : List ℕ :=
  (b.store.payments.rows.map DirectCryptoPayment.expectedUnits).filter fun units =>
    decide ((p.baseUnits + g.min) % uint64Size ≤ units) &&
      decide (units ≤ (p.baseUnits + g.max) % uint64Size)

def suffixFree (b : Books) (g : Grid) (p : Invoice) (suffix : ℕ) : Bool :=
  !((usedSuffixes b g p).any fun x => decide (x = suffix)) &&
    !((usedExpectedUnits b g p).any fun x => decide (x = (p.baseUnits + suffix) % uint64Size))

def chooseSuffix (b : Books) (g : Grid) (p : Invoice) (suffix : ℕ) : Option ℕ :=
  if g.size ≤ (usedSuffixes b g p).length then none
  else if suffixFree b g p suffix then some suffix
  else g.first (suffixFree b g p)

def onto (p : Invoice) (w : Wallet) : Invoice :=
  { p with
    walletKey := w.key
    address := w.address
    receivingOwner := if w.owner = [] then w.address else w.owner
    destination := w.destination }

def withSuffix (t : TopUp) (p : Invoice) (suffix : ℕ) : TopUp × Invoice :=
  let expectedUnits := (p.baseUnits + suffix) % uint64Size
  ({ t with paymentChargedAmount := (expectedUnits : Rat) / 1000000 },
    { p with suffixUnits := suffix, expectedUnits := expectedUnits })

def insertOrder (b : Books) (t : TopUp) (p : Invoice) : Option Books :=
  if b.store.payments.rows.any fun q => decide (q.expectedUnits = p.expectedUnits) then none
  else
    match b.store.topUps.insert t, b.store.payments.insert p.toDirectCryptoPayment with
    | some topUps, some payments =>
      some
        { store := { b.store with topUps := topUps, payments := payments }
          reservation := fun k => if k = p.tradeNo then p.toReservation else b.reservation k }
    | _, _ => none

/-- How an attempt ends. `retry` stands for the errors after which the loop goes on: an occupied
wallet and a violated unique key. -/
inductive Outcome where
  | retry
  | refused (e : TopUpError)
  | created (t : TopUp) (p : Invoice) (b : Books)

def allocateTx (c : AllocationConfig) (b : Books) (g : Grid) (t : TopUp) (p : Invoice)
    (suffix : ℕ) : Outcome :=
  match creationRefused c.toDirectConfig p.toDirectCryptoPayment b.store with
  | some e => .refused e
  | none =>
    if trimSpace c.usdtReceivingWallets ≠ [] ∧ walletOccupied b p = true then .retry
    else if (p.baseUnits + g.max) % uint64Size < p.baseUnits then .refused amountOverflow
    else
      match chooseSuffix b g p suffix with
      | none => .retry
      | some suffix =>
        let order := withSuffix t p suffix
        match insertOrder b order.1 order.2 with
        | none => .retry
        | some b => .created order.1 order.2 b

def attempt (c : AllocationConfig) (b : Books) (g : Grid) (t : TopUp) (p : Invoice)
    (reads : Reads) : Outcome :=
  match randomDirectUSDTTRC20SuffixForPolicy g reads with
  | .error e => .refused e
  | .ok suffix =>
    if (p.baseUnits + suffix) % uint64Size ≤ p.baseUnits then .refused amountOverflow
    else allocateTx c b g t p suffix

def tryWallet (c : AllocationConfig) (b : Books) (g : Grid) (t : TopUp) (p : Invoice)
    (reads : ℕ → Reads) : ℕ → ℕ → Outcome
  | 0, _ => .retry
  | n + 1, draw =>
    match attempt c b g t p (reads draw) with
    | .retry => tryWallet c b g t p reads n (draw + 1)
    | outcome => outcome

def maxAttempts : ℕ := 32

def tryWallets (c : AllocationConfig) (b : Books) (g : Grid) (t : TopUp) (p : Invoice)
    (reads : ℕ → Reads) : List Wallet → ℕ → Outcome
  | [], _ => .retry
  | w :: ws, draw =>
    match tryWallet c b g t (onto p w) reads maxAttempts draw with
    | .retry => tryWallets c b g t p reads ws (draw + maxAttempts)
    | outcome => outcome

structure Opened where
  topUp : TopUp
  invoice : Invoice
  wallets : List Wallet
  grid : Grid
  books : Books

/-- `CreateDirectUSDTOrder` up to its loop. The stale orders of the user are swept. -/
def openOrder (c : AllocationConfig) (now : ℤ) (b : Books) (t : TopUp) (p : Invoice) :
    Except TopUpError Opened × Books :=
  match prepare c t p with
  | .error e => (.error e, b)
  | .ok ((t, p), wallets) =>
    let swept := expireStalePendingTopUps c.toDirectConfig now t.userId b.store
    let b := { b with store := swept.2 }
    match swept.1, directUSDTAmountSuffixRange c p.roundToCents with
    | .error e, _ => (.error e, b)
    | .ok _, .error e => (.error e, b)
    | .ok _, .ok grid => (.ok ⟨t, p, wallets, grid, b⟩, b)

def createDirectUSDTOrder (c : AllocationConfig) (now : ℤ) (reads : ℕ → Reads) (b : Books)
    (t : TopUp) (p : Invoice) : Except AllocationError (TopUp × Invoice) × Books :=
  match openOrder c now b t p with
  | (.error e, b) => (.error (.failed e), b)
  | (.ok o, b) =>
    match tryWallets c o.books o.grid o.topUp o.invoice reads o.wallets 0 with
    | .retry => (.error .exhausted, b)
    | .refused e => (.error (.failed e), b)
    | .created t p b => (.ok (t, p), b)

end NewApi.Model.Direct.Allocation
