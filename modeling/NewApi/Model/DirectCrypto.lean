import Mathlib.Data.Nat.Notation
import NewApi.Lib.Table
import NewApi.Model.TopUp

/-!
# Direct USDT invoices and chain events (model/direct_crypto_payment.go)

The invoice, the transfer events and the checks of an event against an invoice.
-/

namespace NewApi.Model

def tron : Text := "TRON".toList

structure DirectCryptoPayment where
  tradeNo : Text
  userId : ℤ
  network : Text
  token : Text
  contract : Text
  address : Text
  destination : Text
  expectedUnits : ℕ
  baseUnits : ℕ
  status : DirectCryptoStatus
  txHash : Text
  eventIndex : Text
  eventId : Text
  observedUnits : ℕ
  confirmations : ℕ
  expiresAt : ℤ
  createdAt : ℤ
  deriving DecidableEq, Repr

structure DirectUSDTTransferEvent where
  tradeNo : Text
  txHash : Text
  eventIndex : Text
  eventId : Text
  contract : Text
  toAddress : Text
  amountUnits : ℕ
  confirmations : ℕ
  confirmed : Bool
  blockTimestamp : ℤ
  network : Text
  deriving DecidableEq, Repr

/-- The settings that the checks read. `canonicalTON` is `CanonicalTONAddress`. -/
structure DirectConfig where
  usdtTRC20Contract : Text
  usdtTONJettonMaster : Text
  usdtSolanaMint : Text
  minConfirmations : ℤ
  maxCreationsPerHour : ℤ
  canonicalTON : Text → Option Text
  sources : QuotaSources
  policyTTL : ℤ

def directUSDTEventID (txHash eventIndex : Text) : Text :=
  trimSpace txHash ++ ":".toList ++ trimSpace eventIndex

def directUSDTNetworkEventID (network txHash eventIndex : Text) : Text :=
  toUpper (trimSpace network) ++ ":".toList ++ directUSDTEventID txHash eventIndex

def validDirectUSDTNetwork (c : DirectConfig) (network contract : Text) : Bool :=
  let network := toUpper (trimSpace network)
  if network = tron then decide (contract = c.usdtTRC20Contract)
  else if network = "TON".toList then equalFold contract c.usdtTONJettonMaster
  else if network = "SOLANA".toList then decide (contract = c.usdtSolanaMint)
  else false

namespace DirectUSDTTransferEvent

/-- `normalized`, with the default network of its callers. -/
def normalized (e : DirectUSDTTransferEvent) : DirectUSDTTransferEvent :=
  let network := if trimSpace e.network = [] then tron else toUpper (trimSpace e.network)
  let txHash := trimSpace e.txHash
  let eventIndex := trimSpace e.eventIndex
  { e with
    tradeNo := trimSpace e.tradeNo
    network := network
    txHash := txHash
    eventIndex := eventIndex
    eventId :=
      if trimSpace e.eventId = [] then directUSDTNetworkEventID network txHash eventIndex
      else trimSpace e.eventId
    contract := trimSpace e.contract
    toAddress := trimSpace e.toAddress }

/-- `isDirectPaymentChainEventValid`. -/
def isChainEventValid (c : DirectConfig) (e : DirectUSDTTransferEvent) : Bool :=
  let minConfirmations := if equalFold e.network tron then c.minConfirmations else 0
  decide (trimSpace e.txHash ≠ []) && decide (trimSpace e.eventIndex ≠ []) &&
    decide (trimSpace e.eventId ≠ []) &&
    (decide (e.eventId = directUSDTNetworkEventID e.network e.txHash e.eventIndex) ||
      (equalFold e.network tron && decide (e.eventId = directUSDTEventID e.txHash e.eventIndex))) &&
    decide (0 < e.amountUnits) && e.confirmed &&
    (decide (minConfirmations ≤ 0) || decide (minConfirmations ≤ e.confirmations))

/-- `isDirectPaymentEventValid`. -/
def isEventValid (c : DirectConfig) (e : DirectUSDTTransferEvent) : Bool :=
  decide (trimSpace e.tradeNo ≠ []) && e.isChainEventValid c

def blockUnix (e : DirectUSDTTransferEvent) : ℤ :=
  if equalFold e.network tron then e.blockTimestamp.tdiv 1000 else e.blockTimestamp

end DirectUSDTTransferEvent

def sameDirectUSDTAddress (c : DirectConfig) (network left right : Text) : Bool :=
  if equalFold network "TON".toList then
    match c.canonicalTON (trimSpace left), c.canonicalTON (trimSpace right) with
    | some l, some r => decide (l = r)
    | _, _ => false
  else decide (trimSpace left = trimSpace right)

/-- `directUSDTEventDestination`. -/
def DirectCryptoPayment.eventDestination (p : DirectCryptoPayment) : Text :=
  if p.destination ≠ [] then p.destination else p.address

/-- `validateDirectUSDTEventForPaymentWithExpiry`. -/
def validateEvent (c : DirectConfig) (now : ℤ) (e : DirectUSDTTransferEvent)
    (p : DirectCryptoPayment) (allowAfterExpiry : Bool) : Except TopUpError Unit :=
  if e.blockTimestamp ≤ 0 ∨ p.createdAt ≤ 0 ∨ p.expiresAt ≤ p.createdAt ∨
      p.token ≠ "USDT".toList ∨ p.address = [] ∨
      validDirectUSDTNetwork c p.network p.contract = false ∨
      equalFold p.network e.network = false ∨ equalFold p.contract e.contract = false then
    .error .directInvalid
  else if e.blockUnix < p.createdAt then .error .directInvalid
  else if now < e.blockUnix then .error .directInvalid
  else if allowAfterExpiry = false ∧ p.expiresAt ≤ e.blockUnix then .error .directExpired
  else if sameDirectUSDTAddress c p.network e.toAddress p.eventDestination = false then
    .error .directInvalid
  else if e.amountUnits ≠ p.expectedUnits then .error .directAmountMismatch
  else .ok ()

end NewApi.Model
