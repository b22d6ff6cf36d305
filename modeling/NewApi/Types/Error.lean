import NewApi.Common.Text

/-!
# Go errors and `types.NewAPIError` (types/error.go)

What the billing code observes of an error: its sentinels, its text and its API part.
-/

namespace NewApi

inductive Sentinel where
  | subscriptionQuotaExceeded
  | billingUserQuotaInsufficient
  | billingTokenQuotaInsufficient
  | recordNotFound
  deriving DecidableEq, Repr

inductive ErrorCode where
  | invalidRequest
  | queryDataError
  | updateDataError
  | insufficientUserQuota
  | preConsumeTokenQuotaFailed
  deriving DecidableEq, Repr

structure ApiPart where
  code : ErrorCode
  statusCode : ℕ
  skipRetry : Bool
  noRecordErrorLog : Bool
  deriving DecidableEq, Repr

structure GoError where
  wraps : List Sentinel
  text : Text
  api : Option ApiPart := none
  deriving DecidableEq, Repr

namespace GoError

def new (text : Text) : GoError := ⟨[], text, none⟩

/-- `errors.Is` against a sentinel. -/
def is (e : GoError) (s : Sentinel) : Bool := decide (s ∈ e.wraps)

/-- `fmt.Errorf(label + ": %w", e)`. -/
def wrap (label : Text) (e : GoError) : GoError := ⟨e.wraps, label ++ ": ".toList ++ e.text, none⟩

/-- `errors.Join` of two possibly nil errors. -/
def join : Option GoError → Option GoError → Option GoError
  | none, none => none
  | some a, none => some ⟨a.wraps, a.text, none⟩
  | none, some b => some ⟨b.wraps, b.text, none⟩
  | some a, some b => some ⟨a.wraps ++ b.wraps, a.text ++ "\n".toList ++ b.text, none⟩

/-- `types.NewError` with the skip-retry option: status 500. -/
def toApi (e : GoError) (code : ErrorCode) : GoError :=
  { e with api := some ⟨code, 500, true, false⟩ }

/-- `types.NewErrorWithStatusCode` with status 403 and both options of the billing path. -/
def toForbidden (e : GoError) (code : ErrorCode) : GoError :=
  { e with api := some ⟨code, 403, true, true⟩ }

/-- `NewAPIError.GetErrorCode`. -/
def errorCode (e : GoError) : Option ErrorCode := e.api.map ApiPart.code

end GoError

end NewApi
