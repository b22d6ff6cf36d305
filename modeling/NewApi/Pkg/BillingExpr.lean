import Mathlib.Data.Rat.Floor
import NewApi.Common.Text
import NewApi.Lib.Corners

/-!
# Billing expressions (pkg/billingexpr)

The syntax trees of expr-lang, their evaluation and the analysis of the token splits.
-/

namespace NewApi.BillingExpr

inductive Lane where
  | p | c | len | cr | cc | cc1h | cc12h | img | imgO | ai | ao | rt
  deriving DecidableEq, Repr

namespace Lane

def name : Lane → Text
  | p => "p".toList
  | c => "c".toList
  | len => "len".toList
  | cr => "cr".toList
  | cc => "cc".toList
  | cc1h => "cc1h".toList
  | cc12h => "cc12h".toList
  | img => "img".toList
  | imgO => "img_o".toList
  | ai => "ai".toList
  | ao => "ao".toList
  | rt => "rt".toList

def all : List Lane := [p, c, len, cr, cc, cc1h, cc12h, img, imgO, ai, ao, rt]

def ofName (s : Text) : Option Lane := all.find? fun l => decide (l.name = s)

theorem ofName_name (l : Lane) : ofName l.name = some l := by
  cases l <;> decide

theorem name_of_ofName {s : Text} {l : Lane} (h : ofName s = some l) : l.name = s := by
  have hfound := List.find?_some h
  simpa using hfound

theorem name_injective {l m : Lane} (h : l.name = m.name) : l = m := by
  have hl := ofName_name l
  rw [h, ofName_name] at hl
  exact (Option.some.inj hl).symm

end Lane

structure TokenParams where
  p : ℚ
  c : ℚ
  len : ℚ
  cr : ℚ
  cc : ℚ
  cc1h : ℚ
  cc12h : ℚ
  cacheCreationTokensUnknown : ℚ
  cacheCreationTokensFallback : Bool
  img : ℚ
  imgO : ℚ
  ai : ℚ
  ao : ℚ
  rt : ℚ
  reasoningTokensUnknown : ℚ
  reasoningTokensFallback : Bool
  deriving DecidableEq, Repr

def TokenParams.get (t : TokenParams) : Lane → ℚ
  | .p => t.p
  | .c => t.c
  | .len => t.len
  | .cr => t.cr
  | .cc => t.cc
  | .cc1h => t.cc1h
  | .cc12h => t.cc12h
  | .img => t.img
  | .imgO => t.imgO
  | .ai => t.ai
  | .ao => t.ao
  | .rt => t.rt

/-- The values of an expression. `json` is an array or an object of the request body, `env` the
whole environment, which expr-lang offers as the variable `$env`, and `go` any other value, such
as a time or a duration. -/
inductive Value where
  | num (q : ℚ)
  | bool (b : Bool)
  | str (s : Text)
  | nil
  | json (raw : Text)
  | go (type raw : Text)
  | env (t : TokenParams)
  deriving DecidableEq, Repr

def envName : Text := "$env".toList

def TokenParams.visible (t : TokenParams) : TokenParams :=
  { t with
    cacheCreationTokensUnknown := 0
    cacheCreationTokensFallback := false
    reasoningTokensUnknown := 0
    reasoningTokensFallback := false }

def TokenParams.lookup (t : TokenParams) (s : Text) : Option Value :=
  match Lane.ofName s with
  | some l => some (.num (t.get l))
  | none => if s = envName then some (.env t.visible) else none

theorem lookup_name (t : TokenParams) (l : Lane) : t.lookup l.name = some (.num (t.get l)) := by
  simp [TokenParams.lookup, Lane.ofName_name]

inductive UnaryOp where
  | neg | plus | not
  deriving DecidableEq, Repr

inductive BinaryOp where
  | add | sub | mul | div
  | lt | le | gt | ge | eq | ne
  | and | or | coalesce
  | other (name : Text)
  deriving DecidableEq, Repr

/-- `const` stands for the nil, bool, string, bytes and constant nodes, `other` for the node
kinds that the analysis does not name (members, slices, predicates, variables and so on). -/
inductive Node where
  | ident (name : Text)
  | int (n : ℤ)
  | float (q : ℚ)
  | const (v : Value)
  | unary (op : UnaryOp) (x : Node)
  | binary (op : BinaryOp) (l r : Node)
  | cond (b l r : Node)
  | call (callee : Node) (args : List Node)
  | builtin (name : Text) (args : List Node)
  | chain (x : Node)
  | other (kind : Text) (parts : List Node)

mutual

/-- `extractUsedVars`: the identifiers in a tree, function names included. -/
def Node.usedVars : Node → List Text
  | .ident name => [name]
  | .int _ => []
  | .float _ => []
  | .const _ => []
  | .unary _ x => x.usedVars
  | .binary _ l r => l.usedVars ++ r.usedVars
  | .cond b l r => b.usedVars ++ l.usedVars ++ r.usedVars
  | .call callee args => callee.usedVars ++ usedVarsAll args
  | .builtin _ args => usedVarsAll args
  | .chain x => x.usedVars
  | .other _ parts => usedVarsAll parts

def usedVarsAll : List Node → List Text
  | [] => []
  | x :: xs => x.usedVars ++ usedVarsAll xs

end

scoped instance decidableReferenced (name : Text) (vars : List Text) : Decidable (name ∈ vars) :=
  List.instDecidableMemOfLawfulBEq name vars

/-- The parts of an evaluation that expr-lang and the request bring in. A node reads the
environment through the identifiers in it. `mixed` is arithmetic with a value that is no number:
times and durations add up among themselves, never with a number. -/
structure Engine where
  compile : Text → Option Node
  compare : BinaryOp → Value → Value → Option Value
  operator : Text → Value → Value → Option Value
  mixed : BinaryOp → Value → Value → Option Value
  call : Text → List Value → Option Value
  builtin : Text → List Value → Option Value
  method : Node → TokenParams → List Value → Option Value
  other : Text → List Node → TokenParams → Option Value
  mixed_sum : ∀ op v q, op = .add ∨ op = .sub →
    mixed op (.num q) v = none ∧ mixed op v (.num q) = none
  method_congr : ∀ callee s t args, (∀ x ∈ callee.usedVars, s.lookup x = t.lookup x) →
    method callee s args = method callee t args
  other_congr : ∀ kind parts s t, (∀ x ∈ usedVarsAll parts, s.lookup x = t.lookup x) →
    other kind parts s = other kind parts t

variable (E : Engine)

def applyUnary : UnaryOp → Value → Option Value
  | .neg, .num q => some (.num (-q))
  | .plus, .num q => some (.num q)
  | .not, .bool b => some (.bool (!b))
  | _, _ => none

def addValues : Value → Value → Option Value
  | .num a, .num b => some (.num (a + b))
  | .str a, .str b => some (.str (a ++ b))
  | v, w => E.mixed .add v w

def arithmetic (op : BinaryOp) (f : ℚ → ℚ → Option ℚ) : Value → Value → Option Value
  | .num a, .num b => (f a b).map .num
  | v, w => E.mixed op v w

def compareValues (op : BinaryOp) (num : ℚ → ℚ → Bool) : Value → Value → Option Value
  | .num a, .num b => some (.bool (num a b))
  | v, w => E.compare op v w

def applyBinary (op : BinaryOp) (v w : Value) : Option Value :=
  match op with
  | .add => addValues E v w
  | .sub => arithmetic E op (fun a b => some (a - b)) v w
  | .mul => arithmetic E op (fun a b => some (a * b)) v w
  | .div => arithmetic E op (fun a b => if b = 0 then none else some (a / b)) v w
  | .lt => compareValues E op (fun a b => decide (a < b)) v w
  | .le => compareValues E op (fun a b => decide (a ≤ b)) v w
  | .gt => compareValues E op (fun a b => decide (b < a)) v w
  | .ge => compareValues E op (fun a b => decide (b ≤ a)) v w
  | .eq => some (.bool (decide (v = w)))
  | .ne => some (.bool (decide (v ≠ w)))
  | .other name => E.operator name v w
  | op => E.compare op v w

def strictBinary (op : BinaryOp) (l r : Option Value) : Option Value :=
  l.bind fun v => r.bind fun w => applyBinary E op v w

/-- A binary operator on the results of its operands; `and`, `or` and `coalesce` may leave the
right one out. -/
def evalBinary (op : BinaryOp) (l r : Option Value) : Option Value :=
  match op with
  | .and =>
    match l with
    | some (.bool true) => r
    | some (.bool false) => some (.bool false)
    | _ => none
  | .or =>
    match l with
    | some (.bool true) => some (.bool true)
    | some (.bool false) => r
    | _ => none
  | .coalesce =>
    match l with
    | some .nil => r
    | l => l
  | op => strictBinary E op l r

def tierName : Text := "tier".toList

/-- A function of the environment; `tier` returns the cost that it records. -/
def applyCall (f : Text) (args : List Value) : Option Value :=
  if f = tierName then
    match args with
    | [.str _, .num q] => some (.num q)
    | _ => none
  else E.call f args

/-- A callee that is no identifier is a method of the value that it names. -/
def evalCallee (t : TokenParams) (callee : Node) (args : List Value) : Option Value :=
  match callee with
  | .ident f => applyCall E f args
  | callee => E.method callee t args

mutual

/-- `expr.Run`; `none` is an error. -/
def eval (t : TokenParams) : Node → Option Value
  | .ident name => t.lookup name
  | .int n => some (.num n)
  | .float q => some (.num q)
  | .const v => some v
  | .unary op x => (eval t x).bind (applyUnary op)
  | .binary op l r => evalBinary E op (eval t l) (eval t r)
  | .cond b l r =>
    match eval t b with
    | some (.bool true) => eval t l
    | some (.bool false) => eval t r
    | _ => none
  | .call callee args => (evalAll t args).bind (evalCallee E t callee)
  | .builtin name args => (evalAll t args).bind (E.builtin name)
  | .chain x => eval t x
  | .other kind parts => E.other kind parts t

def evalAll (t : TokenParams) : List Node → Option (List Value)
  | [] => some []
  | x :: xs =>
    match eval t x, evalAll t xs with
    | some v, some vs => some (v :: vs)
    | _, _ => none

end

/-- `RunExprByHashWithRequest`; the hash is the one of the expression. -/
def runExpr (exprString : Text) (t : TokenParams) : Option ℚ :=
  match E.compile exprString with
  | none => none
  | some node =>
    match eval E t node with
    | some (.num cost) => some cost
    | _ => none

def usedVars (exprString : Text) : List Text :=
  match E.compile exprString with
  | none => []
  | some node => node.usedVars

def getBuiltin (name : Text) (args : List Value) : Option Value :=
  if name = "get".toList then
    match args with
    | [.env t, .str key] => t.lookup key
    | _ => none
  else none

def coreEngine (compile : Text → Option Node) : Engine where
  compile := compile
  compare _ _ _ := none
  operator _ _ _ := none
  mixed _ _ _ := none
  call _ _ := none
  builtin := getBuiltin
  method _ _ _ := none
  other _ _ _ := none
  mixed_sum _ _ _ _ := ⟨rfl, rfl⟩
  method_congr _ _ _ _ _ := rfl
  other_congr _ _ _ _ _ := rfl

structure ReasoningSplitForm where
  safe : Bool
  invariant : Bool
  known : Bool
  cCoeff : ℚ
  rtCoeff : ℚ
  literal : Option ℚ
  deriving DecidableEq, Repr

def reasoningConstant : ReasoningSplitForm := ⟨true, true, true, 0, 0, none⟩

def reasoningLiteral (value : ℚ) : ReasoningSplitForm :=
  { reasoningConstant with literal := some value }

def reasoningInvalid : ReasoningSplitForm := ⟨false, false, false, 0, 0, none⟩

def reasoningAdd (left right : ReasoningSplitForm) (sign : ℚ) : ReasoningSplitForm :=
  if left.safe = false ∨ right.safe = false then reasoningInvalid
  else if left.known && right.known then
    let cCoeff := left.cCoeff + sign * right.cCoeff
    let rtCoeff := left.rtCoeff + sign * right.rtCoeff
    ⟨true, decide (cCoeff = rtCoeff), true, cCoeff, rtCoeff, none⟩
  else ⟨true, left.invariant && right.invariant, false, 0, 0, none⟩

def reasoningScale (form : ReasoningSplitForm) (factor : ℚ) : ReasoningSplitForm :=
  if form.safe = false then reasoningInvalid
  else
    { form with
      cCoeff := form.cCoeff * factor
      rtCoeff := form.rtCoeff * factor
      literal := form.literal.map (· * factor) }

def reasoningBoth (left right : ReasoningSplitForm) : ReasoningSplitForm :=
  if left.safe && right.safe && left.invariant && right.invariant then reasoningConstant
  else reasoningInvalid

def reasoningUnary (op : UnaryOp) (form : ReasoningSplitForm) : ReasoningSplitForm :=
  if op = .neg then reasoningScale form (-1)
  else if form.invariant then reasoningConstant
  else reasoningInvalid

def reasoningBinary (op : BinaryOp) (left right : ReasoningSplitForm) : ReasoningSplitForm :=
  match op with
  | .add => reasoningAdd left right 1
  | .sub => reasoningAdd left right (-1)
  | .mul =>
    match left.literal, right.literal with
    | some q, _ => reasoningScale right q
    | none, some q => reasoningScale left q
    | none, none => reasoningBoth left right
  | .div =>
    match right.literal with
    | some q => if q ≠ 0 then reasoningScale left (1 / q) else reasoningBoth left right
    | none => reasoningBoth left right
  | _ => reasoningBoth left right

def reasoningCond (cond left right : ReasoningSplitForm) : ReasoningSplitForm :=
  if cond.safe = false ∨ cond.invariant = false ∨ left.safe = false ∨ right.safe = false then
    reasoningInvalid
  else if left.known ∧ right.known ∧ left.cCoeff = right.cCoeff ∧ left.rtCoeff = right.rtCoeff then
    ⟨true, decide (left.cCoeff = left.rtCoeff), true, left.cCoeff, left.rtCoeff, none⟩
  else ⟨true, left.invariant && right.invariant, false, 0, 0, none⟩

def reasoningArguments (forms : List ReasoningSplitForm) : ReasoningSplitForm :=
  if forms.all fun form => form.safe && form.invariant then reasoningConstant
  else reasoningInvalid

def reasoningCall (callee : Node) (forms : List ReasoningSplitForm) : ReasoningSplitForm :=
  match callee, forms with
  | .ident f, [_, value] => if f = tierName then value else reasoningArguments forms
  | _, _ => reasoningArguments forms

mutual

def tokenSplitFormFor (first second : Text) : Node → ReasoningSplitForm
  | .ident name =>
    if name = first then ⟨true, false, true, 1, 0, none⟩
    else if name = second then ⟨true, false, true, 0, 1, none⟩
    else reasoningConstant
  | .int n => reasoningLiteral n
  | .float q => reasoningLiteral q
  | .const _ => reasoningConstant
  | .unary op x => reasoningUnary op (tokenSplitFormFor first second x)
  | .binary op l r =>
    reasoningBinary op (tokenSplitFormFor first second l) (tokenSplitFormFor first second r)
  | .cond b l r =>
    reasoningCond (tokenSplitFormFor first second b) (tokenSplitFormFor first second l)
      (tokenSplitFormFor first second r)
  | .call callee args => reasoningCall callee (tokenSplitForms first second args)
  | .builtin _ args => reasoningArguments (tokenSplitForms first second args)
  | .chain x => tokenSplitFormFor first second x
  | .other _ _ => reasoningInvalid

def tokenSplitForms (first second : Text) : List Node → List ReasoningSplitForm
  | [] => []
  | x :: xs => tokenSplitFormFor first second x :: tokenSplitForms first second xs

end

def reasoningSplitIsSafe (exprString : Text) : Bool :=
  if Lane.rt.name ∉ usedVars E exprString then true
  else
    match E.compile exprString with
    | none => false
    | some node => (tokenSplitFormFor Lane.c.name Lane.rt.name node).safe

/-- The lane that holds writes of unknown lifetime: the input lane if no generic write lane is
priced. -/
def firstWriteLane (vars : List Text) : Lane := if Lane.cc.name ∈ vars then .cc else .p

def cacheCreationSplitIsSafe (exprString : Text) : Bool :=
  let vars := usedVars E exprString
  if Lane.cc12h.name ∉ vars then true
  else
    match E.compile exprString with
    | none => false
    | some node => (tokenSplitFormFor (firstWriteLane vars).name Lane.cc12h.name node).safe

structure BillingSnapshot where
  billingMode : Text
  exprString : Text
  groupRatio : ℚ
  estimatedQuotaAfterGroup : ℤ
  quotaPerUnit : ℚ

structure TieredResult where
  actualQuotaBeforeGroup : ℚ
  actualQuotaAfterGroup : ℤ
  deriving DecidableEq, Repr

/-- `quotaConversion`, the same in every version. -/
def quotaConversion (exprOutput : ℚ) (snap : BillingSnapshot) : ℚ :=
  exprOutput / 1000000 * snap.quotaPerUnit

def quotaRound (q : ℚ) : ℤ := roundHalfAway q

def computeTieredQuotaWithRequest (snap : BillingSnapshot) (t : TokenParams) :
    Option TieredResult :=
  match runExpr E snap.exprString t with
  | none => none
  | some cost =>
    let quotaBeforeGroup := quotaConversion cost snap
    some ⟨quotaBeforeGroup, quotaRound (quotaBeforeGroup * snap.groupRatio)⟩

end NewApi.BillingExpr
