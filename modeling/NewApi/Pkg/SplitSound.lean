import NewApi.Pkg.SplitForm

/-!
# The analysis of a token split is sound for what it sees

An expression that it accepts must not hide the pair in `$env` or behind a method.
-/

namespace NewApi.BillingExpr

def TokenParams.set (t : TokenParams) (l : Lane) (q : ℚ) : TokenParams :=
  match l with
  | .p => { t with p := q }
  | .c => { t with c := q }
  | .len => { t with len := q }
  | .cr => { t with cr := q }
  | .cc => { t with cc := q }
  | .cc1h => { t with cc1h := q }
  | .cc12h => { t with cc12h := q }
  | .img => { t with img := q }
  | .imgO => { t with imgO := q }
  | .ai => { t with ai := q }
  | .ao => { t with ao := q }
  | .rt => { t with rt := q }

theorem get_set_self (t : TokenParams) (l : Lane) (q : ℚ) : (t.set l q).get l = q := by
  cases l <;> rfl

theorem get_set_of_ne (t : TokenParams) {l m : Lane} (q : ℚ) (h : m ≠ l) :
    (t.set l q).get m = t.get m := by
  cases l <;> cases m <;> first | rfl | exact absurd rfl h

def splitAt (first second : Lane) (n : ℚ) (t : TokenParams) (x : ℚ) : TokenParams :=
  (t.set first x).set second (n - x)

theorem splitAt_line {first second : Lane} (hne : first ≠ second) (n : ℚ) (t : TokenParams) :
    Line first second (splitAt first second n t) where
  gain x y := by
    simp only [splitAt, get_set_of_ne _ _ hne, get_set_self]
    ring
  loss x y := by
    simp only [splitAt, get_set_self]
    ring
  others l hfirst hsecond x y := by
    simp [splitAt, get_set_of_ne _ _ hsecond, get_set_of_ne _ _ hfirst]

def SlopeOn (f : ℚ → Option Value) (n s : ℚ) : Prop :=
  ∀ x y, 0 ≤ x → x ≤ n → 0 ≤ y → y ≤ n → ∀ v w, f x = some v → f y = some w →
    Shifted (s * (x - y)) v w

structure SplitSound (E : Engine) (node : Node) (first second : Lane) (n : ℚ) (t : TokenParams) :
    Prop where
  safe : (tokenSplitFormFor first.name second.name node).safe = true →
    ∃ s, SlopeOn (fun x => eval E (splitAt first second n t x) node) n s
  invariant : (tokenSplitFormFor first.name second.name node).invariant = true →
    SlopeOn (fun x => eval E (splitAt first second n t x) node) n 0
  known : (tokenSplitFormFor first.name second.name node).known = true →
    SlopeOn (fun x => eval E (splitAt first second n t x) node) n
      ((tokenSplitFormFor first.name second.name node).cCoeff -
        (tokenSplitFormFor first.name second.name node).rtCoeff)

theorem HasSlope.slopeOn {f : ℚ → Option Value} {s : ℚ} (h : HasSlope f s) (n : ℚ) :
    SlopeOn f n s :=
  fun x y _ _ _ _ v w hv hw => h x y v w hv hw

/-- Nothing is said about a form that is not safe. -/
def KnownSafe (form : ReasoningSplitForm) : Prop :=
  form.known = true ∨ form.invariant = true → form.safe = true

theorem knownSafe_invalid : KnownSafe reasoningInvalid := by
  rintro (h | h)
  all_goals cases h

theorem knownSafe_of_safe {form : ReasoningSplitForm} (h : form.safe = true) : KnownSafe form :=
  fun _ => h

theorem knownSafe_scale (form : ReasoningSplitForm) (factor : ℚ) :
    KnownSafe (reasoningScale form factor) := by
  unfold reasoningScale
  split
  · exact knownSafe_invalid
  · next hsafe => exact knownSafe_of_safe (Bool.not_eq_false _ ▸ hsafe)

theorem knownSafe_both (left right : ReasoningSplitForm) :
    KnownSafe (reasoningBoth left right) := by
  unfold reasoningBoth
  split
  · exact knownSafe_of_safe rfl
  · exact knownSafe_invalid

theorem knownSafe_add (left right : ReasoningSplitForm) (sign : ℚ) :
    KnownSafe (reasoningAdd left right sign) := by
  unfold reasoningAdd
  split
  · exact knownSafe_invalid
  · split
    · exact knownSafe_of_safe rfl
    · exact knownSafe_of_safe rfl

theorem knownSafe_unary (op : UnaryOp) (form : ReasoningSplitForm) :
    KnownSafe (reasoningUnary op form) := by
  unfold reasoningUnary
  split
  · exact knownSafe_scale _ _
  · split
    · exact knownSafe_of_safe rfl
    · exact knownSafe_invalid

theorem knownSafe_binary (op : BinaryOp) (left right : ReasoningSplitForm) :
    KnownSafe (reasoningBinary op left right) := by
  cases op with
  | add | sub => exact knownSafe_add _ _ _
  | mul =>
    simp only [reasoningBinary]
    split
    · exact knownSafe_scale _ _
    · exact knownSafe_scale _ _
    · exact knownSafe_both _ _
  | div =>
    simp only [reasoningBinary]
    split
    · split
      · exact knownSafe_scale _ _
      · exact knownSafe_both _ _
    · exact knownSafe_both _ _
  | _ => exact knownSafe_both _ _

theorem knownSafe_cond (cond left right : ReasoningSplitForm) :
    KnownSafe (reasoningCond cond left right) := by
  unfold reasoningCond
  split
  · exact knownSafe_invalid
  · split
    · exact knownSafe_of_safe rfl
    · exact knownSafe_of_safe rfl

theorem knownSafe_arguments (forms : List ReasoningSplitForm) :
    KnownSafe (reasoningArguments forms) := by
  unfold reasoningArguments
  split
  · exact knownSafe_of_safe rfl
  · exact knownSafe_invalid

theorem knownSafe_call (callee : Node) {forms : List ReasoningSplitForm}
    (h : ∀ form ∈ forms, KnownSafe form) : KnownSafe (reasoningCall callee forms) := by
  unfold reasoningCall
  split
  · split
    · exact h _ (List.mem_cons_of_mem _ List.mem_cons_self)
    · exact knownSafe_arguments _
  · exact knownSafe_arguments _

mutual

theorem tokenSplit_knownSafe (first second : Text) (node : Node) :
    KnownSafe (tokenSplitFormFor first second node) := by
  cases node with
  | ident name =>
    simp only [tokenSplitFormFor]
    split
    · exact knownSafe_of_safe rfl
    · split
      · exact knownSafe_of_safe rfl
      · exact knownSafe_of_safe rfl
  | int n | float q | const v => exact knownSafe_of_safe rfl
  | unary op x => exact knownSafe_unary _ _
  | binary op l r => exact knownSafe_binary _ _ _
  | cond b l r => exact knownSafe_cond _ _ _
  | call callee args => exact knownSafe_call callee (tokenSplits_knownSafe first second args)
  | builtin name args => exact knownSafe_arguments _
  | chain x => exact tokenSplit_knownSafe first second x
  | other kind parts => exact knownSafe_invalid

theorem tokenSplits_knownSafe (first second : Text) (nodes : List Node) :
    ∀ form ∈ tokenSplitForms first second nodes, KnownSafe form := by
  cases nodes with
  | nil => exact fun form hform => absurd hform List.not_mem_nil
  | cons node nodes =>
    intro form hform
    rcases List.mem_cons.mp hform with rfl | hform
    · exact tokenSplit_knownSafe first second node
    · exact tokenSplits_knownSafe first second nodes form hform

end

/-- The analysis is right about every expression that it rejects or that hides nothing from it. -/
theorem split_analysis_sound (E : Engine) (node : Node) {first second : Lane}
    (hne : first ≠ second) (n : ℚ) (t : TokenParams)
    (hseen : (tokenSplitFormFor first.name second.name node).safe = true →
      node.hides first.name second.name = false) :
    SplitSound E node first second n t := by
  have hsound : (tokenSplitFormFor first.name second.name node).safe = true →
      Sound (tokenSplitFormFor first.name second.name node)
        fun x => eval E (splitAt first second n t x) node :=
    fun hsafe => tokenSplit_sound (splitAt_line hne n t) node (hseen hsafe)
  have hrejected := tokenSplit_knownSafe first.name second.name node
  refine ⟨fun hsafe => ?_, fun hinvariant => ?_, fun hknown => ?_⟩
  · obtain ⟨s, hs⟩ := (hsound hsafe).safe hsafe
    exact ⟨s, hs.slopeOn n⟩
  · exact ((hsound (hrejected (.inr hinvariant))).invariant hinvariant).slopeOn n
  · have hsafe := hrejected (.inl hknown)
    exact ((hsound hsafe).known hsafe hknown).slopeOn n

/-- `get($env, "c")`. -/
def hiddenCompletion : Node := .builtin "get".toList [.ident envName, .const (.str Lane.c.name)]

/-- `get($env, "c") * get($env, "c")`. -/
def hiddenSquare : Node := .binary .mul hiddenCompletion hiddenCompletion

def sumOf : List Text → Node
  | [] => .int 0
  | x :: xs => .binary .add (.ident x) (sumOf xs)

theorem usedVars_sumOf (vars : List Text) : (sumOf vars).usedVars = vars := by
  induction vars with
  | nil => rfl
  | cons x xs ih => simp [sumOf, Node.usedVars, ih]

theorem safe_add {left right : ReasoningSplitForm} (hleft : left.safe = true)
    (hright : right.safe = true) (sign : ℚ) : (reasoningAdd left right sign).safe = true := by
  unfold reasoningAdd
  split
  · next hunsafe => simp [hleft, hright] at hunsafe
  · split
    · rfl
    · rfl

theorem safe_cond {cond left right : ReasoningSplitForm} (hcond : cond.safe = true)
    (hinvariant : cond.invariant = true) (hleft : left.safe = true) (hright : right.safe = true) :
    (reasoningCond cond left right).safe = true := by
  unfold reasoningCond
  split
  · next hunsafe => simp [hcond, hinvariant, hleft, hright] at hunsafe
  · split
    · rfl
    · rfl

theorem safe_sumOf (first second : Text) (vars : List Text) :
    (tokenSplitFormFor first second (sumOf vars)).safe = true := by
  induction vars with
  | nil => rfl
  | cons x xs ih =>
    have hident : (tokenSplitFormFor first second (.ident x)).safe = true := by
      simp only [tokenSplitFormFor]
      split
      · rfl
      · split
        · rfl
        · rfl
    exact safe_add hident ih 1

def withVars (reader : Node) (vars : List Text) : Node :=
  .cond (.const (.bool true)) reader (sumOf vars)

theorem mem_withVars {reader : Node} {vars : List Text} (h : ∀ x ∈ reader.usedVars, x ∈ vars)
    (x : Text) : x ∈ (withVars reader vars).usedVars ↔ x ∈ vars := by
  simp only [withVars, Node.usedVars, usedVars_sumOf, List.nil_append, List.mem_append]
  exact ⟨fun hx => hx.elim (h x) id, Or.inr⟩

theorem safe_withVars {reader : Node} {first second : Text}
    (h : (tokenSplitFormFor first second reader).safe = true) (vars : List Text) :
    (tokenSplitFormFor first second (withVars reader vars)).safe = true :=
  safe_cond rfl rfl h (safe_sumOf first second vars)

theorem eval_withVars (E : Engine) (t : TokenParams) (reader : Node) (vars : List Text) :
    eval E t (withVars reader vars) = eval E t reader := by
  simp [withVars, eval]

def noTokens : TokenParams :=
  { p := 0, c := 0, len := 0, cr := 0, cc := 0, cc1h := 0, cc12h := 0
    cacheCreationTokensUnknown := 0, cacheCreationTokensFallback := false
    img := 0, imgO := 0, ai := 0, ao := 0
    rt := 0, reasoningTokensUnknown := 0, reasoningTokensFallback := false }

/-- `tier("base", len > 10 ? c * 4 + rt * 6 : c * 2 + rt * 3)`. -/
def twoTiers : Node :=
  .call (.ident tierName) [.const (.str "base".toList),
    .cond (.binary .gt (.ident Lane.len.name) (.int 10))
      (.binary .add (.binary .mul (.ident Lane.c.name) (.int 4))
        (.binary .mul (.ident Lane.rt.name) (.int 6)))
      (.binary .add (.binary .mul (.ident Lane.c.name) (.int 2))
        (.binary .mul (.ident Lane.rt.name) (.int 3)))]

theorem split_analysis_sound_twoTiers :
    (tokenSplitFormFor Lane.c.name Lane.rt.name twoTiers).safe = true ∧
      SplitSound (coreEngine fun _ => none) twoTiers .c .rt 50 noTokens :=
  ⟨by decide +kernel, split_analysis_sound _ _ (by decide) 50 noTokens fun _ => by decide +kernel⟩

/-- `duration(string(c) + "s").Seconds()`. -/
def hiddenSeconds : Node :=
  .call (.other "member".toList [.builtin "duration".toList
    [.binary .add (.builtin "string".toList [.ident Lane.c.name]) (.const (.str "s".toList))],
    .const (.str "Seconds".toList)]) []

/-- A method of a value that has `c` in it returns `c`. -/
def secondsEngine : Engine :=
  { coreEngine fun _ => none with
    method := fun callee t _ => if Lane.c.name ∈ callee.usedVars then t.lookup Lane.c.name else none
    method_congr := fun callee s t _ h => by
      split
      · next hc => exact h _ hc
      · rfl }

/-- `get($env, "c") * get($env, "c")` counts as constant and has the values 0, 1 and 4; a duration
of `c` seconds counts as constant and has the values 0 and 1. -/
theorem split_analysis_misses_env :
    (tokenSplitFormFor Lane.c.name Lane.rt.name hiddenSquare = reasoningConstant ∧
      eval (coreEngine fun _ => none) (splitAt .c .rt 2 noTokens 0) hiddenSquare = some (.num 0) ∧
      eval (coreEngine fun _ => none) (splitAt .c .rt 2 noTokens 1) hiddenSquare = some (.num 1) ∧
      eval (coreEngine fun _ => none) (splitAt .c .rt 2 noTokens 2) hiddenSquare =
        some (.num 4)) ∧
    tokenSplitFormFor Lane.c.name Lane.rt.name hiddenSeconds = reasoningConstant ∧
      eval secondsEngine (splitAt .c .rt 2 noTokens 0) hiddenSeconds = some (.num 0) ∧
      eval secondsEngine (splitAt .c .rt 2 noTokens 1) hiddenSeconds = some (.num 1) := by
  refine ⟨⟨?_, ?_, ?_, ?_⟩, ?_, ?_, ?_⟩
  all_goals decide +kernel

end NewApi.BillingExpr
