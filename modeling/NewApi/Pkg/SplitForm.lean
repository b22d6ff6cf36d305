import NewApi.Pkg.BillingExpr

/-!
# What the analysis of a token split says

Along a line that moves tokens from one lane into another, a safe form is affine and an invariant one
constant.
-/

namespace NewApi.BillingExpr

variable {E : Engine} {first second : Lane} {line : ℚ → TokenParams}

/-! ### Expressions read the variables in them -/

variable {forms : List ReasoningSplitForm} {s t : TokenParams} {f : ℚ → Option Value}
  {ns : List Node}

theorem evalCallee_congr (callee : Node) (args : List Value)
    (h : ∀ x ∈ callee.usedVars, s.lookup x = t.lookup x) :
    evalCallee E s callee args = evalCallee E t callee args := by
  have hmethod := E.method_congr callee s t args h
  cases callee with
  | ident f => rfl
  | _ => exact hmethod

mutual

theorem eval_congr {s t : TokenParams} (n : Node)
    (h : ∀ x ∈ n.usedVars, s.lookup x = t.lookup x) : eval E s n = eval E t n := by
  cases n with
  | ident name => exact h name (by simp [Node.usedVars])
  | int n | float q | const v => rfl
  | unary op x =>
    simp only [eval]
    rw [eval_congr x (fun y hy => h y (by simpa [Node.usedVars] using hy))]
  | binary op l r =>
    simp only [eval]
    rw [eval_congr l (fun y hy => h y (by simp [Node.usedVars, hy])),
      eval_congr r (fun y hy => h y (by simp [Node.usedVars, hy]))]
  | cond b l r =>
    simp only [eval]
    rw [eval_congr b (fun y hy => h y (by simp [Node.usedVars, hy])),
      eval_congr l (fun y hy => h y (by simp [Node.usedVars, hy])),
      eval_congr r (fun y hy => h y (by simp [Node.usedVars, hy]))]
  | call callee args =>
    have hargs := evalAll_congr args fun y hy => h y (List.mem_append_right _ hy)
    have hcallee : evalCallee E s callee = evalCallee E t callee := by
      funext vs
      exact evalCallee_congr callee vs fun y hy => h y (List.mem_append_left _ hy)
    simp only [eval]
    rw [hargs, hcallee]
  | builtin name args =>
    simp only [eval]
    rw [evalAll_congr args (fun y hy => h y (by simpa [Node.usedVars] using hy))]
  | chain x =>
    simp only [eval]
    exact eval_congr x (fun y hy => h y (by simpa [Node.usedVars] using hy))
  | other kind parts =>
    simp only [eval]
    exact E.other_congr kind parts s t (fun y hy => h y (by simpa [Node.usedVars] using hy))

theorem evalAll_congr {s t : TokenParams} (ns : List Node)
    (h : ∀ x ∈ usedVarsAll ns, s.lookup x = t.lookup x) : evalAll E s ns = evalAll E t ns := by
  cases ns with
  | nil => rfl
  | cons n ns =>
    simp only [evalAll]
    rw [eval_congr n (fun y hy => h y (by simp [usedVarsAll, hy])),
      evalAll_congr ns (fun y hy => h y (by simp [usedVarsAll, hy]))]

end

theorem lookup_of_get {vars : List Text} (henv : envName ∉ vars)
    (h : ∀ l : Lane, l.name ∈ vars → s.get l = t.get l) : ∀ x ∈ vars, s.lookup x = t.lookup x := by
  intro x hx
  unfold TokenParams.lookup
  rcases hl : Lane.ofName x with _ | l
  · have hne : x ≠ envName := fun heq => henv (heq ▸ hx)
    rw [if_neg hne, if_neg hne]
  · have hname := Lane.name_of_ofName hl
    simp [h l (hname ▸ hx)]

theorem runExpr_congr {exprString : Text}
    (h : ∀ x ∈ usedVars E exprString, s.lookup x = t.lookup x) :
    runExpr E exprString s = runExpr E exprString t := by
  unfold runExpr
  unfold usedVars at h
  rcases hnode : E.compile exprString with _ | node
  · rfl
  · rw [hnode] at h
    simp [eval_congr node h]

theorem visible_eq (h : ∀ l : Lane, s.get l = t.get l) : s.visible = t.visible := by
  have hp := h .p
  have hc := h .c
  have hlen := h .len
  have hcr := h .cr
  have hcc := h .cc
  have hcc1h := h .cc1h
  have hcc12h := h .cc12h
  have himg := h .img
  have himgO := h .imgO
  have hai := h .ai
  have hao := h .ao
  have hrt := h .rt
  simp only [TokenParams.get] at *
  simp [TokenParams.visible, *]

theorem runExpr_of_lanes (h : ∀ l : Lane, s.get l = t.get l) (exprString : Text) :
    runExpr E exprString s = runExpr E exprString t := by
  apply runExpr_congr
  intro x _
  simp [TokenParams.lookup, h, visible_eq h]

/-! ### Lines -/

structure Line (first second : Lane) (line : ℚ → TokenParams) : Prop where
  gain : ∀ x y, (line x).get first = (line y).get first + (x - y)
  loss : ∀ x y, (line x).get second = (line y).get second - (x - y)
  others : ∀ l, l ≠ first → l ≠ second → ∀ x y, (line x).get l = (line y).get l

def Shifted (k : ℚ) : Value → Value → Prop
  | .num a, .num b => a = b + k
  | v, w => v = w ∧ k = 0

theorem shifted_zero {v w : Value} : Shifted 0 v w ↔ v = w := by
  cases v <;> cases w <;> simp [Shifted]

def HasSlope (f : ℚ → Option Value) (s : ℚ) : Prop :=
  ∀ x y v w, f x = some v → f y = some w → Shifted (s * (x - y)) v w

def NotNum (v : Value) : Prop := ∀ q, v ≠ .num q

theorem shifted_of_eq {k : ℚ} {v w : Value} (hk : k = 0) (h : v = w) : Shifted k v w := by
  rw [hk, shifted_zero]
  exact h

theorem hasSlope_zero : HasSlope f 0 ↔ ∀ x y v w, f x = some v → f y = some w → v = w := by
  unfold HasSlope
  simp [shifted_zero]

structure Sound (form : ReasoningSplitForm) (f : ℚ → Option Value) : Prop where
  safe : form.safe = true → ∃ s, HasSlope f s
  known : form.safe = true → form.known = true → HasSlope f (form.cCoeff - form.rtCoeff)
  invariant : form.invariant = true → HasSlope f 0
  literal : ∀ q, form.literal = some q → ∀ x v, f x = some v → v = .num q

theorem sound_invalid (f : ℚ → Option Value) : Sound reasoningInvalid f := by
  refine ⟨fun h => ?_, fun h => ?_, fun h => ?_, fun q h => ?_⟩
  all_goals cases h

theorem sound_constant (h : HasSlope f 0) : Sound reasoningConstant f := by
  refine ⟨fun _ => ⟨0, h⟩, fun _ _ => ?_, fun _ => h, fun q hq => ?_⟩
  · simpa [reasoningConstant] using h
  · cases hq

theorem sound_literal {q : ℚ} (h : ∀ x, f x = some (.num q)) : Sound (reasoningLiteral q) f := by
  have hzero : HasSlope f 0 := by
    rw [hasSlope_zero]
    intro x y v w hv hw
    rw [h] at hv hw
    exact (Option.some.inj hv).symm.trans (Option.some.inj hw)
  refine ⟨fun _ => ⟨0, hzero⟩, fun _ _ => ?_, fun _ => hzero, fun r hr x v hv => ?_⟩
  · simpa [reasoningLiteral, reasoningConstant] using hzero
  · rw [h] at hv
    cases hr
    exact (Option.some.inj hv).symm

/-! ### Operators -/

section Operators

variable {f g b : ℚ → Option Value} {F G B : ReasoningSplitForm} {s r : ℚ}

theorem HasSlope.num_of_num {x y a : ℚ} {w : Value} (h : HasSlope f s) (hx : f x = some (.num a))
    (hy : f y = some w) : ∃ c, w = .num c ∧ a = c + s * (x - y) := by
  have hrel := h x y _ w hx hy
  cases w with
  | num c => exact ⟨c, rfl, hrel⟩
  | _ => cases hrel.1

theorem HasSlope.eq_of_notNum {x y : ℚ} {v w : Value} (h : HasSlope f s) (hx : f x = some v)
    (hy : f y = some w) (hv : NotNum v) : v = w ∧ s * (x - y) = 0 := by
  have hrel := h x y v w hx hy
  cases v with
  | num a => exact absurd rfl (hv a)
  | _ => exact hrel

variable {h : ℚ → Option Value} {op : BinaryOp} {q : ℚ} {v : Value}

theorem strictBinary_some {l r : Option Value} (h : strictBinary E op l r = some v) :
    ∃ a c, l = some a ∧ r = some c ∧ applyBinary E op a c = some v := by
  obtain ⟨a, hl, h⟩ := Option.bind_eq_some_iff.mp h
  obtain ⟨c, hr, h⟩ := Option.bind_eq_some_iff.mp h
  exact ⟨a, c, hl, hr, h⟩

theorem notNum_of_sum {v w z : Value} (hop : op = .add ∨ op = .sub) (h : E.mixed op v w = some z) :
    NotNum v ∧ NotNum w := by
  refine ⟨fun q hq => ?_, fun q hq => ?_⟩
  · rw [hq, (E.mixed_sum op w q hop).1] at h
    cases h
  · rw [hq, (E.mixed_sum op v q hop).2] at h
    cases h

theorem addValues_some {v w z : Value} (h : addValues E v w = some z) :
    (∃ a c, v = .num a ∧ w = .num c ∧ z = .num (a + c)) ∨ NotNum v ∧ NotNum w := by
  unfold addValues at h
  split at h
  · exact .inl ⟨_, _, rfl, rfl, (Option.some.inj h).symm⟩
  · refine .inr ⟨?_, ?_⟩
    all_goals
      intro q hq
      cases hq
  · exact .inr (notNum_of_sum (.inl rfl) h)

theorem arithmetic_some {k : ℚ → ℚ → Option ℚ} {v w z : Value}
    (h : arithmetic E op k v w = some z) :
    (∃ a c q, v = .num a ∧ w = .num c ∧ k a c = some q ∧ z = .num q) ∨
      E.mixed op v w = some z ∧ (NotNum v ∨ NotNum w) := by
  unfold arithmetic at h
  split at h
  · obtain ⟨q, hq, hz⟩ := Option.map_eq_some_iff.mp h
    exact .inl ⟨_, _, q, rfl, rfl, hq, hz.symm⟩
  · next hnum =>
    refine .inr ⟨h, ?_⟩
    by_cases hv : NotNum v
    · exact .inl hv
    · refine .inr fun c hc => ?_
      obtain ⟨a, ha⟩ := not_forall_not.mp hv
      exact hnum a c ha hc

theorem div_some {p : ℚ} (h : applyBinary E .div (.num p) (.num q) = some v) : v = .num (p / q) := by
  obtain ⟨z, hz, rfl⟩ := Option.map_eq_some_iff.mp h
  dsimp only at hz
  split at hz
  · cases hz
  · cases hz
    rfl

theorem HasSlope.add (hf : HasSlope f s) (hg : HasSlope g r) :
    HasSlope (fun x => evalBinary E .add (f x) (g x)) (s + r) := by
  intro x y v w hv hw
  obtain ⟨a, c, ha, hc, hv⟩ := strictBinary_some hv
  obtain ⟨a', c', ha', hc', hw⟩ := strictBinary_some hw
  rcases addValues_some hv with ⟨p, q, rfl, rfl, rfl⟩ | ⟨hna, hnc⟩
  · obtain ⟨p', rfl, hp⟩ := hf.num_of_num ha ha'
    obtain ⟨q', rfl, hq⟩ := hg.num_of_num hc hc'
    cases hw
    change p + q = p' + q' + (s + r) * (x - y)
    rw [hp, hq]
    ring
  · obtain ⟨rfl, hs⟩ := hf.eq_of_notNum ha ha' hna
    obtain ⟨rfl, hr⟩ := hg.eq_of_notNum hc hc' hnc
    refine shifted_of_eq ?_ (Option.some.inj (hv.symm.trans hw))
    rw [add_mul, hs, hr, add_zero]

theorem HasSlope.sub (hf : HasSlope f s) (hg : HasSlope g r) :
    HasSlope (fun x => evalBinary E .sub (f x) (g x)) (s - r) := by
  intro x y v w hv hw
  obtain ⟨a, c, ha, hc, hv⟩ := strictBinary_some hv
  obtain ⟨a', c', ha', hc', hw⟩ := strictBinary_some hw
  rcases arithmetic_some hv with ⟨p, q, _, rfl, rfl, ⟨⟩, rfl⟩ | ⟨hmixed, -⟩
  · obtain ⟨p', rfl, hp⟩ := hf.num_of_num ha ha'
    obtain ⟨q', rfl, hq⟩ := hg.num_of_num hc hc'
    cases hw
    change p - q = p' - q' + (s - r) * (x - y)
    rw [hp, hq]
    ring
  · obtain ⟨hna, hnc⟩ := notNum_of_sum (.inr rfl) hmixed
    obtain ⟨rfl, hs⟩ := hf.eq_of_notNum ha ha' hna
    obtain ⟨rfl, hr⟩ := hg.eq_of_notNum hc hc' hnc
    refine shifted_of_eq ?_ (Option.some.inj (hv.symm.trans hw))
    rw [sub_mul, hs, hr, sub_zero]

theorem HasSlope.mul_left (hf : ∀ x v, f x = some v → v = .num q) (hg : HasSlope g r) :
    HasSlope (fun x => evalBinary E .mul (f x) (g x)) (r * q) := by
  intro x y v w hv hw
  obtain ⟨a, c, ha, hc, hv⟩ := strictBinary_some hv
  obtain ⟨a', c', ha', hc', hw⟩ := strictBinary_some hw
  cases hf x a ha
  cases hf y a' ha'
  rcases arithmetic_some hv with ⟨_, d, _, ⟨⟩, rfl, ⟨⟩, rfl⟩ | ⟨-, hn⟩
  · obtain ⟨d', rfl, hd⟩ := hg.num_of_num hc hc'
    cases hw
    change q * d = q * d' + r * q * (x - y)
    rw [hd]
    ring
  · have hnc := hn.resolve_left fun h => h q rfl
    obtain ⟨rfl, hr⟩ := hg.eq_of_notNum hc hc' hnc
    refine shifted_of_eq ?_ (Option.some.inj (hv.symm.trans hw))
    rw [mul_right_comm, hr, zero_mul]

section

variable (hf : HasSlope f s) (hg : ∀ x v, g x = some v → v = .num q)
include hf hg

theorem HasSlope.mul_right : HasSlope (fun x => evalBinary E .mul (f x) (g x)) (s * q) := by
  intro x y v w hv hw
  obtain ⟨a, c, ha, hc, hv⟩ := strictBinary_some hv
  obtain ⟨a', c', ha', hc', hw⟩ := strictBinary_some hw
  cases hg x c hc
  cases hg y c' hc'
  rcases arithmetic_some hv with ⟨p, _, _, rfl, ⟨⟩, ⟨⟩, rfl⟩ | ⟨-, hn⟩
  · obtain ⟨p', rfl, hp⟩ := hf.num_of_num ha ha'
    cases hw
    change p * q = p' * q + s * q * (x - y)
    rw [hp]
    ring
  · have hna := hn.resolve_right fun h => h q rfl
    obtain ⟨rfl, hs⟩ := hf.eq_of_notNum ha ha' hna
    refine shifted_of_eq ?_ (Option.some.inj (hv.symm.trans hw))
    rw [mul_right_comm, hs, zero_mul]

theorem HasSlope.div_right : HasSlope (fun x => evalBinary E .div (f x) (g x)) (s * (1 / q)) := by
  intro x y v w hv hw
  obtain ⟨a, c, ha, hc, hv⟩ := strictBinary_some hv
  obtain ⟨a', c', ha', hc', hw⟩ := strictBinary_some hw
  cases hg x c hc
  cases hg y c' hc'
  rcases arithmetic_some hv with ⟨p, _, _, rfl, ⟨⟩, -, rfl⟩ | ⟨-, hn⟩
  · obtain ⟨p', rfl, hp⟩ := hf.num_of_num ha ha'
    rw [div_some hv, div_some hw]
    change p / q = p' / q + s * (1 / q) * (x - y)
    rw [hp]
    ring
  · have hna := hn.resolve_right fun h => h q rfl
    obtain ⟨rfl, hs⟩ := hf.eq_of_notNum ha ha' hna
    refine shifted_of_eq ?_ (Option.some.inj (hv.symm.trans hw))
    rw [mul_right_comm, hs, zero_mul]

end

theorem HasSlope.neg (hf : HasSlope f s) :
    HasSlope (fun x => (f x).bind (applyUnary .neg)) (s * -1) := by
  intro x y v w hv hw
  obtain ⟨a, ha, hv⟩ := Option.bind_eq_some_iff.mp hv
  obtain ⟨a', ha', hw⟩ := Option.bind_eq_some_iff.mp hw
  cases a with
  | num p =>
    obtain ⟨p', rfl, hp⟩ := hf.num_of_num ha ha'
    cases hv
    cases hw
    change -p = -p' + s * -1 * (x - y)
    rw [hp]
    ring
  | _ => cases hv

theorem evalAnd_some {l r : Option Value} (h : evalBinary E .and l r = some v) :
    l = some (.bool true) ∧ r = some v ∨ l = some (.bool false) ∧ v = .bool false := by
  simp only [evalBinary] at h
  split at h
  · exact .inl ⟨rfl, h⟩
  · exact .inr ⟨rfl, (Option.some.inj h).symm⟩
  · cases h

theorem evalOr_some {l r : Option Value} (h : evalBinary E .or l r = some v) :
    l = some (.bool true) ∧ v = .bool true ∨ l = some (.bool false) ∧ r = some v := by
  simp only [evalBinary] at h
  split at h
  · exact .inl ⟨rfl, (Option.some.inj h).symm⟩
  · exact .inr ⟨rfl, h⟩
  · cases h

theorem evalCoalesce_some {l r : Option Value} (h : evalBinary E .coalesce l r = some v) :
    l = some .nil ∧ r = some v ∨ l = some v ∧ v ≠ .nil := by
  simp only [evalBinary] at h
  split at h
  · exact .inl ⟨rfl, h⟩
  · next hne =>
    refine .inr ⟨h, fun hv => ?_⟩
    rw [hv] at h
    exact hne h

theorem HasSlope.binary (hf : HasSlope f 0) (hg : HasSlope g 0) :
    HasSlope (fun x => evalBinary E op (f x) (g x)) 0 := by
  rw [hasSlope_zero] at hf hg ⊢
  have hstrict : ∀ x y v w, strictBinary E op (f x) (g x) = some v →
      strictBinary E op (f y) (g y) = some w → v = w := by
    intro x y v w hv hw
    obtain ⟨a, c, ha, hc, hv⟩ := strictBinary_some hv
    obtain ⟨a', c', ha', hc', hw⟩ := strictBinary_some hw
    rw [hf x y a a' ha ha', hg x y c c' hc hc', hw] at hv
    exact (Option.some.inj hv).symm
  intro x y v w hv hw
  cases op with
  | and =>
    rcases evalAnd_some hv with ⟨hl, hr⟩ | ⟨hl, rfl⟩
    · rcases evalAnd_some hw with ⟨hl', hr'⟩ | ⟨hl', rfl⟩
      · exact hg x y v w hr hr'
      · cases hf x y _ _ hl hl'
    · rcases evalAnd_some hw with ⟨hl', hr'⟩ | ⟨hl', rfl⟩
      · cases hf x y _ _ hl hl'
      · rfl
  | or =>
    rcases evalOr_some hv with ⟨hl, rfl⟩ | ⟨hl, hr⟩
    · rcases evalOr_some hw with ⟨hl', rfl⟩ | ⟨hl', hr'⟩
      · rfl
      · cases hf x y _ _ hl hl'
    · rcases evalOr_some hw with ⟨hl', rfl⟩ | ⟨hl', hr'⟩
      · cases hf x y _ _ hl hl'
      · exact hg x y v w hr hr'
  | coalesce =>
    rcases evalCoalesce_some hv with ⟨hl, hr⟩ | ⟨hl, hne⟩
    · rcases evalCoalesce_some hw with ⟨hl', hr'⟩ | ⟨hl', hne'⟩
      · exact hg x y v w hr hr'
      · exact absurd (hf x y _ _ hl hl').symm hne'
    · rcases evalCoalesce_some hw with ⟨hl', hr'⟩ | ⟨hl', hne'⟩
      · exact absurd (hf x y _ _ hl hl') hne
      · exact hf x y v w hl hl'
  | _ => exact hstrict x y v w hv hw

/-! ### Forms -/

theorem sound_add {sign : ℚ} (hF : Sound F f) (hG : Sound G g)
    (hslope : ∀ s r, HasSlope f s → HasSlope g r →
      HasSlope (fun x => evalBinary E op (f x) (g x)) (s + sign * r)) :
    Sound (reasoningAdd F G sign) fun x => evalBinary E op (f x) (g x) := by
  unfold reasoningAdd
  split
  · exact sound_invalid _
  rename_i hsafe
  simp only [not_or, Bool.not_eq_false] at hsafe
  obtain ⟨s, hs⟩ := hF.safe hsafe.1
  obtain ⟨r, hr⟩ := hG.safe hsafe.2
  split
  · next hknown =>
    rw [Bool.and_eq_true] at hknown
    have hdiff : HasSlope (fun x => evalBinary E op (f x) (g x))
        (F.cCoeff + sign * G.cCoeff - (F.rtCoeff + sign * G.rtCoeff)) := by
      have hsum := hslope _ _ (hF.known hsafe.1 hknown.1) (hG.known hsafe.2 hknown.2)
      have heq : F.cCoeff - F.rtCoeff + sign * (G.cCoeff - G.rtCoeff) =
          F.cCoeff + sign * G.cCoeff - (F.rtCoeff + sign * G.rtCoeff) := by ring
      rw [heq] at hsum
      exact hsum
    refine ⟨fun _ => ⟨_, hdiff⟩, fun _ _ => hdiff, fun hinv => ?_, fun q hq => ?_⟩
    · rw [of_decide_eq_true hinv, sub_self] at hdiff
      exact hdiff
    · cases hq
  · refine ⟨fun _ => ⟨_, hslope s r hs hr⟩, fun _ hk => ?_, fun hinv => ?_, fun q hq => ?_⟩
    · cases hk
    · have hinv : F.invariant = true ∧ G.invariant = true := Bool.and_eq_true_iff.mp hinv
      have hzero := hslope 0 0 (hF.invariant hinv.1) (hG.invariant hinv.2)
      rw [mul_zero, add_zero] at hzero
      exact hzero
    · cases hq

theorem sound_scale {factor : ℚ} (hF : Sound F f)
    (hslope : ∀ s, HasSlope f s → HasSlope h (s * factor))
    (hlit : ∀ q, (∀ x v, f x = some v → v = .num q) → ∀ x v, h x = some v → v = .num (q * factor)) :
    Sound (reasoningScale F factor) h := by
  unfold reasoningScale
  split
  · exact sound_invalid _
  rename_i hsafe
  rw [Bool.not_eq_false] at hsafe
  obtain ⟨s, hs⟩ := hF.safe hsafe
  refine ⟨fun _ => ⟨_, hslope s hs⟩, fun _ hknown => ?_, fun hinv => ?_, fun q hq => ?_⟩
  · have hmul := hslope _ (hF.known hsafe hknown)
    rw [sub_mul] at hmul
    exact hmul
  · have hmul := hslope 0 (hF.invariant hinv)
    rw [zero_mul] at hmul
    exact hmul
  · obtain ⟨l, hl, rfl⟩ := Option.map_eq_some_iff.mp hq
    exact hlit l (hF.literal l hl)

theorem sound_both (hF : Sound F f) (hG : Sound G g) :
    Sound (reasoningBoth F G) fun x => evalBinary E op (f x) (g x) := by
  unfold reasoningBoth
  split
  · next hinv =>
    simp only [Bool.and_eq_true] at hinv
    exact sound_constant ((hF.invariant hinv.1.2).binary (hG.invariant hinv.2))
  · exact sound_invalid _

theorem sound_unary {op : UnaryOp} (hF : Sound F f) :
    Sound (reasoningUnary op F) fun x => (f x).bind (applyUnary op) := by
  unfold reasoningUnary
  split
  · next hop =>
    rw [hop]
    refine sound_scale hF (fun s hs => hs.neg) fun q hq x v hv => ?_
    obtain ⟨a, ha, hv⟩ := Option.bind_eq_some_iff.mp hv
    rw [hq x a ha] at hv
    cases hv
    rw [mul_neg_one]
  · split
    · next hinv =>
      have hzero := hasSlope_zero.mp (hF.invariant hinv)
      refine sound_constant (hasSlope_zero.mpr fun x y v w hv hw => ?_)
      obtain ⟨a, ha, hv⟩ := Option.bind_eq_some_iff.mp hv
      obtain ⟨a', ha', hw⟩ := Option.bind_eq_some_iff.mp hw
      rw [hzero x y a a' ha ha', hw] at hv
      exact (Option.some.inj hv).symm
    · exact sound_invalid _

theorem sound_mul_left (hf : ∀ x v, f x = some v → v = .num q) (hG : Sound G g) :
    Sound (reasoningScale G q) fun x => evalBinary E .mul (f x) (g x) := by
  refine sound_scale hG (fun s hs => HasSlope.mul_left hf hs) fun l hl x v hv => ?_
  obtain ⟨a, c, ha, hc, hv⟩ := strictBinary_some hv
  rw [hf x a ha, hl x c hc] at hv
  cases hv
  rw [mul_comm]

theorem sound_mul_right (hF : Sound F f) (hg : ∀ x v, g x = some v → v = .num q) :
    Sound (reasoningScale F q) fun x => evalBinary E .mul (f x) (g x) := by
  refine sound_scale hF (fun s hs => hs.mul_right hg) fun l hl x v hv => ?_
  obtain ⟨a, c, ha, hc, hv⟩ := strictBinary_some hv
  rw [hl x a ha, hg x c hc] at hv
  cases hv
  rfl

theorem sound_div (hF : Sound F f) (hg : ∀ x v, g x = some v → v = .num q) :
    Sound (reasoningScale F (1 / q)) fun x => evalBinary E .div (f x) (g x) := by
  refine sound_scale hF (fun s hs => hs.div_right hg) fun l hl x v hv => ?_
  obtain ⟨a, c, ha, hc, hv⟩ := strictBinary_some hv
  cases hl x a ha
  cases hg x c hc
  rw [div_some hv, mul_one_div]

theorem sound_binary (hF : Sound F f) (hG : Sound G g) :
    Sound (reasoningBinary op F G) fun x => evalBinary E op (f x) (g x) := by
  cases op with
  | add =>
    refine sound_add hF hG fun s r hs hr => ?_
    rw [one_mul]
    exact hs.add hr
  | sub =>
    refine sound_add hF hG fun s r hs hr => ?_
    rw [neg_one_mul, ← sub_eq_add_neg]
    exact hs.sub hr
  | mul =>
    simp only [reasoningBinary]
    split
    · next q hq => exact sound_mul_left (hF.literal q hq) hG
    · next q _ hq => exact sound_mul_right hF (hG.literal q hq)
    · exact sound_both hF hG
  | div =>
    simp only [reasoningBinary]
    split
    · next q hq =>
      split
      · exact sound_div hF (hG.literal q hq)
      · exact sound_both hF hG
    · exact sound_both hF hG
  | _ => exact sound_both hF hG

theorem sound_cond (hB : Sound B b) (hF : Sound F f) (hG : Sound G g)
    (hh : ∀ x v, h x = some v → b x = some (.bool true) ∧ f x = some v ∨
      b x = some (.bool false) ∧ g x = some v) : Sound (reasoningCond B F G) h := by
  unfold reasoningCond
  split
  · exact sound_invalid _
  rename_i hsafe
  simp only [not_or, Bool.not_eq_false] at hsafe
  obtain ⟨-, hinv, hsafeF, hsafeG⟩ := hsafe
  have hconst := hasSlope_zero.mp (hB.invariant hinv)
  have hslope : ∀ s r, HasSlope f s → HasSlope g r → HasSlope h s ∨ HasSlope h r := by
    intro s r hs hr
    by_cases htrue : ∃ x, b x = some (.bool true)
    · obtain ⟨x₀, hx₀⟩ := htrue
      refine .inl fun x y v w hv hw => ?_
      rcases hh x v hv with ⟨-, hv⟩ | ⟨hx, -⟩
      · rcases hh y w hw with ⟨-, hw⟩ | ⟨hy, -⟩
        · exact hs x y v w hv hw
        · cases hconst x₀ y _ _ hx₀ hy
      · cases hconst x₀ x _ _ hx₀ hx
    · refine .inr fun x y v w hv hw => ?_
      rcases hh x v hv with ⟨hx, -⟩ | ⟨-, hv⟩
      · exact absurd ⟨x, hx⟩ htrue
      · rcases hh y w hw with ⟨hy, -⟩ | ⟨-, hw⟩
        · exact absurd ⟨y, hy⟩ htrue
        · exact hr x y v w hv hw
  have hsame : ∀ s, HasSlope f s → HasSlope g s → HasSlope h s := by
    intro s hs hr
    rcases hslope s s hs hr with hl | hl
    · exact hl
    · exact hl
  split
  · next hknown =>
    obtain ⟨hkF, hkG, hc, hrt⟩ := hknown
    have hboth : HasSlope h (F.cCoeff - F.rtCoeff) := by
      have hright := hG.known hsafeG hkG
      rw [← hc, ← hrt] at hright
      exact hsame _ (hF.known hsafeF hkF) hright
    refine ⟨fun _ => ⟨_, hboth⟩, fun _ _ => hboth, fun hi => ?_, fun q hq => ?_⟩
    · rw [of_decide_eq_true hi, sub_self] at hboth
      exact hboth
    · cases hq
  · refine ⟨fun _ => ?_, fun _ hk => ?_, fun hi => ?_, fun q hq => ?_⟩
    · obtain ⟨s, hs⟩ := hF.safe hsafeF
      obtain ⟨r, hr⟩ := hG.safe hsafeG
      rcases hslope s r hs hr with hl | hl
      · exact ⟨s, hl⟩
      · exact ⟨r, hl⟩
    · cases hk
    · have hi : F.invariant = true ∧ G.invariant = true := Bool.and_eq_true_iff.mp hi
      exact hsame 0 (hF.invariant hi.1) (hG.invariant hi.2)
    · cases hq

theorem Sound.weaken (hF : Sound F f) (hh : ∀ x v, h x = some v → f x = some v) : Sound F h := by
  have hslope : ∀ s, HasSlope f s → HasSlope h s := fun s hs x y v w hv hw =>
    hs x y v w (hh x v hv) (hh y w hw)
  refine ⟨fun hsafe => ?_, fun hsafe hknown => hslope _ (hF.known hsafe hknown),
    fun hinv => hslope 0 (hF.invariant hinv), fun q hq x v hv => hF.literal q hq x v (hh x v hv)⟩
  obtain ⟨s, hs⟩ := hF.safe hsafe
  exact ⟨s, hslope s hs⟩

end Operators

/-! ### Trees -/

def hidesCallee (first second : Text) : Node → Bool
  | .ident _ => false
  | callee => [first, second, envName].any fun x => decide (x ∈ callee.usedVars)

/-- What the arguments hide, without the label of `tier`. -/
def hidesCall (first second : Text) (callee : Node) (args : List Bool) : Bool :=
  match callee, args with
  | .ident f, [label, value] => !decide (f = tierName) && label || value
  | callee, args => hidesCallee first second callee || args.any id

mutual

/-- The node reads one of the pair where the analysis does not look: in `$env`, which it takes for
a constant, or in the value whose method is called. -/
def Node.hides (first second : Text) : Node → Bool
  | .ident name => decide (name = envName)
  | .int _ => false
  | .float _ => false
  | .const _ => false
  | .unary _ x => x.hides first second
  | .binary _ l r => l.hides first second || r.hides first second
  | .cond b l r => b.hides first second || l.hides first second || r.hides first second
  | .call callee args => hidesCall first second callee (hidesAll first second args)
  | .builtin _ args => (hidesAll first second args).any id
  | .chain x => x.hides first second
  | .other _ _ => false

def hidesAll (first second : Text) : List Node → List Bool
  | [] => []
  | x :: xs => x.hides first second :: hidesAll first second xs

end

theorem hidesCall_eq_false {first second : Text} {callee : Node} {args : List Bool}
    (h : hidesCall first second callee args = false) :
    (hidesCallee first second callee = false ∧ args.any id = false) ∨
      ∃ label, callee = .ident tierName ∧ args = [label, false] := by
  unfold hidesCall at h
  split at h
  · next f label value =>
    rw [Bool.or_eq_false_iff] at h
    obtain ⟨hlabel, rfl⟩ := h
    by_cases hf : f = tierName
    · exact .inr ⟨label, congrArg _ hf, rfl⟩
    · simp only [hf, decide_false, Bool.not_false, Bool.true_and] at hlabel
      rw [hlabel]
      exact .inl ⟨rfl, rfl⟩
  · exact .inl (Bool.or_eq_false_iff.mp h)

theorem ident_sound (hline : Line first second line) {name : Text}
    (henv : name ≠ envName) :
    Sound (tokenSplitFormFor first.name second.name (.ident name))
      fun x => eval E (line x) (.ident name) := by
  simp only [tokenSplitFormFor, eval]
  have hnum : ∀ (l : Lane) x v, (line x).lookup l.name = some v → v = .num ((line x).get l) := by
    intro l x v hv
    rw [lookup_name] at hv
    exact (Option.some.inj hv).symm
  split
  · next hname =>
    have hslope : HasSlope (fun x => (line x).lookup name) (1 - 0) := by
      intro x y v w hv hw
      rw [hname] at hv hw
      rw [hnum first x v hv, hnum first y w hw]
      change (line x).get first = (line y).get first + (1 - 0) * (x - y)
      rw [hline.gain x y]
      ring
    refine ⟨fun _ => ⟨_, hslope⟩, fun _ _ => hslope, fun hinv => ?_, fun q hq => ?_⟩
    · cases hinv
    · cases hq
  · next hfirst =>
    split
    · next hname =>
      have hslope : HasSlope (fun x => (line x).lookup name) (0 - 1) := by
        intro x y v w hv hw
        rw [hname] at hv hw
        rw [hnum second x v hv, hnum second y w hw]
        change (line x).get second = (line y).get second + (0 - 1) * (x - y)
        rw [hline.loss x y]
        ring
      refine ⟨fun _ => ⟨_, hslope⟩, fun _ _ => hslope, fun hinv => ?_, fun q hq => ?_⟩
      · cases hinv
      · cases hq
    · next hsecond =>
      refine sound_constant (hasSlope_zero.mpr fun x y v w hv hw => ?_)
      have hsame : (line x).lookup name = (line y).lookup name := by
        unfold TokenParams.lookup
        rcases hl : Lane.ofName name with _ | l
        · rw [if_neg henv, if_neg henv]
        · have hname := Lane.name_of_ofName hl
          have hf : l ≠ first := fun h => hfirst (by rw [← hname, h])
          have hs : l ≠ second := fun h => hsecond (by rw [← hname, h])
          simp [hline.others l hf hs x y]
      rw [hsame, hw] at hv
      exact (Option.some.inj hv).symm

theorem evalAll_some {t : TokenParams} {n : Node} {vs : List Value}
    (h : evalAll E t (n :: ns) = some vs) :
    ∃ v vs', eval E t n = some v ∧ evalAll E t ns = some vs' ∧ vs = v :: vs' := by
  simp only [evalAll] at h
  split at h
  · next v vs' hv hvs => exact ⟨v, vs', hv, hvs, (Option.some.inj h).symm⟩
  · cases h

def SoundAll (E : Engine) (line : ℚ → TokenParams) (forms : List ReasoningSplitForm)
    (ns : List Node) : Prop :=
  List.Forall₂ (fun form n => Sound form fun x => eval E (line x) n) forms ns

/-- Sound where nothing is hidden. -/
def SeenAll (E : Engine) (line : ℚ → TokenParams) (first second : Lane)
    (forms : List ReasoningSplitForm) (ns : List Node) : Prop :=
  List.Forall₂ (fun form n => n.hides first.name second.name = false →
    Sound form fun x => eval E (line x) n) forms ns

theorem SeenAll.sound (h : SeenAll E line first second forms ns)
    (hseen : (hidesAll first.name second.name ns).any id = false) : SoundAll E line forms ns := by
  induction h with
  | nil => exact .nil
  | cons hform _ ih =>
    simp only [hidesAll, List.any_cons, id, Bool.or_eq_false_iff] at hseen
    exact .cons (hform hseen.1) (ih hseen.2)

theorem SoundAll.constant (h : SoundAll E line forms ns)
    (hinv : ∀ form ∈ forms, form.invariant = true) :
    ∀ x y vs ws, evalAll E (line x) ns = some vs → evalAll E (line y) ns = some ws → vs = ws := by
  induction h with
  | nil =>
    intro x y vs ws hv hw
    cases hv
    cases hw
    rfl
  | cons hform _ ih =>
    intro x y vs ws hv hw
    obtain ⟨v, vs', hv₁, hvs, rfl⟩ := evalAll_some hv
    obtain ⟨w, ws', hw₁, hws, rfl⟩ := evalAll_some hw
    have hzero := hasSlope_zero.mp (hform.invariant (hinv _ List.mem_cons_self))
    have hrest := ih (fun form hmem => hinv form (List.mem_cons_of_mem _ hmem)) x y vs' ws' hvs hws
    rw [hzero x y v w hv₁ hw₁, hrest]

theorem arguments_sound {k : List Value → Option Value} {h : ℚ → Option Value}
    (hall : SoundAll E line forms ns)
    (hh : ∀ x v, h x = some v → ∃ vs, evalAll E (line x) ns = some vs ∧ k vs = some v) :
    Sound (reasoningArguments forms) h := by
  unfold reasoningArguments
  split
  · next hinv =>
    have hinv : ∀ form ∈ forms, form.invariant = true := fun form hmem =>
      (Bool.and_eq_true_iff.mp (List.all_eq_true.mp hinv form hmem)).2
    refine sound_constant (hasSlope_zero.mpr fun x y v w hv hw => ?_)
    obtain ⟨vs, hvs, hv⟩ := hh x v hv
    obtain ⟨ws, hws, hw⟩ := hh y w hw
    rw [hall.constant hinv x y vs ws hvs hws, hw] at hv
    exact (Option.some.inj hv).symm
  · exact sound_invalid _

theorem applyCall_tier {vs : List Value} {v : Value} (h : applyCall E tierName vs = some v) :
    ∃ s q, vs = [.str s, .num q] ∧ v = .num q := by
  simp only [applyCall, if_true] at h
  split at h
  · exact ⟨_, _, rfl, (Option.some.inj h).symm⟩
  · cases h

theorem callee_fixed (hline : Line first second line) {callee : Node}
    (hseen : hidesCallee first.name second.name callee = false) (x y : ℚ) (vs : List Value) :
    evalCallee E (line x) callee vs = evalCallee E (line y) callee vs := by
  cases callee with
  | ident f => rfl
  | _ =>
    simp only [hidesCallee, List.any_cons, List.any_nil, Bool.or_false, Bool.or_eq_false_iff,
      decide_eq_false_iff_not] at hseen
    obtain ⟨hfirst, hsecond, henv⟩ := hseen
    refine E.method_congr _ _ _ vs (lookup_of_get henv fun l hl => hline.others l ?_ ?_ x y)
    · rintro rfl
      exact hfirst hl
    · rintro rfl
      exact hsecond hl

/-- The value of `tier` is the one of its second argument. -/
theorem tier_sound {form : ReasoningSplitForm} {label value : Node}
    (hvalue : Sound form fun x => eval E (line x) value) :
    Sound form fun x => eval E (line x) (.call (.ident tierName) [label, value]) := by
  refine hvalue.weaken fun x v hv => ?_
  obtain ⟨vs, hvs, hv⟩ := Option.bind_eq_some_iff.mp hv
  obtain ⟨s, q, rfl, rfl⟩ := applyCall_tier hv
  obtain ⟨_, _, -, hvs, heq⟩ := evalAll_some hvs
  cases heq
  obtain ⟨_, _, hq, -, heq⟩ := evalAll_some hvs
  cases heq
  exact hq

theorem call_sound (hline : Line first second line) {callee : Node} {args : List Node}
    (hall : SeenAll E line first second forms args)
    (hseen : hidesCall first.name second.name callee (hidesAll first.name second.name args) =
      false) :
    Sound (reasoningCall callee forms) fun x => eval E (line x) (.call callee args) := by
  rcases hidesCall_eq_false hseen with ⟨hcallee, hnone⟩ | ⟨label, rfl, hvalue⟩
  · have hall := hall.sound hnone
    have hargs : Sound (reasoningArguments forms) fun x => eval E (line x) (.call callee args) := by
      refine arguments_sound (k := evalCallee E (line 0) callee) hall fun x v hv => ?_
      obtain ⟨vs, hvs, hv⟩ := Option.bind_eq_some_iff.mp hv
      exact ⟨vs, hvs, (callee_fixed hline hcallee 0 x vs).trans hv⟩
    unfold reasoningCall
    split
    · next f form value =>
      split
      · next hf =>
        rcases hall with _ | ⟨-, hrest⟩
        rcases hrest with _ | ⟨hvalue, hnil⟩
        cases hnil
        rw [hf]
        exact tier_sound hvalue
      · exact hargs
    · exact hargs
  · -- only the label hides something
    rcases hall with _ | ⟨-, hrest⟩
    · cases hvalue
    rcases hrest with _ | ⟨hform, hnil⟩
    · cases hvalue
    rcases hnil with _ | _
    · simp only [hidesAll, List.cons.injEq, and_true] at hvalue
      simp only [reasoningCall, if_true]
      exact tier_sound (hform hvalue.2)
    · simp [hidesAll] at hvalue

mutual

theorem tokenSplit_sound (hline : Line first second line) (n : Node)
    (hseen : n.hides first.name second.name = false) :
    Sound (tokenSplitFormFor first.name second.name n) fun x => eval E (line x) n := by
  cases n with
  | ident name =>
    exact ident_sound hline (of_decide_eq_false hseen)
  | int n | float q =>
    simp only [tokenSplitFormFor]
    exact sound_literal fun x => rfl
  | const v =>
    simp only [tokenSplitFormFor]
    refine sound_constant (hasSlope_zero.mpr fun x y v w hv hw => ?_)
    cases hv
    cases hw
    rfl
  | unary op x =>
    simp only [eval]
    exact sound_unary (tokenSplit_sound hline x hseen)
  | binary op l r =>
    simp only [Node.hides, Bool.or_eq_false_iff] at hseen
    simp only [eval]
    exact sound_binary (tokenSplit_sound hline l hseen.1) (tokenSplit_sound hline r hseen.2)
  | cond b l r =>
    simp only [Node.hides, Bool.or_eq_false_iff] at hseen
    simp only [tokenSplitFormFor]
    refine sound_cond (tokenSplit_sound hline b hseen.1.1)
      (tokenSplit_sound hline l hseen.1.2) (tokenSplit_sound hline r hseen.2) ?_
    intro x v hv
    simp only [eval] at hv
    split at hv
    · next hb => exact .inl ⟨hb, hv⟩
    · next hb => exact .inr ⟨hb, hv⟩
    · cases hv
  | call callee args =>
    simp only [tokenSplitFormFor]
    exact call_sound hline (tokenSplits_sound hline args) hseen
  | builtin name args =>
    simp only [tokenSplitFormFor]
    refine arguments_sound (k := E.builtin name) ((tokenSplits_sound hline args).sound hseen)
      fun x v hv => ?_
    exact Option.bind_eq_some_iff.mp hv
  | chain x =>
    simp only [eval]
    exact tokenSplit_sound hline x hseen
  | other kind parts =>
    simp only [tokenSplitFormFor]
    exact sound_invalid _

theorem tokenSplits_sound (hline : Line first second line) (ns : List Node) :
    SeenAll E line first second (tokenSplitForms first.name second.name ns) ns := by
  cases ns with
  | nil => exact .nil
  | cons n ns =>
    simp only [tokenSplitForms]
    exact .cons (tokenSplit_sound hline n) (tokenSplits_sound hline ns)

end

theorem cost_affineOn (hline : Line first second line) {n : Node}
    (hseen : n.hides first.name second.name = false)
    (hsafe : (tokenSplitFormFor first.name second.name n).safe = true) {cost : ℚ → ℚ} {u k : ℚ}
    (hcost : ∀ x, 0 ≤ x → x ≤ u → eval E (line (k * x)) n = some (.num (cost x))) :
    AffineOn cost u := by
  obtain ⟨s, hs⟩ := (tokenSplit_sound (E := E) hline n hseen).safe hsafe
  refine ⟨s * k, fun x hx hxu => ?_⟩
  have hrel := hs _ _ _ _ (hcost x hx hxu) (hcost 0 le_rfl (hx.trans hxu))
  have hdist : s * (k * x - k * 0) = s * k * x := by ring
  rw [hdist] at hrel
  exact hrel

end NewApi.BillingExpr
