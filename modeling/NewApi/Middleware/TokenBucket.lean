import Mathlib.Tactic.FieldSimp
import Mathlib.Tactic.Linarith
import NewApi.Middleware.ModelRateLimit

/-!
# The budget of the token bucket

The legacy and the canonical parameters differ by the factor `window` and by the expiration, which
only ever forgets a full bucket.
-/

namespace NewApi.Middleware

def decisions (c : LimiterConfig) : Option (Key Bucket) → List ℤ → List (ℤ × Bool)
  | _, [] => []
  | key, now :: rest =>
    (now, (rateLimitScript c now key).1) :: decisions c (rateLimitScript c now key).2 rest

def acceptedWithin (a b : ℚ) (log : List (ℤ × Bool)) : ℕ :=
  log.countP fun x => x.2 && decide (a ≤ x.1 ∧ x.1 ≤ b)

section Bucket

variable {n w now l : ℤ} {x y a b : ℚ} {key key' : Option (Key Bucket)}

def legacyBucket (x : ℚ) (l : ℤ) : Option (Key Bucket) := some ⟨⟨x, l⟩, none⟩

def canonicalBucket (w : ℤ) (y : ℚ) (l : ℤ) : Option (Key Bucket) := some ⟨⟨y, l⟩, some (l + w)⟩

theorem legacy_refilled :
    refilled (totalConfig false n w) now (legacyBucket x l) =
      min ((n : ℚ) * w) (x + (now - l) * n) := by
  simp [refilled, legacyBucket, totalConfig]

theorem canonical_refilled (hw : 0 < w) (hy : 0 ≤ y) (hn : 0 ≤ n) :
    refilled (totalConfig true n w) now (canonicalBucket w y l) =
      min (n : ℚ) (y + (now - l) * (n / w)) := by
  by_cases h : now ≤ l + w
  · simp [refilled, canonicalBucket, totalConfig, Key.live_of_le h]
  · -- the key has expired, and the bucket would be full
    have hfull : (n : ℚ) ≤ (now - l) * (n / w) := by
      have hlt : (l : ℚ) + w < now := by exact_mod_cast not_le.mp h
      have hw' : (0 : ℚ) < w := by exact_mod_cast hw
      have hn' : (0 : ℚ) ≤ n := by exact_mod_cast hn
      rw [mul_div_assoc', le_div_iff₀ hw']
      nlinarith
    rw [min_eq_left (by linarith)]
    simp [refilled, canonicalBucket, totalConfig, Key.live_of_lt (not_le.mp h)]

theorem legacy_script (h : key = none ∨ ∃ x l, key = legacyBucket x l) :
    rateLimitScript (totalConfig false n w) now key =
      (decide (w ≤ refilled (totalConfig false n w) now key),
        legacyBucket (if w ≤ refilled (totalConfig false n w) now key then
          refilled (totalConfig false n w) now key - w
          else refilled (totalConfig false n w) now key) now) := by
  have hkeep : (Key.live now key).bind Key.expireAt = none := by
    rcases h with rfl | ⟨x, l, rfl⟩ <;> rfl
  unfold rateLimitScript
  rw [hkeep]
  simp [legacyBucket, show (totalConfig false n w).requested = w from rfl,
    show (totalConfig false n w).expiration = 0 from rfl]

theorem canonical_script (hw : 0 < w) :
    rateLimitScript (totalConfig true n w) now key =
      (decide (1 ≤ refilled (totalConfig true n w) now key),
        canonicalBucket w (if 1 ≤ refilled (totalConfig true n w) now key then
          refilled (totalConfig true n w) now key - 1
          else refilled (totalConfig true n w) now key) now) := by
  unfold rateLimitScript
  simp [canonicalBucket, hw, show (totalConfig true n w).requested = 1 from rfl,
    show (totalConfig true n w).expiration = w from rfl]

inductive Scaled (w t : ℤ) : Option (Key Bucket) → Option (Key Bucket) → Prop
  | absent : Scaled w t none none
  | filled {y : ℚ} {l : ℤ} (hy : 0 ≤ y) (hl : l ≤ t) :
    Scaled w t (legacyBucket (w * y) l) (canonicalBucket w y l)

theorem Scaled.tokens (hw : 0 < w) (hn : 0 ≤ n)
    (h : Scaled w now key key') :
    refilled (totalConfig false n w) now key = w * refilled (totalConfig true n w) now key' ∧
      0 ≤ refilled (totalConfig true n w) now key' := by
  have hw' : (0 : ℚ) < w := by exact_mod_cast hw
  have hn' : (0 : ℚ) ≤ n := by exact_mod_cast hn
  cases h with
  | absent => simp [refilled, totalConfig, mul_comm, hn']
  | @filled y l hy hl =>
    have hl' : (l : ℚ) ≤ now := by exact_mod_cast hl
    rw [legacy_refilled, canonical_refilled hw hy hn, mul_min_of_nonneg _ _ hw'.le]
    refine ⟨?_, le_min hn' (add_nonneg hy (mul_nonneg (by linarith) (div_nonneg hn' hw'.le)))⟩
    rw [mul_comm (n : ℚ), show (w : ℚ) * (y + (now - l) * (n / w)) = w * y + (now - l) * n by
      field_simp]

theorem Scaled.script (hw : 0 < w) (hn : 0 ≤ n)
    (h : Scaled w now key key') :
    (rateLimitScript (totalConfig false n w) now key).1 =
        (rateLimitScript (totalConfig true n w) now key').1 ∧
      Scaled w now (rateLimitScript (totalConfig false n w) now key).2
        (rateLimitScript (totalConfig true n w) now key').2 := by
  obtain ⟨hscale, hpos⟩ := h.tokens hw hn
  have hlegacy : key = none ∨ ∃ x l, key = legacyBucket x l := by
    cases h with
    | absent => exact .inl rfl
    | filled => exact .inr ⟨_, _, rfl⟩
  rw [legacy_script hlegacy, canonical_script hw, hscale]
  have hw' : (0 : ℚ) < w := by exact_mod_cast hw
  simp only [le_mul_iff_one_le_right hw', true_and]
  split
  · next hall =>
    rw [show ∀ z : ℚ, (w : ℚ) * z - w = w * (z - 1) from fun z => by rw [mul_sub, mul_one]]
    exact .filled (sub_nonneg.mpr hall) le_rfl
  · exact .filled hpos le_rfl

theorem Scaled.mono {t : ℤ} (h : Scaled w l key key') (hl : l ≤ t) :
    Scaled w t key key' := by
  cases h with
  | absent => exact .absent
  | filled hy hle => exact .filled hy (hle.trans hl)

theorem Scaled.decisions {t : ℤ} (hw : 0 < w) (hn : 0 ≤ n)
    (times : List ℤ) (hsorted : (t :: times).Pairwise (· ≤ ·)) (h : Scaled w t key key') :
    decisions (totalConfig false n w) key times = decisions (totalConfig true n w) key' times := by
  induction times generalizing t key key' with
  | nil => rfl
  | cons now rest ih =>
    rw [List.pairwise_cons] at hsorted
    obtain ⟨heq, hnext⟩ := (h.mono (hsorted.1 now List.mem_cons_self)).script hw hn
    simp only [Middleware.decisions]
    rw [heq, ih hsorted.2 hnext]

theorem acceptedWithin_cons (a b : ℚ) (now : ℤ) (ok : Bool) (log : List (ℤ × Bool)) :
    acceptedWithin a b ((now, ok) :: log) =
      acceptedWithin a b log + if ok ∧ a ≤ now ∧ now ≤ b then 1 else 0 := by
  simp [acceptedWithin, List.countP_cons]

theorem accepted_spends {tokens d : ℚ} {log : List (ℤ × Bool)} (hw : 0 < w)
    (hd : (now : ℚ) ≤ b → 0 ≤ d) (hlog : (w : ℚ) * acceptedWithin a b log ≤
      max 0 ((if w ≤ tokens then tokens - w else tokens) + d)) :
    (w : ℚ) * acceptedWithin a b ((now, decide (w ≤ tokens)) :: log) ≤ max 0 (tokens + d) := by
  have hw' : (0 : ℚ) < w := by exact_mod_cast hw
  rw [acceptedWithin_cons]
  push_cast
  rw [mul_add]
  by_cases hall : (w : ℚ) ≤ tokens
  · rw [if_pos hall] at hlog
    split
    · next hin =>
      have hpos := hd hin.2.2
      rw [max_eq_right (by linarith)] at hlog
      exact le_max_of_le_right (by linarith)
    · refine le_trans (by linarith) (max_le_max le_rfl (by linarith : tokens - w + d ≤ _))
  · simpa [hall] using hlog

theorem accepted_from (hw : 0 < w) (hn : 0 ≤ n) (times : List ℤ) (x : ℚ) (l : ℤ) :
    (w : ℚ) * acceptedWithin a b (decisions (totalConfig false n w) (legacyBucket x l) times) ≤
      max 0 (x + (b - l) * n) := by
  have hn' : (0 : ℚ) ≤ n := by exact_mod_cast hn
  induction times generalizing x l with
  | nil => simp [decisions, acceptedWithin]
  | cons now rest ih =>
    have hle : refilled (totalConfig false n w) now (legacyBucket x l) ≤ x + (now - l) * n := by
      rw [legacy_refilled]
      exact min_le_right _ _
    simp only [decisions]
    rw [legacy_script (.inr ⟨x, l, rfl⟩)]
    refine (accepted_spends hw (fun h => mul_nonneg (by linarith) hn') (ih _ now)).trans ?_
    exact max_le_max le_rfl (by linarith)

theorem accepted_within (hw : 0 < w) (hn : 0 ≤ n) (hab : a ≤ b) (times : List ℤ)
    (hkey : key = none ∨ ∃ x l, key = legacyBucket x l) :
    (w : ℚ) * acceptedWithin a b (decisions (totalConfig false n w) key times) ≤
      n * w + (b - a) * n := by
  have hw' : (0 : ℚ) < w := by exact_mod_cast hw
  have hn' : (0 : ℚ) ≤ n := by exact_mod_cast hn
  have hpos : 0 ≤ (n : ℚ) * w + (b - a) * n :=
    add_nonneg (mul_nonneg hn' hw'.le) (mul_nonneg (by linarith) hn')
  induction times generalizing key with
  | nil => simpa [decisions, acceptedWithin] using hpos
  | cons now rest ih =>
    have hfull : refilled (totalConfig false n w) now key ≤ n * w := by
      rcases hkey with rfl | ⟨x, l, rfl⟩
      · simp [refilled, totalConfig]
      · rw [legacy_refilled]
        exact min_le_left _ _
    simp only [decisions]
    rw [legacy_script hkey]
    by_cases ha : a ≤ now
    · -- the first request inside the interval finds at most a full bucket
      refine (accepted_spends hw (fun h => mul_nonneg (by linarith) hn')
        (accepted_from hw hn rest _ now)).trans (max_le hpos ?_)
      have hlater : ((b : ℚ) - now) * n ≤ (b - a) * n :=
        mul_le_mul_of_nonneg_right (by linarith) hn'
      linarith
    · simp only [acceptedWithin_cons, ha, false_and, and_false, if_false, add_zero]
      exact ih (.inr ⟨_, _, rfl⟩)

end Bucket

/-- The script decides alike under both parameters, and accepts in any interval at most a full
bucket and what comes in meanwhile. -/
theorem token_bucket_budget {totalMax window : ℤ} (htotal : 1 ≤ totalMax) (hwindow : 1 ≤ window)
    {times : List ℤ} (hsorted : times.Pairwise (· ≤ ·)) :
    decisions (totalConfig false totalMax window) none times =
        decisions (totalConfig true totalMax window) none times ∧
      ∀ (canonical : Bool) (a t : ℚ), 0 ≤ t →
        (acceptedWithin a (a + t) (decisions (totalConfig canonical totalMax window) none times) :
          ℚ) ≤ totalMax + t * totalMax / window := by
  have hsame : decisions (totalConfig false totalMax window) none times =
      decisions (totalConfig true totalMax window) none times := by
    cases times with
    | nil => rfl
    | cons now rest =>
      refine Scaled.decisions (t := now) hwindow (by omega) _ ?_ .absent
      rw [List.pairwise_cons] at hsorted ⊢
      refine ⟨fun x hx => ?_, List.pairwise_cons.mpr hsorted⟩
      rcases List.mem_cons.mp hx with rfl | hx
      · exact le_rfl
      · exact hsorted.1 x hx
  refine ⟨hsame, fun canonical a t ht => ?_⟩
  have hw : (0 : ℚ) < window := by exact_mod_cast hwindow
  have hbound := accepted_within (a := a) (b := a + t) hwindow (by omega : 0 ≤ totalMax)
    (by linarith) times (.inl rfl)
  have hcount : acceptedWithin a (a + t)
      (decisions (totalConfig canonical totalMax window) none times) =
      acceptedWithin a (a + t) (decisions (totalConfig false totalMax window) none times) := by
    cases canonical
    · rfl
    · rw [hsame]
  rw [hcount]
  refine le_of_mul_le_mul_left (hbound.trans_eq ?_) hw
  rw [add_sub_cancel_left]
  field_simp

theorem token_bucket_budget_pause :
    decisions (totalConfig false 2 10) none [0, 0, 1, 30] =
        decisions (totalConfig true 2 10) none [0, 0, 1, 30] ∧
      ∀ (canonical : Bool) (a t : ℚ), 0 ≤ t →
        (acceptedWithin a (a + t) (decisions (totalConfig canonical 2 10) none [0, 0, 1, 30]) :
          ℚ) ≤ (2 : ℤ) + t * (2 : ℤ) / (10 : ℤ) :=
  token_bucket_budget (by decide) (by decide) (by decide)

end NewApi.Middleware
