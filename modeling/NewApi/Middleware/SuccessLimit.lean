import Mathlib.Data.List.Basic
import NewApi.Middleware.ModelRateLimit

/-!
# The success limit on both backends

On Redis a request is rejected by the successes of the last window.
-/

namespace NewApi.Middleware

/-- The requests and whether they were rejected, the newest one first. -/
abbrev Log := List (Request × Bool)

def redisStep (c : Setup) (s : Redis × Log) (r : Request) : Redis × Log :=
  ((redisRateLimitHandler c r s.1).2, (r, (redisRateLimitHandler c r s.1).1.rejected) :: s.2)

def memoryStep (c : Setup) (s : InMemoryRateLimiter × Log) (r : Request) :
    InMemoryRateLimiter × Log :=
  ((memoryRateLimitHandler c r s.1).2, (r, (memoryRateLimitHandler c r s.1).1.rejected) :: s.2)

def redisLog (c : Setup) (history : List Request) : Log :=
  (history.foldl (redisStep c) ({}, [])).2

def memoryLog (c : Setup) (history : List Request) : Log :=
  (history.foldl (memoryStep c) (fun _ => [], [])).2

def Sequential : ℤ → List Request → Prop
  | _, [] => True
  | t, r :: rest => t ≤ r.arrival ∧ r.arrival ≤ r.finish ∧ Sequential r.finish rest

def successes (log : Log) : List ℤ :=
  (log.filter fun e => !e.2 && decide (e.1.status < 400)).map fun e => e.1.finish

def arrivals (log : Log) : List ℤ := (log.filter fun e => !e.2).map fun e => e.1.arrival

def within (window now : ℤ) (times : List ℤ) : ℕ :=
  times.countP fun x => decide (now - x < window)

def successRule (c : Setup) (past : Log) (r : Request) : Bool :=
  decide (c.successMaxCount ≤ within c.window r.arrival (successes past))

def arrivalRule (c : Setup) (past : Log) (r : Request) : Bool :=
  decide (c.successMaxCount ≤ within c.window r.arrival (arrivals past))

/-- A request that was let through and arrived less than one window ago. -/
def arrivedIn (c : Setup) (now : ℤ) (e : Request × Bool) : Bool :=
  !e.2 && decide (now - e.1.arrival < c.window)

/-- A request that was let through and succeeded less than one window ago. -/
def succeededIn (c : Setup) (now : ℤ) (e : Request × Bool) : Bool :=
  !e.2 && decide (e.1.status < 400) && decide (now - e.1.finish < c.window)

/-- At every request, fewer than `successMaxCount` of the earlier ones arrived or succeeded in the
window, or each of them did both. -/
def CountedAlike (c : Setup) : Log → Prop
  | [] => True
  | e :: past =>
    ((past.countP fun x => arrivedIn c e.1.arrival x || succeededIn c e.1.arrival x) <
        c.successMaxCount ∨
      ∀ x ∈ past, arrivedIn c e.1.arrival x = succeededIn c e.1.arrival x) ∧ CountedAlike c past

/-- Every request of the log was rejected exactly if the rule says so. -/
def Obeys (rule : Log → Request → Bool) : Log → Prop
  | [] => True
  | e :: past => e.2 = rule past e.1 ∧ Obeys rule past

/-- The requests as a limiter with this rule serves them. -/
def logBy (rule : Log → Request → Bool) : List Request → Log
  | [] => []
  | r :: earlier => (r, rule (logBy rule earlier) r) :: logBy rule earlier

section Rules

variable {rule : Log → Request → Bool}

theorem obeys_iff (log : Log) : Obeys rule log ↔ log = logBy rule (log.map Prod.fst) := by
  induction log with
  | nil => exact ⟨fun _ => rfl, fun _ => trivial⟩
  | cons e past ih =>
    simp only [Obeys, List.map_cons, logBy, List.cons.injEq, ih]
    constructor
    · rintro ⟨he, hpast⟩
      exact ⟨Prod.ext rfl (by rw [← hpast]; exact he), hpast⟩
    · rintro ⟨he, hpast⟩
      rw [← hpast] at he
      exact ⟨congrArg Prod.snd he, hpast⟩

theorem map_logBy (rs : List Request) : (logBy rule rs).map Prod.fst = rs := by
  induction rs with
  | nil => rfl
  | cons r earlier ih => simp [logBy, ih]

end Rules

section Redis

variable {k : ℕ} {w now now' : ℤ} {S L : List ℤ} {key : Option (Key (List ℤ))}

theorem le_countP_iff {α : Type} {p : α → Bool} (j : ℕ) (l : List α)
    (h : l.Pairwise fun x y => p y → p x) : j + 1 ≤ l.countP p ↔ ∃ x ∈ l[j]?, p x := by
  induction l generalizing j with
  | nil => simp
  | cons x l ih =>
    rw [List.pairwise_cons] at h
    by_cases hx : p x
    · cases j with
      | zero => simp [hx]
      | succ j => simpa [List.countP_cons, hx] using ih j h.2
    · -- nothing behind `x` counts either
      have hnone : ∀ y ∈ x :: l, ¬ p y := by
        intro y hy
        rcases List.mem_cons.mp hy with rfl | hy
        · exact hx
        · exact fun hp => hx (h.1 y hy hp)
      rw [List.countP_eq_zero.mpr hnone]
      constructor
      · omega
      · rintro ⟨y, hy, hp⟩
        exact absurd hp (hnone y (List.mem_of_getElem? hy))

/-- The stamps are the last successes, up to the limit or as far as they still count. -/
def Covers (k : ℕ) (w now : ℤ) (S L : List ℤ) : Prop :=
  ∃ m ≤ k, L = S.take m ∧ (m < k → ∀ x ∈ S.drop m, x + w ≤ now)

theorem Covers.mono (h : Covers k w now S L) (hle : now ≤ now') : Covers k w now' S L := by
  obtain ⟨m, hm, hL, hold⟩ := h
  exact ⟨m, hm, hL, fun hlt x hx => by have := hold hlt x hx; omega⟩

theorem covers_nil (h : ∀ x ∈ S, x + w ≤ now) : Covers k w now S [] :=
  ⟨0, Nat.zero_le k, rfl, fun _ x hx => h x hx⟩

theorem Covers.cons (h : Covers k w now S L) (f : ℤ) : Covers k w now (f :: S) ((f :: L).take k) := by
  obtain ⟨m, hm, rfl, hold⟩ := h
  refine ⟨min (m + 1) k, min_le_right _ _, ?_, fun hlt => ?_⟩
  · rw [← List.take_succ_cons, List.take_take, min_comm]
  · have hmin : min (m + 1) k = m + 1 := by omega
    rw [hmin] at hlt ⊢
    exact hold (by omega)

theorem Covers.rejects_iff (hk : 0 < k) (hS : S.Pairwise (· ≥ ·)) (h : Covers k w now S L) :
    (k ≤ L.length ∧ ∃ x ∈ L.getLast?, now - x < w) ↔ k ≤ within w now S := by
  obtain ⟨j, rfl⟩ := Nat.exists_eq_succ_of_ne_zero hk.ne'
  obtain ⟨m, hm, rfl, hold⟩ := h
  rw [within, le_countP_iff j S (hS.imp fun hxy => by simp; omega)]
  rcases hm.lt_or_eq with hlt | rfl
  · constructor
    · rintro ⟨hlen, -⟩
      rw [List.length_take] at hlen
      omega
    · rintro ⟨x, hx, hw⟩
      have hmem : x ∈ S.drop m := by
        refine List.mem_of_getElem? (i := j - m) ?_
        rw [List.getElem?_drop, show m + (j - m) = j by omega]
        exact hx
      have := hold hlt x hmem
      simp only [decide_eq_true_eq] at hw
      omega
  · by_cases hlen : j + 1 ≤ S.length
    · have hlast : (S.take (j + 1)).getLast? = S[j]? := by
        rw [List.getLast?_eq_getElem?, List.length_take, min_eq_left hlen, Nat.add_sub_cancel,
          List.getElem?_take_of_lt (Nat.lt_succ_self j)]
      simp [hlast, hlen]
    · have hnone : S[j]? = none := List.getElem?_eq_none (by omega)
      have hshort : ¬ j + 1 ≤ min (j + 1) S.length := by omega
      simp [hnone, hshort]

theorem stamps_deadline (v : List ℤ) (d : ℤ) :
    stamps now (some ⟨v, some d⟩) = if now ≤ d then v else [] := by
  unfold stamps
  split_ifs with h
  · rw [Key.live_of_le h]
  · rw [Key.live_of_lt (by omega)]

theorem check_eq (hk : 0 < k) :
    checkRedisRateLimit k w now key =
      if k ≤ (stamps now key).length ∧ ∃ x ∈ (stamps now key).getLast?, now - x < w then
        (some false, Key.expire now w key)
      else (some true, key) := by
  unfold checkRedisRateLimit
  by_cases hlen : k ≤ (stamps now key).length
  · rcases hx : (stamps now key).getLast? with _ | x
    · simp only [List.getLast?_eq_none_iff.mp hx, List.length_nil] at hlen
      omega
    · simp [hk.ne', hlen]
  · rw [if_pos (.inr (by omega)), if_neg fun h => hlen h.1]

def Reads (k : ℕ) (w t : ℤ) (S : List ℤ) (key : Option (Key (List ℤ))) : Prop :=
  ∀ now, t ≤ now → Covers k w now S (stamps now key)

variable {t : ℤ}

theorem reads_deadline {v : List ℤ} (h : Covers k w now S v) (hS : ∀ x ∈ S, x ≤ now) :
    Reads k w now S (some ⟨v, some (now + w)⟩) := by
  intro later hlater
  rw [stamps_deadline]
  split_ifs with hlive
  · exact h.mono hlater
  · exact covers_nil fun x hx => by have := hS x hx; omega

theorem Reads.expire (h : Reads k w t S key) (ht : t ≤ now) (hS : ∀ x ∈ S, x ≤ t) :
    Reads k w now S (Key.expire now w key) := by
  have hnow := h now ht
  unfold stamps at hnow
  unfold Key.expire
  rcases hlive : Key.live now key with _ | ⟨v, d⟩
  · rw [hlive] at hnow
    exact fun later hlater => hnow.mono hlater
  · rw [hlive] at hnow
    exact reads_deadline hnow fun x hx => by have := hS x hx; omega

theorem Reads.record (h : Reads k w t S key) (ht : t ≤ now) (hS : ∀ x ∈ S, x ≤ t) (hk : 0 < k) :
    Reads k w now (now :: S) (recordRedisRequest k w now key) := by
  rw [recordRedisRequest, if_neg hk.ne']
  refine reads_deadline ((h now ht).cons now) fun x hx => ?_
  rcases List.mem_cons.mp hx with rfl | hx
  · exact Int.le_refl x
  · have := hS x hx
    omega

end Redis

section Handlers

variable {c : Setup} {t : ℤ} {log : Log} {r : Request}

theorem successes_served : successes ((r, false) :: log) =
    if r.status < 400 then r.finish :: successes log else successes log := by
  simp only [successes]
  split <;> simp_all

theorem redis_handler (hmax : 1 ≤ c.successMaxCount) (htotal : c.totalMaxCount = 0) {db : Redis}
    {key : Option (Key (List ℤ))} (hkey : db.lists (redisSuccessKey c) = key) :
    if c.successMaxCount ≤ (stamps r.arrival key).length ∧
        ∃ x ∈ (stamps r.arrival key).getLast?, r.arrival - x < c.window then
      (redisRateLimitHandler c r db).1.rejected = true ∧
        (redisRateLimitHandler c r db).2.lists (redisSuccessKey c) =
          Key.expire r.arrival c.window key
    else
      (redisRateLimitHandler c r db).1.rejected = false ∧
        (redisRateLimitHandler c r db).2.lists (redisSuccessKey c) =
          if r.status < 400 then recordRedisRequest c.successMaxCount c.window r.finish key
          else key := by
  have hlists : (expireLegacyTotal c r.arrival db).lists = db.lists := by
    unfold expireLegacyTotal
    split <;> rfl
  unfold redisRateLimitHandler
  simp only [hlists, hkey, check_eq hmax, htotal, Nat.lt_irrefl]
  by_cases hrej : c.successMaxCount ≤ (stamps r.arrival key).length ∧
      ∃ x ∈ (stamps r.arrival key).getLast?, r.arrival - x < c.window
  · simp only [if_pos hrej]
    exact ⟨rfl, Function.update_self ..⟩
  · simp only [if_neg hrej]
    by_cases hok : r.status < 400
    · simp [hok, Outcome.rejected, Redis.setList, Redis.setBucket]
    · simp [hok, Outcome.rejected, Redis.setList, Redis.setBucket]

structure RedisInv (c : Setup) (t : ℤ) (s : Redis × Log) : Prop where
  reads : Reads c.successMaxCount c.window t (successes s.2) (s.1.lists (redisSuccessKey c))
  sorted : (successes s.2).Pairwise (· ≥ ·)
  past : ∀ x ∈ successes s.2, x ≤ t
  obeys : Obeys (successRule c) s.2

theorem RedisInv.step {s : Redis × Log} (hmax : 1 ≤ c.successMaxCount)
    (htotal : c.totalMaxCount = 0) (h : RedisInv c t s) (ht : t ≤ r.arrival)
    (hr : r.arrival ≤ r.finish) : RedisInv c r.finish (redisStep c s r) := by
  have hiff := (h.reads r.arrival ht).rejects_iff hmax h.sorted
  have hpast : ∀ x ∈ successes s.2, x ≤ r.finish := fun x hx => by have := h.past x hx; omega
  have hhandler := redis_handler (r := r) hmax htotal (Eq.refl (s.1.lists (redisSuccessKey c)))
  dsimp only [redisStep]
  split_ifs at hhandler with hrej hok <;> obtain ⟨hrejected, hkey⟩ := hhandler <;> rw [hrejected]
  · refine ⟨?_, h.sorted, hpast, (decide_eq_true (hiff.mp hrej)).symm, h.obeys⟩
    rw [hkey]
    exact fun now hnow => (h.reads.expire ht h.past) now (by omega)
  · refine ⟨?_, ?_, ?_, (decide_eq_false (mt hiff.mpr hrej)).symm, h.obeys⟩ <;>
      simp only [successes_served, if_pos hok]
    · rw [hkey]
      exact h.reads.record (by omega) h.past hmax
    · exact List.pairwise_cons.mpr ⟨hpast, h.sorted⟩
    · exact List.forall_mem_cons.mpr ⟨Int.le_refl _, hpast⟩
  · refine ⟨?_, ?_, ?_, (decide_eq_false (mt hiff.mpr hrej)).symm, h.obeys⟩ <;>
      simp only [successes_served, if_neg hok]
    · rw [hkey]
      exact fun now hnow => h.reads now (by omega)
    · exact h.sorted
    · exact hpast

theorem RedisInv.run (hmax : 1 ≤ c.successMaxCount) (htotal : c.totalMaxCount = 0)
    (history : List Request) {s : Redis × Log} (hseq : Sequential t history)
    (h : RedisInv c t s) : Obeys (successRule c) (history.foldl (redisStep c) s).2 := by
  induction history generalizing t s with
  | nil => exact h.obeys
  | cons r rest ih => exact ih hseq.2.2 (h.step hmax htotal hseq.1 hseq.2.1)

theorem dropWhile_eq_filter (w now : ℤ) (l : List ℤ) (h : l.Pairwise (· ≤ ·)) :
    (l.dropWhile fun x => decide (w ≤ now - x)) = l.filter fun x => decide (now - x < w) := by
  induction l with
  | nil => rfl
  | cons x l ih =>
    rw [List.pairwise_cons] at h
    by_cases hx : w ≤ now - x
    · rw [List.dropWhile_cons_of_pos (by simpa using hx), ih h.2,
        List.filter_cons_of_neg (by simpa using hx)]
    · rw [List.dropWhile_cons_of_neg (by simpa using hx), eq_comm, List.filter_eq_self]
      intro y hy
      have : x ≤ y := by
        rcases List.mem_cons.mp hy with rfl | hy
        · exact Int.le_refl y
        · exact h.1 y hy
      simp only [decide_eq_true_eq]
      omega

theorem within_filter {w now now' : ℤ} (hle : now ≤ now') (l : List ℤ) :
    within w now' (l.filter fun x => decide (now - x < w)) = within w now' l := by
  rw [within, List.countP_filter]
  refine List.countP_congr fun x _ => ?_
  simp only [Bool.and_eq_true, decide_eq_true_eq]
  omega

theorem memory_handler (htotal : c.totalMaxCount = 0) {l : InMemoryRateLimiter} {active : List ℤ}
    (hactive : ((l (checkKey c)).dropWhile fun x => decide (c.window ≤ r.arrival - x)) = active) :
    if c.successMaxCount ≤ active.length then
      (memoryRateLimitHandler c r l).1.rejected = true ∧
        (memoryRateLimitHandler c r l).2 (checkKey c) = active
    else
      (memoryRateLimitHandler c r l).1.rejected = false ∧
        (memoryRateLimitHandler c r l).2 (checkKey c) = active ++ [r.arrival] := by
  have hne : checkKey c ≠ memorySuccessKey c := fun h => by
    simpa [checkKey] using congrArg List.length h
  unfold memoryRateLimitHandler
  simp only [htotal, Nat.lt_irrefl, if_false, InMemoryRateLimiter.request, hactive]
  by_cases hfull : c.successMaxCount ≤ active.length
  · simp [hfull, Outcome.rejected]
  by_cases hok : r.status < 400
  · simp only [hfull, hok, if_false, Bool.true_eq_false]
    refine ⟨rfl, ?_⟩
    split_ifs <;> simp [Function.update_of_ne hne]
  · simp [hfull, hok, Outcome.rejected]

structure MemoryInv (c : Setup) (t : ℤ) (s : InMemoryRateLimiter × Log) : Prop where
  counts : ∀ now, t ≤ now →
    within c.window now (s.1 (checkKey c)) = within c.window now (arrivals s.2)
  sorted : (s.1 (checkKey c)).Pairwise (· ≤ ·)
  past : ∀ x ∈ s.1 (checkKey c), x ≤ t
  obeys : Obeys (arrivalRule c) s.2

theorem MemoryInv.step {s : InMemoryRateLimiter × Log} (htotal : c.totalMaxCount = 0)
    (h : MemoryInv c t s) (ht : t ≤ r.arrival) (hr : r.arrival ≤ r.finish) :
    MemoryInv c r.finish (memoryStep c s r) := by
  have hhandler := memory_handler htotal (dropWhile_eq_filter c.window r.arrival _ h.sorted)
  generalize hactive : ((s.1 (checkKey c)).filter fun x => decide (r.arrival - x < c.window)) =
    active at hhandler
  have hcounts : ∀ now, r.arrival ≤ now →
      within c.window now active = within c.window now (arrivals s.2) := fun now hnow => by
    rw [← hactive, within_filter hnow, h.counts now (by omega)]
  have hpast : ∀ x ∈ active, x ≤ r.arrival := fun x hx => by
    have := h.past x (List.mem_of_mem_filter (hactive ▸ hx))
    omega
  have hsorted : active.Pairwise (· ≤ ·) := hactive ▸ h.sorted.filter _
  have hrule : c.successMaxCount ≤ active.length ↔
      c.successMaxCount ≤ within c.window r.arrival (arrivals s.2) := by
    rw [← h.counts _ ht, ← hactive, within, List.countP_eq_length_filter]
  dsimp only [memoryStep]
  split_ifs at hhandler with hfull <;> obtain ⟨hrejected, hkey⟩ := hhandler <;> rw [hrejected]
  · refine ⟨?_, ?_, ?_, (decide_eq_true (hrule.mp hfull)).symm, h.obeys⟩ <;> simp [hkey]
    · exact fun now hnow => hcounts now (by omega)
    · exact hsorted
    · exact fun x hx => by have := hpast x hx; omega
  · refine ⟨?_, ?_, ?_, (decide_eq_false (mt hrule.mpr hfull)).symm, h.obeys⟩ <;> simp only [hkey]
    · intro now hnow
      show _ = within c.window now (r.arrival :: arrivals s.2)
      have := hcounts now (by omega)
      simp only [within, List.countP_append, List.countP_cons, List.countP_nil] at this ⊢
      omega
    · exact List.pairwise_append.mpr ⟨hsorted, List.pairwise_singleton _ _, fun x hx y hy =>
        List.mem_singleton.mp hy ▸ hpast x hx⟩
    · intro x hx
      rcases List.mem_append.mp hx with hx | hx
      · have := hpast x hx
        omega
      · exact List.mem_singleton.mp hx ▸ hr

theorem MemoryInv.run (htotal : c.totalMaxCount = 0) (history : List Request)
    {s : InMemoryRateLimiter × Log} (hseq : Sequential t history) (h : MemoryInv c t s) :
    Obeys (arrivalRule c) (history.foldl (memoryStep c) s).2 := by
  induction history generalizing t s with
  | nil => exact h.obeys
  | cons r rest ih => exact ih hseq.2.2 (h.step htotal hseq.1 hseq.2.1)

theorem map_memoryLog (history : List Request) (s : InMemoryRateLimiter × Log) :
    (history.foldl (memoryStep c) s).2.map Prod.fst = history.reverse ++ s.2.map Prod.fst := by
  induction history generalizing s with
  | nil => rfl
  | cons r rest ih => simp [ih, memoryStep]

end Handlers

theorem within_arrivals (c : Setup) (now : ℤ) (log : Log) :
    within c.window now (arrivals log) = log.countP (arrivedIn c now) := by
  rw [within, arrivals, List.countP_map, List.countP_filter]
  refine List.countP_congr fun e _ => ?_
  rw [arrivedIn, Bool.and_comm]
  rfl

theorem within_successes (c : Setup) (now : ℤ) (log : Log) :
    within c.window now (successes log) = log.countP (succeededIn c now) := by
  rw [within, successes, List.countP_map, List.countP_filter]
  refine List.countP_congr fun e _ => ?_
  rw [succeededIn, Bool.and_comm]
  rfl

theorem arrivalRule_eq {c : Setup} {past : Log} {r : Request}
    (h : (past.countP fun x => arrivedIn c r.arrival x || succeededIn c r.arrival x) <
        c.successMaxCount ∨
      ∀ x ∈ past, arrivedIn c r.arrival x = succeededIn c r.arrival x) :
    arrivalRule c past r = successRule c past r := by
  rw [arrivalRule, successRule, within_arrivals, within_successes]
  rcases h with hfew | hsame
  · have harrived : past.countP (arrivedIn c r.arrival) < c.successMaxCount :=
      Nat.lt_of_le_of_lt
        (List.countP_mono_left fun x _ hx => Bool.or_eq_true_iff.mpr (.inl hx)) hfew
    have hsucceeded : past.countP (succeededIn c r.arrival) < c.successMaxCount :=
      Nat.lt_of_le_of_lt
        (List.countP_mono_left fun x _ hx => Bool.or_eq_true_iff.mpr (.inr hx)) hfew
    rw [decide_eq_false (Nat.not_le.mpr harrived), decide_eq_false (Nat.not_le.mpr hsucceeded)]
  · rw [List.countP_congr fun x hx => by rw [hsame x hx]]

theorem obeys_of_countedAlike {c : Setup} (rs : List Request)
    (h : CountedAlike c (logBy (successRule c) rs)) :
    Obeys (arrivalRule c) (logBy (successRule c) rs) := by
  induction rs with
  | nil => trivial
  | cons r earlier ih => exact ⟨(arrivalRule_eq h.1).symm, ih h.2⟩

def twoSuccesses : Setup :=
  { userId := 7, window := 60, windowText := "1m".toList, canonical := true, totalMaxCount := 0
    successMaxCount := 2 }

/-- Two successes, a request that is rejected, and a failure that is alone in its window. -/
def mixedHistory : List Request :=
  [⟨0, 1, 200⟩, ⟨5, 6, 200⟩, ⟨7, 8, 200⟩, ⟨100, 101, 500⟩, ⟨105, 106, 200⟩]

def oneSuccess : Setup := { twoSuccesses with successMaxCount := 1 }

end NewApi.Middleware
