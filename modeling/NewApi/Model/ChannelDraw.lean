import Mathlib.Algebra.BigOperators.Ring.List
import Mathlib.Algebra.Module.Defs
import Mathlib.Algebra.Order.BigOperators.Group.List
import Mathlib.Data.Finset.Sort
import Mathlib.Data.List.GetD
import Mathlib.Order.Interval.Finset.Nat
import Mathlib.Tactic.Ring
import NewApi.Common.Text

/-!
# The weighted draw of a channel (model/channel_cache.go, model/ability.go)

Both paths subtract the share of one candidate after the other from a random number.
-/

namespace NewApi.Model.ChannelDraw

structure Channel where
  id : ℤ
  weight : Option ℕ

def Channel.getWeight (c : Channel) : ℕ := c.weight.getD 0

structure Ability where
  channelId : ℤ
  weight : ℕ

def draw (stops : ℤ → Bool) : List ℕ → ℤ → Option ℕ
  | [], _ => none
  | share :: shares, r =>
    if stops (r - share) then some 0 else (draw stops shares (r - share)).map (· + 1)

structure Smoothing where
  sumWeight : ℕ
  smoothingFactor : ℕ
  smoothingAdjustment : ℕ

def smoothing (targetChannels : List Channel) : Smoothing :=
  let sumWeight := (targetChannels.map Channel.getWeight).sum
  if sumWeight = 0 then ⟨targetChannels.length * 100, 1, 100⟩
  else if sumWeight / targetChannels.length < 10 then ⟨sumWeight, 100, 0⟩
  else ⟨sumWeight, 1, 0⟩

def totalWeight (targetChannels : List Channel) : ℕ :=
  (smoothing targetChannels).sumWeight * (smoothing targetChannels).smoothingFactor

/-- The draw of `GetRandomSatisfiedChannel` from the memory cache. -/
def getRandomSatisfiedChannel (targetChannels : List Channel) (randomWeight : ℕ) : Option ℕ :=
  let s := smoothing targetChannels
  draw (fun r => decide (r < 0))
    (targetChannels.map fun c => c.getWeight * s.smoothingFactor + s.smoothingAdjustment) randomWeight

def weightSum (abilities : List Ability) : ℕ := (abilities.map fun a => a.weight + 10).sum

/-- The draw of `GetChannel` from the database. -/
def getChannel (abilities : List Ability) (weight : ℕ) : Option ℕ :=
  draw (fun r => decide (r ≤ 0)) (abilities.map fun a => a.weight + 10) weight

structure Exact (shares : List ℕ) (total : ℕ) (select : ℕ → Option ℕ) : Prop where
  counts : ∀ i share, shares[i]? = some share →
    ((Finset.range total).filter fun d => select d = some i).card = share
  sum : shares.sum = total
  selects : ∀ d < total, ∃ i < shares.length, select d = some i

def cachedShare (cs : List Channel) (c : Channel) : ℕ :=
  if ∀ c ∈ cs, c.getWeight = 0 then 100
  else if (cs.map Channel.getWeight).sum / cs.length < 10 then 100 * c.getWeight
  else c.getWeight

theorem draw_negative (shares : List ℕ) (d i : ℕ) :
    draw (fun r => decide (r < 0)) shares d = some i ↔
      i < shares.length ∧ (shares.take i).sum ≤ d ∧ d < (shares.take (i + 1)).sum := by
  induction shares generalizing d i with
  | nil => simp [draw]
  | cons share shares ih =>
    rw [draw]
    by_cases hd : d < share
    · rw [if_pos (by rw [decide_eq_true_eq]; omega)]
      cases i with
      | zero => simp [hd]
      | succ i =>
        have hle : share ≤ ((share :: shares).take (i + 1)).sum := by simp
        constructor
        · intro h
          cases h
        · intro h
          omega
    · have hsub : (d : ℤ) - share = (d - share : ℕ) := by omega
      rw [if_neg (by rw [decide_eq_true_eq]; omega), hsub]
      cases i with
      | zero => simp [hd]
      | succ i =>
        simp only [Option.map_eq_some_iff, Nat.add_right_cancel_iff, exists_eq_right, ih,
          List.length_cons, List.take_succ_cons, List.sum_cons]
        omega

theorem draw_negative_exact (shares : List ℕ) :
    Exact shares shares.sum fun d => draw (fun r => decide (r < 0)) shares d where
  counts := by
    intro i share hi
    obtain ⟨hlt, hget⟩ := List.getElem?_eq_some_iff.mp hi
    have hnext : (shares.take (i + 1)).sum = (shares.take i).sum + share := by
      rw [List.sum_take_succ shares i hlt, hget]
    have hle : (shares.take (i + 1)).sum ≤ shares.sum := by
      have hsplit := congrArg List.sum (List.take_append_drop (i + 1) shares)
      rw [List.sum_append] at hsplit
      omega
    have hdraws : ((Finset.range shares.sum).filter fun d : ℕ =>
        draw (fun r => decide (r < 0)) shares d = some i) =
          Finset.Ico (shares.take i).sum (shares.take (i + 1)).sum := by
      ext d
      rw [Finset.mem_filter, Finset.mem_range, draw_negative, Finset.mem_Ico]
      omega
    rw [hdraws, Nat.card_Ico, hnext]
    omega
  sum := rfl
  selects := by
    induction shares with
    | nil => simp
    | cons share shares ih =>
      intro d hd
      rw [List.sum_cons] at hd
      by_cases hfirst : d < share
      · exact ⟨0, by simp, (draw_negative _ _ _).mpr (by simp [hfirst])⟩
      · obtain ⟨i, hi, hdraw⟩ := ih (d - share) (by omega)
        rw [draw_negative] at hdraw
        refine ⟨i + 1, by simpa using hi, (draw_negative _ _ _).mpr ?_⟩
        simp only [List.length_cons, List.take_succ_cons, List.sum_cons]
        omega

theorem shares_eq (cs : List Channel) :
    (cs.map fun c => c.getWeight * (smoothing cs).smoothingFactor +
      (smoothing cs).smoothingAdjustment) = cs.map (cachedShare cs) := by
  have hzero : (cs.map Channel.getWeight).sum = 0 ↔ ∀ c ∈ cs, c.getWeight = 0 := by
    simp [List.sum_eq_zero_iff]
  refine List.map_congr_left fun c hc => ?_
  unfold smoothing cachedShare
  simp only [← hzero]
  split
  · next hall => simp [hzero.mp hall c hc]
  split
  · exact Nat.mul_comm _ _
  · exact Nat.mul_one _

theorem sum_shares (cs : List Channel) : (cs.map (cachedShare cs)).sum = totalWeight cs := by
  rw [← shares_eq, totalWeight, List.sum_map_add, List.sum_map_mul_right, List.map_const',
    List.sum_replicate, smul_eq_mul]
  unfold smoothing
  dsimp only
  split
  · next hzero => rw [hzero]; ring
  split
  · ring
  · ring

theorem getChannel_first (a : Ability) (rest : List Ability) (d : ℕ) :
    getChannel (a :: rest) d = some 0 ↔ d ≤ a.weight + 10 := by
  unfold getChannel
  rw [List.map_cons, draw]
  by_cases hd : d ≤ a.weight + 10
  · rw [if_pos (by rw [decide_eq_true_eq]; omega)]
    exact iff_of_true rfl hd
  · rw [if_neg (by rw [decide_eq_true_eq]; omega)]
    refine iff_of_false (fun h => ?_) hd
    obtain ⟨i, -, hi⟩ := Option.map_eq_some_iff.mp h
    cases hi

theorem getChannel_exact_iff (a : Ability) (rest : List Ability) :
    Exact ((a :: rest).map fun a => a.weight + 10) (weightSum (a :: rest)) (getChannel (a :: rest)) ↔
      rest = [] := by
  constructor
  · intro h
    by_contra hne
    obtain ⟨b, rest, rfl⟩ := List.exists_cons_of_ne_nil hne
    have hcount := h.counts 0 (a.weight + 10) rfl
    have hdraws : ((Finset.range (weightSum (a :: b :: rest))).filter fun d =>
        getChannel (a :: b :: rest) d = some 0) = Finset.range (a.weight + 11) := by
      ext d
      rw [Finset.mem_filter, Finset.mem_range, getChannel_first, Finset.mem_range, weightSum,
        List.map_cons, List.map_cons, List.sum_cons, List.sum_cons]
      omega
    rw [hdraws, Finset.card_range] at hcount
    omega
  · rintro rfl
    have hall : ∀ d < a.weight + 10, getChannel [a] d = some 0 :=
      fun d hd => (getChannel_first a [] d).mpr hd.le
    refine ⟨fun i share hi => ?_, rfl, fun d hd => ⟨0, by simp, hall d hd⟩⟩
    obtain ⟨hlt, rfl⟩ := List.getElem?_eq_some_iff.mp hi
    obtain rfl : i = 0 := by simpa using hlt
    have hdraws : ((Finset.range (weightSum [a])).filter fun d => getChannel [a] d = some 0) =
        Finset.range (a.weight + 10) :=
      Finset.filter_true_of_mem fun d hd => hall d (Finset.mem_range.mp hd)
    rw [hdraws, Finset.card_range]
    rfl

/-- The draw from the memory cache is exact for all candidates, the one from the database exactly
if there is a single candidate. -/
theorem weighted_draw_exact_iff (c : Channel) (cs : List Channel) (a : Ability)
    (abilities : List Ability) :
    Exact ((c :: cs).map (cachedShare (c :: cs))) (totalWeight (c :: cs))
        (getRandomSatisfiedChannel (c :: cs)) ∧
      (Exact ((a :: abilities).map fun a => a.weight + 10) (weightSum (a :: abilities))
        (getChannel (a :: abilities)) ↔ abilities = []) := by
  refine ⟨?_, getChannel_exact_iff a abilities⟩
  have hexact := draw_negative_exact ((c :: cs).map (cachedShare (c :: cs)))
  rw [sum_shares] at hexact
  unfold getRandomSatisfiedChannel
  dsimp only
  rw [shares_eq]
  exact hexact

/-- Two abilities of weight zero: 11 of the 20 draws select the first. -/
theorem getChannel_prefers_first :
    ((Finset.range (weightSum [⟨1, 0⟩, ⟨2, 0⟩])).filter fun d =>
      getChannel [⟨1, 0⟩, ⟨2, 0⟩] d = some 0).card = 11 ∧
    ((Finset.range (weightSum [⟨1, 0⟩, ⟨2, 0⟩])).filter fun d =>
      getChannel [⟨1, 0⟩, ⟨2, 0⟩] d = some 1).card = 9 := by
  decide +kernel

/-! ## The priority of a retry -/

structure CachedChannel extends Channel where
  priority : Option ℤ

def CachedChannel.getPriority (c : CachedChannel) : ℤ := c.priority.getD 0

def missingChannel (id : ℤ) : Text :=
  "数据库一致性错误，渠道# ".toList ++ fmtInt id ++ " 不存在，请联系管理员修复".toList

def uniquePriorities (cs : List CachedChannel) : Finset ℤ :=
  (cs.map CachedChannel.getPriority).toFinset

def drawAt (group model : Text) (random : ℕ → ℕ) (cs : List CachedChannel) (targetPriority : ℤ) :
    Except Text (Option CachedChannel) :=
  let targetChannels := cs.filter fun c => decide (c.getPriority = targetPriority)
  let drawn := targetChannels.map CachedChannel.toChannel
  if targetChannels.isEmpty then
    .error ("no channel found, group: ".toList ++ group ++ ", model: ".toList ++ model ++
      ", priority: ".toList ++ fmtInt targetPriority)
  else
    match getRandomSatisfiedChannel drawn (random (totalWeight drawn)) with
    | some i => .ok targetChannels[i]?
    | none => .error "channel not found".toList

/-- `GetRandomSatisfiedChannel` on the cached `channels` that serve the model and the path;
`random` is `rand.Intn`. -/
def selectChannel (group model : Text) (channelsIDM : ℤ → Option CachedChannel) (random : ℕ → ℕ)
    (retry : ℕ) (channels : List ℤ) : Except Text (Option CachedChannel) :=
  if channels = [] then .ok none
  else do
    let cs ← channels.mapM fun id => (channelsIDM id).elim (.error (missingChannel id)) .ok
    if channels.length = 1 then return cs.head?
    let sortedUniquePriorities := (uniquePriorities cs).sort (· ≥ ·)
    drawAt group model random cs
      (sortedUniquePriorities.getD (min retry ((uniquePriorities cs).card - 1)) 0)

theorem totalWeight_pos (c : Channel) (cs : List Channel) : 0 < totalWeight (c :: cs) := by
  unfold totalWeight smoothing
  dsimp only
  split
  · simp
  next hsum => split <;> exact Nat.mul_pos (Nat.pos_of_ne_zero hsum) (Nat.succ_pos _)

theorem drawAt_ok (group model : Text) {random : ℕ → ℕ} {cs : List CachedChannel} {p : ℤ}
    (hp : p ∈ uniquePriorities cs) (hrandom : ∀ n, 0 < n → random n < n) :
    ∃ c ∈ cs, c.getPriority = p ∧ drawAt group model random cs p = .ok (some c) := by
  obtain ⟨c₀, hc₀, hp₀⟩ := List.mem_map.mp (List.mem_toFinset.mp hp)
  have hmem : c₀ ∈ cs.filter fun c => decide (c.getPriority = p) := by simp [hc₀, hp₀]
  have hin : ∀ c ∈ cs.filter fun c => decide (c.getPriority = p), c ∈ cs ∧ c.getPriority = p :=
    fun c hc => by simpa using hc
  unfold drawAt
  generalize (cs.filter fun c => decide (c.getPriority = p)) = target at hmem hin
  obtain ⟨c, rest, rfl⟩ := List.exists_cons_of_ne_nil (List.ne_nil_of_mem hmem)
  have hexact := draw_negative_exact (((c :: rest).map CachedChannel.toChannel).map
    (cachedShare ((c :: rest).map CachedChannel.toChannel)))
  rw [sum_shares] at hexact
  obtain ⟨i, hi, hdraw⟩ := hexact.selects _ (hrandom _ (totalWeight_pos _ _))
  rw [← shares_eq] at hdraw
  rw [List.length_map, List.length_map] at hi
  have hget := hin _ (List.getElem_mem hi)
  refine ⟨(c :: rest)[i], hget.1, hget.2, ?_⟩
  dsimp only [getRandomSatisfiedChannel]
  rw [if_neg (by simp), hdraw]
  exact congrArg _ (List.getElem?_eq_getElem hi)

theorem count_above (ps : List ℤ) (hps : ps.Pairwise (· > ·)) (j : ℕ) (hj : j < ps.length) :
    (ps.filter fun p => decide (ps[j] < p)).length = j := by
  induction ps generalizing j with
  | nil => cases hj
  | cons p ps ih =>
    rw [List.pairwise_cons] at hps
    cases j with
    | zero =>
      have hnone : ps.filter (fun q => decide (p < q)) = [] :=
        List.filter_eq_nil_iff.mpr fun q hq => by simpa using (hps.1 q hq).le
      simp [hnone]
    | succ j =>
      have hlt : j < ps.length := by simpa using hj
      have hgt := hps.1 _ (List.getElem_mem hlt)
      simp [hgt, ih hps.2 j hlt]

theorem mapM_found (channelsIDM : ℤ → Option CachedChannel) {channels : List ℤ}
    (h : ∀ id ∈ channels, (channelsIDM id).isSome) :
    (channels.mapM fun id => (channelsIDM id).elim (.error (missingChannel id)) .ok) =
      (.ok (channels.filterMap channelsIDM) : Except Text _) := by
  induction channels with
  | nil => rfl
  | cons id channels ih =>
    obtain ⟨c, hc⟩ := Option.isSome_iff_exists.mp (h id List.mem_cons_self)
    rw [List.mapM_cons, ih fun j hj => h j (List.mem_cons_of_mem _ hj), hc, List.filterMap_cons, hc]
    rfl

/-- From a complete cache every draw selects a channel: retry `n` one below exactly `n` priorities,
or of the lowest one when there are no more. -/
theorem retry_walks_priorities (group model : Text) (channelsIDM : ℤ → Option CachedChannel)
    (random : ℕ → ℕ) (hrandom : ∀ n, 0 < n → random n < n) (retry : ℕ) (channels : List ℤ)
    (hne : channels ≠ []) (hknown : ∀ id ∈ channels, (channelsIDM id).isSome) :
    let cs := channels.filterMap channelsIDM
    ∃ c ∈ cs, selectChannel group model channelsIDM random retry channels = .ok (some c) ∧
      ((uniquePriorities cs).filter (c.getPriority < ·)).card =
        min retry ((uniquePriorities cs).card - 1) := by
  intro cs
  obtain ⟨id, hid⟩ := List.exists_mem_of_ne_nil _ hne
  obtain ⟨c₀, hc₀⟩ := Option.isSome_iff_exists.mp (hknown id hid)
  have hpos : 0 < (uniquePriorities cs).card := Finset.card_pos.mpr ⟨c₀.getPriority,
    List.mem_toFinset.mpr (List.mem_map_of_mem (List.mem_filterMap.mpr ⟨id, hid, hc₀⟩))⟩
  unfold selectChannel
  rw [if_neg hne, mapM_found channelsIDM hknown]
  show ∃ c ∈ cs, (if channels.length = 1 then pure cs.head? else _) = _ ∧ _
  split
  · next hone =>
    obtain ⟨id', rfl⟩ := List.length_eq_one_iff.mp hone
    obtain rfl := List.mem_singleton.mp hid
    have hcs : cs = [c₀] := by simp [cs, hc₀]
    exact ⟨c₀, by simp [hcs], by simp [hcs, pure, Except.pure], by simp [hcs, uniquePriorities]⟩
  · have hj : min retry ((uniquePriorities cs).card - 1) <
        ((uniquePriorities cs).sort (· ≥ ·)).length := by
      rw [Finset.length_sort]
      omega
    obtain ⟨c, hc, hp, hdraw⟩ := drawAt_ok group model
      ((Finset.mem_sort (· ≥ ·)).mp (List.getElem_mem hj)) hrandom
    refine ⟨c, hc, (congrArg _ (List.getD_eq_getElem _ _ hj)).trans hdraw, ?_⟩
    have hcount := count_above _ (Finset.sortedGT_sort (uniquePriorities cs)).pairwise _ hj
    rw [← hp, ← List.toFinset_card_of_nodup ((Finset.sort_nodup ..).filter _),
      List.toFinset_filter, Finset.sort_toFinset] at hcount
    simpa using hcount

def twoLevels (id : ℤ) : Option CachedChannel := some ⟨⟨id, none⟩, some (id % 2)⟩

theorem retry_walks_priorities_last : ∃ c ∈ [1, 2, 3].filterMap twoLevels,
    selectChannel [] [] twoLevels (fun _ => 0) 7 [1, 2, 3] = .ok (some c) ∧
      ((uniquePriorities ([1, 2, 3].filterMap twoLevels)).filter (c.getPriority < ·)).card = 1 := by
  obtain ⟨c, hc, hok, hrank⟩ := retry_walks_priorities [] [] twoLevels (fun _ => 0)
    (fun _ h => h) 7 [1, 2, 3] (by simp) (fun _ _ => rfl)
  exact ⟨c, hc, hok, hrank.trans (by decide)⟩

end NewApi.Model.ChannelDraw
