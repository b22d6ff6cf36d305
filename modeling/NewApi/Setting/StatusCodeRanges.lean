import Mathlib.Data.List.Sort
import NewApi.Common.Text

/-!
# Status-code ranges (setting/operation_setting/status_code_ranges.go)

The sorted and merged list of ranges is the normal form of a set of codes.
-/

namespace NewApi.Setting.StatusCode

structure StatusCodeRange where
  start : ℤ
  stop : ℤ
  deriving DecidableEq, Repr

def rangeText (r : StatusCodeRange) : Text :=
  if r.start = r.stop then fmtInt r.start else fmtInt r.start ++ '-' :: fmtInt r.stop

def statusCodeRangesToString (ranges : List StatusCodeRange) : Text :=
  [','].intercalate (ranges.map rangeText)

def matchLoop : List StatusCodeRange → ℤ → Bool
  | [], _ => false
  | r :: ranges, code =>
    if code < r.start then false else if code ≤ r.stop then true else matchLoop ranges code

def shouldMatchStatusCodeRanges (ranges : List StatusCodeRange) (code : ℤ) : Bool :=
  if code < 100 ∨ code > 599 then false else matchLoop ranges code

/-- A token with one dash, between `a` and `b`. -/
def parseBounds (token a b : Text) : Except Text StatusCodeRange :=
  if a = [] ∨ b = [] then .error ("invalid range token: ".toList ++ token)
  else match atoi a, atoi b with
    | none, _ => .error ("invalid range start: ".toList ++ token)
    | some _, none => .error ("invalid range end: ".toList ++ token)
    | some start, some stop =>
      if start > stop then .error ("range start > end: ".toList ++ token)
      else if start < 100 ∨ stop > 599 then .error ("range out of bounds: ".toList ++ token)
      else .ok ⟨start, stop⟩

def parseBare (token : Text) : Except Text StatusCodeRange :=
  if token = [] then .error "empty token".toList
  else if '-' ∈ token then
    match token.splitOn '-' with
    | [a, b] => parseBounds token a b
    | _ => .error ("invalid range token: ".toList ++ token)
  else match atoi token with
    | none => .error ("invalid status code: ".toList ++ token)
    | some code =>
      if code < 100 ∨ code > 599 then .error ("status code out of bounds: ".toList ++ token)
      else .ok ⟨code, code⟩

def parseHTTPStatusCodeToken (token : Text) : Except Text StatusCodeRange :=
  parseBare ((trimSpace token).filter (· != ' '))

/-- The loop over the segments: the ranges, and the segments that are no token. -/
def parseSegments : List Text → List StatusCodeRange × List Text
  | [] => ([], [])
  | seg :: rest =>
    if trimSpace seg = [] then parseSegments rest
    else match parseHTTPStatusCodeToken (trimSpace seg) with
      | .error _ => ((parseSegments rest).1, trimSpace seg :: (parseSegments rest).2)
      | .ok r => (r :: (parseSegments rest).1, (parseSegments rest).2)

def rangeLe (a b : StatusCodeRange) : Prop :=
  a.start < b.start ∨ a.start = b.start ∧ a.stop ≤ b.stop

instance : DecidableRel rangeLe := fun a b =>
  inferInstanceAs (Decidable (a.start < b.start ∨ a.start = b.start ∧ a.stop ≤ b.stop))

/-- The merge loop, with the last range of `merged` apart. -/
def mergeLoop (last : StatusCodeRange) : List StatusCodeRange → List StatusCodeRange
  | [] => [last]
  | r :: rest =>
    if r.start ≤ last.stop + 1 then
      mergeLoop { last with stop := if r.stop > last.stop then r.stop else last.stop } rest
    else last :: mergeLoop r rest

def mergeRanges : List StatusCodeRange → List StatusCodeRange
  | [] => []
  | first :: rest => mergeLoop first rest

def asciiComma (c : Char) : Char := if c = '，' then ',' else c

def parseHTTPStatusCodeRanges (input : Text) : Except Text (List StatusCodeRange) :=
  if trimSpace input = [] then .ok []
  else
    let parsed := parseSegments (((trimSpace input).map asciiComma).splitOn ',')
    if parsed.2 ≠ [] then
      .error ("invalid http status code rules: ".toList ++ ", ".toList.intercalate parsed.2)
    else .ok (mergeRanges (parsed.1.insertionSort rangeLe))

def squeeze (s : Text) : Text := s.filter fun c => !isSpace c

def tokens (input : Text) : List Text := (squeeze (input.map asciiComma)).splitOn ','

/-- A token is a number, or two of them with a dash between. -/
def Covers (token : Text) (code : ℤ) : Prop :=
  match token.splitOn '-' with
  | [a] => atoi a = some code
  | [a, b] => ∃ m n, atoi a = some m ∧ atoi b = some n ∧ m ≤ code ∧ code ≤ n
  | _ => False

def StatusCodeRange.Has (r : StatusCodeRange) (code : ℤ) : Prop := r.start ≤ code ∧ code ≤ r.stop

structure Good (r : StatusCodeRange) : Prop where
  low : 100 ≤ r.start
  ordered : r.start ≤ r.stop
  high : r.stop ≤ 599

def Apart (r s : StatusCodeRange) : Prop := r.stop + 1 < s.start

variable {r last : StatusCodeRange} {ranges rest : List StatusCodeRange} {code : ℤ} {s t : Text}

structure Merges (ranges merged : List StatusCodeRange) : Prop where
  same : ∀ code, (∃ r ∈ merged, r.Has code) ↔ ∃ r ∈ ranges, r.Has code
  good : ∀ r ∈ merged, Good r
  apart : merged.Pairwise Apart

theorem mergeLoop_merges (hsorted : (last :: rest).Pairwise fun a b => a.start ≤ b.start)
    (hgood : ∀ x ∈ last :: rest, Good x) : Merges (last :: rest) (mergeLoop last rest) ∧
      ∀ x ∈ mergeLoop last rest, last.start ≤ x.start := by
  induction rest generalizing last with
  | nil => exact ⟨⟨fun _ => Iff.rfl, hgood, List.pairwise_singleton ..⟩, by simp [mergeLoop]⟩
  | cons r rest ih =>
    obtain ⟨hlast, hsorted⟩ := List.pairwise_cons.mp hsorted
    obtain ⟨hl, hgood⟩ := List.forall_mem_cons.mp hgood
    obtain ⟨hle, hlast⟩ := List.forall_mem_cons.mp hlast
    obtain ⟨hr, hrest⟩ := List.forall_mem_cons.mp hgood
    obtain ⟨hlow, hordered, hhigh⟩ := hl
    unfold mergeLoop
    split
    · next hnear =>
      -- the two ranges overlap or touch, so one range has the codes of both
      have hordered' := hr.ordered
      have hhigh' := hr.high
      obtain ⟨⟨hsame, hall, hapart⟩, hstart⟩ := @ih
        { last with stop := if r.stop > last.stop then r.stop else last.stop }
        (List.pairwise_cons.mpr ⟨hlast, (List.pairwise_cons.mp hsorted).2⟩)
        (List.forall_mem_cons.mpr ⟨⟨hlow, by dsimp only; omega, by dsimp only; omega⟩, hrest⟩)
      refine ⟨⟨fun code => (hsame code).trans ?_, hall, hapart⟩, hstart⟩
      have hjoin : StatusCodeRange.Has
          { last with stop := if r.stop > last.stop then r.stop else last.stop } code ↔
          last.Has code ∨ r.Has code := by
        simp only [StatusCodeRange.Has]
        omega
      simp only [List.exists_mem_cons_iff, hjoin, or_assoc]
    · next hfar =>
      obtain ⟨⟨hsame, hall, hapart⟩, hstart⟩ := ih hsorted hgood
      refine ⟨⟨fun code => ?_, List.forall_mem_cons.mpr ⟨⟨hlow, hordered, hhigh⟩, hall⟩,
        List.pairwise_cons.mpr ⟨fun x hx => ?_, hapart⟩⟩, List.forall_mem_cons.mpr ⟨le_rfl, ?_⟩⟩
      · rw [List.exists_mem_cons_iff, List.exists_mem_cons_iff, hsame]
      · have hx := hstart x hx
        unfold Apart
        omega
      · exact fun x hx => hle.trans (hstart x hx)

theorem mergeLoop_of_apart (h : (last :: rest).Pairwise Apart) :
    mergeLoop last rest = last :: rest := by
  induction rest generalizing last with
  | nil => rfl
  | cons r rest ih =>
    obtain ⟨hlast, hrest⟩ := List.pairwise_cons.mp h
    have hfar : last.stop + 1 < r.start := hlast r List.mem_cons_self
    rw [mergeLoop, if_neg (by omega), ih hrest]

theorem matchLoop_iff (hgood : ∀ r ∈ ranges, Good r) (h : ranges.Pairwise Apart) :
    matchLoop ranges code = true ↔ ∃ r ∈ ranges, r.Has code := by
  induction ranges with
  | nil => simp [matchLoop]
  | cons r ranges ih =>
    obtain ⟨hr, hgood⟩ := List.forall_mem_cons.mp hgood
    obtain ⟨hfirst, hrest⟩ := List.pairwise_cons.mp h
    have hordered := hr.ordered
    rw [List.exists_mem_cons_iff, matchLoop, StatusCodeRange.Has]
    split
    · next hlow =>
      -- every later range starts even higher
      refine ⟨(fun h => by cases h), ?_⟩
      rintro (hhas | ⟨x, hx, hhas⟩)
      · omega
      · have hfar : r.stop + 1 < x.start := hfirst x hx
        have hstart := hhas.1
        omega
    · split
      · exact ⟨fun _ => .inl ⟨by omega, by omega⟩, fun _ => rfl⟩
      · rw [ih hgood hrest]
        refine ⟨.inr, ?_⟩
        rintro (hhas | hhas)
        · omega
        · exact hhas

theorem shouldMatch_iff (hgood : ∀ r ∈ ranges, Good r) (h : ranges.Pairwise Apart) :
    shouldMatchStatusCodeRanges ranges code = true ↔ ∃ r ∈ ranges, r.Has code := by
  unfold shouldMatchStatusCodeRanges
  split
  · refine ⟨(fun h => by cases h), ?_⟩
    rintro ⟨x, hx, hlow, hhigh⟩
    have := (hgood x hx).low
    have := (hgood x hx).high
    omega
  · exact matchLoop_iff hgood h

theorem isSpace_of_atoi {n : ℤ} (h : atoi s = some n) : ∀ c ∈ s, isSpace c = false := by
  have hdigits : ∀ {t : Text} {m : ℕ}, parseUint t = some m → ∀ c ∈ t, isSpace c = false := by
    intro t m hm c hc
    unfold parseUint at hm
    split at hm
    · next hall => exact isSpace_of_isDigit (List.all_eq_true.mp hall.2 c hc)
    · cases hm
  unfold atoi at h
  split at h
  all_goals obtain ⟨m, hm, -⟩ := Option.bind_eq_some_iff.mp h
  · exact List.forall_mem_cons.mpr ⟨by decide, hdigits hm⟩
  · exact List.forall_mem_cons.mpr ⟨by decide, hdigits hm⟩
  · exact hdigits hm

theorem splitOn_of_notMem {x : Char} (h : x ∉ t) : t.splitOn x = [t] := by
  simpa using @List.splitOn_intercalate _ [t] _ _ x (by simpa using h) (by simp)

theorem splitOn_pair {x : Char} {a b : Text} (h : t.splitOn x = [a, b]) : t = a ++ x :: b := by
  have hjoin : [x].intercalate (t.splitOn x) = t := List.intercalate_splitOn x
  rw [h] at hjoin
  simpa using hjoin.symm

/-- What an accepted token says. -/
inductive Says (t : Text) (r : StatusCodeRange) : Prop
  | single (h : t.splitOn '-' = [t]) (start : atoi t = some r.start) (stop : r.stop = r.start)
  | bounds (a b : Text) (h : t.splitOn '-' = [a, b]) (start : atoi a = some r.start)
      (stop : atoi b = some r.stop)

theorem parseBare_ok (h : parseBare t = .ok r) : Good r ∧ Says t r := by
  unfold parseBare at h
  split at h
  · cases h
  split at h
  · split at h
    · next a b hsplit =>
      unfold parseBounds at h
      split at h
      · cases h
      split at h
      · cases h
      · cases h
      · next start stop ha hb =>
        split at h
        · cases h
        split at h
        · cases h
        cases h
        exact ⟨⟨by dsimp only; omega, by dsimp only; omega, by dsimp only; omega⟩,
          .bounds a b hsplit ha hb⟩
    · cases h
  · next hdash =>
    split at h
    · cases h
    · next code hcode =>
      split at h
      · cases h
      cases h
      exact ⟨⟨by dsimp only; omega, le_rfl, by dsimp only; omega⟩,
        .single (splitOn_of_notMem hdash) hcode rfl⟩

theorem Says.isSpace (h : Says t r) : ∀ c ∈ t, NewApi.isSpace c = false := by
  cases h with
  | single _ hstart _ => exact isSpace_of_atoi hstart
  | bounds a b hsplit hstart hstop =>
    intro c hc
    rw [splitOn_pair hsplit] at hc
    rcases List.mem_append.mp hc with hc | hc
    · exact isSpace_of_atoi hstart c hc
    · rcases List.mem_cons.mp hc with rfl | hc
      · decide
      · exact isSpace_of_atoi hstop c hc

theorem Says.covers (h : Says t r) : Covers t code ↔ r.Has code := by
  unfold Covers StatusCodeRange.Has
  cases h with
  | single hsplit hstart hstop =>
    rw [hsplit]
    simp only [hstart, Option.some.injEq]
    omega
  | bounds a b hsplit hstart hstop =>
    rw [hsplit]
    simp [hstart, hstop]

theorem filter_dropWhile (s : Text) :
    (s.dropWhile isSpace).filter (fun c => !isSpace c) = s.filter fun c => !isSpace c := by
  induction s with
  | nil => rfl
  | cons c s ih =>
    rcases hc : isSpace c
    · rw [List.dropWhile_cons_of_neg (ne_true_of_eq_false hc)]
    · rw [List.dropWhile_cons_of_pos hc, ih, List.filter_cons_of_neg (by simp [hc])]

theorem squeeze_trimSpace (s : Text) : squeeze (trimSpace s) = squeeze s := by
  unfold squeeze trimSpace
  rw [List.filter_reverse, filter_dropWhile, List.filter_reverse, List.reverse_reverse,
    filter_dropWhile]

theorem squeeze_of_all (h : ∀ c ∈ s, isSpace c = false) : squeeze s = s :=
  List.filter_eq_self.mpr fun c hc => by simp [h c hc]

theorem squeeze_filter (s : Text) : squeeze (s.filter (· != ' ')) = squeeze s := by
  unfold squeeze
  rw [List.filter_filter]
  refine List.filter_congr fun c _ => ?_
  by_cases hc : c = ' '
  · simp [hc, isSpace]
  · simp [hc]

theorem token_spec (h : parseHTTPStatusCodeToken (trimSpace s) = .ok r) :
    Good r ∧ ∀ code, Covers (squeeze s) code ↔ r.Has code := by
  obtain ⟨hgood, hsays⟩ := parseBare_ok h
  refine ⟨hgood, fun code => ?_⟩
  rw [← squeeze_trimSpace, ← squeeze_trimSpace, ← squeeze_filter, squeeze_of_all hsays.isSpace]
  exact hsays.covers

theorem not_covers_nil : ¬ Covers [] code := by
  simp [Covers, atoi, parseUint]

theorem parseSegments_spec {segs : List Text} (h : (parseSegments segs).2 = []) :
    (∀ r ∈ (parseSegments segs).1, Good r) ∧
      ∀ code, (∃ r ∈ (parseSegments segs).1, r.Has code) ↔
        ∃ token ∈ segs.map squeeze, Covers token code := by
  induction segs with
  | nil => simp [parseSegments]
  | cons seg segs ih =>
    rw [parseSegments] at h ⊢
    split at h
    · next hempty =>
      have hnil : squeeze seg = [] := by
        rw [← squeeze_trimSpace, hempty]
        rfl
      rw [if_pos hempty, List.map_cons, hnil]
      simpa [not_covers_nil] using ih h
    · next hsome =>
      rw [if_neg hsome]
      split at h
      · cases h
      · next r hr =>
        obtain ⟨hgood, hcovers⟩ := token_spec hr
        obtain ⟨hall, hsame⟩ := ih h
        refine ⟨List.forall_mem_cons.mpr ⟨hgood, hall⟩, fun code => ?_⟩
        rw [List.exists_mem_cons_iff, List.map_cons, List.exists_mem_cons_iff, hsame, hcovers]

theorem map_filter_splitOn {p : Char → Bool} {x : Char} (hx : p x = true) (s : Text) :
    (s.splitOn x).map (List.filter p) = (s.filter p).splitOn x := by
  simp only [List.splitOn_eq_splitOnP]
  induction s with
  | nil => simp
  | cons c s ih =>
    rw [List.splitOnP_cons_eq_if_modifyHead]
    by_cases hc : c = x
    · subst hc
      rw [List.filter_cons_of_pos hx, List.splitOnP_cons_eq_if_modifyHead]
      simp [ih]
    · obtain ⟨head, rest, hsplit⟩ := List.exists_cons_of_ne_nil
        (List.splitOnP_ne_nil (fun y => y == x) s)
      rcases hp : p c
      · rw [List.filter_cons_of_neg (ne_true_of_eq_false hp), ← ih, hsplit]
        simp [hc, hp]
      · rw [List.filter_cons_of_pos hp, List.splitOnP_cons_eq_if_modifyHead, ← ih, hsplit]
        simp [hc, hp]

theorem squeeze_map_asciiComma (s : Text) :
    squeeze (s.map asciiComma) = (squeeze s).map asciiComma := by
  have hsame : ∀ c, isSpace (asciiComma c) = isSpace c := by
    intro c
    unfold asciiComma
    split
    · next hc =>
      subst hc
      decide
    · rfl
  unfold squeeze
  rw [List.filter_map]
  simp only [Function.comp_def, hsame]

theorem map_squeeze_segments (input : Text) :
    (((trimSpace input).map asciiComma).splitOn ',').map squeeze = tokens input := by
  have hsplit := map_filter_splitOn (p := fun c => !isSpace c) (x := ',') (by decide)
    ((trimSpace input).map asciiComma)
  unfold tokens
  rw [squeeze_map_asciiComma, ← squeeze_trimSpace, ← squeeze_map_asciiComma]
  exact hsplit

/-- A character that no step of the parser changes or splits at. -/
def Neutral (c : Char) : Prop := isSpace c = false ∧ c ≠ ' ' ∧ c ≠ ',' ∧ asciiComma c = c

instance : DecidablePred Neutral := fun c =>
  inferInstanceAs (Decidable (isSpace c = false ∧ c ≠ ' ' ∧ c ≠ ',' ∧ asciiComma c = c))

theorem neutral_of_isDigit {c : Char} (h : c.isDigit) : Neutral c ∧ c ≠ '-' := by
  have hall : ∀ n < 10, Neutral (Char.ofNat (48 + n)) ∧ Char.ofNat (48 + n) ≠ '-' := by decide
  obtain ⟨hlow, hhigh⟩ : 48 ≤ c.toNat ∧ c.toNat ≤ 57 := Char.isDigit_iff_toNat.mp h
  have hc := hall (c.toNat - 48) (by omega)
  rwa [Nat.add_sub_cancel' hlow, Char.ofNat_toNat] at hc

theorem atoi_of_digits (h : ∀ c ∈ s, c.isDigit) : atoi s = (parseUint s).bind fun n =>
    if n < 9223372036854775808 then some (n : ℤ) else none := by
  unfold atoi
  split
  · exact absurd (h '-' List.mem_cons_self) (by decide)
  · exact absurd (h '+' List.mem_cons_self) (by decide)
  · rfl

theorem fmtInt_spec (hlow : 100 ≤ code) (hhigh : code ≤ 599) :
    atoi (fmtInt code) = some code ∧ ∀ c ∈ fmtInt code, Neutral c ∧ c ≠ '-' := by
  lift code to ℕ using by omega
  have hfmt : fmtInt code = Nat.toDigits 10 code := Nat.toList_repr
  have hdigits : ∀ c ∈ Nat.toDigits 10 code, c.isDigit := fun c hc =>
    Nat.isDigit_of_mem_toDigits (by decide) (by decide) hc
  have hparse : parseUint (Nat.toDigits 10 code) = some code := by
    have hvalue : (Nat.toDigits 10 code).foldl (fun n x => 10 * n + (x.toNat - 48)) 0 = code :=
      Nat.ofDigitChars_ten_toDigits
    unfold parseUint
    rw [if_pos ⟨Nat.toDigits_ne_nil, List.all_eq_true.mpr hdigits⟩, hvalue]
    exact if_pos (by omega)
  rw [hfmt, atoi_of_digits hdigits, hparse]
  exact ⟨if_pos (by omega), fun c hc => neutral_of_isDigit (hdigits c hc)⟩

theorem ne_nil_of_atoi {n : ℤ} (h : atoi s = some n) : s ≠ [] := by
  rintro rfl
  cases h

theorem rangeText_neutral (h : Good r) : ∀ c ∈ rangeText r, Neutral c := by
  obtain ⟨hlow, hordered, hhigh⟩ := h
  obtain ⟨-, hstart⟩ := fmtInt_spec hlow (by omega)
  obtain ⟨-, hstop⟩ := fmtInt_spec (hlow.trans hordered) hhigh
  unfold rangeText
  split
  · exact fun c hc => (hstart c hc).1
  · rw [List.forall_mem_append, List.forall_mem_cons]
    exact ⟨fun c hc => (hstart c hc).1, by decide, fun c hc => (hstop c hc).1⟩

theorem rangeText_ne_nil (h : Good r) : rangeText r ≠ [] := by
  have hne := ne_nil_of_atoi (fmtInt_spec h.low (h.ordered.trans h.high)).1
  unfold rangeText
  split
  · exact hne
  · exact List.append_ne_nil_of_left_ne_nil hne _

theorem parseBare_rangeText (h : Good r) : parseBare (rangeText r) = .ok r := by
  have hne := rangeText_ne_nil h
  obtain ⟨hlow, hordered, hhigh⟩ := h
  obtain ⟨hstart, hchars⟩ := fmtInt_spec hlow (by omega)
  obtain ⟨hstop, hchars'⟩ := fmtInt_spec (hlow.trans hordered) hhigh
  have hno : '-' ∉ fmtInt r.start := fun hc => (hchars _ hc).2 rfl
  have hno' : '-' ∉ fmtInt r.stop := fun hc => (hchars' _ hc).2 rfl
  unfold parseBare
  rw [if_neg hne]
  unfold rangeText
  by_cases heq : r.start = r.stop
  · rw [if_pos heq, if_neg hno, hstart]
    dsimp only
    rw [if_neg (by omega)]
    cases r
    cases heq
    rfl
  · have hsplit : (fmtInt r.start ++ '-' :: fmtInt r.stop).splitOn '-' =
        [fmtInt r.start, fmtInt r.stop] := by
      simpa using @List.splitOn_intercalate _ [fmtInt r.start, fmtInt r.stop] _ _ '-'
        (by simp [hno, hno']) (by simp)
    rw [if_neg heq, if_pos (by simp), hsplit]
    dsimp only [parseBounds]
    rw [if_neg (not_or.mpr ⟨ne_nil_of_atoi hstart, ne_nil_of_atoi hstop⟩), hstart, hstop]
    dsimp only
    rw [if_neg (by omega), if_neg (by omega)]

theorem parseSegments_rangeText (h : ∀ r ∈ ranges, Good r) :
    parseSegments (ranges.map rangeText) = (ranges, []) := by
  induction ranges with
  | nil => rfl
  | cons r ranges ih =>
    obtain ⟨hr, hrest⟩ := List.forall_mem_cons.mp h
    have hchars := rangeText_neutral hr
    have htrim : trimSpace (rangeText r) = rangeText r :=
      trimSpace_of_all fun c hc => (hchars c hc).1
    have hblank : (rangeText r).filter (· != ' ') = rangeText r :=
      List.filter_eq_self.mpr fun c hc => by simpa using (hchars c hc).2.1
    have hparse : parseHTTPStatusCodeToken (rangeText r) = .ok r := by
      rw [parseHTTPStatusCodeToken, htrim, hblank]
      exact parseBare_rangeText hr
    rw [List.map_cons, parseSegments, htrim, if_neg (rangeText_ne_nil hr), hparse, ih hrest]

theorem forall_mem_intercalate {P : Char → Prop} {x : Char} {ls : List Text} (hx : P x)
    (h : ∀ l ∈ ls, ∀ c ∈ l, P c) : ∀ c ∈ [x].intercalate ls, P c := by
  induction ls with
  | nil => simp
  | cons l ls ih =>
    obtain ⟨hl, hls⟩ := List.forall_mem_cons.mp h
    cases ls with
    | nil => simpa using hl
    | cons m ls =>
      rw [List.intercalate_cons_cons, List.forall_mem_append, List.forall_mem_append]
      exact ⟨⟨hl, by simpa using hx⟩, ih hls⟩

theorem parse_print (hgood : ∀ r ∈ ranges, Good r) (h : ranges.Pairwise Apart) :
    parseHTTPStatusCodeRanges (statusCodeRangesToString ranges) = .ok ranges := by
  rcases ranges with _ | ⟨first, rest⟩
  · rfl
  generalize hl : first :: rest = l at hgood h
  have hparts : ∀ part ∈ l.map rangeText, ∀ c ∈ part, Neutral c := by
    intro part hpart
    obtain ⟨r, hr, rfl⟩ := List.mem_map.mp hpart
    exact rangeText_neutral (hgood r hr)
  have hsplit : (statusCodeRangesToString l).splitOn ',' = l.map rangeText :=
    List.splitOn_intercalate ',' (fun part hpart hc => (hparts part hpart _ hc).2.2.1 rfl)
      (by simp [← hl])
  have hchars : ∀ c ∈ statusCodeRangesToString l, isSpace c = false ∧ asciiComma c = c :=
    forall_mem_intercalate (by decide) fun part hpart c hc =>
      ⟨(hparts part hpart c hc).1, (hparts part hpart c hc).2.2.2⟩
  have hne : statusCodeRangesToString l ≠ [] := by
    intro hnil
    rw [hnil, ← hl] at hsplit
    exact rangeText_ne_nil (hgood first (by simp [← hl])) (List.cons.inj hsplit).1.symm
  have hmap : (statusCodeRangesToString l).map asciiComma = statusCodeRangesToString l :=
    (List.map_congr_left fun c hc => (hchars c hc).2).trans (List.map_id _)
  have hsort : l.insertionSort rangeLe = l := by
    refine List.Pairwise.insertionSort_eq (h.imp_of_mem fun ha _ hab => ?_)
    have hordered := (hgood _ ha).ordered
    unfold Apart at hab
    exact .inl (by omega)
  unfold parseHTTPStatusCodeRanges
  rw [trimSpace_of_all fun c hc => (hchars c hc).1, if_neg hne, hmap, hsplit,
    parseSegments_rangeText hgood]
  rw [if_neg (by simp), hsort, ← hl, mergeRanges, mergeLoop_of_apart (hl ▸ h)]

instance : Std.Total rangeLe :=
  ⟨fun a b => by unfold rangeLe; omega⟩

instance : IsTrans StatusCodeRange rangeLe :=
  ⟨fun a b c => by unfold rangeLe; omega⟩

theorem mergeRanges_merges (h : ∀ r ∈ ranges, Good r) :
    Merges ranges (mergeRanges (ranges.insertionSort rangeLe)) := by
  have hmem : ∀ r, r ∈ ranges.insertionSort rangeLe ↔ r ∈ ranges :=
    fun r => List.mem_insertionSort rangeLe
  have hsorted := List.pairwise_insertionSort rangeLe ranges
  rcases hl : ranges.insertionSort rangeLe with _ | ⟨first, rest⟩
  · simp only [hl] at hmem
    exact ⟨fun code => by simp [← hmem, mergeRanges], by simp [mergeRanges], List.Pairwise.nil⟩
  · rw [hl] at hmem hsorted
    obtain ⟨⟨hsame, hgood, hapart⟩, -⟩ := mergeLoop_merges
      (hsorted.imp fun hle => by unfold rangeLe at hle; omega) fun r hr => h r ((hmem r).mp hr)
    exact ⟨fun code => (hsame code).trans (by simp only [hmem]), hgood, hapart⟩

theorem status_code_ranges_exact (input : Text)
    (h : parseHTTPStatusCodeRanges input = .ok ranges) :
    (ranges.Pairwise fun r s => r.stop + 1 < s.start) ∧ (∀ r ∈ ranges, r.start ≤ r.stop) ∧
    (∀ code, shouldMatchStatusCodeRanges ranges code = true ↔
      ∃ token ∈ tokens input, Covers token code) ∧
    parseHTTPStatusCodeRanges (statusCodeRangesToString ranges) = .ok ranges := by
  have hmerged : (∀ r ∈ ranges, Good r) ∧ ranges.Pairwise Apart ∧
      ∀ code, (∃ r ∈ ranges, r.Has code) ↔ ∃ token ∈ tokens input, Covers token code := by
    rw [← map_squeeze_segments]
    unfold parseHTTPStatusCodeRanges at h
    split at h
    · next hempty =>
      cases h
      rw [hempty]
      have hnone : ∀ code, ¬ Covers (squeeze []) code := fun code => not_covers_nil
      simp [hnone]
    · dsimp only at h
      split at h
      · cases h
      · next hvalid =>
        cases h
        obtain ⟨hgood, hsegs⟩ := parseSegments_spec (not_not.mp hvalid)
        obtain ⟨hsame, hall, hapart⟩ := mergeRanges_merges hgood
        exact ⟨hall, hapart, fun code => (hsame code).trans (hsegs code)⟩
  obtain ⟨hgood, hapart, hsame⟩ := hmerged
  exact ⟨hapart, fun r hr => (hgood r hr).ordered,
    fun code => (shouldMatch_iff hgood hapart).trans (hsame code), parse_print hgood hapart⟩

theorem status_code_ranges_exact_merged :
    parseHTTPStatusCodeRanges "500-505,504，40 1, 402".toList = .ok [⟨401, 402⟩, ⟨500, 505⟩] ∧
      parseHTTPStatusCodeRanges (statusCodeRangesToString [⟨401, 402⟩, ⟨500, 505⟩]) =
        .ok [⟨401, 402⟩, ⟨500, 505⟩] := by
  have hparse : parseHTTPStatusCodeRanges "500-505,504，40 1, 402".toList =
      .ok [⟨401, 402⟩, ⟨500, 505⟩] := by decide +kernel
  exact ⟨hparse, (status_code_ranges_exact _ hparse).2.2.2⟩

end NewApi.Setting.StatusCode
