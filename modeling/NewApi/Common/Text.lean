import Mathlib.Data.List.DropRight
import Mathlib.Data.List.Infix

/-!
# Go strings

A Go string is its list of characters, so that the kernel can evaluate the string functions.
-/

namespace NewApi

/-- A Go string; literals are written `"...".toList`. -/
abbrev Text := List Char

/-- `strings.Contains`. -/
def containsText (s sub : Text) : Bool := decide (sub <:+: s)

/-- `len(s)`: a Go string is counted in bytes. -/
def byteLength : Text → ℕ
  | [] => 0
  | x :: s => x.utf8Size + byteLength s

/-- `s[n:]`. The bytes that are left of a character that is cut in two are no UTF-8 and are each
written as U+FFFD. -/
def dropBytes : ℕ → Text → Text
  | _, [] => []
  | n, x :: s =>
    if n = 0 then x :: s
    else if x.utf8Size ≤ n then dropBytes (n - x.utf8Size) s
    else List.replicate (x.utf8Size - n) (Char.ofNat 0xFFFD) ++ s

theorem byteLength_append (s t : Text) : byteLength (s ++ t) = byteLength s + byteLength t := by
  induction s with
  | nil => exact (Nat.zero_add _).symm
  | cons x s ih =>
    rw [List.cons_append, byteLength, byteLength, ih, Nat.add_assoc]

theorem byteLength_eq_zero {s : Text} (h : byteLength s = 0) : s = [] := by
  cases s with
  | nil => rfl
  | cons x s =>
    have hpos := x.utf8Size_pos
    rw [byteLength] at h
    omega

theorem dropBytes_append (s t : Text) : dropBytes (byteLength s) (s ++ t) = t := by
  induction s with
  | nil =>
    cases t with
    | nil => rfl
    | cons x t => exact if_pos rfl
  | cons x s ih =>
    have hpos := x.utf8Size_pos
    rw [List.cons_append, dropBytes, byteLength, if_neg (by omega), if_pos (by omega),
      Nat.add_sub_cancel_left, ih]

/-- `fmt.Sprintf("%d", n)`. -/
def fmtInt (n : ℤ) : Text := (toString n).toList

def isSpace (c : Char) : Bool :=
  let n := c.toNat
  (9 ≤ n && n ≤ 13) || n == 32 || n == 0x85 || n == 0xA0 || n == 0x1680 ||
    (0x2000 ≤ n && n ≤ 0x200A) || n == 0x2028 || n == 0x2029 || n == 0x202F ||
    n == 0x205F || n == 0x3000

def trimSpace (s : Text) : Text :=
  ((s.dropWhile isSpace).reverse.dropWhile isSpace).reverse

theorem trimSpace_eq (s : Text) : trimSpace s = (s.dropWhile isSpace).rdropWhile isSpace := rfl

theorem dropWhile_trimSpace (s : Text) : (trimSpace s).dropWhile isSpace = trimSpace s := by
  rw [trimSpace_eq]
  have hpre := List.rdropWhile_prefix isSpace (s.dropWhile isSpace)
  rcases hd : (s.dropWhile isSpace).rdropWhile isSpace with _ | ⟨x, xs⟩
  · rfl
  rw [hd] at hpre
  obtain ⟨ys, hys⟩ := hpre
  have hx : isSpace x = false := by
    have hhead := List.head?_dropWhile_not isSpace s
    rw [← hys] at hhead
    simpa using hhead
  rw [List.dropWhile_cons_of_neg (by simp [hx])]

theorem trimSpace_trimSpace (s : Text) : trimSpace (trimSpace s) = trimSpace s := by
  rw [trimSpace_eq (trimSpace s), dropWhile_trimSpace]
  exact List.rdropWhile_idempotent isSpace _

/-- `strconv.ParseUint(s, 10, 64)`; an error is `none`. -/
def parseUint (s : Text) : Option ℕ :=
  if s ≠ [] ∧ s.all Char.isDigit then
    let n := s.foldl (fun n x => 10 * n + (x.toNat - 48)) 0
    if n < 18446744073709551616 then some n else none
  else none

/-- `strconv.Atoi`; an error is `none`. -/
def atoi (s : Text) : Option ℤ :=
  match s with
  | '-' :: digits => (parseUint digits).bind fun n =>
      if n ≤ 9223372036854775808 then some (-(n : ℤ)) else none
  | '+' :: digits => (parseUint digits).bind fun n =>
      if n < 9223372036854775808 then some (n : ℤ) else none
  | digits => (parseUint digits).bind fun n =>
      if n < 9223372036854775808 then some (n : ℤ) else none

def decimal (s : Text) : ℕ :=
  if s ≠ [] ∧ s.all Char.isDigit then s.foldl (fun n x => 10 * n + (x.toNat - 48)) 0 else 0

/-- The value of `strconv.Atoi` beside its error: 0 for a malformed text, the nearest `int`
for one out of range. -/
def atoiValue : Text → ℤ
  | '-' :: s => max (-(decimal s : ℤ)) (-9223372036854775808)
  | '+' :: s => min (decimal s : ℤ) 9223372036854775807
  | s => min (decimal s : ℤ) 9223372036854775807

/-- The order of `sort.Strings`. -/
def textLe : Text → Text → Bool
  | [], _ => true
  | _ :: _, [] => false
  | a :: as, b :: bs =>
    decide (a.toNat < b.toNat) || (decide (a.toNat = b.toNat) && textLe as bs)

/-- `unicode.ToUpper` where the result is an ASCII letter: two letters outside ASCII, the
dotless i and the long s, have one. Every other character outside ASCII is left as it is. -/
def upperChar (x : Char) : Char :=
  if x.toNat = 0x131 then 'I' else if x.toNat = 0x17F then 'S' else x.toUpper

/-- `strings.ToUpper`. -/
def toUpper (s : Text) : Text := s.map upperChar

/-- Simple case folding where the orbit has an ASCII letter: those of k and s have one more,
the Kelvin sign and the long s. -/
def foldChar (x : Char) : Char :=
  if x.toNat = 0x212A then 'K' else if x.toNat = 0x17F then 'S' else x.toUpper

/-- `strings.EqualFold`. -/
def equalFold (s t : Text) : Bool := decide (s.map foldChar = t.map foldChar)

theorem toNat_upperChar (x : Char) : (upperChar x).toNat =
    if 97 ≤ x.toNat ∧ x.toNat ≤ 122 then x.toNat - 32
    else if x.toNat = 0x131 then 73 else if x.toNat = 0x17F then 83 else x.toNat := by
  have hlow : 'a'.val ≤ x.val ↔ 97 ≤ x.toNat := UInt32.le_iff_toNat_le
  have hhigh : x.val ≤ 'z'.val ↔ x.toNat ≤ 122 := UInt32.le_iff_toNat_le
  unfold upperChar
  split
  · next h =>
    rw [if_neg (by omega)]
    rfl
  split
  · next h =>
    rw [if_neg (by omega)]
    rfl
  unfold Char.toUpper
  split
  · next h =>
    rw [hlow, hhigh] at h
    rw [if_pos h]
    -- the difference of the two cases wraps around in 32 bits
    have hsum : (x.val + ('A'.val - 'a'.val)).toNat = (x.toNat + 4294967264) % 4294967296 :=
      UInt32.toNat_add ..
    change (x.val + ('A'.val - 'a'.val)).toNat = _
    omega
  · next h =>
    rw [hlow, hhigh] at h
    rw [if_neg h]

theorem isSpace_upperChar (x : Char) : isSpace (upperChar x) = isSpace x := by
  simp only [isSpace, toNat_upperChar]
  rw [Bool.eq_iff_iff]
  simp only [Bool.or_eq_true, Bool.and_eq_true, decide_eq_true_eq, beq_iff_eq]
  split
  · omega
  split
  · omega
  split
  · omega
  · exact Iff.rfl

theorem toUpper_toUpper (s : Text) : toUpper (toUpper s) = toUpper s := by
  simp only [toUpper, List.map_map]
  apply List.map_congr_left
  intro x _
  apply Char.ext
  apply UInt32.toNat_inj.mp
  change (upperChar (upperChar x)).toNat = (upperChar x).toNat
  rw [toNat_upperChar (upperChar x), toNat_upperChar x]
  split_ifs <;> omega

theorem trimSpace_toUpper (s : Text) : trimSpace (toUpper s) = toUpper (trimSpace s) := by
  have hspace : isSpace ∘ upperChar = isSpace := funext isSpace_upperChar
  simp [trimSpace, toUpper, List.dropWhile_map, ← List.map_reverse, hspace]

theorem trimSpace_ne_nil {s : Text} {x : Char} (hx : x ∈ s) (hs : isSpace x = false) :
    trimSpace s ≠ [] := by
  intro hnil
  rw [trimSpace_eq, List.rdropWhile_eq_nil_iff] at hnil
  have hdrop : x ∈ s.dropWhile isSpace ∨ x ∈ s.takeWhile isSpace := by
    rw [← List.takeWhile_append_dropWhile (p := isSpace) (l := s)] at hx
    exact (List.mem_append.mp hx).symm
  rcases hdrop with h | h
  · rw [hnil x h] at hs
    cases hs
  · rw [List.mem_takeWhile_imp h] at hs
    cases hs

theorem isSpace_of_isDigit {x : Char} (h : x.isDigit = true) : isSpace x = false := by
  simp only [Char.isDigit, Bool.and_eq_true, decide_eq_true_eq] at h
  have hlo : 48 ≤ x.toNat := UInt32.le_iff_toNat_le.mp h.1
  have hhi : x.toNat ≤ 57 := UInt32.le_iff_toNat_le.mp h.2
  simp only [isSpace, Bool.or_eq_false_iff, Bool.and_eq_false_iff, decide_eq_false_iff_not,
    beq_eq_false_iff_ne]
  omega

theorem dropWhile_isSpace_of_all {s : Text} (h : ∀ x ∈ s, isSpace x = false) :
    s.dropWhile isSpace = s := by
  rcases s with _ | ⟨x, xs⟩
  · rfl
  · rw [List.dropWhile_cons_of_neg (by simp [h x List.mem_cons_self])]

theorem trimSpace_of_all {s : Text} (h : ∀ x ∈ s, isSpace x = false) : trimSpace s = s := by
  have hrev : ∀ x ∈ s.reverse, isSpace x = false := fun x hx => h x (List.mem_reverse.mp hx)
  unfold trimSpace
  rw [dropWhile_isSpace_of_all h, dropWhile_isSpace_of_all hrev, List.reverse_reverse]

theorem trimSpace_append {a b : Text} (m : Text) (ha : trimSpace a = a) (hb : trimSpace b = b)
    (ha' : a ≠ []) (hb' : b ≠ []) : trimSpace (a ++ m ++ b) = a ++ m ++ b := by
  obtain ⟨x, xs, rfl⟩ := List.exists_cons_of_ne_nil ha'
  have hx : isSpace x = false := by
    have hdrop := dropWhile_trimSpace (x :: xs)
    rw [ha] at hdrop
    rcases hsp : isSpace x
    · rfl
    rw [List.dropWhile_cons_of_pos hsp] at hdrop
    have hlen := congrArg List.length hdrop
    have hle := (List.dropWhile_sublist (p := isSpace) (l := xs)).length_le
    simp only [List.length_cons] at hlen
    omega
  have hfront : (x :: xs ++ m ++ b).dropWhile isSpace = x :: xs ++ m ++ b := by
    rw [List.cons_append, List.cons_append, List.dropWhile_cons_of_neg (by simp [hx])]
  have hback : b.rdropWhile isSpace = b := by
    have hb'' := List.rdropWhile_idempotent isSpace (b.dropWhile isSpace)
    rw [← trimSpace_eq, hb] at hb''
    exact hb''
  have hlast : isSpace (b.getLast hb') = false := by
    have := List.rdropWhile_eq_self_iff.mp hback hb'
    simpa using this
  rw [trimSpace_eq, hfront, List.rdropWhile_eq_self_iff]
  intro hne
  rw [List.getLast_append_of_ne_nil hne hb']
  simp [hlast]

end NewApi
