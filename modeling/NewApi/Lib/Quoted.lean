import Mathlib.Data.List.Basic

/-!
# Quoted strings

A quote, a backslash or a control character between the quotes is escaped.
-/

namespace Quoted

def hexDigit (n : ℕ) : Char := if n < 10 then Char.ofNat (48 + n) else Char.ofNat (87 + n)

def hexValue (c : Char) : Option ℕ :=
  let n := c.toNat
  if 48 ≤ n ∧ n ≤ 57 then some (n - 48)
  else if 97 ≤ n ∧ n ≤ 102 then some (n - 87)
  else if 65 ≤ n ∧ n ≤ 70 then some (n - 55)
  else none

def hex4 (a b c d : Char) : Option Char := do
  let a ← hexValue a
  let b ← hexValue b
  let c ← hexValue c
  let d ← hexValue d
  some (Char.ofNat (((a * 16 + b) * 16 + c) * 16 + d))

def escape (c : Char) : List Char :=
  if c = '"' then ['\\', '"']
  else if c = '\\' then ['\\', '\\']
  else if c.toNat < 32 then ['\\', 'u', '0', '0', hexDigit (c.toNat / 16), hexDigit (c.toNat % 16)]
  else [c]

def write (s : List Char) : List Char := '"' :: s.flatMap escape ++ ['"']

def unescape (c : Char) : Option Char :=
  if c = '"' ∨ c = '\\' ∨ c = '/' then some c
  else if c = 'n' then some '\n'
  else if c = 't' then some '\t'
  else if c = 'r' then some '\r'
  else if c = 'b' then some (Char.ofNat 8)
  else if c = 'f' then some (Char.ofNat 12)
  else none

def readRest : List Char → Option (List Char)
  | [] => none
  | '"' :: rest => if rest = [] then some [] else none
  | '\\' :: 'u' :: a :: b :: c :: d :: rest => do
    let x ← hex4 a b c d
    let xs ← readRest rest
    some (x :: xs)
  | '\\' :: c :: rest => do
    let x ← unescape c
    let xs ← readRest rest
    some (x :: xs)
  | c :: rest => if c.toNat < 32 then none else do
    let xs ← readRest rest
    some (c :: xs)

def read : List Char → Option (List Char)
  | '"' :: rest => readRest rest
  | _ => none

theorem hex4_control {n : ℕ} (h : n < 32) :
    hex4 '0' '0' (hexDigit (n / 16)) (hexDigit (n % 16)) = some (Char.ofNat n) := by
  have hall : ∀ k < 32, hex4 '0' '0' (hexDigit (k / 16)) (hexDigit (k % 16)) =
      some (Char.ofNat k) := by decide
  exact hall n h

theorem readRest_quote (rest : List Char) :
    readRest ('\\' :: '"' :: rest) = (readRest rest).map (List.cons '"') := by
  rw [readRest]
  · cases readRest rest <;> rfl
  · intros
    simp_all

theorem readRest_backslash (rest : List Char) :
    readRest ('\\' :: '\\' :: rest) = (readRest rest).map (List.cons '\\') := by
  rw [readRest]
  · cases readRest rest <;> rfl
  · intros
    simp_all

theorem readRest_hex {a b c d x : Char} (h : hex4 a b c d = some x) (rest : List Char) :
    readRest ('\\' :: 'u' :: a :: b :: c :: d :: rest) = (readRest rest).map (List.cons x) := by
  rw [readRest, h]
  cases readRest rest <;> rfl

theorem readRest_plain {c : Char} (hq : c ≠ '"') (hb : c ≠ '\\') (hc : 32 ≤ c.toNat)
    (rest : List Char) : readRest (c :: rest) = (readRest rest).map (List.cons c) := by
  rw [readRest]
  · rw [if_neg (by omega)]
    cases readRest rest <;> rfl
  · exact hq
  · intro _ _ _ _ _ hc'
    exact absurd hc' hb
  · intro _ _ hc'
    exact absurd hc' hb

theorem readRest_escape (c : Char) (rest : List Char) :
    readRest (escape c ++ rest) = (readRest rest).map (List.cons c) := by
  unfold escape
  split
  · next hq =>
    rw [hq]
    exact readRest_quote rest
  · next hq =>
    split
    · next hb =>
      rw [hb]
      exact readRest_backslash rest
    · next hb =>
      split
      · next hc =>
        have hx := hex4_control hc
        rw [Char.ofNat_toNat] at hx
        exact readRest_hex hx rest
      · next hc => exact readRest_plain hq hb (by omega) rest

theorem readRest_write (s : List Char) : readRest (s.flatMap escape ++ ['"']) = some s := by
  induction s with
  | nil => rfl
  | cons c s ih =>
    rw [List.flatMap_cons, List.append_assoc, readRest_escape, ih]
    rfl

theorem read_write (s : List Char) : read (write s) = some s := readRest_write s

end Quoted
