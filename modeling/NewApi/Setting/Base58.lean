import NewApi.Common.Text
import NewApi.Lib.Numeral

/-!
# Base58 addresses (setting/payment_usdt_multichain.go, setting/payment_usdt_trc20.go)

The two decoders are one change of base that keeps the leading zeros.
-/

namespace NewApi.Setting.Base58

open Numeral

def alphabet : Text := "123456789ABCDEFGHJKLMNPQRSTUVWXYZabcdefghijkmnopqrstuvwxyz".toList

/-- One round of the loop over the characters. A byte that is no UTF-8 reads as U+FFFD, which is
not in the alphabet. -/
def addDigit (n : ℕ) (r : Char) : Except Text ℕ :=
  match alphabet.idxOf? r with
  | none => .error "invalid base58 character".toList
  | some i => .ok (n * 58 + i)

/-- `Bytes` of a `big.Int`. -/
def bigBytes (n : ℕ) : List UInt8 := (Nat.digits 256 n).reverse.map UInt8.ofNat

def decodeSolanaBase58 (value : Text) : Except Text (List UInt8) :=
  match value.foldlM addDigit 0 with
  | .error e => .error e
  | .ok n => .ok (List.replicate (value.takeWhile (· == '1')).length 0 ++ bigBytes n)

/-- The same loop, after a check that there is something to decode. -/
def decodeBase58 (value : Text) : Except Text (List UInt8) :=
  if value = [] then .error "empty base58 value".toList else decodeSolanaBase58 value

def validateSolanaAddress (address : Text) : Except Text Unit :=
  if trimSpace address = [] then .error "Solana receiving address is required".toList
  else match decodeSolanaBase58 (trimSpace address) with
    | .error _ => .error "invalid Solana address".toList
    | .ok decoded =>
      if decoded.length ≠ 32 then .error "invalid Solana address".toList else .ok ()

def hexDigit (n : ℕ) : Char := "0123456789abcdef".toList.getD n '0'

def hexEncode (bytes : List UInt8) : Text :=
  bytes.flatMap fun b => [hexDigit (b.toNat / 16), hexDigit (b.toNat % 16)]

def usdtTRC20Contract : Text := "TR7NHqjeKQxGTCi8q8ZY4pL8otSzgjLj6t".toList

def validateTRONAddress (sha256 : List UInt8 → List UInt8) (address : Text) : Except Text Unit :=
  if trimSpace address = [] then .error "TRON receiving address is required".toList
  else if equalFold (trimSpace address) usdtTRC20Contract then
    .error "TRON receiving address must not be the USDT contract".toList
  else match decodeBase58 (trimSpace address) with
    | .error _ => .error "invalid TRON receiving address".toList
    | .ok decoded =>
      if decoded.length ≠ 25 ∨ decoded.head? ≠ some 0x41 then
        .error "invalid TRON receiving address".toList
      else if equalFold (hexEncode ((sha256 (sha256 (decoded.take 21))).take 4))
          (hexEncode (decoded.drop 21)) then .ok ()
      else .error "invalid TRON receiving address checksum".toList

def encode (bytes : List UInt8) : Text :=
  (recode 256 58 (bytes.map UInt8.toNat)).map fun d => alphabet.getD d '1'

variable {s t : Text} {bytes : List UInt8}

theorem foldlM_addDigit (n m : ℕ) : s.foldlM addDigit n = .ok m ↔ (∀ r ∈ s, r ∈ alphabet) ∧
    (s.map alphabet.idxOf).foldl (fun n d => n * 58 + d) n = m := by
  induction s generalizing n with
  | nil => simp [pure, Except.pure]
  | cons r s ih =>
    rw [List.foldlM_cons, List.forall_mem_cons, List.map_cons, List.idxOf_eq_getD_idxOf?]
    rcases hr : alphabet.idxOf? r with _ | i
    · have hstep : addDigit n r = .error "invalid base58 character".toList := by
        unfold addDigit
        rw [hr]
      rw [hstep]
      exact ⟨(fun h => by cases h), fun h => absurd h.1.1 (List.idxOf?_eq_none_iff.mp hr)⟩
    · have hstep : addDigit n r = .ok (n * 58 + i) := by
        unfold addDigit
        rw [hr]
      have hin : r ∈ alphabet := by
        rw [← List.isSome_idxOf?, hr]
        rfl
      rw [hstep]
      refine (ih (n * 58 + i)).trans ?_
      simp [hin]

theorem leading_idxOf (s : Text) :
    leading (s.map alphabet.idxOf) = (s.takeWhile (· == '1')).length := by
  obtain ⟨rest, hrest⟩ : ∃ rest, alphabet = '1' :: rest := ⟨_, rfl⟩
  have hone : (· == 0) ∘ alphabet.idxOf = (· == '1') := by
    funext r
    rw [hrest, Function.comp_apply]
    by_cases hr : '1' = r
    · rw [← hr]
      rfl
    · simp [List.idxOf_cons_ne _ hr, Ne.symm hr]
  rw [leading, List.takeWhile_map, List.length_map, hone]

theorem decode_eq_ok : decodeSolanaBase58 s = .ok bytes ↔ (∀ r ∈ s, r ∈ alphabet) ∧
    (recode 58 256 (s.map alphabet.idxOf)).map UInt8.ofNat = bytes := by
  have hfold := foldlM_addDigit (s := s) 0
  unfold decodeSolanaBase58
  rcases hn : s.foldlM addDigit 0 with e | n
  · refine ⟨fun h => (by cases h), fun h => ?_⟩
    have hok := (hfold _).mpr ⟨h.1, rfl⟩
    rw [hn] at hok
    cases hok
  · obtain ⟨hmem, rfl⟩ := (hfold n).mp hn
    rw [and_iff_right hmem]
    simp [recode, leading_idxOf, bigBytes, value]

theorem idxOf_getD : ∀ d < 58, alphabet.getD d '1' ∈ alphabet ∧
    alphabet.idxOf (alphabet.getD d '1') = d := by decide +kernel

theorem getD_idxOf {r : Char} (hr : r ∈ alphabet) :
    alphabet.getD (alphabet.idxOf r) '1' = r := by
  have hlt := List.idxOf_lt_length_iff.mpr hr
  simp [hlt]

theorem map_of_fixed {α : Type} {f : α → α} {l : List α} (h : ∀ x ∈ l, f x = x) : l.map f = l :=
  (List.map_congr_left h).trans (List.map_id l)

theorem decode_encode (bytes : List UInt8) : decodeSolanaBase58 (encode bytes) = .ok bytes := by
  have hlt : ∀ d ∈ recode 256 58 (bytes.map UInt8.toNat), d < 58 :=
    lt_of_mem_recode (by decide)
  have hmem : ∀ r ∈ encode bytes, r ∈ alphabet := by
    intro r hr
    obtain ⟨d, hd, rfl⟩ := List.mem_map.mp hr
    exact (idxOf_getD d (hlt d hd)).1
  have hdigits : (encode bytes).map alphabet.idxOf = recode 256 58 (bytes.map UInt8.toNat) := by
    rw [encode, List.map_map]
    exact map_of_fixed fun d hd => (idxOf_getD d (hlt d hd)).2
  have hbytes : ∀ d ∈ bytes.map UInt8.toNat, d < 256 := by
    intro d hd
    obtain ⟨b, -, rfl⟩ := List.mem_map.mp hd
    exact b.toNat_lt
  refine decode_eq_ok.mpr ⟨hmem, ?_⟩
  rw [hdigits, recode_recode (by decide) hbytes]
  simp [Function.comp_def]

theorem toNat_of_decode (h : decodeSolanaBase58 s = .ok bytes) :
    bytes.map UInt8.toNat = recode 58 256 (s.map alphabet.idxOf) := by
  rw [← (decode_eq_ok.mp h).2, List.map_map]
  refine map_of_fixed fun d hd => ?_
  exact Nat.mod_eq_of_lt (lt_of_mem_recode (by decide) d hd)

theorem encode_of_decode (h : decodeSolanaBase58 s = .ok bytes) : encode bytes = s := by
  have hmem := (decode_eq_ok.mp h).1
  have hdigits : ∀ d ∈ s.map alphabet.idxOf, d < 58 := by
    intro d hd
    obtain ⟨r, hr, rfl⟩ := List.mem_map.mp hd
    exact List.idxOf_lt_length_iff.mpr (hmem r hr)
  rw [encode, toNat_of_decode h, recode_recode (by decide) hdigits, List.map_map]
  exact map_of_fixed fun r hr => getD_idxOf (hmem r hr)

theorem leading_of_decode (h : decodeSolanaBase58 s = .ok bytes) :
    (s.takeWhile (· == '1')).length = (bytes.takeWhile (· == 0)).length := by
  have hzero : (· == 0) ∘ UInt8.toNat = (· == 0) := by
    funext b
    simp [← UInt8.toNat_inj]
  have hlead := leading_recode (a := 58) (b := 256) (l := s.map alphabet.idxOf)
  rw [← toNat_of_decode h, leading_idxOf, leading, List.takeWhile_map, List.length_map, hzero]
    at hlead
  exact hlead.symm

theorem decodeBase58_eq_ok :
    decodeBase58 s = .ok bytes ↔ s ≠ [] ∧ decodeSolanaBase58 s = .ok bytes := by
  unfold decodeBase58
  by_cases hs : s = []
  · simp [hs]
  · simp [hs]

def solanaAccount (address : Text) : Option (List UInt8) :=
  (decodeSolanaBase58 (trimSpace address)).toOption

def tronAccount (address : Text) : Option (List UInt8) :=
  (decodeBase58 (trimSpace address)).toOption.map fun decoded => (decoded.drop 1).take 20

theorem solana_accepted (h : validateSolanaAddress s = .ok ()) :
    ∃ decoded, decodeSolanaBase58 (trimSpace s) = .ok decoded := by
  unfold validateSolanaAddress at h
  rcases hd : decodeSolanaBase58 (trimSpace s) with e | decoded
  · rw [hd] at h
    split at h <;> cases h
  · exact ⟨decoded, rfl⟩

theorem hexDigit_inj : ∀ m < 16, ∀ n < 16, foldChar (hexDigit m) = foldChar (hexDigit n) → m = n := by
  decide +kernel

theorem hexEncode_inj {a b : List UInt8} (h : equalFold (hexEncode a) (hexEncode b) = true) :
    a = b := by
  unfold equalFold hexEncode at h
  rw [decide_eq_true_eq] at h
  induction a generalizing b with
  | nil =>
    cases b with
    | nil => rfl
    | cons y b => cases h
  | cons x a ih =>
    cases b with
    | nil => cases h
    | cons y b =>
      simp only [List.flatMap_cons, List.map_cons, List.cons_append, List.cons.injEq] at h
      obtain ⟨hhigh, hlow, hrest⟩ := h
      have hx := x.toNat_lt
      have hy := y.toNat_lt
      have hdiv := hexDigit_inj _ (by omega) _ (by omega) hhigh
      have hmod := hexDigit_inj _ (by omega) _ (by omega) hlow
      rw [ih hrest, UInt8.toNat_inj.mp (show x.toNat = y.toNat by omega)]

variable {sha256 : List UInt8 → List UInt8}

theorem tron_accepted (h : validateTRONAddress sha256 s = .ok ()) :
    ∃ rest, decodeBase58 (trimSpace s) = .ok (0x41 :: rest) ∧
      (sha256 (sha256 (0x41 :: rest.take 20))).take 4 = rest.drop 20 := by
  unfold validateTRONAddress at h
  split at h
  · cases h
  split at h
  · cases h
  rcases hd : decodeBase58 (trimSpace s) with e | decoded
  · rw [hd] at h
    cases h
  · simp only [hd] at h
    split at h
    · cases h
    next hform =>
    obtain ⟨rest, rfl⟩ := List.head?_eq_some_iff.mp (not_not.mp (not_or.mp hform).2)
    split at h
    · next hsum => exact ⟨rest, rfl, hexEncode_inj hsum⟩
    · cases h

theorem tronAccount_inj (hs : validateTRONAddress sha256 s = .ok ())
    (ht : validateTRONAddress sha256 t = .ok ()) (h : tronAccount s = tronAccount t) :
    trimSpace s = trimSpace t := by
  obtain ⟨d, hd, hsum⟩ := tron_accepted hs
  obtain ⟨d', hd', hsum'⟩ := tron_accepted ht
  have hpayload : d.take 20 = d'.take 20 := by
    simpa [tronAccount, hd, hd', Except.toOption] using h
  -- the checksum is a function of the version and the payload
  have hsame : d = d' := by
    rw [← List.take_append_drop 20 d, ← hsum, hpayload, hsum', List.take_append_drop]
  rw [← encode_of_decode (decodeBase58_eq_ok.mp hd).2,
    ← encode_of_decode (decodeBase58_eq_ok.mp hd').2, hsame]

theorem solanaAccount_inj (hs : validateSolanaAddress s = .ok ())
    (ht : validateSolanaAddress t = .ok ()) (h : solanaAccount s = solanaAccount t) :
    trimSpace s = trimSpace t := by
  obtain ⟨d, hd⟩ := solana_accepted hs
  obtain ⟨d', hd'⟩ := solana_accepted ht
  have hsame : d = d' := by
    simpa [solanaAccount, hd, hd', Except.toOption] using h
  rw [← encode_of_decode hd, ← encode_of_decode hd', hsame]

theorem decode_existsUnique (bytes : List UInt8) : ∃! s, decodeSolanaBase58 s = .ok bytes :=
  ⟨encode bytes, decode_encode bytes, fun _ h => (encode_of_decode h).symm⟩

theorem decodeBase58_existsUnique (hne : bytes ≠ []) : ∃! s, decodeBase58 s = .ok bytes := by
  refine ⟨encode bytes, decodeBase58_eq_ok.mpr ⟨?_, decode_encode bytes⟩, fun s h => ?_⟩
  · intro hnil
    have hdecode := decode_encode bytes
    rw [hnil] at hdecode
    cases hdecode
    exact hne rfl
  · exact (encode_of_decode (decodeBase58_eq_ok.mp h).2).symm

theorem base58_bijective (sha256 : List UInt8 → List UInt8) :
    (∀ bytes : List UInt8, bytes.length = 32 → ∃! s, decodeSolanaBase58 s = .ok bytes) ∧
    (∀ bytes : List UInt8, bytes.length = 25 → ∃! s, decodeBase58 s = .ok bytes) ∧
    (∀ s bytes, decodeSolanaBase58 s = .ok bytes ∨ decodeBase58 s = .ok bytes →
      (s.takeWhile (· == '1')).length = (bytes.takeWhile (· == 0)).length) ∧
    (∀ s t, validateSolanaAddress s = .ok () → validateSolanaAddress t = .ok () →
      solanaAccount s = solanaAccount t → trimSpace s = trimSpace t) ∧
    (∀ s t, validateTRONAddress sha256 s = .ok () → validateTRONAddress sha256 t = .ok () →
      tronAccount s = tronAccount t → trimSpace s = trimSpace t) ∧
    ∀ s, (∃ r ∈ s, r ∉ alphabet) →
      (∀ bytes, decodeSolanaBase58 s ≠ .ok bytes ∧ decodeBase58 s ≠ .ok bytes) ∧
      ∀ address, trimSpace address = s → validateSolanaAddress address ≠ .ok () ∧
        validateTRONAddress sha256 address ≠ .ok () := by
  refine ⟨fun bytes _ => decode_existsUnique bytes, fun bytes hlen => ?_, fun s bytes h => ?_,
    fun s t => solanaAccount_inj, fun s t => tronAccount_inj, ?_⟩
  · refine decodeBase58_existsUnique ?_
    rintro rfl
    cases hlen
  · exact leading_of_decode (h.elim id fun h => (decodeBase58_eq_ok.mp h).2)
  · rintro s ⟨r, hr, hout⟩
    have hsolana : ∀ bytes, decodeSolanaBase58 s ≠ .ok bytes :=
      fun bytes h => hout ((decode_eq_ok.mp h).1 r hr)
    refine ⟨fun bytes => ⟨hsolana bytes, fun h => hsolana bytes (decodeBase58_eq_ok.mp h).2⟩, ?_⟩
    rintro address rfl
    refine ⟨fun h => ?_, fun h => ?_⟩
    · obtain ⟨d, hd⟩ := solana_accepted h
      exact hsolana d hd
    · obtain ⟨d, hd, -⟩ := tron_accepted h
      exact hsolana _ (decodeBase58_eq_ok.mp hd).2

theorem isSpace_alphabet : ∀ r ∈ alphabet, isSpace r = false := by
  have hall : alphabet.all (fun r => !isSpace r) = true := by decide +kernel
  simpa using hall

def tronAddress (sha256 : List UInt8 → List UInt8) (account : List UInt8) : Text :=
  encode (0x41 :: account ++ (sha256 (sha256 (0x41 :: account))).take 4)

/-- Every account has exactly one accepted address, unless that address equals the contract's
up to letter case. -/
theorem tron_accounts_have_one_address {account : List UInt8} (hlen : account.length = 20)
    (hsum : ∀ bytes, 4 ≤ (sha256 bytes).length)
    (hother : equalFold (tronAddress sha256 account) usdtTRC20Contract = false) :
    ∃! s, trimSpace s = s ∧ validateTRONAddress sha256 s = .ok () ∧ tronAccount s = some account := by
  have hcode := decode_encode (0x41 :: account ++ (sha256 (sha256 (0x41 :: account))).take 4)
  have htrim : trimSpace (tronAddress sha256 account) = tronAddress sha256 account :=
    trimSpace_of_all fun r hr => isSpace_alphabet r ((decode_eq_ok.mp hcode).1 r hr)
  have hne : tronAddress sha256 account ≠ [] := by
    intro hnil
    rw [← tronAddress, hnil] at hcode
    cases hcode
  have hdecode := decodeBase58_eq_ok.mpr ⟨hne, hcode⟩
  have hvalid : validateTRONAddress sha256 (tronAddress sha256 account) = .ok () := by
    have hfour := hsum (sha256 (0x41 :: account))
    unfold validateTRONAddress
    rw [htrim, if_neg hne, if_neg (by simp [hother]), hdecode]
    simp [hlen, equalFold, hfour]
  have haccount : tronAccount (tronAddress sha256 account) = some account := by
    simp [tronAccount, htrim, hdecode, Except.toOption, hlen]
  refine ⟨_, ⟨htrim, hvalid, haccount⟩, fun s ⟨hs, hok, hkey⟩ => ?_⟩
  rw [← hs, ← htrim]
  exact tronAccount_inj hok hvalid (hkey.trans haccount.symm)

def zeroAccount : List UInt8 := List.replicate 20 0

/-- The SHA-256 of the address bytes of the zero account. -/
def zeroDigest : List UInt8 :=
  [226, 110, 24, 9, 76, 23, 127, 207, 5, 43, 83, 9, 102, 130, 151, 13, 188, 63, 180, 9, 1, 26,
    235, 63, 144, 81, 118, 248, 169, 74, 212, 61]

/-- SHA-256 at the two texts that the checksum of the zero account hashes. -/
def sha256Zero (bytes : List UInt8) : List UInt8 :=
  if bytes = 0x41 :: zeroAccount then zeroDigest
  else
    [185, 124, 7, 2, 111, 106, 237, 129, 12, 99, 157, 212, 139, 159, 254, 153, 136, 137, 127, 221,
      64, 79, 250, 115, 83, 151, 65, 40, 155, 2, 127, 6]

theorem sha256Zero_length (bytes : List UInt8) : (sha256Zero bytes).length = 32 := by
  unfold sha256Zero
  split <;> rfl

theorem tron_accounts_have_one_address_zero :
    tronAddress sha256Zero zeroAccount = "T9yD14Nj9j7xAB4dbGeiX9h8unkKHxuWwb".toList ∧
      ∃! s, trimSpace s = s ∧ validateTRONAddress sha256Zero s = .ok () ∧
        tronAccount s = some zeroAccount := by
  refine ⟨by decide +kernel, tron_accounts_have_one_address (by decide) (fun bytes => ?_)
    (by decide +kernel)⟩
  rw [sha256Zero_length]
  decide

end NewApi.Setting.Base58
