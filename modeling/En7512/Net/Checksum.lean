/-
# The Internet checksum

`in_csum` adds the 16-bit words of a buffer in an `int`, folds the carries back into the
lower half twice, and returns the complement. For every buffer an IP packet can be, the
`int` does not overflow and the result is the complement of the sum with end-around carry.
A header with that number in its checksum field adds up to minus zero, which is how the
receiver checks it.
-/

import En7512.Logic.OnesComplement
import En7512.Nand.Chip
import Mathlib.Algebra.BigOperators.Group.Finset.Basic

namespace En7512.Net

open En7512.Logic En7512.Nand

/-! ## The code -/

/-- The sum of two `int`s; an overflow is undefined. -/
def addInt (a b : ℤ) : Option ℤ :=
  if -2 ^ 31 ≤ a + b ∧ a + b < 2 ^ 31 then some (a + b) else none

/-- The `while` loop of `in_csum`: the bytes that are left, where they are, and the sum. -/
def inCsumLoop (ptr : Bytes) : ℕ → ℕ → ℤ → Option (ℕ × ℕ × ℤ)
  | nbytes + 2, i, sum => do
      let sum ← addInt sum (u16At ptr i)
      inCsumLoop ptr nbytes (i + 2) sum
  | nbytes, i, sum => some (nbytes, i, sum)

/-- `oddbyte`: the first byte in memory is the last byte of the buffer. -/
def oddbyte (byte : UInt8) : ℕ := u16At (Function.update (fun _ => 0) 0 byte) 0

/-- The end of `in_csum`: the carries, and the complement. -/
def inCsumFold (sum : ℤ) : Option (BitVec 16) := do
  -- `sum & 0xffff` is the remainder
  let sum ← addInt (sum >>> (16 : ℕ)) (sum % 0x10000)
  let sum ← addInt sum (sum >>> (16 : ℕ))
  return BitVec.ofInt 16 (~~~sum)

/-- `in_csum`, as long as no sum overflows. -/
def inCsum (ptr : Bytes) (nbytes : ℕ) : Option (BitVec 16) := do
  let (left, i, sum) ← inCsumLoop ptr nbytes 0 0
  if left = 1 then
    let sum ← addInt sum (oddbyte (ptr i))
    inCsumFold sum
  else inCsumFold sum

/-- `sizeof(struct iphdr)`. -/
def iphdrSize : ℕ := 20

/-- The offset of `check` in `struct iphdr`. -/
def checkOffset : ℕ := 10

/-- The header that `ip_send` builds at the head of a packet of `len` bytes, up to its
checksum. -/
def ipHdr (skb : Bytes) (len : ℕ) (ipId : BitVec 16) (proto : UInt8) (localIp ip : BitVec 32) :
    Bytes :=
  let hdr := Function.update skb 0 0x45 -- `version` and `ihl`
  let hdr := Function.update hdr 1 0
  let hdr := putU16 hdr 2 (len % 0x10000)
  let hdr := putU16 hdr 4 ipId.toNat
  let hdr := putU16 hdr 6 0
  let hdr := Function.update hdr 8 20
  let hdr := Function.update hdr 9 proto
  let hdr := putU16 hdr checkOffset 0
  let hdr := putU16 (putU16 hdr 12 (localIp.toNat / 0x10000)) 14 (localIp.toNat % 0x10000)
  putU16 (putU16 hdr 16 (ip.toNat / 0x10000)) 18 (ip.toNat % 0x10000)

/-- The header that `ip_send` sends. -/
def ipSendHdr (skb : Bytes) (len : ℕ) (ipId : BitVec 16) (proto : UInt8)
    (localIp ip : BitVec 32) : Option Bytes := do
  let hdr := ipHdr skb len ipId proto localIp ip
  let check ← inCsum hdr iphdrSize
  return putU16 hdr checkOffset check.toNat

/-! ## The checksum as it is specified -/

/-- The 16-bit words of a buffer, with a zero byte after an odd last one. -/
def csumWord (ptr : Bytes) (nbytes k : ℕ) : ℕ :=
  u16At (fun i => if i < nbytes then ptr i else 0) (2 * k)

/-- The sum of the words of a buffer in one's complement arithmetic. -/
def onesComplementSum (ptr : Bytes) (nbytes : ℕ) : ℕ :=
  onesSum 0xFFFF ((List.range ((nbytes + 1) / 2)).map (csumWord ptr nbytes))

/-! ## The sum -/

section Sum

variable {ptr : Bytes} {nbytes i k : ℕ} {sum : ℤ}

theorem addInt_eq {a b : ℤ} (low : 0 ≤ a + b) (high : a + b < 2 ^ 31) : addInt a b = some (a + b) :=
  if_pos ⟨by omega, high⟩

theorem oddbyte_eq (byte : UInt8) : oddbyte byte = byte.toNat * 256 := by
  rw [oddbyte, u16At, Function.update_self, Function.update_of_ne (by decide), UInt8.toNat_zero,
    Nat.add_zero]

/-- The ordinary sum of the words. -/
def plainSum (ptr : Bytes) (nbytes : ℕ) : ℕ :=
  ∑ k ∈ Finset.range ((nbytes + 1) / 2), csumWord ptr nbytes k

/-- A word before an odd last byte. -/
theorem csumWord_of_lt (h : 2 * k + 1 < nbytes) : csumWord ptr nbytes k = u16At ptr (2 * k) :=
  u16At_congr (if_pos (by omega)) (if_pos h)

/-- The word of an odd last byte. -/
theorem csumWord_last (h : 2 * k + 1 = nbytes) :
    csumWord ptr nbytes k = oddbyte (ptr (2 * k)) := by
  have here : 2 * k < nbytes := by omega
  have after : ¬ 2 * k + 1 < nbytes := by omega
  simp only [oddbyte_eq, csumWord, u16At, if_pos here, if_neg after, UInt8.toNat_zero,
    Nat.add_zero]

theorem csumWord_lt (k : ℕ) : csumWord ptr nbytes k < 0x10000 := u16At_lt _ _

/-- The whole words of the buffer, and the odd byte. -/
theorem plainSum_eq (ptr : Bytes) (nbytes : ℕ) :
    plainSum ptr nbytes = ∑ k ∈ Finset.range (nbytes / 2), u16At ptr (2 * k) +
      if nbytes % 2 = 1 then oddbyte (ptr (2 * (nbytes / 2))) else 0 := by
  have whole : ∑ k ∈ Finset.range (nbytes / 2), csumWord ptr nbytes k =
      ∑ k ∈ Finset.range (nbytes / 2), u16At ptr (2 * k) := by
    apply Finset.sum_congr rfl
    intro k hk
    rw [Finset.mem_range] at hk
    exact csumWord_of_lt (by omega)
  rw [plainSum, ← whole]
  by_cases odd : nbytes % 2 = 1
  · have words : (nbytes + 1) / 2 = nbytes / 2 + 1 := by omega
    rw [words, Finset.sum_range_succ, if_pos odd, csumWord_last (by omega)]
  · have words : (nbytes + 1) / 2 = nbytes / 2 := by omega
    rw [words, if_neg odd, Nat.add_zero]

/-- The sum of the longest buffer stays just below `2 ^ 31`. -/
theorem plainSum_lt (h : nbytes ≤ 65535) : plainSum ptr nbytes < 2 ^ 31 := by
  have whole : ∑ k ∈ Finset.range (nbytes / 2), u16At ptr (2 * k) ≤ nbytes / 2 * 0xFFFF := by
    rw [← smul_eq_mul]
    calc _ ≤ (Finset.range (nbytes / 2)).card • 0xFFFF :=
          Finset.sum_le_card_nsmul _ _ _ fun k _ => Nat.le_of_lt_succ (u16At_lt ptr (2 * k))
      _ = _ := by rw [Finset.card_range]
  have last := (ptr (2 * (nbytes / 2))).toNat_lt
  rw [plainSum_eq, oddbyte_eq]
  split
  · omega
  · omega

/-- The loop adds the whole words that are left. -/
theorem inCsumLoop_eq {left s : ℕ}
    (fits : s + ∑ j ∈ Finset.range (left / 2), u16At ptr (2 * (k + j)) < 2 ^ 31) :
    inCsumLoop ptr left (2 * k) s = some (left % 2, 2 * (k + left / 2),
      ((s + ∑ j ∈ Finset.range (left / 2), u16At ptr (2 * (k + j)) : ℕ) : ℤ)) := by
  induction left using Nat.twoStepInduction generalizing k s with
  | zero => rfl
  | one => rfl
  | more left ih _ =>
      have half : (left + 2) / 2 = left / 2 + 1 := by omega
      have shift : ∑ j ∈ Finset.range (left / 2 + 1), u16At ptr (2 * (k + j)) =
          ∑ j ∈ Finset.range (left / 2), u16At ptr (2 * (k + 1 + j)) + u16At ptr (2 * k) := by
        rw [Finset.sum_range_succ', Nat.add_zero]
        simp only [Nat.add_assoc, Nat.add_comm 1]
      rw [half, shift] at fits
      have next : addInt s (u16At ptr (2 * k)) = some ((s + u16At ptr (2 * k) : ℕ) : ℤ) := by
        rw [addInt_eq (by omega) (by omega), Nat.cast_add]
      rw [inCsumLoop, next]
      show inCsumLoop ptr left (2 * (k + 1)) _ = _
      have place : k + 1 + left / 2 = k + (left / 2 + 1) := by omega
      have order : s + u16At ptr (2 * k) +
            ∑ j ∈ Finset.range (left / 2), u16At ptr (2 * (k + 1 + j)) =
          s + (∑ j ∈ Finset.range (left / 2), u16At ptr (2 * (k + 1 + j)) +
            u16At ptr (2 * k)) := by omega
      rw [ih (by omega), half, shift, Nat.add_mod_right, place, order]

/-- Two foldings are enough for a sum below `2 ^ 31`: the first leaves at most one carry. -/
theorem fold_eq {s : ℕ} (h : s < 2 ^ 31) :
    (s / 0x10000 + s % 0x10000 + (s / 0x10000 + s % 0x10000) / 0x10000) % 0x10000 =
      onesReduce 0xFFFF s := by
  have low := Nat.mod_lt s (show 0 < 0x10000 by decide)
  have parts : s = s / 0x10000 + s % 0x10000 + s / 0x10000 * 0xFFFF := by omega
  have high : s / 0x10000 < 0x8000 := by omega
  generalize s / 0x10000 = carries at parts high ⊢
  generalize s % 0x10000 = rest at parts low ⊢
  by_cases zero : carries + rest = 0
  · have none : s = 0 := by omega
    rw [zero, none]
    rfl
  · rw [parts, onesReduce_add_mul (Nat.pos_of_ne_zero zero)]
    by_cases fits : carries + rest ≤ 0xFFFF
    · rw [onesReduce_of_le fits]
      omega
    · have carry : carries + rest - 0xFFFF + 1 * 0xFFFF = carries + rest := by omega
      have reduced := onesReduce_add_mul (m := 0xFFFF) (s := carries + rest - 0xFFFF) (by omega) 1
      have below : carries + rest - 0xFFFF ≤ 0xFFFF := by omega
      have one : (carries + rest) / 0x10000 = 1 := by omega
      rw [carry, onesReduce_of_le below] at reduced
      rw [one, reduced]
      omega

theorem onesComplementSum_eq (ptr : Bytes) (nbytes : ℕ) :
    onesComplementSum ptr nbytes = onesReduce 0xFFFF (plainSum ptr nbytes) := by
  have bounded : ∀ a ∈ (List.range ((nbytes + 1) / 2)).map (csumWord ptr nbytes), a ≤ 0xFFFF := by
    intro a ha
    obtain ⟨k, -, rfl⟩ := List.mem_map.mp ha
    exact Nat.le_of_lt_succ (csumWord_lt k)
  exact onesSum_eq (by decide) bounded

theorem inCsumFold_eq {s : ℕ} (h : s < 2 ^ 31) :
    inCsumFold s = some (~~~ BitVec.ofNat 16 (onesReduce 0xFFFF s)) := by
  have shift (n : ℕ) : ((n : ℤ) >>> (16 : ℕ)) = ((n / 0x10000 : ℕ) : ℤ) := by
    rw [Int.shiftRight_eq_div_pow]
    rfl
  have first : addInt ((s : ℤ) >>> (16 : ℕ)) ((s : ℤ) % 0x10000) =
      some ((s / 0x10000 + s % 0x10000 : ℕ) : ℤ) := by
    rw [shift, addInt_eq (by omega) (by omega)]
    rfl
  have second (n : ℕ) (hn : n < 2 ^ 30) : addInt (n : ℤ) ((n : ℤ) >>> (16 : ℕ)) =
      some ((n + n / 0x10000 : ℕ) : ℤ) := by
    rw [shift, addInt_eq (by omega) (by omega)]
    rfl
  have complement (n : ℕ) : ~~~(n : ℤ) = Int.negSucc n := rfl
  have folded (n : ℕ) (hn : n % 0x10000 = onesReduce 0xFFFF s) :
      BitVec.ofNat 16 n = BitVec.ofNat 16 (onesReduce 0xFFFF s) := by
    apply BitVec.eq_of_toNat_eq
    rw [BitVec.toNat_ofNat, BitVec.toNat_ofNat, ← hn]
    exact (Nat.mod_mod _ _).symm
  rw [inCsumFold, first, Option.bind_eq_bind, Option.bind_some, second _ (by omega),
    Option.bind_some, complement, BitVec.ofInt_negSucc_eq_not_ofNat, folded _ (fold_eq h)]
  rfl

/-- The loop over a whole buffer. -/
theorem inCsumLoop_whole (fits : plainSum ptr nbytes < 2 ^ 31) :
    inCsumLoop ptr nbytes 0 0 = some (nbytes % 2, 2 * (nbytes / 2),
      ((∑ k ∈ Finset.range (nbytes / 2), u16At ptr (2 * k) : ℕ) : ℤ)) := by
  rw [plainSum_eq] at fits
  have words : 0 + ∑ j ∈ Finset.range (nbytes / 2), u16At ptr (2 * (0 + j)) < 2 ^ 31 := by
    simp only [Nat.zero_add]
    exact Nat.lt_of_le_of_lt (Nat.le_add_right _ _) fits
  have whole := inCsumLoop_eq words
  simp only [Nat.zero_add] at whole
  exact whole

/-- `in_csum` of a buffer is the complement of its one's complement sum, and no sum overflows
on the way. -/
theorem inCsum_eq (h : nbytes ≤ 65535) :
    inCsum ptr nbytes = some (~~~ BitVec.ofNat 16 (onesComplementSum ptr nbytes)) := by
  have total : plainSum ptr nbytes < 2 ^ 31 := plainSum_lt h
  have parts := plainSum_eq ptr nbytes
  rw [onesComplementSum_eq, ← inCsumFold_eq total, inCsum, inCsumLoop_whole total,
    Option.bind_eq_bind, Option.bind_some]
  by_cases odd : nbytes % 2 = 1
  · rw [if_pos odd] at parts
    have added := addInt_eq (a := ((∑ k ∈ Finset.range (nbytes / 2), u16At ptr (2 * k) : ℕ) : ℤ))
      (b := oddbyte (ptr (2 * (nbytes / 2)))) (by omega) (by omega)
    rw [parts, Nat.cast_add]
    show (if nbytes % 2 = 1 then (addInt _ _).bind inCsumFold else inCsumFold _) = _
    rw [if_pos odd, added, Option.bind_some]
  · rw [if_neg odd, Nat.add_zero] at parts
    rw [parts]
    show (if nbytes % 2 = 1 then (addInt _ _).bind inCsumFold else inCsumFold _) = _
    rw [if_neg odd]

end Sum

/-! ## The checksum field -/

section Field

variable {ptr : Bytes} {nbytes k v : ℕ} {check : BitVec 16}

/-- A store into a field changes one word. -/
theorem csumWord_putU16 (inside : 2 * k + 2 ≤ nbytes) (blank : u16At ptr (2 * k) = 0)
    (hv : v < 65536) (j : ℕ) :
    csumWord (putU16 ptr (2 * k) v) nbytes j =
      csumWord ptr nbytes j + if j = k then v else 0 := by
  by_cases here : j = k
  · rw [here, if_pos rfl, csumWord_of_lt (by omega), csumWord_of_lt (by omega), blank,
      u16At_putU16 _ _ hv, Nat.zero_add]
  · have apart : ∀ i, i = 2 * j ∨ i = 2 * j + 1 → putU16 ptr (2 * k) v i = ptr i := by
      intro i hi
      apply putU16_of_ne
      · omega
      · omega
    rw [if_neg here, Nat.add_zero]
    apply u16At_congr
    · simp only [apart (2 * j) (.inl rfl)]
    · simp only [apart (2 * j + 1) (.inr rfl)]

/-- What is stored into a blank field is added to the sum. -/
theorem plainSum_putU16 (inside : 2 * k + 2 ≤ nbytes) (blank : u16At ptr (2 * k) = 0)
    (hv : v < 65536) : plainSum (putU16 ptr (2 * k) v) nbytes = plainSum ptr nbytes + v := by
  have member : k ∈ Finset.range ((nbytes + 1) / 2) := Finset.mem_range.mpr (by omega)
  calc plainSum (putU16 ptr (2 * k) v) nbytes
      = ∑ j ∈ Finset.range ((nbytes + 1) / 2),
          (csumWord ptr nbytes j + if j = k then v else 0) :=
        Finset.sum_congr rfl fun j _ => csumWord_putU16 inside blank hv j
    _ = plainSum ptr nbytes + v := by
        rw [Finset.sum_add_distrib, Finset.sum_ite_eq', if_pos member, plainSum]

/-- With its own checksum in the field that was blank, a buffer adds up to minus zero. -/
theorem inCsum_verifies (h : nbytes ≤ 65535) (inside : 2 * k + 2 ≤ nbytes)
    (blank : u16At ptr (2 * k) = 0) (computed : inCsum ptr nbytes = some check) :
    inCsum (putU16 ptr (2 * k) check.toNat) nbytes = some 0 := by
  have small := onesReduce_le (show 0 < 0xFFFF by decide) (plainSum ptr nbytes)
  have value : check.toNat = 0xFFFF - onesReduce 0xFFFF (plainSum ptr nbytes) := by
    rw [inCsum_eq h, onesComplementSum_eq] at computed
    rw [← Option.some.inj computed, BitVec.toNat_not, BitVec.toNat_ofNat,
      Nat.mod_eq_of_lt (Nat.lt_succ_of_le small)]
  rw [inCsum_eq h, onesComplementSum_eq, plainSum_putU16 inside blank check.isLt, value,
    onesReduce_add_complement (by decide)]
  rfl

/-- `ip_send` leaves `check` blank while it computes the checksum. -/
theorem u16At_ipHdr (skb : Bytes) (len : ℕ) (ipId : BitVec 16) (proto : UInt8)
    (localIp ip : BitVec 32) :
    u16At (ipHdr skb len ipId proto localIp ip) checkOffset = 0 := by
  simp [ipHdr, u16At, putU16, checkOffset]

/-- `in_csum` is the Internet checksum: for every buffer up to 65535 bytes it computes the
complement of the one's complement sum without an overflow, and storing it into an aligned
field makes the buffer verify. Every header `ip_send` builds verifies. -/
theorem inCsum_internetChecksum (ptr : Bytes) (h : nbytes ≤ 65535) :
    inCsum ptr nbytes = some (~~~ BitVec.ofNat 16 (onesComplementSum ptr nbytes)) ∧
      (∀ k, 2 * k + 2 ≤ nbytes → ∃ check,
        inCsum (putU16 ptr (2 * k) 0) nbytes = some check ∧
        inCsum (putU16 (putU16 ptr (2 * k) 0) (2 * k) check.toNat) nbytes = some 0) ∧
      ∀ skb len ipId proto localIp ip, ∃ hdr,
        ipSendHdr skb len ipId proto localIp ip = some hdr ∧ inCsum hdr iphdrSize = some 0 := by
  refine ⟨inCsum_eq h, fun k inside => ?_, fun skb len ipId proto localIp ip => ?_⟩
  · have blank : u16At (putU16 ptr (2 * k) 0) (2 * k) = 0 := u16At_putU16 _ _ (by decide)
    exact ⟨_, inCsum_eq h, inCsum_verifies h inside blank (inCsum_eq h)⟩
  · have size : iphdrSize ≤ 65535 := by decide
    have blank : u16At (ipHdr skb len ipId proto localIp ip) (2 * 5) = 0 := u16At_ipHdr ..
    have inside : 2 * 5 + 2 ≤ iphdrSize := by decide
    refine ⟨_, ?_, inCsum_verifies size inside blank (inCsum_eq size)⟩
    rw [ipSendHdr, inCsum_eq size]
    rfl

/-- Five bytes, with the checksum in the second word. -/
theorem inCsum_internetChecksum_five :
    let ptr : Bytes := fun i => [0x45, 0x00, 0x12, 0x34, 0xFF].getD i 0
    inCsum (putU16 ptr 2 0) 5 = some 0xBBFE ∧ inCsum (putU16 ptr 2 0xBBFE) 5 = some 0 := by
  intro ptr
  obtain ⟨-, verifies, -⟩ := inCsum_internetChecksum ptr (show 5 ≤ 65535 by decide)
  have first : inCsum (putU16 ptr 2 0) 5 = some 0xBBFE := by decide +kernel
  obtain ⟨check, computed, verified⟩ := verifies 1 (by decide)
  obtain rfl := Option.some.inj (first.symm.trans computed)
  have stored : putU16 (putU16 ptr 2 0) 2 0xBBFE = putU16 ptr 2 0xBBFE := by
    funext j
    by_cases high : j = 2
    · simp [putU16, high]
    · by_cases low : j = 2 + 1
      · simp [putU16, low]
      · rw [putU16_of_ne high low, putU16_of_ne high low, putU16_of_ne high low]
  rw [← stored]
  exact ⟨first, verified⟩

end Field

end En7512.Net
