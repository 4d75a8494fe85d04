import Mathlib

set_option relaxedAutoImplicit false
set_option autoImplicit false

/-!
# Integers as double-precision numbers

The conversion of an integer to the nearest double-precision number, ties to the even one, for
integers within the range of the format. Everything here is about integers only.

## Main definitions

* `Double.roundDiv` — the quotient of two numbers rounded to the nearest integer, ties to even.
* `Double.ofInt` — the double-precision number nearest to an integer.

## Main results

* `Double.ofInt_eq_self` — integers of at most 53 bits are represented exactly.
* `Double.ofInt_mono` — the conversion is monotone.
-/

namespace Double

/-- The quotient rounded to the nearest integer, ties to the even one. -/
def roundDiv (n d : ℕ) : ℕ :=
  if 2 * (n % d) < d ∨ 2 * (n % d) = d ∧ n / d % 2 = 0 then n / d else n / d + 1

/-- The double nearest to a natural number: 53 significant bits. -/
def ofNat (n : ℕ) : ℕ :=
  if n < 2 ^ 53 then n else roundDiv n (2 ^ (n.log2 - 52)) * 2 ^ (n.log2 - 52)

/-- The double nearest to an integer. -/
def ofInt : ℤ → ℤ
  | .ofNat n => ofNat n
  | .negSucc n => -ofNat (n + 1)

/-! ## Rounded quotients -/

/-- The rounded quotient is the quotient or one more. -/
lemma roundDiv_bounds (n d : ℕ) : n / d ≤ roundDiv n d ∧ roundDiv n d ≤ n / d + 1 := by
  rw [roundDiv]
  split <;> omega

/-- The rounded quotient of a multiple is exact. -/
lemma roundDiv_mul (k : ℕ) {d : ℕ} (hd : 0 < d) : roundDiv (k * d) d = k := by
  simp [roundDiv, hd]

/-- The rounded quotient is monotone.

**Proof sketch.** If the quotients differ, the larger one is at least the rounded smaller one.
If they agree, the remainders are ordered as the numbers are. -/
lemma roundDiv_mono {m n : ℕ} (d : ℕ) (h : m ≤ n) : roundDiv m d ≤ roundDiv n d := by
  have hq : m / d ≤ n / d := Nat.div_le_div_right h
  rcases Nat.lt_or_ge (m / d) (n / d) with hlt | hge
  · have hm := (roundDiv_bounds m d).2
    have hn := (roundDiv_bounds n d).1
    omega
  · have heq : m / d = n / d := Nat.le_antisymm hq hge
    have hr : m % d ≤ n % d := by
      have hm := Nat.div_add_mod m d
      have hn := Nat.div_add_mod n d
      rw [heq] at hm
      omega
    rw [roundDiv, roundDiv, heq]
    split <;> split <;> omega

/-! ## Natural numbers -/

/-- Below `2 ^ 53` the double is the number. -/
lemma ofNat_eq_self {n : ℕ} (h : n ≤ 2 ^ 53) : ofNat n = n := by
  rcases Nat.lt_or_ge n (2 ^ 53) with hlt | hge
  · rw [ofNat, if_pos hlt]
  · obtain rfl : n = 2 ^ 53 := Nat.le_antisymm h hge
    decide

/-- From `2 ^ 53` on, a double stays between the powers of two around the number.

**Proof sketch.** With `e` the binary logarithm of `n` and `d = 2 ^ (e - 52)`, both `2 ^ e` and
`2 ^ (e + 1)` are multiples of `d`, so they are their own roundings, and rounding is monotone. -/
lemma ofNat_bounds {n : ℕ} (h : 2 ^ 53 ≤ n) :
    2 ^ n.log2 ≤ ofNat n ∧ ofNat n ≤ 2 ^ (n.log2 + 1) := by
  have hn : n ≠ 0 := by omega
  have hlo : 2 ^ n.log2 ≤ n := Nat.log2_self_le hn
  have hhi : n < 2 ^ (n.log2 + 1) := Nat.lt_log2_self
  have hlog : 53 ≤ n.log2 := (Nat.le_log2 hn).mpr h
  have hpos : 0 < 2 ^ (n.log2 - 52) := Nat.two_pow_pos _
  have hpow : ∀ k, 2 ^ (n.log2 + k) = 2 ^ (52 + k) * 2 ^ (n.log2 - 52) := by
    intro k
    rw [← Nat.pow_add]
    congr 1
    omega
  rw [ofNat, if_neg (by omega)]
  constructor
  · have := roundDiv_mono (2 ^ (n.log2 - 52)) ((hpow 0).symm.le.trans hlo)
    rw [roundDiv_mul _ hpos] at this
    calc 2 ^ n.log2 = 2 ^ (52 + 0) * 2 ^ (n.log2 - 52) := hpow 0
      _ ≤ _ := Nat.mul_le_mul_right _ this
  · have := roundDiv_mono (2 ^ (n.log2 - 52)) (hhi.le.trans (hpow 1).le)
    rw [roundDiv_mul _ hpos] at this
    calc _ ≤ 2 ^ (52 + 1) * 2 ^ (n.log2 - 52) := Nat.mul_le_mul_right _ this
      _ = 2 ^ (n.log2 + 1) := (hpow 1).symm

/-- The double is monotone in the number.

**Proof sketch.** Within one power of two the same quotient is rounded; across powers of two the
bounds of `ofNat_bounds` separate the results. -/
lemma ofNat_mono {m n : ℕ} (h : m ≤ n) : ofNat m ≤ ofNat n := by
  rcases Nat.lt_or_ge n (2 ^ 53) with hn | hn
  · rwa [ofNat_eq_self (by omega), ofNat_eq_self hn.le]
  have hn0 : n ≠ 0 := by omega
  have hlown := (ofNat_bounds hn).1
  rcases Nat.lt_or_ge m (2 ^ 53) with hm | hm
  · rw [ofNat_eq_self hm.le]
    have hlog : 53 ≤ n.log2 := (Nat.le_log2 hn0).mpr hn
    have hpow : 2 ^ 53 ≤ 2 ^ n.log2 := Nat.pow_le_pow_right (by omega) hlog
    omega
  have hm0 : m ≠ 0 := by omega
  have hlog : m.log2 ≤ n.log2 := (Nat.le_log2 hn0).mpr ((Nat.log2_self_le hm0).trans h)
  rcases Nat.lt_or_ge m.log2 n.log2 with hlt | hge
  · have hpow : 2 ^ (m.log2 + 1) ≤ 2 ^ n.log2 := Nat.pow_le_pow_right (by omega) hlt
    exact (ofNat_bounds hm).2.trans (hpow.trans hlown)
  · have heq : m.log2 = n.log2 := Nat.le_antisymm hlog hge
    rw [ofNat, ofNat, if_neg (by omega), if_neg (by omega), heq]
    exact Nat.mul_le_mul_right _ (roundDiv_mono _ h)

/-! ## Integers -/

/-- **Exact integers**: an integer of at most 53 bits is its own double. -/
theorem ofInt_eq_self {n : ℤ} (h : -2 ^ 53 ≤ n) (h' : n ≤ 2 ^ 53) : ofInt n = n := by
  cases n with
  | ofNat n =>
    have hn : n ≤ 2 ^ 53 := by simp only [Int.ofNat_eq_natCast] at h'; omega
    rw [ofInt, ofNat_eq_self hn]
    rfl
  | negSucc n =>
    have hn : n + 1 ≤ 2 ^ 53 := by omega
    rw [ofInt, ofNat_eq_self hn]
    rfl

/-- **Monotone conversion**: a larger integer has a larger or equal double. -/
theorem ofInt_mono {m n : ℤ} (h : m ≤ n) : ofInt m ≤ ofInt n := by
  cases m with
  | ofNat m =>
    cases n with
    | ofNat n => exact Int.ofNat_le.mpr (ofNat_mono (by simpa using h))
    | negSucc n => simp only [Int.ofNat_eq_natCast] at h; omega
  | negSucc m =>
    cases n with
    | ofNat n =>
      simp only [ofInt]
      omega
    | negSucc n =>
      have := ofNat_mono (show n + 1 ≤ m + 1 by omega)
      simp only [ofInt]
      omega

/-- Doubles in strict order come from integers in strict order. -/
theorem lt_of_ofInt_lt {m n : ℤ} (h : ofInt m < ofInt n) : m < n :=
  lt_of_not_ge fun hle => absurd (ofInt_mono hle) (not_le.mpr h)

end Double
