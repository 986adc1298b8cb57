import RecordFilter.Decimal.Shortest
import RecordFilter.Proofs.Rounding

/-!
# The size of shortest decimals

The shortest decimal of a finite number has at most seventeen digits, and it is not above the middle
to the next number. So the shortest decimals of all finite numbers but the greatest are not above
the middle between the two greatest.
-/
namespace RecordFilter.Decimal

open Rounding (middleAt upperMiddle)

namespace Binary

/-- The number that is held. -/
def value (b : Binary) : ℚ := b.mantissa * 2 ^ b.exponent

/-- What the bits of a finite number can hold. -/
structure Bounded (b : Binary) : Prop where
  mantissa : b.mantissa < 2 ^ 53
  least : -1074 ≤ b.exponent
  greatest : b.exponent ≤ 971

end Binary

/-- The number that a decimal denotes. -/
def Point.value (p : Point) : ℚ := p.digits * 10 ^ p.exponent

theorem zpow_mul_pow_toNat {a : ℚ} (h : a ≠ 0) (k : Int) :
    a ^ k * a ^ (-k).toNat = a ^ k.toNat := by
  rw [← zpow_natCast, ← zpow_natCast, ← zpow_add₀ h]
  congr 1
  omega

/-- The factors are the two powers in a common measure. -/
theorem factors_eq (k q : Int) : ∃ d : ℚ, 0 < d ∧ (factors k q).1 = 10 ^ k * d ∧
    (factors k q).2 = 2 ^ q * d := by
  refine ⟨10 ^ (-k).toNat * 2 ^ (-q).toNat, by positivity, ?_, ?_⟩
  · rw [← mul_assoc, zpow_mul_pow_toNat (by decide)]
    simp [factors]
  · rw [mul_left_comm, zpow_mul_pow_toNat two_ne_zero]
    simp [factors]

theorem factors_le_iff {c v : Nat} {k q : Int} :
    c * (factors k q).1 ≤ v * (factors k q).2 ↔ c * (10 : ℚ) ^ k ≤ v * 2 ^ q := by
  obtain ⟨d, positive, ten, two⟩ := factors_eq k q
  rw [← Nat.cast_le (α := ℚ), Nat.cast_mul, Nat.cast_mul, ten, two, ← mul_assoc, ← mul_assoc,
    mul_le_mul_iff_left₀ positive]

theorem factors_lt_iff {c v : Nat} {k q : Int} :
    v * (factors k q).2 < c * (factors k q).1 ↔ v * (2 : ℚ) ^ q < c * 10 ^ k := by
  rw [← Nat.not_le, factors_le_iff, not_le]

theorem value_lt_of_log2 (b : Binary) : b.value < 2 ^ (b.mantissa.log2 + b.exponent + 1) := by
  have below : (b.mantissa : ℚ) < (2 ^ (b.mantissa.log2 + 1) : Nat) :=
    Nat.cast_lt.mpr Nat.lt_log2_self
  have power : (2 : ℚ) ^ (b.mantissa.log2 + b.exponent + 1) =
      (2 ^ (b.mantissa.log2 + 1) : Nat) * 2 ^ b.exponent := by
    rw [Nat.cast_pow, Nat.cast_ofNat, ← zpow_natCast, ← zpow_add₀ two_ne_zero]
    congr 1
    push_cast
    ring
  rw [power, Binary.value]
  gcongr

/-- The guess of the first digit is at most one too small. -/
theorem two_zpow_le_of_guess {t : Int} (least : -1074 ≤ t) (greatest : t ≤ 1023) :
    (2 : ℚ) ^ (t + 1) ≤ 10 ^ (Int.fdiv (t * 30103) 100000 + 2) := by
  have table : ∀ n ∈ List.range 2098, let t : Int := n - 1074
      (factors (Int.fdiv (t * 30103) 100000 + 2) (t + 1)).2 ≤
        (factors (Int.fdiv (t * 30103) 100000 + 2) (t + 1)).1 := by
    decide +kernel
  have entry := table (t + 1074).toNat (List.mem_range.mpr (by omega))
  simp only [Int.toNat_of_nonneg (show 0 ≤ t + 1074 by omega), Int.add_sub_cancel] at entry
  obtain ⟨d, positive, ten, two⟩ := factors_eq (Int.fdiv (t * 30103) 100000 + 2) (t + 1)
  rwa [← Nat.cast_le (α := ℚ), ten, two, mul_le_mul_iff_left₀ positive] at entry

/-- The number lies below the next power of ten after its first digit. -/
theorem value_lt_leadingExponent {b : Binary} (bounded : b.Bounded) :
    b.value < 10 ^ (leadingExponent b + 1) := by
  have size : b.mantissa.log2 ≤ 52 := by
    obtain zero | nonzero := Nat.eq_zero_or_pos b.mantissa
    · rw [zero]
      decide
    · exact Nat.lt_succ_iff.mp ((Nat.log2_lt (Nat.ne_of_gt nonzero)).mpr bounded.mantissa)
  have guess := (value_lt_of_log2 b).trans_le (two_zpow_le_of_guess
    (t := b.mantissa.log2 + b.exponent) (by have := bounded.least; omega)
    (by have := bounded.greatest; omega))
  have refused {k : Int} (h : ¬(factors k b.exponent).1 ≤ b.mantissa * (factors k b.exponent).2) :
      b.value < 10 ^ k := by
    have below := factors_lt_iff.mp ((Nat.not_le.mp h).trans_eq (Nat.one_mul _).symm)
    rwa [Nat.cast_one, one_mul] at below
  simp only [leadingExponent, decide_eq_true_eq]
  split_ifs with first second
  · rw [add_assoc]
    exact guess
  · exact refused first
  · rw [sub_add_cancel]
    exact refused second

variable {tie : Tie} {b : Binary} {k : Int} {c : Nat}

/-- A point of a grid that reads back is next to the number, and it is not above the middle to the
next number. -/
structure Near (b : Binary) (k : Int) (c : Nat) : Prop where
  next : (c - 1) * (10 : ℚ) ^ k ≤ b.value
  below : c * (10 : ℚ) ^ k ≤ (b.mantissa + 1 / 2) * 2 ^ b.exponent

theorem quarters (v : ℚ) (q : Int) : 4 * v * 2 ^ (q - 2) = v * 2 ^ q := by
  rw [zpow_sub₀ two_ne_zero]
  ring

/-- The first part of `onGrid?`: the multiple of `10 ^ k` next below the number. -/
def floorOnGrid (b : Binary) (k : Int) : Nat :=
  4 * b.mantissa * (factors k (b.exponent - 2)).2 / (factors k (b.exponent - 2)).1

theorem onGrid?_eq_some (h : onGrid? tie b k = some c) :
    (c = floorOnGrid b k ∨ c = floorOnGrid b k + 1) ∧
      c * (factors k (b.exponent - 2)).1 ≤
        (4 * b.mantissa + 2) * (factors k (b.exponent - 2)).2 := by
  have upper {c low high : Nat} (reads : (if b.mantissa % 2 = 0 then
      decide (low ≤ c) && decide (c ≤ high) else decide (low < c) && decide (c < high)) = true) :
      c ≤ high := by
    split at reads <;> simp only [Bool.and_eq_true, decide_eq_true_eq] at reads
    · exact reads.2
    · exact reads.2.le
  simp only [onGrid?] at h
  split at h
  · next below above =>
    split_ifs at h
    · cases h
      exact ⟨.inl rfl, upper below⟩
    · cases h
      exact ⟨.inr rfl, upper above⟩
  · next below _ =>
    cases h
    exact ⟨.inl rfl, upper below⟩
  · next _ above =>
    cases h
    exact ⟨.inr rfl, upper above⟩
  · cases h

theorem near_of_onGrid? (h : onGrid? tie b k = some c) : Near b k c := by
  obtain ⟨next, upper⟩ := onGrid?_eq_some h
  have floor : floorOnGrid b k * (10 : ℚ) ^ k ≤ b.value := by
    have below := factors_le_iff.mp (Nat.div_mul_le_self _ _ : floorOnGrid b k * _ ≤ _ * _)
    rwa [Nat.cast_mul, Nat.cast_ofNat, quarters] at below
  refine ⟨?_, ?_⟩
  · have power : (0 : ℚ) < 10 ^ k := by positivity
    obtain rfl | rfl := next
    · linarith
    · push_cast
      linarith
  · have below := factors_le_iff.mp upper
    have half : ((4 * b.mantissa + 2 : Nat) : ℚ) = 4 * (b.mantissa + 1 / 2) := by
      push_cast
      ring
    rwa [half, quarters] at below

/-- A search that does not give up ends on a grid not too far down with a point that reads back. -/
theorem search_cases (tie : Tie) (b : Binary) (k : Int) (places : Nat) :
    (search tie b k places).digits = 0 ∨
      Near b (search tie b k places).exponent (search tie b k places).digits ∧
        k - places < (search tie b k places).exponent := by
  induction places generalizing k with
  | zero => exact .inl rfl
  | succ places ih =>
    rw [search]
    split
    · next c found => exact .inr ⟨near_of_onGrid? found, by simp⟩
    · refine (ih (k - 1)).imp_right fun ⟨near, within⟩ => ⟨near, ?_⟩
      omega

/-- The size of a decimal of a number: it is zero, or has at most seventeen digits and is not above
the middle to the next number. -/
structure Point.FitsTo (p : Point) (b : Binary) : Prop where
  digits : p.digits ≤ 10 ^ 17
  value : p.value ≤ (b.mantissa + 1 / 2) * 2 ^ b.exponent

theorem digits_le_of_near {b : Binary} (bounded : b.Bounded) (near : Near b k c)
    (within : leadingExponent b - 17 < k) : c ≤ 10 ^ 17 := by
  have power : (0 : ℚ) < 10 ^ k := by positivity
  have below : ((c : ℚ) - 1) * 10 ^ k < 10 ^ 17 * 10 ^ k :=
    calc ((c : ℚ) - 1) * 10 ^ k ≤ b.value := near.next
      _ < 10 ^ (leadingExponent b + 1) := value_lt_leadingExponent bounded
      _ ≤ 10 ^ (17 + k) := zpow_le_zpow_right₀ (by norm_num) (by omega)
      _ = 10 ^ 17 * 10 ^ k := zpow_add₀ (by norm_num) 17 k
  have digits : (c : ℚ) < 10 ^ 17 + 1 :=
    sub_lt_iff_lt_add.mp (lt_of_mul_lt_mul_right below power.le)
  exact Nat.lt_succ_iff.mp (by exact_mod_cast digits)

theorem fitsTo_shortest (tie : Tie) {x : Float} (bounded : (Binary.ofFloat x).Bounded) :
    (shortest tie x).FitsTo (Binary.ofFloat x) := by
  have zero {p : Point} (h : p.digits = 0) : p.FitsTo (Binary.ofFloat x) := by
    refine ⟨h ▸ Nat.zero_le _, ?_⟩
    rw [Point.value, h, Nat.cast_zero, zero_mul]
    positivity
  simp only [shortest]
  split
  · exact zero rfl
  · obtain none | ⟨near, within⟩ := search_cases tie (Binary.ofFloat x) _ 17
    · exact zero none
    · exact ⟨digits_le_of_near bounded near within, near.below⟩

/-- With half of its last place, a number of 53 bits is not above the middle between the two
greatest ones of the exponent `p + 1`, unless it is the greatest of these. -/
theorem middle_le_middleAt {m p : Nat} {q : Int} (size : m < 2 ^ 53) (top : q ≤ p + 1)
    (other : q = p + 1 → m ≠ 2 ^ 53 - 1) : (m + 1 / 2) * (2 : ℚ) ^ q ≤ middleAt p := by
  have power : (0 : ℚ) ≤ 2 ^ (p : Int) := by positivity
  rw [middleAt, Nat.cast_mul, Nat.cast_pow, Nat.cast_ofNat, ← zpow_natCast]
  obtain lower | greatest : q ≤ p ∨ q = p + 1 := by omega
  · have mantissa : ((m + 1 : Nat) : ℚ) ≤ (2 ^ 54 - 3 : Nat) := Nat.cast_le.mpr (by omega)
    rw [Nat.cast_add, Nat.cast_one] at mantissa
    calc (m + 1 / 2) * (2 : ℚ) ^ q ≤ (m + 1) * 2 ^ (p : Int) := by
          gcongr
          · norm_num
          · exact one_le_two
      _ ≤ (2 ^ 54 - 3 : Nat) * 2 ^ (p : Int) := mul_le_mul_of_nonneg_right mantissa power
  · have mantissa : ((2 * m + 1 : Nat) : ℚ) ≤ (2 ^ 54 - 3 : Nat) :=
      Nat.cast_le.mpr (by have := other greatest; omega)
    calc (m + 1 / 2) * (2 : ℚ) ^ q = (2 * m + 1 : Nat) * 2 ^ (p : Int) := by
          rw [greatest, zpow_add_one₀ two_ne_zero]
          push_cast
          ring
      _ ≤ (2 ^ 54 - 3 : Nat) * 2 ^ (p : Int) := mul_le_mul_of_nonneg_right mantissa power

/-- The shortest decimals of numbers but the greatest are not above the middle between the two
greatest. -/
theorem Point.FitsTo.value_le {p : Point} {b : Binary} (fits : p.FitsTo b) (bounded : b.Bounded)
    (other : ¬(b.mantissa = 2 ^ 53 - 1 ∧ b.exponent = 971)) : p.value ≤ upperMiddle := by
  have middle := middle_le_middleAt (p := 970) bounded.mantissa bounded.greatest
    fun top greatest => other ⟨greatest, top⟩
  rw [upperMiddle]
  exact fits.value.trans middle

open Float.Model (Format UnpackedFloat) in
theorem biased_ne_of_isFinite {x : Float} (finite : x.isFinite = true) :
    x.toBits.toNat / 2 ^ 52 % 2 ^ 11 ≠ 2047 := by
  intro top
  have field : (@UnpackedFloat.unpackExponent Format.binary64 x.toModel.toBits.toBitVec).toNat =
      x.toBits.toNat / 2 ^ 52 % 2 ^ 11 := by
    rw [UnpackedFloat.unpackExponent, BitVec.toNat_cast, BitVec.extractLsb_toNat,
      Nat.shiftRight_eq_div_pow]
    rfl
  have all : @UnpackedFloat.unpackExponent Format.binary64 x.toModel.toBits.toBitVec = -1#11 :=
    BitVec.eq_of_toNat_eq (field.trans top)
  change x.toModel.unpack.isFinite = true at finite
  rw [Float.Model.unpack, UnpackedFloat.unpack] at finite
  simp only [if_pos all] at finite
  split at finite <;> cases finite

theorem bounded_ofFloat {x : Float} (finite : x.isFinite = true) : (Binary.ofFloat x).Bounded := by
  have top := biased_ne_of_isFinite finite
  have low := Nat.mod_lt x.toBits.toNat (Nat.two_pow_pos 52)
  have biased := Nat.mod_lt (x.toBits.toNat / 2 ^ 52) (Nat.two_pow_pos 11)
  simp only [Binary.ofFloat, Nat.pow_eq]
  split
  · constructor <;> simp only <;> omega
  · constructor <;> simp only <;> omega

/-- Whether a decimal is read as a finite number, however many of the zeros at the end of its digits
are left out. -/
structure Point.InRange (p : Point) : Prop where
  digits : p.digits ≤ 10 ^ 17
  finite : ∀ c zeros k : Nat, 0 < c → c * 10 ^ zeros = p.digits → p.exponent + zeros = k →
    k ≤ 308 ∧ ((UInt64.ofNat c).toFloat * Json.tenPower k).isInf = false

theorem exponent_lt_of_pow_lt {k l : Nat} (h : 10 ^ k < 10 ^ l) : k < l :=
  (Nat.pow_lt_pow_iff_right (by decide)).mp h

theorem upperMiddle_lt : upperMiddle < 10 ^ 309 := by decide +kernel

theorem Point.inRange_of_le {p : Point} (digits : p.digits ≤ 10 ^ 17)
    (value : p.value ≤ upperMiddle) : p.InRange := by
  refine ⟨digits, fun c zeros k positive same power => ?_⟩
  have shifted : p.value = (c * 10 ^ k : Nat) := by
    rw [Point.value, ← same, Nat.cast_mul, Nat.cast_mul, Nat.cast_pow, Nat.cast_pow,
      Nat.cast_ofNat, ← zpow_natCast, ← zpow_natCast, ← power, zpow_add₀ (by decide), mul_assoc,
      mul_comm (10 ^ (zeros : Int))]
  rw [shifted, Nat.cast_le] at value
  have small : k ≤ 308 := by
    have least : 10 ^ k ≤ upperMiddle := (Nat.le_mul_of_pos_left _ positive).trans value
    exact Nat.le_of_lt_succ (exponent_lt_of_pow_lt (l := 309) (least.trans_lt upperMiddle_lt))
  have atMost : c ≤ 10 ^ 17 :=
    (Nat.le_mul_of_pos_right c (by positivity)).trans (same.trans_le digits)
  exact ⟨small, Rounding.isInf_toFloat_mul_tenPower small atMost value⟩

/-- The greatest finite number. -/
def Binary.greatest : Binary := ⟨2 ^ 53 - 1, 971, false⟩

theorem ofFloat_eq_greatest {x : Float} (mantissa : (Binary.ofFloat x).mantissa = 2 ^ 53 - 1)
    (exponent : (Binary.ofFloat x).exponent = 971) : Binary.ofFloat x = .greatest := by
  simp only [Binary.ofFloat, Nat.pow_eq] at mantissa exponent ⊢
  split at mantissa
  · simp only at mantissa
    omega
  · next normal =>
    rw [if_neg normal] at exponent ⊢
    simp only at mantissa exponent
    have low : (x.toBits.toNat % 2 ^ 52 == 0) = false := by
      rw [beq_eq_false_iff_ne]
      omega
    rw [mantissa, exponent, low]
    rfl

theorem shortest_greatest (tie : Tie) {x : Float} (h : Binary.ofFloat x = .greatest) :
    shortest tie x = ⟨17976931348623157, 292⟩ := by
  rw [shortest, h]
  cases tie <;> decide +kernel

theorem inRange_greatest : Point.InRange ⟨17976931348623157, 292⟩ := by
  refine ⟨by decide, fun c zeros k _ same power => ?_⟩
  simp only at same power
  cases zeros with
  | zero =>
    rw [Nat.pow_zero, Nat.mul_one] at same
    obtain rfl : k = 292 := by omega
    rw [same]
    exact ⟨by decide, by decide +kernel⟩
  | succ zeros =>
    rw [Nat.pow_succ, ← Nat.mul_assoc] at same
    omega

/-- The shortest decimal of a finite number is read as a finite number. -/
theorem inRange_shortest (tie : Tie) {x : Float} (finite : x.isFinite = true) :
    (shortest tie x).InRange := by
  have bounded := bounded_ofFloat finite
  by_cases greatest : (Binary.ofFloat x).mantissa = 2 ^ 53 - 1 ∧ (Binary.ofFloat x).exponent = 971
  · rw [shortest_greatest tie (ofFloat_eq_greatest greatest.1 greatest.2)]
    exact inRange_greatest
  · have fits := fitsTo_shortest tie bounded
    exact Point.inRange_of_le fits.digits (fits.value_le bounded greatest)

end RecordFilter.Decimal
