import Mathlib
import RecordFilter.Json.Number

/-!
# Rounding to floating-point numbers

A positive integer below `2 ^ 64` becomes the nearest number of 53 bits, and so does a product; what
is lost is at most half of the distance between neighbours (`halfUlp`). Bounds on the integer and on
the power of ten are so made bounds on the product, which is finite if it stays below the middle
between the greatest number and the next power of two (`isInf_toFloat_mul_tenPower`).
-/
namespace RecordFilter.Rounding

open Float.Model (Format totalExponent UnpackedFloat pack)
open Float.Model.UnpackedFloat hiding pack

/-- Half the distance between the numbers of 53 bits about `n`, zero where these are integers. -/
def halfUlp (n : Nat) : Nat := 2 ^ n.log2 / 2 ^ 53

/-- The integer nearest to `m / 2 ^ k`. -/
def rounded (m k : Nat) : Nat :=
  (ExtendedMantissa.ofMantissaAndAccuracy m .exact >>> k).roundedMantissa

theorem roundedMantissa_bounds (em : ExtendedMantissa) :
    em.mantissa ≤ em.roundedMantissa ∧
      em.roundedMantissa ≤ em.mantissa + if em.roundBit then 1 else 0 := by
  obtain ⟨m, round, sticky⟩ := em
  cases round <;> cases sticky <;> simp [ExtendedMantissa.roundedMantissa,
    ExtendedMantissa.accuracy, Accuracy.roundToNearestEven]
  omega

/-- Shifts leave the quotient, and the round bit tells that half of the last place is left over. -/
theorem shiftRight_exact (m k : Nat) :
    let em := ExtendedMantissa.ofMantissaAndAccuracy m .exact >>> k
    em.mantissa = m / 2 ^ k ∧ (em.roundBit = true → (2 * em.mantissa + 1) * 2 ^ k ≤ 2 * m) := by
  induction k with
  | zero => exact ⟨(Nat.div_one m).symm, fun h => nomatch h⟩
  | succ k ih =>
    obtain ⟨quotient, -⟩ := ih
    have next : ExtendedMantissa.ofMantissaAndAccuracy m .exact >>> (k + 1) =
        (ExtendedMantissa.ofMantissaAndAccuracy m .exact >>> k).shiftRightOne := rfl
    simp only [next, ExtendedMantissa.shiftRightOne, quotient]
    refine ⟨by rw [Nat.div_div_eq_div_mul, Nat.pow_succ], fun odd => ?_⟩
    have whole : 2 * (m / 2 ^ k / 2) + 1 = m / 2 ^ k := by
      have : m / 2 ^ k % 2 ≠ 0 := by simpa using odd
      omega
    calc (2 * (m / 2 ^ k / 2) + 1) * 2 ^ (k + 1) = 2 * (m / 2 ^ k * 2 ^ k) := by
          rw [whole, Nat.pow_succ]
          ring
      _ ≤ 2 * m := Nat.mul_le_mul_left 2 (Nat.div_mul_le_self m _)

theorem div_le_rounded (m k : Nat) : m / 2 ^ k ≤ rounded m k :=
  (shiftRight_exact m k).1 ▸ (roundedMantissa_bounds _).1

theorem rounded_le_div_add_one (m k : Nat) : rounded m k ≤ m / 2 ^ k + 1 := by
  refine Nat.le_trans (roundedMantissa_bounds _).2 ?_
  rw [(shiftRight_exact m k).1]
  split <;> omega

/-- Rounding goes up by half of the last place at most. -/
theorem rounded_le (m k : Nat) : rounded m k * 2 ^ (k + 1) ≤ 2 * m + 2 ^ k := by
  obtain ⟨quotient, half⟩ := shiftRight_exact m k
  have upper : rounded m k ≤ _ := (roundedMantissa_bounds _).2
  rw [quotient] at upper half
  have below := Nat.div_mul_le_self m (2 ^ k)
  split at upper
  · next up =>
    have := half up
    calc rounded m k * 2 ^ (k + 1) ≤ (m / 2 ^ k + 1) * 2 ^ (k + 1) := Nat.mul_le_mul_right _ upper
      _ = (2 * (m / 2 ^ k) + 1) * 2 ^ k + 2 ^ k := by ring
      _ ≤ 2 * m + 2 ^ k := Nat.add_le_add_right this _
  · calc rounded m k * 2 ^ (k + 1) ≤ (m / 2 ^ k) * 2 ^ (k + 1) := Nat.mul_le_mul_right _ upper
      _ = 2 * (m / 2 ^ k * 2 ^ k) := by ring
      _ ≤ 2 * m + 2 ^ k := Nat.le_add_right_of_le (Nat.mul_le_mul_left 2 below)

theorem two_mul_halfUlp_le {m k : Nat} (wide : m.log2 = 52 + k) : 2 * halfUlp m ≤ 2 ^ k := by
  have below := Nat.div_mul_le_self (2 ^ m.log2) (2 ^ 53)
  have power : 2 ^ m.log2 = 2 ^ 52 * 2 ^ k := by rw [wide, Nat.pow_add]
  unfold halfUlp
  rw [power] at below ⊢
  omega

theorem rounded_mul_le {m k : Nat} (wide : m.log2 = 52 + k) :
    rounded m k * 2 ^ k ≤ m + halfUlp m := by
  have upper := rounded_le m k
  cases k with
  | zero => omega
  | succ k =>
    have half : halfUlp m = 2 ^ k := by
      rw [halfUlp, wide, show 52 + (k + 1) = k + 53 from by omega, Nat.pow_add]
      exact Nat.mul_div_cancel _ (by decide)
    rw [half]
    have doubled : 2 * (rounded m (k + 1) * 2 ^ (k + 1)) ≤ 2 * (m + 2 ^ k) := by
      calc 2 * (rounded m (k + 1) * 2 ^ (k + 1)) = rounded m (k + 1) * 2 ^ (k + 1 + 1) := by ring
        _ ≤ 2 * m + 2 ^ (k + 1) := upper
        _ = 2 * (m + 2 ^ k) := by ring
    omega

theorem targetExponent_of_wide {m : Nat} {e : Int} (wide : 52 ≤ m.log2) (low : -1074 ≤ e) :
    Format.binary64.targetExponent (totalExponent m e) = e + (m.log2 - 52 : Nat) := by
  simp only [Format.targetExponent, totalExponent, Format.mantissaBits, Format.minExponent]
  omega

/-- A number of 53 bits is not shifted. -/
theorem shiftToTargetExponent_self {m : Nat} {e : Int} (normal : m.log2 = 52) (low : -1074 ≤ e) :
    shiftToTargetExponent Format.binary64 m e .exact =
      (ExtendedMantissa.ofMantissaAndAccuracy m .exact, e) := by
  have target := targetExponent_of_wide (Nat.le_of_eq normal.symm) low
  rw [normal, Nat.sub_self] at target
  have amount : (e + (0 : Nat) - e).toNat = 0 := by omega
  simp only [shiftToTargetExponent, shiftToExponent, target, amount]
  exact congrArg _ (Int.add_zero e)

/-- After a carry one more bit is shifted out, which is zero. -/
theorem shiftToTargetExponent_two_pow {e : Int} (low : -1074 ≤ e) :
    shiftToTargetExponent Format.binary64 (2 ^ 53) e .exact =
      (ExtendedMantissa.ofMantissaAndAccuracy (2 ^ 52) .exact, e + 1) := by
  have log2 : (2 ^ 53 : Nat).log2 = 53 := Nat.log2_two_pow
  have target := targetExponent_of_wide (m := 2 ^ 53) (by omega) low
  rw [log2] at target
  have amount : (e + (53 - 52 : Nat) - e).toNat = 1 := by omega
  simp only [shiftToTargetExponent, shiftToExponent, target, amount]
  rfl

theorem roundWithAccuracy_eq {s : Sign} {m : Nat} {e e' e'' : Int} {em em' : ExtendedMantissa}
    (first : shiftToTargetExponent Format.binary64 m e .exact = (em, e'))
    (second : shiftToTargetExponent Format.binary64 em.roundedMantissa e' .exact = (em', e''))
    (positive : 0 < em'.mantissa) :
    roundWithAccuracy Format.binary64 s m e .exact = .finite s em'.mantissa e'' positive := by
  simp only [roundWithAccuracy, first, second]
  rw [dif_neg (Nat.ne_of_gt positive)]

theorem log2_eq_of_le {r : Nat} (low : 2 ^ 52 ≤ r) (high : r < 2 ^ 53) : r.log2 = 52 :=
  (Nat.log2_eq_iff (by omega)).mpr ⟨low, high⟩

/-- Rounding a number of at least 53 bits keeps 53 of them, or carries into the next place. -/
theorem roundWithAccuracy_of_wide (s : Sign) {m k : Nat} {e : Int} (wide : m.log2 = 52 + k)
    (low : -1074 ≤ e) : ∃ (r : Nat) (carry : Nat) (positive : 0 < r),
      roundWithAccuracy Format.binary64 s m e .exact = .finite s r (e + k + carry) positive ∧
      r.log2 = 52 ∧ carry ≤ 1 ∧ rounded m k = r * 2 ^ carry := by
  have target := targetExponent_of_wide (m := m) (by omega) low
  have amount : (e + (m.log2 - 52 : Nat) - e).toNat = k := by omega
  have first : shiftToTargetExponent Format.binary64 m e .exact =
      (ExtendedMantissa.ofMantissaAndAccuracy m .exact >>> k, e + k) := by
    simp only [shiftToTargetExponent, shiftToExponent, target, amount]
  have size : 2 ^ (52 + k) ≤ m ∧ m < 2 ^ (53 + k) := by
    have nonzero : m ≠ 0 := by
      rintro rfl
      simp at wide
      omega
    have bounds := (Nat.log2_eq_iff nonzero).mp wide
    exact ⟨bounds.1, by rw [Nat.add_right_comm] at bounds; exact bounds.2⟩
  have least : 2 ^ 52 ≤ rounded m k := by
    refine Nat.le_trans ?_ (div_le_rounded m k)
    rw [Nat.le_div_iff_mul_le (Nat.two_pow_pos k), ← Nat.pow_add]
    exact size.1
  have greatest : rounded m k ≤ 2 ^ 53 := by
    refine Nat.le_trans (rounded_le_div_add_one m k) ?_
    rw [Nat.succ_le_iff, Nat.div_lt_iff_lt_mul (Nat.two_pow_pos k), ← Nat.pow_add]
    exact size.2
  obtain small | full := Nat.lt_or_eq_of_le greatest
  · have normal := log2_eq_of_le least small
    have second := shiftToTargetExponent_self normal (show -1074 ≤ e + k by omega)
    have positive : 0 < rounded m k := Nat.lt_of_lt_of_le (by decide) least
    refine ⟨rounded m k, 0, positive, ?_, normal, Nat.zero_le 1, (Nat.mul_one _).symm⟩
    rw [roundWithAccuracy_eq first second positive, Int.natCast_zero, Int.add_zero]
    rfl
  · have second := shiftToTargetExponent_two_pow (show -1074 ≤ e + k by omega)
    rw [← full] at second
    exact ⟨2 ^ 52, 1, by decide, roundWithAccuracy_eq first second (by decide), by decide,
      Nat.le_refl 1, full⟩

/-- The number is `m * 2 ^ e`, and `m` has 53 bits. -/
structure IsNormal (x : Float) (m : Nat) (e : Int) : Prop where
  unpack : ∃ positive, x.toModel.unpack = .finite .positive m e positive
  bits : m.log2 = 52
  least : -1074 ≤ e
  greatest : e ≤ 971

theorem unpackSign_packComponents (exponent : BitVec 11) (mantissa : BitVec 52) :
    unpackSign (packComponents Format.binary64 .positive exponent mantissa) = 0#1 := by
  change (0#1 ++ exponent ++ mantissa).extractLsb' 63 1 = 0#1
  rw [BitVec.extractLsb'_append_eq_of_le (by decide),
    BitVec.extractLsb'_append_eq_of_le (by decide)]
  rfl

/-- The leading bit of a number of 53 bits is left out and put back. -/
theorem toNat_append_ofNat {m : Nat} (bits : m.log2 = 52) :
    (1#1 ++ BitVec.ofNat 52 m).toNat = m := by
  have size := (Nat.log2_eq_iff (by rintro rfl; simp at bits)).mp bits
  rw [BitVec.toNat_append, BitVec.toNat_ofNat, Nat.shiftLeft_eq]
  change 2 ^ 52 ||| m % 2 ^ 52 = m
  rw [Nat.or_comm, Nat.or_two_pow_eq_add_of_lt (Nat.mod_lt m (Nat.two_pow_pos 52))]
  omega

theorem isNormal_pack {m : Nat} {e : Int} {positive : 0 < m} (bits : m.log2 = 52)
    (least : -1074 ≤ e) (greatest : e ≤ 971) :
    IsNormal ⟨pack (.finite .positive m e positive)⟩ m e := by
  refine ⟨⟨positive, ?_⟩, bits, least, greatest⟩
  have biased : (e + Format.binary64.exponentBias + (52 : Nat)).toNat = (e + 1075).toNat := by
    change (e + (1023 : Nat) + (52 : Nat)).toNat = _
    omega
  have fits : ¬2 ^ Format.binary64.exponentBits ≤ (e + 1075).toNat + 1 := by
    change ¬2048 ≤ (e + 1075).toNat + 1
    omega
  have field : (BitVec.ofNat 11 (e + 1075).toNat).toNat = (e + 1075).toNat := by
    rw [BitVec.toNat_ofNat]
    omega
  have notAll : BitVec.ofNat 11 (e + 1075).toNat ≠ -1#11 := fun same => by
    have : (e + 1075).toNat = 2047 := field ▸ congrArg BitVec.toNat same
    omega
  have notNone : BitVec.ofNat 11 (e + 1075).toNat ≠ 0#11 := fun same => by
    have : (e + 1075).toNat = 0 := field ▸ congrArg BitVec.toNat same
    omega
  have packed : UnpackedFloat.pack Format.binary64 (.finite .positive m e positive) =
      packComponents Format.binary64 .positive (BitVec.ofNat 11 (e + 1075).toNat)
        (BitVec.ofNat 52 m) := by
    rw [UnpackedFloat.pack, biased]
    simp only [if_neg fits, bits]
    exact if_pos rfl
  change UnpackedFloat.unpack _ (UnpackedFloat.pack _ _) = _
  rw [packed, UnpackedFloat.unpack]
  simp only [unpackMantissa_packComponents, unpackExponent_packComponents,
    unpackSign_packComponents, if_neg notAll, if_neg notNone, field, toNat_append_ofNat bits]
  have exponent : (e + 1075).toNat - ((1023 : Nat) + (52 : Nat) : Int) = e := by omega
  exact congrArg (fun e => UnpackedFloat.finite .positive m e positive) exponent

/-- The numbers that are rounded to a finite one lie below this. -/
def limit : Nat := 2 ^ 1024 - 2 ^ 970

theorem cast_limit : (limit : ℚ) = 2 ^ (1024 : Int) - 2 ^ (970 : Int) := by
  rw [limit, Nat.cast_sub (by decide +kernel), Nat.cast_pow, Nat.cast_pow]
  rfl

theorem zpow_le_of_log2 {n l : Nat} {f : Int} (h : n.log2 = 52 + l) :
    (2 : ℚ) ^ (52 + l + f) ≤ n * (2 : ℚ) ^ f := by
  have least := Nat.log2_self_le (n := n) (by rintro rfl; simp at h; omega)
  rw [zpow_add₀ two_ne_zero]
  gcongr
  exact_mod_cast h ▸ least

theorem limit_lt : (limit : ℚ) < 2 ^ (1024 : Int) :=
  cast_limit.trans_lt (sub_lt_self _ (zpow_pos two_pos _))

/-- The exponent of a rounded number below the limit: if it were greater, either the number itself
or the number with the half of its last place would be too great. -/
theorem exponent_le {m r k carry : Nat} {e : Int} (wide : m.log2 = 52 + k) (bits : r.log2 = 52)
    (once : carry ≤ 1)
    (upper : r * (2 : ℚ) ^ (e + k + carry) ≤ (m + halfUlp m : Nat) * (2 : ℚ) ^ e)
    (fits : m * (2 : ℚ) ^ e < limit) : e + k + carry ≤ 971 := by
  have whole : e + k ≤ 971 := by
    by_contra above
    have large : (2 : ℚ) ^ (1024 : Int) ≤ m * (2 : ℚ) ^ e :=
      (zpow_le_zpow_right₀ one_le_two (by omega)).trans (zpow_le_of_log2 wide)
    exact absurd (limit_lt.trans_le large) (not_lt.mpr fits.le)
  by_contra above
  have exponent : e + k + carry = 972 := by omega
  have large : (2 : ℚ) ^ (1024 : Int) ≤ r * 2 ^ (e + k + carry) :=
    (zpow_le_zpow_right₀ one_le_two (by omega)).trans (zpow_le_of_log2 (l := 0) bits)
  have half : halfUlp m * (2 : ℚ) ^ e ≤ 2 ^ (970 : Int) := by
    have doubled : ((2 * halfUlp m : Nat) : ℚ) ≤ (2 ^ k : Nat) :=
      Nat.cast_le.mpr (two_mul_halfUlp_le wide)
    refine le_of_mul_le_mul_left ?_ (zero_lt_two' ℚ)
    calc 2 * (halfUlp m * (2 : ℚ) ^ e) = ((2 * halfUlp m : Nat) : ℚ) * 2 ^ e := by push_cast; ring
      _ ≤ (2 ^ k : Nat) * 2 ^ e := by gcongr
      _ = 2 ^ (k + e) := by rw [Nat.cast_pow, Nat.cast_ofNat, ← zpow_natCast, zpow_add₀ two_ne_zero]
      _ ≤ 2 ^ (1 + 970 : Int) := zpow_le_zpow_right₀ one_le_two (by omega)
      _ = 2 * 2 ^ (970 : Int) := zpow_one_add₀ two_ne_zero _
  rw [Nat.cast_add, add_mul] at upper
  have reached : limit ≤ m * (2 : ℚ) ^ e :=
    cast_limit.trans_le ((sub_le_sub large half).trans (sub_le_iff_le_add.mpr upper))
  exact absurd fits reached.not_gt

/-- A number of at least 53 bits below the limit is rounded to a finite number. -/
theorem exists_isNormal {m : Nat} {e : Int} (wide : 52 ≤ m.log2) (low : -1074 ≤ e)
    (fits : m * (2 : ℚ) ^ e < limit) : ∃ r e', e ≤ e' ∧
      IsNormal ⟨pack (roundWithAccuracy Format.binary64 .positive m e .exact)⟩ r e' ∧
      r * (2 : ℚ) ^ e' ≤ (m + halfUlp m : Nat) * (2 : ℚ) ^ e := by
  obtain ⟨k, wide⟩ : ∃ k, m.log2 = 52 + k := ⟨m.log2 - 52, by omega⟩
  obtain ⟨r, carry, positive, result, bits, once, same⟩ :=
    roundWithAccuracy_of_wide .positive wide low
  have value : r * (2 : ℚ) ^ (e + k + carry) = (rounded m k * 2 ^ k : Nat) * (2 : ℚ) ^ e := by
    rw [same, zpow_add₀ two_ne_zero, zpow_add₀ two_ne_zero, zpow_natCast, zpow_natCast]
    push_cast
    ring
  have upper : r * (2 : ℚ) ^ (e + k + carry) ≤ (m + halfUlp m : Nat) * (2 : ℚ) ^ e := by
    rw [value]
    have := rounded_mul_le wide
    gcongr
  have greatest : e + k + carry ≤ 971 := exponent_le wide bits once upper fits
  rw [result]
  exact ⟨r, _, by omega, isNormal_pack bits (by omega) greatest, upper⟩

variable {x y : Float} {m n : Nat} {e f : Int}

theorem IsNormal.isInf (h : IsNormal x m e) : x.isInf = false := by
  obtain ⟨positive, unpack⟩ := h.unpack
  change x.toModel.unpack.isInf = false
  rw [unpack]
  rfl

/-- A product below the limit is finite. -/
theorem IsNormal.isInf_mul (hx : IsNormal x m e) (hy : IsNormal y n f) (low : -1074 ≤ e + f)
    (fits : m * (2 : ℚ) ^ e * (n * (2 : ℚ) ^ f) < limit) : (x * y).isInf = false := by
  obtain ⟨hm, unpackX⟩ := hx.unpack
  obtain ⟨hn, unpackY⟩ := hy.unpack
  have product : x * y = ⟨pack (roundWithAccuracy Format.binary64 .positive (m * n) (e + f)
      .exact)⟩ := by
    change Float.ofModel (pack (UnpackedFloat.mul _ x.toModel.unpack y.toModel.unpack)) = _
    rw [unpackX, unpackY]
    rfl
  have wide : 52 ≤ (m * n).log2 := by
    have least := Nat.log2_self_le (Nat.ne_of_gt hm)
    rw [hx.bits] at least
    rw [Nat.le_log2 (Nat.mul_ne_zero (Nat.ne_of_gt hm) (Nat.ne_of_gt hn))]
    exact Nat.le_trans least (Nat.le_mul_of_pos_right m hn)
  have value : m * (2 : ℚ) ^ e * (n * (2 : ℚ) ^ f) = (m * n : Nat) * (2 : ℚ) ^ (e + f) := by
    rw [zpow_add₀ two_ne_zero, Nat.cast_mul]
    ring
  obtain ⟨r, e', -, normal, -⟩ := exists_isNormal wide low (value ▸ fits)
  rw [product]
  exact normal.isInf

theorem log2_mul_two_pow (h : n ≠ 0) (k : Nat) : (n * 2 ^ k).log2 = n.log2 + k := by
  induction k with
  | zero => rw [Nat.pow_zero, Nat.mul_one, Nat.add_zero]
  | succ k ih =>
    have doubled : n * 2 ^ (k + 1) = 2 * (n * 2 ^ k) := by ring
    rw [doubled, Nat.log2_two_mul (Nat.mul_ne_zero h (Nat.ne_of_gt (Nat.two_pow_pos k))), ih,
      Nat.add_assoc]

/-- A positive integer is first made wide enough and then rounded. -/
theorem toFloat_ofNat (positive : 0 < n) (h : n < 2 ^ 64) :
    (UInt64.ofNat n).toFloat = ⟨pack (roundWithAccuracy Format.binary64 .positive
      (n * 2 ^ (52 - n.log2)) (-(52 - n.log2 : Nat)) .exact)⟩ := by
  have size : (UInt64.ofNat n).toNat = n := UInt64.toNat_ofNat_of_lt' h
  have sign : compare (n : Int) 0 = .gt := Int.compare_eq_gt.mpr (by omega)
  have amount : (-Format.binary64.targetExponent (totalExponent n 0)).toNat = 52 - n.log2 := by
    simp only [Format.targetExponent, totalExponent, Format.mantissaBits, Format.minExponent]
    omega
  change Float.ofModel (pack (UnpackedFloat.normalize _ ((UInt64.ofNat n).toNat : Int) 0
    .positive)) = _
  rw [size, UnpackedFloat.normalize, sign]
  simp only [UnpackedFloat.round, decreaseExponent, Int.toNat_natCast, Nat.shiftLeft_eq,
    Int.zero_sub, amount]

/-- An integer of 64 bits becomes a number of 53 bits, not above the middle to the next one. -/
theorem exists_isNormal_toFloat (positive : 0 < n) (h : n < 2 ^ 64) : ∃ r e, -52 ≤ e ∧
    IsNormal (UInt64.ofNat n).toFloat r e ∧ r * (2 : ℚ) ^ e ≤ (n + halfUlp n : Nat) := by
  have nonzero := Nat.ne_of_gt positive
  have wide : (n * 2 ^ (52 - n.log2)).log2 = n.log2 + (52 - n.log2) := log2_mul_two_pow nonzero _
  have unscaled (a : Nat) :
      ((a * 2 ^ (52 - n.log2) : Nat) : ℚ) * 2 ^ (-((52 - n.log2 : Nat) : Int)) = a := by
    rw [Nat.cast_mul, Nat.cast_pow, Nat.cast_ofNat, zpow_neg, zpow_natCast, mul_assoc,
      mul_inv_cancel₀ (pow_ne_zero _ two_ne_zero), mul_one]
  have fits : (n : ℚ) < limit := Nat.cast_lt.mpr (Nat.lt_trans h (by decide +kernel))
  obtain ⟨r, e, least, normal, upper⟩ := exists_isNormal (m := n * 2 ^ (52 - n.log2))
    (e := -(52 - n.log2 : Nat)) (by omega) (by omega) ((unscaled n).trans_lt fits)
  have half : n * 2 ^ (52 - n.log2) + halfUlp (n * 2 ^ (52 - n.log2)) ≤
      (n + halfUlp n) * 2 ^ (52 - n.log2) := by
    obtain small | large := Nat.lt_or_ge n.log2 52
    · have none : halfUlp (n * 2 ^ (52 - n.log2)) = 0 := by
        rw [halfUlp, wide, Nat.add_sub_cancel' small.le]
        rfl
      rw [none]
      exact Nat.mul_le_mul_right _ (Nat.le_add_right n _)
    · rw [Nat.sub_eq_zero_of_le large, Nat.pow_zero, Nat.mul_one, Nat.mul_one]
  rw [← toFloat_ofNat positive h] at normal
  refine ⟨r, e, by omega, normal, upper.trans ?_⟩
  rw [← unscaled (n + halfUlp n)]
  exact mul_le_mul_of_nonneg_right (Nat.cast_le.mpr half) (zpow_nonneg zero_le_two _)

/-- Beyond those that are looked up, a power of ten is rounded from its integer. -/
theorem tenPower_eq {k : Nat} (large : 22 < k) (small : k ≤ 308) : Json.tenPower k =
    ⟨pack (roundWithAccuracy Format.binary64 .positive (2 ^ 53 * 10 ^ k) (-53) .exact)⟩ := by
  have computed : ¬(1 < 2 ^ 53 ∧ k ≤ 22) := fun h => Nat.not_lt.mpr h.2 large
  have finite : ¬(Int.ofNat k > 2 ^ Format.binary64.exponentBits) := by
    change ¬(2048 < (k : Int))
    omega
  have nonzero : ¬(Int.ofNat k < -((2 ^ Format.binary64.exponentBits : Int) + Nat.log2 1)) := by
    change ¬((k : Int) < -(2048 + 0))
    omega
  rw [Json.tenPower, Float.ofScientific, dif_neg computed]
  change Float.ofModel (pack (UnpackedFloat.ofScientific _ 1 (Int.ofNat k))) = _
  rw [UnpackedFloat.ofScientific, dif_neg one_ne_zero, if_neg finite, if_neg nonzero]
  exact congrArg (Float.ofModel ∘ pack) (if_pos (Int.natCast_nonneg k))

/-- Whether the number has 53 bits, the last of them not below `2 ^ (-53)`, and is at most `n`. -/
def isAtMost (x : Float) (n : Nat) : Bool :=
  match x.toModel.unpack with
  | .finite .positive m e _ =>
      m.log2 == 52 && -53 ≤ e && e ≤ 971 && m * 2 ^ (e + 53).toNat ≤ 2 ^ 53 * n
  | _ => false

/-- A bound for a power of ten, in parts of `2 ^ (-53)`. At `10 ^ 292` half of the last place is too
much, because the greatest numbers are read with this power. -/
def tenBound (k : Nat) : Nat :=
  if k = 292 then 2 ^ 53 * (10 ^ 292 + 2 * 10 ^ 275)
  else 2 ^ 53 * 10 ^ k + halfUlp (2 ^ 53 * 10 ^ k)

theorem tenBound_of_ne {k : Nat} (h : k ≠ 292) :
    tenBound k = 2 ^ 53 * 10 ^ k + halfUlp (2 ^ 53 * 10 ^ k) := if_neg h

theorem exists_isNormal_of_isAtMost (h : isAtMost x n = true) : ∃ r e, -53 ≤ e ∧
    IsNormal x r e ∧ r * (2 : ℚ) ^ e * 2 ^ 53 ≤ (2 ^ 53 * n : Nat) := by
  rw [isAtMost] at h
  split at h
  · next m e positive unpack =>
    simp only [Bool.and_eq_true, beq_iff_eq, decide_eq_true_eq] at h
    obtain ⟨⟨⟨bits, least⟩, greatest⟩, upper⟩ := h
    refine ⟨m, e, least, ⟨⟨positive, unpack⟩, bits, by omega, greatest⟩, ?_⟩
    have power : (2 : ℚ) ^ e * 2 ^ 53 = (2 ^ (e + 53).toNat : Nat) := by
      rw [Nat.cast_pow, Nat.cast_ofNat, ← zpow_natCast _ (e + 53).toNat,
        Int.toNat_of_nonneg (by omega), zpow_add₀ two_ne_zero]
      rfl
    rw [mul_assoc, power, ← Nat.cast_mul]
    exact Nat.cast_le.mpr upper
  · cases h

/-- A power of ten is not far above its integer. -/
theorem exists_isNormal_tenPower {k : Nat} (h : k ≤ 308) : ∃ r e, -53 ≤ e ∧
    IsNormal (Json.tenPower k) r e ∧ r * (2 : ℚ) ^ e * 2 ^ 53 ≤ tenBound k := by
  by_cases special : k = 292
  · have upper : isAtMost (Json.tenPower 292) (10 ^ 292 + 2 * 10 ^ 275) = true := by decide +kernel
    rw [special]
    exact exists_isNormal_of_isAtMost upper
  rw [tenBound_of_ne special]
  obtain large | small := Nat.lt_or_ge 22 k
  · have cancel : (2 : ℚ) ^ (-53 : Int) * 2 ^ 53 = 1 := inv_mul_cancel₀ (pow_ne_zero _ two_ne_zero)
    have fits : (2 ^ 53 * 10 ^ k : Nat) * (2 : ℚ) ^ (-53 : Int) < limit := by
      have power : 10 ^ k < limit :=
        Nat.lt_of_le_of_lt (Nat.pow_le_pow_right (by decide) h) (by decide +kernel)
      rw [mul_comm, Nat.cast_mul, ← mul_assoc, Nat.cast_pow, Nat.cast_ofNat, cancel, one_mul]
      exact Nat.cast_lt.mpr power
    have wide : 52 ≤ (2 ^ 53 * 10 ^ k).log2 := by
      rw [Nat.le_log2 (by positivity)]
      exact Nat.le_mul_of_pos_right _ (by positivity) |>.trans' (by decide)
    obtain ⟨r, e, least, normal, upper⟩ := exists_isNormal wide (by decide) fits
    rw [← tenPower_eq large h] at normal
    refine ⟨r, e, least, normal, ?_⟩
    calc r * (2 : ℚ) ^ e * 2 ^ 53 ≤ _ * (2 : ℚ) ^ (-53 : Int) * 2 ^ 53 :=
          mul_le_mul_of_nonneg_right upper (by positivity)
      _ = _ := by rw [mul_assoc, cancel, mul_one]
  · have lookedUp : ∀ k ∈ List.range 23, isAtMost (Json.tenPower k) (10 ^ k) = true := by
      decide +kernel
    obtain ⟨r, e, least, normal, upper⟩ :=
      exists_isNormal_of_isAtMost (lookedUp k (List.mem_range.mpr (Nat.lt_succ_of_le small)))
    exact ⟨r, e, least, normal, upper.trans (Nat.cast_le.mpr (Nat.le_add_right _ _))⟩

/-- The middle between the two greatest numbers of 53 bits, the last of these at `2 ^ (p + 1)`. -/
def middleAt (p : Nat) : Nat := (2 ^ 54 - 3) * 2 ^ p

/-- The middle between the two greatest finite numbers. -/
def upperMiddle : Nat := middleAt 970

theorem add_halfUlp_le {a b : Nat} (h : a ≤ b) : a + halfUlp a ≤ b + halfUlp b := by
  have log2 : a.log2 ≤ b.log2 := by
    rw [Nat.log2_eq_log_two, Nat.log2_eq_log_two]
    exact Nat.log_mono_right h
  exact Nat.add_le_add h (Nat.div_le_div_right (Nat.pow_le_pow_right two_pos log2))

theorem tenBound_mono {j k : Nat} (h : j ≤ k) (hj : j ≠ 292) (hk : k ≠ 292) :
    tenBound j ≤ tenBound k := by
  rw [tenBound_of_ne hj, tenBound_of_ne hk]
  exact add_halfUlp_le (Nat.mul_le_mul_left _ (Nat.pow_le_pow_right (by decide) h))

theorem mul_tenBound_lt {k : Nat} (h : k ≤ 308) (atMost : n ≤ 10 ^ 17)
    (inRange : n * 10 ^ k ≤ upperMiddle) : (n + halfUlp n) * tenBound k < limit * 2 ^ 53 := by
  obtain small | large := Nat.lt_or_ge k 292
  · -- Seventeen digits are far from the limit here.
    have power : tenBound k ≤ tenBound 291 :=
      tenBound_mono (Nat.le_of_lt_succ small) (Nat.ne_of_lt small) (by decide)
    exact Nat.lt_of_le_of_lt (Nat.mul_le_mul (add_halfUlp_le atMost) power) (by decide +kernel)
  · have table : ∀ i ∈ List.range 17,
        let greatest := upperMiddle / 10 ^ (292 + i)
        (greatest + halfUlp greatest) * tenBound (292 + i) < limit * 2 ^ 53 := by
      decide +kernel
    have greatest : n ≤ upperMiddle / 10 ^ k :=
      (Nat.le_div_iff_mul_le (by positivity)).mpr inRange
    have entry := table (k - 292) (List.mem_range.mpr (by omega))
    rw [Nat.add_sub_cancel' large] at entry
    exact Nat.lt_of_le_of_lt (Nat.mul_le_mul_right _ (add_halfUlp_le greatest)) entry

theorem isInf_zero_mul (hx : x.toModel.unpack = .zero .positive) (hy : IsNormal y n f) :
    (x * y).isInf = false := by
  obtain ⟨positive, unpack⟩ := hy.unpack
  have zero : UnpackedFloat.mul Format.binary64 x.toModel.unpack y.toModel.unpack =
      .zero .positive := by
    rw [hx, unpack]
    rfl
  change (pack (UnpackedFloat.mul _ x.toModel.unpack y.toModel.unpack)).unpack.isInf = false
  rw [zero]
  decide

theorem mul_lt_of_scaled {a b : ℚ} {m n l : Nat} (ha : a ≤ m) (nonneg : 0 ≤ b)
    (hb : b * 2 ^ 53 ≤ n) (h : m * n < l * 2 ^ 53) : a * b < l := by
  have bound : (m : ℚ) * n < l * 2 ^ 53 := by exact_mod_cast h
  have scale : (0 : ℚ) < 2 ^ 53 := by positivity
  refine lt_of_mul_lt_mul_right ?_ scale.le
  calc a * b * 2 ^ 53 = a * (b * 2 ^ 53) := mul_assoc ..
    _ ≤ m * n := mul_le_mul ha hb (by positivity) (Nat.cast_nonneg m)
    _ < l * 2 ^ 53 := bound

/-- An integer of up to 17 digits times a power of ten is finite in floating-point numbers if it is
not above the middle between the two greatest of them. -/
theorem isInf_toFloat_mul_tenPower {k : Nat} (h : k ≤ 308) (atMost : n ≤ 10 ^ 17)
    (inRange : n * 10 ^ k ≤ upperMiddle) :
    ((UInt64.ofNat n).toFloat * Json.tenPower k).isInf = false := by
  obtain ⟨t, f, leastT, normalT, upperT⟩ := exists_isNormal_tenPower h
  obtain rfl | positive := Nat.eq_zero_or_pos n
  · exact isInf_zero_mul rfl normalT
  obtain ⟨r, e, leastR, normalR, upperR⟩ :=
    exists_isNormal_toFloat positive (Nat.lt_of_le_of_lt atMost (by decide))
  have nonneg : 0 ≤ t * (2 : ℚ) ^ f := mul_nonneg (Nat.cast_nonneg t) (zpow_nonneg zero_le_two f)
  exact normalR.isInf_mul normalT (by omega)
    (mul_lt_of_scaled upperR nonneg upperT (mul_tenBound_lt h atMost inRange))

end RecordFilter.Rounding
