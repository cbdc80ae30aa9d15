import Mathlib.Algebra.Group.Nat.Defs
import ObjectMapping.Floating

/-! Conversions between the two formats lose nothing where the number exists in both. -/
namespace ObjectMapping.Floating

variable {f : FloatFormat}

private theorem log2_mul_pow (positive : 0 < m) (k : Nat) : (m * 2 ^ k).log2 = m.log2 + k := by
  have some : m ≠ 0 := Nat.ne_of_gt positive
  have power : 0 < 2 ^ k := Nat.two_pow_pos k
  rw [Nat.log2_eq_iff (Nat.ne_of_gt (Nat.mul_pos positive power)), Nat.pow_add]
  refine ⟨Nat.mul_le_mul_right _ (Nat.log2_self_le some), ?_⟩
  have above : m < 2 ^ (m.log2 + 1) := Nat.lt_log2_self
  have scaled := Nat.mul_lt_mul_of_pos_right above power
  have sum : m.log2 + k + 1 = m.log2 + 1 + k := by omega
  rwa [sum, Nat.pow_add 2 (m.log2 + 1) k]

/-- The logarithm of a whole number times a power of two. -/
private theorem ratioLog2_scaled (positive : 0 < m) (s : Int) :
    ratioLog2 (m <<< s.toNat) (1 <<< (-s).toNat) = m.log2 + s := by
  have low : 2 ^ m.log2 ≤ m := Nat.log2_self_le (Nat.ne_of_gt positive)
  have num : (m <<< s.toNat).log2 = m.log2 + s.toNat := by
    rw [Nat.shiftLeft_eq, log2_mul_pow positive]
  have den : (1 <<< (-s).toNat).log2 = (-s).toNat := by
    rw [Nat.shiftLeft_eq, Nat.one_mul, Nat.log2_two_pow]
  have guess : ((m <<< s.toNat).log2 : Int) - (1 <<< (-s).toNat).log2 = m.log2 + s := by
    rw [num, den]
    omega
  rw [ratioLog2, guess]
  refine if_pos ?_
  simp only [Nat.shiftLeft_eq, Nat.one_mul]
  rw [← Nat.pow_add, Nat.mul_assoc, ← Nat.pow_add]
  have exponents : (-s).toNat + (m.log2 + s).toNat = m.log2 + (s.toNat + (-(m.log2 + s)).toNat) := by
    omega
  rw [exponents, Nat.pow_add 2 m.log2]
  exact Nat.mul_le_mul_right _ low

private theorem roundDiv_exact (u : Nat) (positive : 0 < den) : roundDiv (u * den) den = u := by
  have rest : u * den % den = 0 := Nat.mul_mod_left u den
  rw [roundDiv, rest, Nat.mul_div_cancel u positive]
  exact if_pos positive

/-- A number that the format has is rounded to itself. -/
private theorem ofRatio_exact (negative : Bool) (positive : 0 < m) {s scale : Int}
    (finest : max (m.log2 + s - f.fractionBits) f.minScale = scale)
    (exact : m * 2 ^ (s.toNat + (-scale).toNat) = u * 2 ^ ((-s).toNat + scale.toNat))
    (small : (scale - f.minScale).toNat * f.fractionCount + u < f.topExponent * f.fractionCount) :
    (ofRatio negative (m <<< s.toNat) (1 <<< (-s).toNat) : Floating f) =
      ofMagnitude negative ((scale - f.minScale).toNat * f.fractionCount + u) := by
  have some : m <<< s.toNat ≠ 0 := by
    rw [Nat.shiftLeft_eq]
    exact Nat.ne_of_gt (Nat.mul_pos positive (Nat.two_pow_pos _))
  have units : roundDiv ((m <<< s.toNat) <<< (-scale).toNat)
      ((1 <<< (-s).toNat) <<< scale.toNat) = u := by
    simp only [Nat.shiftLeft_eq, Nat.one_mul]
    rw [Nat.mul_assoc, ← Nat.pow_add, ← Nat.pow_add, exact]
    exact roundDiv_exact u (Nat.two_pow_pos _)
  rw [ofRatio, if_neg some]
  simp only [ratioLog2_scaled positive, finest, units, small, if_true]

theorem ofMagnitude_magnitude (x : Floating f) : ofMagnitude x.negative x.magnitude = x := by
  obtain ⟨negative, exponent, fraction⟩ := x
  have above : (exponent.val * f.fractionCount + fraction) / f.fractionCount = exponent := by
    rw [Nat.mul_comm, Nat.mul_add_div f.fractionCount_pos, Nat.div_eq_of_lt fraction.isLt,
      Nat.add_zero]
  have below : (exponent.val * f.fractionCount + fraction) % f.fractionCount = fraction := by
    rw [Nat.mul_comm, Nat.mul_add_mod, Nat.mod_eq_of_lt fraction.isLt]
  simp [ofMagnitude, magnitude, above, below, Nat.mod_eq_of_lt exponent.isLt]

private theorem convert_finite (g : FloatFormat) (x : Floating f) (finite : x.isFinite) :
    x.convert g =
      ofRatio x.negative (x.significand <<< x.scale.toNat) (1 <<< (-x.scale).toNat) := by
  have number : x.isNaN = false := by simp [isNaN, finite]
  rw [convert, number, finite, if_neg (by decide), if_pos rfl]

/-- The scale and the significand of a finite number of the smaller format. -/
private theorem single_bounds (x : Single) (finite : x.isFinite) :
    -149 ≤ x.scale ∧ x.scale ≤ 104 ∧ x.significand < 2 ^ 24 ∧
      (x.scale = -149 ∨ x.significand.log2 = 23) := by
  have fraction : x.fraction.val < 8388608 := x.fraction.isLt
  have exponent : x.exponent.val < 256 := x.exponent.isLt
  have top : x.exponent.val ≠ 255 := bne_iff_ne.mp finite
  have scale : x.scale = -149 + (x.exponent.val - 1 : Nat) := rfl
  have significand : x.significand =
      if x.exponent.val = 0 then x.fraction.val else 8388608 + x.fraction.val := rfl
  rw [significand, scale]
  split
  · rename_i zero
    refine ⟨by omega, by omega, by omega, .inl ?_⟩
    rw [zero]
    rfl
  · refine ⟨by omega, by omega, by omega, .inr ?_⟩
    rw [Nat.log2_eq_iff (by omega)]
    exact ⟨by omega, by omega⟩

/-- The number with a given scale and a full significand. -/
private theorem ofMagnitude_normal (negative : Bool) (scale : Int) {u : Nat} (low : -1074 ≤ scale)
    (high : scale ≤ 900) (full : 2 ^ 52 ≤ u) (small : u < 2 ^ 53) :
    let y : Double := ofMagnitude negative ((scale + 1074).toNat * 2 ^ 52 + u)
    y.isFinite ∧ y.negative = negative ∧ y.scale = scale ∧ y.significand = u := by
  intro y
  have count : FloatFormat.double.fractionCount = 2 ^ 52 := rfl
  have exponents : FloatFormat.double.exponentCount = 2048 := rfl
  have least : FloatFormat.double.minScale = -1074 := rfl
  have exponent : y.exponent.val = (scale + 1074).toNat + 1 := by
    simp only [y, ofMagnitude, count, exponents]
    omega
  have fraction : y.fraction.val = u - 2 ^ 52 := by
    simp only [y, ofMagnitude, count]
    omega
  refine ⟨?_, rfl, ?_, ?_⟩
  · have top : FloatFormat.double.topExponent = 2047 := rfl
    simp only [isFinite, exponent, top, bne_iff_ne, ne_eq]
    omega
  · rw [Floating.scale, exponent, least]
    omega
  · rw [significand, exponent, fraction, count, if_neg (Nat.succ_ne_zero _)]
    omega

/-- A finite number is the one that its sign, its scale and its significand make up. -/
private theorem magnitude_eq (x : Single) :
    x.magnitude = (x.scale + 149).toNat * 2 ^ 23 + x.significand := by
  have fraction : x.fraction.val < 8388608 := x.fraction.isLt
  have scale : x.scale = -149 + (x.exponent.val - 1 : Nat) := rfl
  have significand : x.significand =
      if x.exponent.val = 0 then x.fraction.val else 8388608 + x.fraction.val := rfl
  have magnitude : x.magnitude = x.exponent.val * 8388608 + x.fraction.val := rfl
  rw [significand, scale, magnitude]
  split
  · omega
  · omega

theorem eq_zero (x : Single) (zero : x.significand = 0) :
    x = Floating.zero x.negative := by
  have significand : x.significand =
      if x.exponent.val = 0 then x.fraction.val else 8388608 + x.fraction.val := rfl
  have least : x.magnitude = 0 := by
    have magnitude : x.magnitude = x.exponent.val * 8388608 + x.fraction.val := rfl
    rw [significand] at zero
    split at zero
    · omega
    · omega
  rw [Floating.zero, ← least, ofMagnitude_magnitude]

/-- A finite number converts exactly to a format that has its value. -/
private theorem convert_exact {g : FloatFormat} {x : Floating f} {scale : Int} {u : Nat}
    (finite : x.isFinite) (positive : 0 < x.significand)
    (finest : max (x.significand.log2 + x.scale - g.fractionBits) g.minScale = scale)
    (exact : x.significand * 2 ^ (x.scale.toNat + (-scale).toNat) =
      u * 2 ^ ((-x.scale).toNat + scale.toNat))
    (small : (scale - g.minScale).toNat * g.fractionCount + u < g.topExponent * g.fractionCount) :
    x.convert g = ofMagnitude x.negative ((scale - g.minScale).toNat * g.fractionCount + u) := by
  rw [convert_finite g x finite]
  exact ofRatio_exact x.negative positive finest exact small

/-- A shifted significand has the same value at a lower scale. -/
private theorem shifted_value (m k : Nat) (s : Int) :
    m * 2 ^ (s.toNat + (-(s - k)).toNat) = m * 2 ^ k * 2 ^ ((-s).toNat + (s - k).toNat) := by
  rw [Nat.mul_assoc, ← Nat.pow_add]
  congr 2
  omega

/-- The larger format stores the significand shifted to its full width. -/
private theorem widen_eq {x : Single} {k : Nat} (finite : x.isFinite) (positive : 0 < x.significand)
    (shift : x.significand.log2 + k = 52) (below : x.significand * 2 ^ k < 2 ^ 53) :
    x.widen = ofMagnitude x.negative
      ((x.scale - k + 1074).toNat * 2 ^ 52 + x.significand * 2 ^ k) := by
  obtain ⟨low, high, _, _⟩ := single_bounds x finite
  have count : FloatFormat.double.fractionCount = 2 ^ 52 := rfl
  have top : FloatFormat.double.topExponent = 2047 := rfl
  have least : FloatFormat.double.minScale = -1074 := rfl
  have bits : FloatFormat.double.fractionBits = 52 := rfl
  have converted := convert_exact finite positive
    (show max (x.significand.log2 + x.scale - FloatFormat.double.fractionBits)
      FloatFormat.double.minScale = x.scale - k by rw [least, bits]; omega)
    (shifted_value x.significand k x.scale)
    (by rw [count, top, least]; omega)
  rwa [count, least, Int.sub_neg] at converted

/-- The smaller format takes the significand back as it was before the shift. -/
private theorem narrow_eq {x : Single} {y : Double} {k : Nat} (finite : x.isFinite)
    (positive : 0 < x.significand) (shift : x.significand.log2 + k = 52) (same : y.isFinite)
    (scale : y.scale = x.scale - k) (significand : y.significand = x.significand * 2 ^ k) :
    y.narrow = ofMagnitude y.negative ((x.scale + 149).toNat * 2 ^ 23 + x.significand) := by
  obtain ⟨low, high, small, normal⟩ := single_bounds x finite
  have count : FloatFormat.single.fractionCount = 2 ^ 23 := rfl
  have top : FloatFormat.single.topExponent = 255 := rfl
  have least : FloatFormat.single.minScale = -149 := rfl
  have bits : FloatFormat.single.fractionBits = 23 := rfl
  have moved : 0 < y.significand := by
    rw [significand]
    exact Nat.mul_pos positive (Nat.two_pow_pos k)
  have finest : max (y.significand.log2 + y.scale - FloatFormat.single.fractionBits)
      FloatFormat.single.minScale = x.scale := by
    rw [significand, log2_mul_pow positive, scale, least, bits]
    rcases normal with subnormal | normal
    · have width := (Nat.log2_lt (Nat.ne_of_gt positive)).mpr small
      omega
    · omega
  have exact : y.significand * 2 ^ (y.scale.toNat + (-x.scale).toNat) =
      x.significand * 2 ^ ((-y.scale).toNat + x.scale.toNat) := by
    have value := shifted_value x.significand k x.scale
    rw [significand, scale, Nat.add_comm (x.scale - k).toNat, ← value, Nat.add_comm]
  have converted := convert_exact same moved finest exact (by rw [count, top, least]; omega)
  rwa [count, least, Int.sub_neg] at converted

/-- In the larger format, a finite number other than zero is a normal one. -/
theorem widen_normal {x : Single} (finite : x.isFinite) (positive : 0 < x.significand) :
    ∃ k, x.significand.log2 + k = 52 ∧ x.widen.isFinite ∧ x.widen.negative = x.negative ∧
      x.widen.scale = x.scale - k ∧ x.widen.significand = x.significand * 2 ^ k := by
  obtain ⟨low, high, small, _⟩ := single_bounds x finite
  obtain ⟨k, shift⟩ : ∃ k, x.significand.log2 + k = 52 := by
    have bits := (Nat.log2_lt (Nat.ne_of_gt positive)).mpr small
    exact ⟨52 - x.significand.log2, by omega⟩
  have shifted : (x.significand * 2 ^ k).log2 = 52 := by rw [log2_mul_pow positive, shift]
  have moved : 0 < x.significand * 2 ^ k := Nat.mul_pos positive (Nat.two_pow_pos k)
  obtain ⟨full, below⟩ := (Nat.log2_eq_iff (Nat.ne_of_gt moved)).mp shifted
  have normal := ofMagnitude_normal x.negative (x.scale - k) (by omega) (by omega) full below
  rw [← widen_eq finite positive shift below] at normal
  exact ⟨k, shift, normal⟩

/-- A finite number comes back from the larger format as it was. -/
theorem narrow_widen (x : Single) (finite : x.isFinite) : x.widen.narrow = x := by
  rcases Nat.eq_zero_or_pos x.significand with none | positive
  · rw [eq_zero x none]
    cases x.negative <;> decide +kernel
  obtain ⟨k, shift, same, sign, scale, significand⟩ := widen_normal finite positive
  rw [narrow_eq finite positive shift same scale significand, sign, ← magnitude_eq,
    ofMagnitude_magnitude]

/-- Finite numbers stay finite in the larger format. -/
theorem isFinite_widen (x : Single) (finite : x.isFinite) : x.widen.isFinite := by
  rcases Nat.eq_zero_or_pos x.significand with none | positive
  · rw [eq_zero x none]
    cases x.negative <;> decide +kernel
  obtain ⟨k, -, same, -⟩ := widen_normal finite positive
  exact same

/-- Only finite numbers become finite ones. -/
theorem isFinite_of_widen (x : Single) (finite : x.widen.isFinite) : x.isFinite := by
  by_cases number : x.isFinite
  · exact number
  · exfalso
    have notFinite : x.isFinite = false := Bool.eq_false_iff.mpr number
    rw [widen, convert, notFinite] at finite
    split at finite
    · exact absurd finite (by decide)
    · have endless : ∀ sign, (infinity sign : Double).isFinite = false := by decide
      rw [if_neg (by decide), endless] at finite
      cases finite

end ObjectMapping.Floating
