import Mathlib.Data.Nat.Init
import ObjectMapping.Decimal.Whole
import ObjectMapping.Dialect
import ObjectMapping.Proofs.Floating

/-! The shortest decimal of a number exists, and it has no digit after the point exactly if the
number is a whole one. The search goes from coarse grids to fine ones, so a whole number is found on
the grid of the whole numbers at the latest; and where a decimal is found on this grid or on a
coarser one, the interval around the number is too small to hold a whole number beside it. -/
namespace ObjectMapping

namespace Decimal

variable {f : FloatFormat} {x : Floating f} {tie : TieRule} {e : Int} {d : Decimal}

theorem powerOfTen_pos (n : Nat) : 0 < powerOfTen n := Nat.pow_pos (by decide)

theorem powerOfTen_add (m n : Nat) : powerOfTen (m + n) = powerOfTen m * powerOfTen n :=
  Nat.pow_add 10 m n

theorem length_toDigits_pos (n : Nat) : 0 < (Nat.toDigits 10 n).length :=
  List.length_pos_iff.mpr Nat.toDigits_ne_nil

theorem lt_powerOfTen_length (n : Nat) : n < powerOfTen (Nat.toDigits 10 n).length :=
  (Nat.length_toDigits_le_iff (by decide) (length_toDigits_pos n)).mp (Nat.le_refl _)

theorem powerOfTen_length_le {n : Nat} (some : 0 < n) :
    powerOfTen ((Nat.toDigits 10 n).length - 1) ≤ n := by
  rcases Nat.eq_zero_or_pos ((Nat.toDigits 10 n).length - 1) with single | more
  · rw [single]
    exact some
  · refine Nat.le_of_not_lt fun small => ?_
    have short := (Nat.length_toDigits_le_iff (by decide) more).mpr small
    omega

/-- The leading digit of the ratio stands no more than one place below the guess. -/
theorem leadingGuess_le {num den : Nat} (positive : 0 < den) (some : 0 < num) :
    den * powerOfTen (leadingGuess num den - 1).toNat ≤
      num * powerOfTen (-(leadingGuess num den - 1)).toNat := by
  unfold leadingGuess
  split
  · rename_i large
    have digits := length_toDigits_pos (num / den)
    have places : ((Nat.toDigits 10 (num / den)).length - 1 : Int).toNat =
        (Nat.toDigits 10 (num / den)).length - 1 := by omega
    have none : (-((Nat.toDigits 10 (num / den)).length - 1 : Int)).toNat = 0 := by omega
    rw [places, none]
    calc
      den * powerOfTen ((Nat.toDigits 10 (num / den)).length - 1) ≤ den * (num / den) :=
        Nat.mul_le_mul_left den (powerOfTen_length_le (Nat.div_pos large positive))
      _ ≤ num := Nat.mul_div_le num den
      _ = num * powerOfTen 0 := (Nat.mul_one num).symm
  · have none : (1 - ((Nat.toDigits 10 (den / num)).length : Int) - 1).toNat = 0 := by omega
    have places : (-(1 - ((Nat.toDigits 10 (den / num)).length : Int) - 1)).toNat =
        (Nat.toDigits 10 (den / num)).length := by omega
    rw [places, none]
    calc
      den * powerOfTen 0 = den := Nat.mul_one den
      _ ≤ num * (den / num + 1) := Nat.le_of_lt (Nat.lt_mul_div_succ den some)
      _ ≤ num * powerOfTen (Nat.toDigits 10 (den / num)).length :=
        Nat.mul_le_mul_left num (lt_powerOfTen_length (den / num))

/-- The power of ten below which a ratio still is, lowered by as many places as it may take to
write what it exceeds a unit by. -/
theorem powerOfTen_lower {num den unit k : Nat} {a : Int}
    (le : den * powerOfTen a.toNat ≤ num * powerOfTen (-a).toNat)
    (small : num ≤ unit * powerOfTen k) :
    den * powerOfTen (a - k).toNat ≤ unit * powerOfTen (-(a - k)).toNat := by
  refine Nat.le_of_mul_le_mul_right ?_ (powerOfTen_pos ((-a).toNat + k))
  have places : (a - k).toNat + ((-a).toNat + k) = a.toNat + (-(a - k)).toNat := by omega
  calc
    den * powerOfTen (a - k).toNat * powerOfTen ((-a).toNat + k)
    _ = den * powerOfTen a.toNat * powerOfTen (-(a - k)).toNat := by
      rw [Nat.mul_assoc, ← powerOfTen_add, places, powerOfTen_add, Nat.mul_assoc]
    _ ≤ unit * powerOfTen k * powerOfTen (-a).toNat * powerOfTen (-(a - k)).toNat :=
      Nat.mul_le_mul_right _ (Nat.le_trans le (Nat.mul_le_mul_right _ small))
    _ = unit * powerOfTen (-(a - k)).toNat * powerOfTen ((-a).toNat + k) := by
      rw [powerOfTen_add]
      ac_rfl

namespace RoundingInterval

variable {i : RoundingInterval}

theorem onGrid_eq_some (found : i.onGrid? tie e = some d) : d.exponent = e ∧ i.holds d := by
  simp only [onGrid?] at found
  split at found
  · rename_i held
    obtain rfl := Option.some.inj found
    exact ⟨rfl, (Bool.and_eq_true_iff.mp held).1⟩
  · split at found
    · rename_i held
      obtain rfl := Option.some.inj found
      exact ⟨rfl, held⟩
    · cases found

/-- What lies strictly between the ends lies in the interval, whether they belong to it or not. -/
theorem holds_of_between
    (above : i.low * powerOfTen (-d.exponent).toNat <
      d.coefficient * powerOfTen d.exponent.toNat * i.denominator)
    (below : d.coefficient * powerOfTen d.exponent.toNat * i.denominator <
      i.high * powerOfTen (-d.exponent).toNat) : i.holds d := by
  unfold holds
  split
  · simp [Nat.le_of_lt above, Nat.le_of_lt below]
  · simp [above, below]

theorem between_of_holds (held : i.holds d) :
    i.low * powerOfTen (-d.exponent).toNat ≤
        d.coefficient * powerOfTen d.exponent.toNat * i.denominator ∧
      d.coefficient * powerOfTen d.exponent.toNat * i.denominator ≤
        i.high * powerOfTen (-d.exponent).toNat := by
  unfold holds at held
  split at held
  · simpa using held
  · obtain ⟨above, below⟩ := Bool.and_eq_true_iff.mp held
    exact ⟨Nat.le_of_lt (of_decide_eq_true above), Nat.le_of_lt (of_decide_eq_true below)⟩

/-- On a grid whose lower neighbour of the middle lies above the lower end, a decimal is found. -/
theorem exists_onGrid (high : i.middle < i.high)
    (above : i.low * powerOfTen (-e).toNat < i.middle * powerOfTen (-e).toNat /
      (i.denominator * powerOfTen e.toNat) * (i.denominator * powerOfTen e.toNat)) :
    ∃ d, i.onGrid? tie e = some d := by
  have held : i.holds ⟨i.middle * powerOfTen (-e).toNat /
      (i.denominator * powerOfTen e.toNat), e⟩ := by
    apply holds_of_between
    · rwa [Nat.mul_assoc, Nat.mul_comm (powerOfTen _)]
    · rw [Nat.mul_assoc, Nat.mul_comm (powerOfTen _)]
      exact Nat.lt_of_le_of_lt (Nat.div_mul_le_self _ _)
        (Nat.mul_lt_mul_of_pos_right high (powerOfTen_pos _))
  simp only [onGrid?, held, if_true]
  split
  · exact ⟨_, rfl⟩
  · exact ⟨_, rfl⟩

/-- A grid that is finer than the interval has a decimal in it. -/
theorem exists_onGrid_of_fine (positive : 0 < i.denominator) (high : i.middle < i.high)
    (fine : i.low * powerOfTen (-e).toNat + i.denominator * powerOfTen e.toNat ≤
      i.middle * powerOfTen (-e).toNat) : ∃ d, i.onGrid? tie e = some d := by
  refine exists_onGrid high ?_
  have step := Nat.lt_div_mul_add (a := i.middle * powerOfTen (-e).toNat)
    (Nat.mul_pos positive (powerOfTen_pos e.toNat))
  omega

/-- A whole number lies on the grid of the whole numbers. -/
theorem exists_onGrid_zero {n : Nat} (tie : TieRule) (positive : 0 < i.denominator)
    (low : i.low < i.middle) (high : i.middle < i.high) (whole : i.middle = n * i.denominator) :
    ∃ d, i.onGrid? tie 0 = some d := by
  refine exists_onGrid high ?_
  have unit : powerOfTen 0 = 1 := rfl
  simp only [Int.neg_zero, Int.toNat_zero, unit, Nat.mul_one]
  rw [whole, Nat.mul_div_cancel n positive, ← whole]
  exact low

/-- The middle lies between the ends, and at least a quarter of the spacing above the lower one. -/
theorem ofFloating_spacing (nonzero : 0 < x.significand) :
    0 < (ofFloating x).denominator ∧ (ofFloating x).middle < (ofFloating x).high ∧
      (ofFloating x).low + 2 ^ (x.scale - 2).toNat ≤ (ofFloating x).middle := by
  have unit := Nat.two_pow_pos (x.scale - 2).toNat
  simp only [ofFloating, Nat.shiftLeft_eq, Nat.one_mul]
  refine ⟨Nat.two_pow_pos _, Nat.mul_lt_mul_of_pos_right (by omega) unit, ?_⟩
  rw [← Nat.succ_mul]
  refine Nat.mul_le_mul_right _ ?_
  split <;> omega

theorem significand_lt (x : Floating f) : x.significand < 2 ^ (f.fractionBits + 1) := by
  have fraction := x.fraction.isLt
  have count : f.fractionCount = 2 ^ f.fractionBits := by
    rw [FloatFormat.fractionCount, Nat.shiftLeft_eq, Nat.one_mul]
  unfold Floating.significand
  split <;> omega

/-- The last grid of the search is finer than the spacing of the numbers. -/
theorem exists_onGrid_last (tie : TieRule) (nonzero : 0 < x.significand) :
    ∃ d, (ofFloating x).onGrid? tie
      (leadingGuess (ofFloating x).middle (ofFloating x).denominator - 1 -
        (f.fractionBits + 1 : Nat)) = some d := by
  obtain ⟨positive, high, spacing⟩ := ofFloating_spacing nonzero
  have digits : 4 * x.significand ≤ powerOfTen (f.fractionBits + 1) := by
    have bits := significand_lt x
    have powers : 2 ^ f.fractionBits ≤ powerOfTen f.fractionBits :=
      Nat.pow_le_pow_left (by decide) _
    have next : powerOfTen (f.fractionBits + 1) = powerOfTen f.fractionBits * 10 :=
      powerOfTen_add f.fractionBits 1
    omega
  have small :
      (ofFloating x).middle ≤ 2 ^ (x.scale - 2).toNat * powerOfTen (f.fractionBits + 1) := by
    rw [Nat.mul_comm]
    simp only [ofFloating, Nat.shiftLeft_eq]
    exact Nat.mul_le_mul_right _ digits
  have above : 0 < (ofFloating x).middle :=
    Nat.lt_of_lt_of_le (Nat.lt_add_left _ (Nat.two_pow_pos _)) spacing
  have fine := powerOfTen_lower (leadingGuess_le positive above) small
  refine exists_onGrid_of_fine positive high ?_
  calc
    _ ≤ ((ofFloating x).low + 2 ^ (x.scale - 2).toNat) * _ := by
      rw [Nat.add_mul]
      exact Nat.add_le_add_left fine _
    _ ≤ _ := Nat.mul_le_mul_right _ spacing

end RoundingInterval

open RoundingInterval

section

variable {start : Int} {n : Nat}

theorem mem_grids :
    e ∈ (List.range n).map (fun k : Nat => start - k) ↔ e ≤ start ∧ start < e + n := by
  rw [List.mem_map]
  constructor
  · rintro ⟨k, small, rfl⟩
    have small := List.mem_range.mp small
    omega
  · rintro ⟨low, high⟩
    exact ⟨(start - e).toNat, List.mem_range.mpr (by omega), by omega⟩

theorem grids_descending (start : Int) (n : Nat) :
    ((List.range n).map fun k : Nat => start - k).Pairwise (· > ·) :=
  List.pairwise_map.mpr (List.pairwise_lt_range.imp fun below => by omega)

end

/-- A search from coarse grids to fine ones ends at the coarsest grid on which there is anything. -/
theorem findSome_coarsest {g : Int → Option α} {grids : List Int} {a : α}
    (descending : grids.Pairwise (· > ·)) (found : grids.findSome? g = some a) :
    ∃ e ∈ grids, g e = some a ∧ ∀ other ∈ grids, e < other → g other = none := by
  obtain ⟨before, e, after, rfl, here, none⟩ := List.findSome?_eq_some_iff.mp found
  refine ⟨e, List.mem_append_right _ List.mem_cons_self, here, fun other member coarser => ?_⟩
  obtain ⟨-, later, -⟩ := List.pairwise_append.mp descending
  rcases List.mem_append.mp member with earlier | rest
  · exact none other earlier
  · rcases List.mem_cons.mp rest with rfl | rest
    · exact absurd coarser (Int.lt_irrefl _)
    · exact absurd ((List.pairwise_cons.mp later).1 other rest) (Int.not_lt.mpr (Int.le_of_lt coarser))

/-- The search succeeds, and on all grids that are coarser there is no decimal. -/
theorem shortest_found (tie : TieRule) (nonzero : 0 < x.significand) :
    (ofFloating x).onGrid? tie (shortest tie x).exponent = some (shortest tie x) ∧
      ∀ e, (shortest tie x).exponent < e →
        e ≤ leadingGuess (ofFloating x).middle (ofFloating x).denominator →
        (ofFloating x).onGrid? tie e = none := by
  obtain ⟨last, there⟩ := exists_onGrid_last tie nonzero
  simp only [shortest]
  generalize leadingGuess (ofFloating x).middle (ofFloating x).denominator = start at there ⊢
  cases outcome : ((List.range (f.fractionBits + 3)).map fun n : Nat => start - n).findSome?
      ((ofFloating x).onGrid? tie) with
  | none =>
    have listed : start - 1 - (f.fractionBits + 1 : Nat) ∈
        (List.range (f.fractionBits + 3)).map fun n : Nat => start - n :=
      mem_grids.mpr ⟨by omega, by omega⟩
    cases there.symm.trans (List.findSome?_eq_none_iff.mp outcome _ listed)
  | some d =>
    obtain ⟨e, listed, here, coarser⟩ := findSome_coarsest (grids_descending _ _) outcome
    obtain ⟨rfl, -⟩ := onGrid_eq_some here
    have reach := mem_grids.mp listed
    rw [Option.getD_some]
    exact ⟨here, fun e above low => coarser e (mem_grids.mpr ⟨low, by omega⟩) above⟩

end Decimal

namespace Floating

open Decimal Decimal.RoundingInterval

variable {f : FloatFormat} {x : Floating f} {n : Nat}

/-- What a number is compared with may be scaled along with it. -/
private theorem scaled_iff {m a b c e : Nat} (scales : c + b = a + e) :
    m * 2 ^ a = n * 2 ^ b ↔ m * 2 ^ c = n * 2 ^ e := by
  rw [← Nat.mul_left_inj (Nat.ne_of_gt (Nat.two_pow_pos e)), Nat.mul_assoc, ← Nat.pow_add, ← scales,
    Nat.pow_add, ← Nat.mul_assoc, Nat.mul_right_comm n,
    Nat.mul_left_inj (Nat.ne_of_gt (Nat.two_pow_pos b))]

/-- The number is the middle of its interval. -/
theorem hasMagnitude_iff :
    x.HasMagnitude n ↔ (ofFloating x).middle = n * (ofFloating x).denominator := by
  have quarters : 4 * x.significand * 2 ^ (x.scale - 2).toNat =
      x.significand * 2 ^ (2 + (x.scale - 2).toNat) := by
    rw [Nat.pow_add, ← Nat.mul_assoc, Nat.mul_comm 4]
  simp only [HasMagnitude, ofFloating, Nat.shiftLeft_eq, Nat.one_mul, quarters]
  exact scaled_iff (by omega)

theorem isZero_iff : x.isZero ↔ x.significand = 0 := by
  have positive := f.fractionCount_pos
  rw [isZero, Bool.and_eq_true_iff, beq_iff_eq, beq_iff_eq, significand]
  split <;> omega

theorem isWhole_of_zero (zero : x.significand = 0) : x.IsWhole :=
  ⟨0, by rw [HasMagnitude, zero, Nat.zero_mul, Nat.zero_mul]⟩

/-- A number has a fraction in the larger format if it has one in the smaller. -/
theorem isWhole_widen {x : Single} (finite : x.isFinite) : x.widen.IsWhole ↔ x.IsWhole := by
  rcases Nat.eq_zero_or_pos x.significand with none | positive
  · have zero : x.widen.significand = 0 := by
      rw [eq_zero x none]
      cases x.negative <;> decide +kernel
    exact iff_of_true (isWhole_of_zero zero) (isWhole_of_zero none)
  · obtain ⟨k, -, -, -, scale, significand⟩ := widen_normal finite positive
    refine exists_congr fun n => ?_
    rw [HasMagnitude, HasMagnitude, scale, significand, Nat.mul_assoc, ← Nat.pow_add]
    exact scaled_iff (by omega)

/-- An interval is too small to hold a whole number beside its middle. -/
theorem isWhole_of_holds {d : Decimal} (held : (ofFloating x).holds d) (coarse : 0 ≤ d.exponent) :
    x.IsWhole := by
  rcases Int.le_total 0 x.scale with large | small
  · refine ⟨x.significand * 2 ^ x.scale.toNat, ?_⟩
    have none : (-x.scale).toNat = 0 := by omega
    rw [HasMagnitude, none, Nat.pow_zero, Nat.mul_one]
  · refine ⟨d.coefficient * powerOfTen d.exponent.toNat, ?_⟩
    obtain ⟨low, high⟩ := between_of_holds held
    have unit : powerOfTen 0 = 1 := rfl
    have up : x.scale.toNat = 0 := by omega
    have none : (-d.exponent).toNat = 0 := by omega
    have shift : (x.scale - 2).toNat = 0 := by omega
    have spacing : (2 - x.scale).toNat = 2 + (-x.scale).toNat := by omega
    generalize d.coefficient * powerOfTen d.exponent.toNat = value at low high ⊢
    simp only [ofFloating, Nat.shiftLeft_eq, none, shift, spacing, Nat.one_mul, Nat.mul_one,
      Nat.pow_zero, Nat.pow_add, unit, Nat.mul_left_comm value] at low high
    have near : 4 * x.significand - 2 ≤ 4 * x.significand -
        (if x.fraction.val = 0 ∧ 1 < x.exponent.val then 1 else 2) := by
      split <;> omega
    rw [HasMagnitude, up, Nat.pow_zero, Nat.mul_one]
    omega

/-- The shortest decimal has no digit after the point exactly if the number has no fraction. -/
theorem exponent_shortest_nonneg_iff {tie : TieRule} (nonzero : 0 < x.significand) :
    0 ≤ (shortest tie x).exponent ↔ x.IsWhole := by
  obtain ⟨found, coarser⟩ := shortest_found tie nonzero
  constructor
  · exact isWhole_of_holds (onGrid_eq_some found).2
  · rintro ⟨n, whole⟩
    obtain ⟨positive, high, spacing⟩ := ofFloating_spacing nonzero
    refine Int.not_lt.mp fun fraction => ?_
    have unit := Nat.two_pow_pos (x.scale - 2).toNat
    have middle := hasMagnitude_iff.mp whole
    obtain ⟨d, there⟩ := exists_onGrid_zero tie positive (by omega) high middle
    have large : (ofFloating x).denominator ≤ (ofFloating x).middle := by
      rw [middle]
      refine Nat.le_mul_of_pos_left _ (Nat.pos_of_ne_zero ?_)
      rintro rfl
      omega
    have start : 0 ≤ leadingGuess (ofFloating x).middle (ofFloating x).denominator := by
      rw [leadingGuess, if_pos large]
      exact Int.natCast_nonneg _
    cases there.symm.trans (coarser 0 fraction start)

end Floating

section

variable {text : String}

theorem not_isIntegerText (point : '.' ∈ text.toList) : ¬IsIntegerText text := by
  rintro ⟨digits, -, each, same⟩
  have digit : '.'.isDigit := by
    rcases same with same | same
    · exact each _ (same ▸ point)
    · rw [same, List.mem_cons] at point
      exact each _ (point.resolve_left (by decide))
  exact absurd digit (by decide)

/-- Digits are the text of an integer, whatever the sign before them. -/
theorem isIntegerText_signed (x : Floating f) (some : text.toList ≠ [])
    (digits : ∀ c ∈ text.toList, c.isDigit) : IsIntegerText (x.signText ++ text) := by
  refine ⟨text.toList, some, digits, ?_⟩
  unfold Floating.signText
  cases x.negative with
  | false => exact .inl (by simp)
  | true => exact .inr (by simp)

end

namespace Decimal

/-- A point is written where a fraction follows, and in no other case. -/
theorem isIntegerText_positional (x : Floating f) (d : Decimal) :
    IsIntegerText (x.signText ++ d.positional) ↔ 0 ≤ d.exponent := by
  constructor
  · refine fun integer => Int.not_lt.mp fun fraction => not_isIntegerText ?_ integer
    rw [String.toList_append, List.mem_append, positional, if_neg (Int.not_le.mpr fraction),
      String.toList_ofList]
    exact .inr (List.mem_append_right _ List.mem_cons_self)
  · intro whole
    have text : d.positional.toList = d.digits ++ List.replicate d.exponent.toNat '0' := by
      rw [positional, if_pos whole, String.toList_ofList]
    apply isIntegerText_signed
    · rw [text]
      exact List.append_ne_nil_of_left_ne_nil Nat.toDigits_ne_nil _
    · intro c member
      rw [text] at member
      rcases List.mem_append.mp member with digit | zero
      · exact Nat.isDigit_of_mem_toDigits (by decide) (by decide) digit
      · obtain rfl := List.eq_of_mem_replicate zero
        rfl

end Decimal

namespace Floating

/-- A finite number is written like an integer exactly if it has no fraction. -/
theorem isIntegerText_plainText {x : Floating f} (finite : x.isFinite) :
    IsIntegerText x.plainText ↔ x.IsWhole := by
  have number : x.isNaN = false := by simp [isNaN, finite]
  simp only [plainText, number, finite, Bool.not_true, Bool.false_eq_true, if_false]
  split
  · rename_i zero
    have digits : ∀ c ∈ "0".toList, c.isDigit := List.forall_mem_singleton.mpr rfl
    exact iff_of_true (isIntegerText_signed x (by decide) digits)
      (isWhole_of_zero (isZero_iff.mp zero))
  · rename_i nonzero
    have positive := Nat.pos_of_ne_zero fun none => nonzero (isZero_iff.mpr none)
    rw [Decimal.isIntegerText_positional]
    exact exponent_shortest_nonneg_iff positive

end Floating

namespace Dialect

theorem floatLiteral_finite {x : Double} (finite : x.isFinite) : floatLiteral x = .ok x.plainText :=
  if_pos finite

/-- The literal of a finite floating number is the text of an integer exactly if the number has no
fraction. -/
theorem literal_isIntegerText_iff (d : Dialect) :
    (∀ x : Single, x.isFinite →
      ∃ text, d.literal (.float x) = .ok text ∧ (IsIntegerText text ↔ x.IsWhole)) ∧
    ∀ x : Double, x.isFinite →
      ∃ text, d.literal (.double x) = .ok text ∧ (IsIntegerText text ↔ x.IsWhole) := by
  constructor
  · intro x finite
    have wide := x.isFinite_widen finite
    refine ⟨_, floatLiteral_finite wide, ?_⟩
    rw [Floating.isIntegerText_plainText wide, Floating.isWhole_widen finite]
  · intro x finite
    exact ⟨_, floatLiteral_finite finite, Floating.isIntegerText_plainText finite⟩

/-- One half keeps its point, in either format. -/
theorem literal_isIntegerText_half :
    (∃ text, sqlite.literal (.float (.ofRatio false 1 2)) = .ok text ∧ ¬IsIntegerText text) ∧
      ∃ text, sqlite.literal (.double (.ofRatio false 1 2)) = .ok text ∧ ¬IsIntegerText text := by
  obtain ⟨single, double⟩ := literal_isIntegerText_iff sqlite
  constructor
  · obtain ⟨text, ok, iff⟩ := single (.ofRatio false 1 2) (by decide)
    refine ⟨text, ok, fun integer => ?_⟩
    obtain ⟨n, whole⟩ := iff.mp integer
    have half : 2 ^ 23 * 2 ^ 0 = n * 2 ^ 24 := whole
    omega
  · obtain ⟨text, ok, iff⟩ := double (.ofRatio false 1 2) (by decide)
    refine ⟨text, ok, fun integer => ?_⟩
    obtain ⟨n, whole⟩ := iff.mp integer
    have half : 2 ^ 52 * 2 ^ 0 = n * 2 ^ 53 := whole
    omega

/-- The floating number two has the literal of the integer, in either format. -/
theorem literal_two :
    (.ofInt 2 : Double).isFinite ∧ (.ofInt 2 : Single).isFinite ∧ IsIntegerText "2" ∧
      ∀ d : Dialect, d.literal (.double (.ofInt 2)) = .ok "2" ∧
        d.literal (.float (.ofInt 2)) = .ok "2" ∧ d.literal (.int32 2) = .ok "2" := by
  have double : (.ofInt 2 : Double).plainText = "2" := by decide +kernel
  have single : (.ofInt 2 : Single).widen.plainText = "2" := by decide +kernel
  have digits : IsIntegerText "2" :=
    ⟨['2'], List.cons_ne_nil _ _, List.forall_mem_singleton.mpr rfl, .inl rfl⟩
  refine ⟨by decide, by decide, digits, fun d => ?_⟩
  exact ⟨(floatLiteral_finite (by decide)).trans (congrArg Except.ok double),
    (floatLiteral_finite (by decide +kernel)).trans (congrArg Except.ok single), rfl⟩

end Dialect

end ObjectMapping
