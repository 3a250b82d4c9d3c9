import ChatMicroservices.JsonParsing
import Mathlib.Tactic.Linarith
import Mathlib.Tactic.Positivity
import Mathlib.Tactic.FieldSimp

/-!
# Rounding to a double

`toDouble` rounds a positive rational to a multiple of a power of two, its unit. Rounding keeps
the order, leaves every natural number up to `2 ^ 53` as it is, and makes an integer of an
integer.
-/

namespace ChatMicroservices.DoubleRounding
open JavaScriptValues JSON

theorem floor_le_roundHalfEven (q : ℚ) : ⌊q⌋ ≤ roundHalfEven q := by
  simp only [roundHalfEven]
  split
  · exact le_refl _
  · split
    · exact Int.le_add_one (le_refl _)
    · split
      · exact le_refl _
      · exact Int.le_add_one (le_refl _)

theorem roundHalfEven_le_floor_add_one (q : ℚ) : roundHalfEven q ≤ ⌊q⌋ + 1 := by
  simp only [roundHalfEven]
  split
  · exact Int.le_add_one (le_refl _)
  · split
    · exact le_refl _
    · split
      · exact Int.le_add_one (le_refl _)
      · exact le_refl _

@[simp] theorem roundHalfEven_intCast (z : ℤ) : roundHalfEven z = z := by
  simp only [roundHalfEven, Int.floor_intCast, sub_self]
  exact if_pos (by norm_num)

theorem roundHalfEven_mono {a b : ℚ} (h : a ≤ b) : roundHalfEven a ≤ roundHalfEven b := by
  rcases (Int.floor_mono h).lt_or_eq with hlt | heq
  · have ha := roundHalfEven_le_floor_add_one a
    have hb := floor_le_roundHalfEven b
    omega
  · -- With the same floor, the fraction of `a` is not larger.
    have hfraction : a - ⌊b⌋ ≤ b - ⌊b⌋ := by linarith
    simp only [roundHalfEven, heq]
    split_ifs <;> first | omega | (exfalso; linarith)

/-- The exponent of the last place of the double that is nearest to `q`. -/
def lastPlace (q : ℚ) : ℤ := max (Int.log 2 q - 52) (-1074)

/-- The nearest multiple of the unit. -/
def rounded (q : ℚ) : ℚ := roundHalfEven (q / 2 ^ lastPlace q) * 2 ^ lastPlace q

theorem toDouble_of_pos {q : ℚ} (hq : 0 < q) : toDouble q =
    if (2 : ℚ) ^ (1024 : ℕ) ≤ |rounded q| then .infinite false else .finite (rounded q) := by
  have hneg : ¬ q < 0 := not_lt.mpr hq.le
  rw [toDouble, if_neg hq.ne']
  simp only [abs_of_pos hq, hneg, decide_false]
  rfl

section Positive

variable {q : ℚ}

theorem unit_pos (q : ℚ) : (0 : ℚ) < 2 ^ lastPlace q := zpow_pos (by norm_num) _

theorem rounded_nonneg (hq : 0 < q) : 0 ≤ rounded q := by
  have hquotient : (0 : ℚ) ≤ q / 2 ^ lastPlace q := div_nonneg hq.le (unit_pos q).le
  have hround : (0 : ℤ) ≤ roundHalfEven (q / 2 ^ lastPlace q) :=
    (Int.floor_nonneg.mpr hquotient).trans (floor_le_roundHalfEven _)
  exact mul_nonneg (by exact_mod_cast hround) (unit_pos q).le

/-- A multiple of the unit is left as it is. -/
theorem rounded_of_multiple {z : ℤ} (h : q = z * 2 ^ lastPlace q) : rounded q = q := by
  have hquotient : q / 2 ^ lastPlace q = z := by
    rw [div_eq_iff (unit_pos q).ne']
    exact h
  rw [rounded, hquotient, roundHalfEven_intCast]
  exact h.symm

/-- The rounded value is at most the power of two above. -/
theorem rounded_le (q : ℚ) : rounded q ≤ 2 ^ (53 + lastPlace q) := by
  have hlog : Int.log 2 q + 1 ≤ 53 + lastPlace q := by
    have hmax : Int.log 2 q - 52 ≤ lastPlace q := le_max_left _ _
    omega
  have hbound : q ≤ 2 ^ (53 + lastPlace q) :=
    (Int.lt_zpow_succ_log_self (b := 2) (by norm_num) q).le.trans
      (zpow_le_zpow_right₀ (by norm_num) hlog)
  have hquotient : q / 2 ^ lastPlace q ≤ ((2 ^ 53 : ℤ) : ℚ) := by
    rw [div_le_iff₀ (unit_pos q)]
    rw [zpow_add₀ (by norm_num)] at hbound
    exact_mod_cast hbound
  have hround := roundHalfEven_mono hquotient
  rw [roundHalfEven_intCast] at hround
  have hcast : (roundHalfEven (q / 2 ^ lastPlace q) : ℚ) ≤ 2 ^ (53 : ℤ) := by exact_mod_cast hround
  rw [rounded, zpow_add₀ (by norm_num)]
  exact mul_le_mul_of_nonneg_right hcast (unit_pos q).le

/-- Unless the unit is the smallest, the rounded value is at least the power of two below. -/
theorem le_rounded (hq : 0 < q) (hunit : -1074 < lastPlace q) :
    2 ^ (52 + lastPlace q) ≤ rounded q := by
  have hlog : 52 + lastPlace q = Int.log 2 q := by
    have hmax : lastPlace q = max (Int.log 2 q - 52) (-1074) := rfl
    omega
  have hbound : (2 : ℚ) ^ (52 + lastPlace q) ≤ q := by
    rw [hlog]
    exact Int.zpow_log_le_self (b := 2) (by norm_num) hq
  have hquotient : ((2 ^ 52 : ℤ) : ℚ) ≤ q / 2 ^ lastPlace q := by
    rw [le_div_iff₀ (unit_pos q)]
    rw [zpow_add₀ (by norm_num)] at hbound
    exact_mod_cast hbound
  have hround := roundHalfEven_mono hquotient
  rw [roundHalfEven_intCast] at hround
  have hcast : (2 : ℚ) ^ (52 : ℤ) ≤ roundHalfEven (q / 2 ^ lastPlace q) := by exact_mod_cast hround
  rw [rounded, zpow_add₀ (by norm_num)]
  exact mul_le_mul_of_nonneg_right hcast (unit_pos q).le

theorem lastPlace_mono {q' : ℚ} (hq : 0 < q) (h : q ≤ q') : lastPlace q ≤ lastPlace q' := by
  have hlog : Int.log 2 q ≤ Int.log 2 q' := Int.log_mono_right hq h
  have hleft : lastPlace q = max (Int.log 2 q - 52) (-1074) := rfl
  have hright : lastPlace q' = max (Int.log 2 q' - 52) (-1074) := rfl
  omega

theorem rounded_mono {q' : ℚ} (hq : 0 < q) (h : q ≤ q') : rounded q ≤ rounded q' := by
  rcases (lastPlace_mono hq h).lt_or_eq with hlt | heq
  · -- A power of two lies between the two.
    have hunit : -1074 < lastPlace q' := (le_max_right _ _).trans_lt hlt
    calc rounded q ≤ 2 ^ (53 + lastPlace q) := rounded_le q
      _ ≤ 2 ^ (52 + lastPlace q') := zpow_le_zpow_right₀ (by norm_num) (by omega)
      _ ≤ rounded q' := le_rounded (hq.trans_le h) hunit
  · have hquotient : q / 2 ^ lastPlace q ≤ q' / 2 ^ lastPlace q :=
      div_le_div_of_nonneg_right h (unit_pos q).le
    have hround : (roundHalfEven (q / 2 ^ lastPlace q) : ℚ) ≤
        roundHalfEven (q' / 2 ^ lastPlace q) := by exact_mod_cast roundHalfEven_mono hquotient
    rw [rounded, rounded, ← heq]
    exact mul_le_mul_of_nonneg_right hround (unit_pos q).le

/-- What is not above a number that is rounded to a finite double is rounded to one as well. -/
theorem toDouble_mono {q' r' : ℚ} (hq : 0 < q) (h : q ≤ q') (hfinite : toDouble q' = .finite r') :
    toDouble q = .finite (rounded q) ∧ rounded q ≤ r' := by
  have hq' : 0 < q' := hq.trans_le h
  have hle := rounded_mono hq h
  rw [toDouble_of_pos hq'] at hfinite
  split at hfinite
  · cases hfinite
  · rename_i hsmall
    obtain rfl : rounded q' = r' := by simpa using hfinite
    rw [abs_of_nonneg (rounded_nonneg hq')] at hsmall
    refine ⟨?_, hle⟩
    rw [toDouble_of_pos hq, abs_of_nonneg (rounded_nonneg hq), if_neg]
    intro hlarge
    exact hsmall (hlarge.trans hle)

end Positive

section Natural

variable {n : ℕ}

/-- A natural number whose unit is `1` or larger is at least the power of two below it. -/
theorem lastPlace_natCast (hn : 0 < n) :
    (0 ≤ lastPlace n ∧ 2 ^ (52 + lastPlace n) ≤ (n : ℚ)) ∨ lastPlace n < 0 := by
  have hpos : (0 : ℚ) < n := by exact_mod_cast hn
  have hplace : lastPlace n = max (Int.log 2 (n : ℚ) - 52) (-1074) := rfl
  rcases lt_or_ge (lastPlace n) 0 with hneg | hnonneg
  · exact .inr hneg
  · refine .inl ⟨hnonneg, ?_⟩
    have hlog : 52 + lastPlace n = Int.log 2 (n : ℚ) := by omega
    rw [hlog]
    exact Int.zpow_log_le_self (b := 2) (by norm_num) hpos

/-- If the unit is not above `1`, a natural number is a multiple of it. -/
theorem rounded_of_lastPlace_nonpos (h : lastPlace n ≤ 0) : rounded n = n := by
  obtain ⟨k, hk⟩ : ∃ k : ℕ, lastPlace n = -k := ⟨(-lastPlace n).toNat, by omega⟩
  refine rounded_of_multiple (z := n * 2 ^ k) ?_
  rw [hk, zpow_neg, zpow_natCast]
  push_cast
  field_simp

/-- The rounded value of a natural number is a natural number. -/
theorem rounded_natCast (hn : 0 < n) : ∃ m : ℕ, rounded n = m := by
  have hpos : (0 : ℚ) < n := by exact_mod_cast hn
  rcases le_or_gt (lastPlace n) 0 with hle | hgt
  · exact ⟨n, rounded_of_lastPlace_nonpos hle⟩
  · obtain ⟨k, hk⟩ : ∃ k : ℕ, lastPlace n = k := ⟨(lastPlace n).toNat, by omega⟩
    have hquotient : (0 : ℚ) ≤ n / 2 ^ lastPlace n := div_nonneg hpos.le (unit_pos _).le
    have hround : 0 ≤ roundHalfEven (n / 2 ^ lastPlace n) :=
      (Int.floor_nonneg.mpr hquotient).trans (floor_le_roundHalfEven _)
    obtain ⟨m, hm⟩ := Int.eq_ofNat_of_zero_le hround
    refine ⟨m * 2 ^ k, ?_⟩
    rw [rounded, hm, hk, zpow_natCast]
    push_cast
    rfl

theorem rounded_of_le (hle : n ≤ 2 ^ 53) : rounded n = n := by
  rcases Nat.eq_zero_or_pos n with rfl | hn
  · simp [rounded, roundHalfEven]
  rcases lastPlace_natCast hn with ⟨hnonneg, hbelow⟩ | hneg
  · have hbound : (n : ℚ) ≤ 2 ^ (53 : ℤ) := by exact_mod_cast hle
    have hplace : 52 + lastPlace n ≤ 53 :=
      (zpow_le_zpow_iff_right₀ (by norm_num : (1 : ℚ) < 2)).mp (hbelow.trans hbound)
    rcases hnonneg.lt_or_eq with hpos | hzero
    · -- The unit is 2, so `n` is `2 ^ 53`.
      have hone : lastPlace n = 1 := by omega
      rw [hone] at hbelow
      have heq : (n : ℚ) = 2 ^ (53 : ℤ) := le_antisymm hbound hbelow
      refine rounded_of_multiple (z := 2 ^ 52) ?_
      rw [hone, heq]
      norm_num
    · exact rounded_of_lastPlace_nonpos hzero.ge
  · exact rounded_of_lastPlace_nonpos hneg.le

/-- Every natural number up to `2 ^ 53` is a double. -/
theorem toDouble_natCast (hle : n ≤ 2 ^ 53) : toDouble n = .finite n := by
  rcases Nat.eq_zero_or_pos n with rfl | hn
  · rfl
  · have hpos : (0 : ℚ) < n := by exact_mod_cast hn
    have hsmall : (n : ℚ) < 2 ^ (1024 : ℕ) := by
      have hbound : (n : ℚ) ≤ 2 ^ (53 : ℕ) := by exact_mod_cast hle
      exact hbound.trans_lt (pow_lt_pow_right₀ (by norm_num) (by norm_num))
    rw [toDouble_of_pos hpos, rounded_of_le hle, abs_of_pos hpos, if_neg (not_le.mpr hsmall)]

/-- The double that is nearest to a natural number is a natural number, or infinite. -/
theorem toDouble_natCast_cases (n : ℕ) :
    (∃ m : ℕ, toDouble n = .finite m) ∨ toDouble n = .infinite false := by
  rcases Nat.eq_zero_or_pos n with rfl | hn
  · exact .inl ⟨0, rfl⟩
  · have hpos : (0 : ℚ) < n := by exact_mod_cast hn
    obtain ⟨m, hm⟩ := rounded_natCast hn
    rw [toDouble_of_pos hpos]
    split
    · exact .inr rfl
    · exact .inl ⟨m, congrArg _ hm⟩

/-- A negative integer is rounded to a negative number. -/
theorem toDouble_neg_natCast (hn : 0 < n) :
    toDouble (-n) = .infinite true ∨ ∃ r < 0, toDouble (-n) = .finite r := by
  have hpos : (0 : ℚ) < n := by exact_mod_cast hn
  have hneg : -(n : ℚ) < 0 := neg_neg_of_pos hpos
  have hlog : 0 ≤ Int.log 2 (n : ℚ) := by
    rw [← Int.zpow_le_iff_le_log (by norm_num) hpos, zpow_zero]
    exact_mod_cast hn
  have hplace : lastPlace n ≤ Int.log 2 (n : ℚ) := by
    have hmax : lastPlace n = max (Int.log 2 (n : ℚ) - 52) (-1074) := rfl
    omega
  have hunit : (2 : ℚ) ^ lastPlace n ≤ n :=
    (zpow_le_zpow_right₀ (by norm_num) hplace).trans
      (Int.zpow_log_le_self (b := 2) (by norm_num) hpos)
  have hquotient : -(n : ℚ) / 2 ^ lastPlace n ≤ ((-1 : ℤ) : ℚ) := by
    rw [div_le_iff₀ (unit_pos _)]
    push_cast
    linarith
  have hround := roundHalfEven_mono hquotient
  rw [roundHalfEven_intCast] at hround
  have hresult : (roundHalfEven (-(n : ℚ) / 2 ^ lastPlace n) : ℚ) * 2 ^ lastPlace n < 0 :=
    mul_neg_of_neg_of_pos (Int.cast_lt_zero.mpr (by omega)) (unit_pos _)
  rw [toDouble, if_neg hneg.ne]
  simp only [abs_neg, abs_of_pos hpos, hneg, decide_true]
  split
  · exact .inl rfl
  · exact .inr ⟨_, hresult, rfl⟩

theorem roundHalfEven_of_lt_half {q : ℚ} {z : ℤ} (hle : z ≤ q) (hlt : q < z + 1 / 2) :
    roundHalfEven q = z := by
  have hfloor : ⌊q⌋ = z := Int.floor_eq_iff.mpr ⟨hle, by linarith⟩
  have hfraction : q - z < 1 / 2 := by linarith
  simp only [roundHalfEven, hfloor, if_pos hfraction]

/-- An odd integer and a half is rounded up. -/
theorem roundHalfEven_half {z : ℤ} (hodd : z % 2 ≠ 0) :
    roundHalfEven ((z : ℚ) + 1 / 2) = z + 1 := by
  have hfloor : ⌊(z : ℚ) + 1 / 2⌋ = z := Int.floor_eq_iff.mpr ⟨by linarith, by linarith⟩
  have hfraction : (z : ℚ) + 1 / 2 - z = 1 / 2 := by ring
  simp only [roundHalfEven, hfloor, hfraction, lt_irrefl, if_false, if_neg hodd]

/-- Half the distance from the largest double to `2 ^ 1024`. -/
def halfUnit : ℕ := 2 ^ 970

theorem one_le_halfUnit : (1 : ℚ) ≤ halfUnit := by
  rw [halfUnit, Nat.cast_pow]
  exact one_le_pow₀ (by norm_num)

theorem zpow_eq_halfUnit (k : ℕ) : (2 : ℚ) ^ (970 + k : ℤ) = 2 ^ k * halfUnit := by
  have hexponent : (970 + k : ℤ) = ((k + 970 : ℕ) : ℤ) := by omega
  rw [hexponent, zpow_natCast, pow_add, halfUnit, Nat.cast_pow, Nat.cast_ofNat]

/-- From here on, rounding overflows. -/
def overflowBound : ℕ := (2 ^ 54 - 1) * halfUnit

theorem overflowBound_cast : (overflowBound : ℚ) = (2 ^ 54 - 1) * halfUnit := by
  have hfactor : ((2 ^ 54 - 1 : ℕ) : ℚ) = 2 ^ 54 - 1 := by norm_num
  rw [overflowBound, Nat.cast_mul, hfactor]

theorem overflowBound_pos : 0 < overflowBound := Nat.mul_pos (by norm_num) (by
  have hunit := one_le_halfUnit
  exact_mod_cast hunit)

theorem pred_cast : ((overflowBound - 1 : ℕ) : ℚ) = (2 ^ 54 - 1) * halfUnit - 1 := by
  rw [Nat.cast_sub overflowBound_pos, overflowBound_cast, Nat.cast_one]

/-- A number next to the bound has `2 ^ 971` as its unit. -/
theorem lastPlace_of_bounds {q : ℚ} (hbelow : 2 ^ 53 * halfUnit ≤ q)
    (habove : q < 2 ^ 54 * halfUnit) : lastPlace q = 971 := by
  have hunit := one_le_halfUnit
  have hq : 0 < q := by linarith
  have hlow : 1023 ≤ Int.log 2 q := by
    rw [← Int.zpow_le_iff_le_log (by norm_num) hq]
    exact (zpow_eq_halfUnit 53).le.trans hbelow
  have hhigh : Int.log 2 q < 1024 := by
    rw [← Int.lt_zpow_iff_log_lt (by norm_num) hq]
    exact habove.trans_eq (zpow_eq_halfUnit 54).symm
  have hplace : lastPlace q = max (Int.log 2 q - 52) (-1074) := rfl
  omega

theorem unit_eq : (2 : ℚ) ^ (971 : ℤ) = 2 * halfUnit := by
  have hunit := zpow_eq_halfUnit 1
  rw [pow_one] at hunit
  exact hunit

theorem limit_eq : (2 : ℚ) ^ (1024 : ℕ) = 2 ^ 54 * halfUnit := by
  rw [← zpow_natCast]
  exact zpow_eq_halfUnit 54

theorem toDouble_overflowBound : toDouble overflowBound = .infinite false := by
  have hunit := one_le_halfUnit
  have hplace : lastPlace overflowBound = 971 := by
    apply lastPlace_of_bounds <;> rw [overflowBound_cast] <;> linarith
  have hquotient : (overflowBound : ℚ) / 2 ^ lastPlace overflowBound =
      ((2 ^ 53 - 1 : ℤ) : ℚ) + 1 / 2 := by
    rw [hplace, unit_eq, overflowBound_cast, div_eq_iff (by linarith)]
    push_cast
    ring
  have hlarge : rounded overflowBound = 2 ^ 1024 := by
    rw [rounded, hquotient, roundHalfEven_half (by norm_num), hplace, unit_eq, limit_eq]
    push_cast
    ring
  have hpos : (0 : ℚ) < overflowBound := by exact_mod_cast overflowBound_pos
  rw [toDouble_of_pos hpos, hlarge, abs_of_pos (by positivity), if_pos le_rfl]

theorem toDouble_pred_overflowBound : ∃ r, toDouble (overflowBound - 1 : ℕ) = .finite r := by
  have hunit := one_le_halfUnit
  have hpos : (0 : ℚ) < (overflowBound - 1 : ℕ) := by
    rw [pred_cast]
    linarith
  have hplace : lastPlace (overflowBound - 1 : ℕ) = 971 := by
    apply lastPlace_of_bounds <;> rw [pred_cast] <;> linarith
  have hround : roundHalfEven (((overflowBound - 1 : ℕ) : ℚ) /
      2 ^ lastPlace (overflowBound - 1 : ℕ)) = 2 ^ 53 - 1 := by
    apply roundHalfEven_of_lt_half <;> rw [hplace, unit_eq, pred_cast] <;> push_cast
    · rw [le_div_iff₀ (by linarith)]
      linarith
    · rw [div_lt_iff₀ (by linarith)]
      linarith
  refine ⟨rounded (overflowBound - 1 : ℕ), ?_⟩
  rw [toDouble_of_pos hpos, abs_of_nonneg (rounded_nonneg hpos), if_neg]
  rw [not_le, rounded, hround, hplace, unit_eq, limit_eq]
  push_cast
  linarith

/-- The double that is nearest to a natural number is finite exactly below the bound. -/
theorem toDouble_finite_iff (n : ℕ) : (∃ r, toDouble n = .finite r) ↔ n < overflowBound := by
  rcases Nat.eq_zero_or_pos n with rfl | hn
  · exact iff_of_true ⟨0, rfl⟩ overflowBound_pos
  have hpos : (0 : ℚ) < n := by exact_mod_cast hn
  constructor
  · rintro ⟨r, hr⟩
    by_contra hge
    have hle : (overflowBound : ℚ) ≤ n := by exact_mod_cast Nat.le_of_not_lt hge
    have hbound := (toDouble_mono (by exact_mod_cast overflowBound_pos) hle hr).1
    rw [toDouble_overflowBound] at hbound
    cases hbound
  · intro hlt
    obtain ⟨r, hr⟩ := toDouble_pred_overflowBound
    have hle : (n : ℚ) ≤ (overflowBound - 1 : ℕ) := by exact_mod_cast Nat.le_sub_one_of_lt hlt
    exact ⟨_, (toDouble_mono hpos hle hr).1⟩

end Natural

end ChatMicroservices.DoubleRounding
