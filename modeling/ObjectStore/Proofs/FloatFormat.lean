import Mathlib
import ObjectStore.FloatFormat

/-!
# Narrowed words fit their format

A word that `FloatFormat.narrow?` finds has no bit beyond the width of its format.  Widening keeps
the sign field (`sign_widen`), so the sign field of the narrowed word is that of the 64-bit one,
which is a single bit.

A word that was widened can be narrowed (`narrow?_widen`): `FloatFormat.narrow?` finds a word wherever
there is one.
-/

namespace ObjectStore.FloatFormat

/-- The formats that are read by widening: the fields fit those of 64-bit words. -/
structure Narrow (f : FloatFormat) : Prop where
  exponentBits_lt : f.exponentBits < 11
  fractionBits_le : f.fractionBits ≤ 52

theorem half_narrow : half.Narrow := ⟨by decide, by decide⟩

theorem single_narrow : single.Narrow := ⟨by decide, by decide⟩

theorem fraction_split_lt (f : FloatFormat) (bits : Nat) :
    (f.split bits).fraction < 2 ^ f.fractionBits :=
  Nat.mod_lt _ (Nat.two_pow_pos _)

theorem exponent_split_le (f : FloatFormat) (bits : Nat) : (f.split bits).exponent ≤ f.top :=
  Nat.le_sub_one_of_lt (Nat.mod_lt _ (Nat.two_pow_pos _))

/-- A fraction that is moved up to its place in a 64-bit word fits there. -/
theorem mul_gap_lt {f : FloatFormat} (hf : f.Narrow) {fraction : Nat}
    (h : fraction < 2 ^ f.fractionBits) : fraction * 2 ^ f.gap < 2 ^ 52 := by
  have hgap : f.fractionBits + f.gap = 52 := Nat.add_sub_cancel' hf.fractionBits_le
  calc fraction * 2 ^ f.gap < 2 ^ f.fractionBits * 2 ^ f.gap :=
        Nat.mul_lt_mul_of_pos_right h (Nat.two_pow_pos _)
    _ = 2 ^ 52 := by rw [← pow_add, hgap]

theorem quiet_lt {fraction : Nat} (h : fraction < 2 ^ 52) : quiet fraction < 2 ^ 52 := by
  rw [quiet]
  split <;> omega

/-- The widened fields fit a 64-bit word below its sign. -/
theorem widenFields_lt {f : FloatFormat} (hf : f.Narrow) {p : Fields}
    (hexponent : p.exponent ≤ f.top) (hfraction : p.fraction < 2 ^ f.fractionBits) :
    (f.widenFields p).sign = p.sign ∧ (f.widenFields p).exponent ≤ 2047 ∧
      (f.widenFields p).fraction < 2 ^ 52 := by
  have htop : f.top ≤ 1023 := by
    have : 2 ^ f.exponentBits ≤ 2 ^ 10 :=
      Nat.pow_le_pow_right (by omega) (Nat.le_of_lt_succ hf.exponentBits_lt)
    rw [top]
    omega
  have hbias : double.bias = 1023 := rfl
  rw [widenFields]
  split
  · refine ⟨rfl, le_refl _, ?_⟩
    show (if p.fraction = 0 then 0 else quiet (p.fraction * 2 ^ f.gap)) < 2 ^ 52
    split
    · exact Nat.two_pow_pos 52
    · exact quiet_lt (mul_gap_lt hf hfraction)
  · split
    · refine ⟨rfl, ?_, mul_gap_lt hf hfraction⟩
      show p.exponent + double.bias - f.bias ≤ 2047
      omega
    · -- a zero, or a subnormal number, whose leading one becomes the hidden bit
      split
      · exact ⟨rfl, Nat.zero_le _, Nat.two_pow_pos 52⟩
      · rename_i hzero
        have hlog : p.fraction.log2 < f.fractionBits := (Nat.log2_lt hzero).2 hfraction
        refine ⟨rfl, ?_, ?_⟩
        · show double.bias + 1 + p.fraction.log2 - f.bias - f.fractionBits ≤ 2047
          omega
        · -- without its leading one the fraction is below that one
          have hlow : p.fraction - 2 ^ p.fraction.log2 < 2 ^ p.fraction.log2 := by
            have hupper : p.fraction < 2 ^ (p.fraction.log2 + 1) := Nat.lt_log2_self
            rw [pow_succ] at hupper
            have := Nat.two_pow_pos p.fraction.log2
            omega
          have hsum : p.fraction.log2 + (52 - p.fraction.log2) = 52 := by
            have := hf.fractionBits_le
            omega
          calc (p.fraction - 2 ^ p.fraction.log2) * 2 ^ (52 - p.fraction.log2)
              < 2 ^ p.fraction.log2 * 2 ^ (52 - p.fraction.log2) :=
                Nat.mul_lt_mul_of_pos_right hlow (Nat.two_pow_pos _)
            _ = 2 ^ 52 := by rw [← pow_add, hsum]

/-- **Widening keeps the sign field.** -/
theorem sign_widen {f : FloatFormat} (hf : f.Narrow) (bits : Nat) :
    f.widen bits / 2 ^ 63 = bits / 2 ^ (f.exponentBits + f.fractionBits) := by
  obtain ⟨hsign, hexponent, hfraction⟩ :=
    widenFields_lt hf (exponent_split_le f bits) (fraction_split_lt f bits)
  rw [widen, join, hsign]
  show ((f.split bits).sign * 2 ^ 63 + (f.widenFields (f.split bits)).exponent * 2 ^ 52
    + (f.widenFields (f.split bits)).fraction) / 2 ^ 63 = (f.split bits).sign
  omega

/-- **A narrowed word fits its format**, with one bit for the sign. -/
theorem narrow?_lt {f : FloatFormat} (hf : f.Narrow) {bits narrowed : Nat} (hbits : bits < 2 ^ 64)
    (h : f.narrow? bits = some narrowed) :
    narrowed < 2 ^ (f.exponentBits + f.fractionBits + 1) := by
  have hsign : narrowed / 2 ^ (f.exponentBits + f.fractionBits) = bits / 2 ^ 63 := by
    rw [← sign_widen hf, widen_of_narrow? h]
  have hone : narrowed / 2 ^ (f.exponentBits + f.fractionBits) < 2 := by
    rw [hsign]
    omega
  rw [pow_succ, Nat.mul_comm]
  exact (Nat.div_lt_iff_lt_mul (Nat.two_pow_pos _)).1 hone

/-! ## Widened words are narrowed -/

/-- Formats with a fraction, whose first bit marks a quiet NaN. -/
structure Proper (f : FloatFormat) : Prop extends f.Narrow where
  fractionBits_pos : 0 < f.fractionBits

theorem half_proper : half.Proper := ⟨half_narrow, by decide⟩

theorem single_proper : single.Proper := ⟨single_narrow, by decide⟩

variable {f : FloatFormat} {p : Fields}

/-- Fields that fit a format are those of their word. -/
theorem split_join (hexponent : p.exponent ≤ f.top) (hfraction : p.fraction < 2 ^ f.fractionBits) :
    f.split (f.join p) = p := by
  have hexp : p.exponent < 2 ^ f.exponentBits := by
    have := Nat.two_pow_pos f.exponentBits
    rw [top] at hexponent
    omega
  have hjoin : f.join p
      = p.fraction + (p.exponent + p.sign * 2 ^ f.exponentBits) * 2 ^ f.fractionBits := by
    rw [join, pow_add]
    ring
  have hupper : f.join p / 2 ^ f.fractionBits = p.exponent + p.sign * 2 ^ f.exponentBits := by
    rw [hjoin, Nat.add_mul_div_right _ _ (Nat.two_pow_pos _), Nat.div_eq_of_lt hfraction,
      Nat.zero_add]
  have hsign : f.join p / 2 ^ (f.exponentBits + f.fractionBits) = p.sign := by
    rw [pow_add, Nat.mul_comm, ← Nat.div_div_eq_div_mul, hupper,
      Nat.add_mul_div_right _ _ (Nat.two_pow_pos _), Nat.div_eq_of_lt hexp, Nat.zero_add]
  rw [split, hsign, hupper, Nat.add_mul_mod_self_right, Nat.mod_eq_of_lt hexp, hjoin,
    Nat.add_mul_mod_self_right, Nat.mod_eq_of_lt hfraction]

theorem bias_lt (hf : f.Narrow) : f.bias < 512 ∧ f.top ≤ 1023 := by
  have hexponent : 2 ^ f.exponentBits ≤ 2 ^ 10 :=
    Nat.pow_le_pow_right (by omega) (Nat.le_of_lt_succ hf.exponentBits_lt)
  have hbias : 2 ^ (f.exponentBits - 1) ≤ 2 ^ 9 :=
    Nat.pow_le_pow_right (by omega) (by have := hf.exponentBits_lt; omega)
  rw [bias, top]
  omega

theorem quiet_quiet (fraction : Nat) : quiet (quiet fraction) = quiet fraction := by
  unfold quiet
  split
  · rw [if_neg (by omega)]
  · rfl

/-- The fraction of a quiet NaN is cut off where the format ends, and nothing is lost. -/
theorem quiet_cut (hf : f.Proper) {fraction : Nat} (hfraction : fraction < 2 ^ f.fractionBits) :
    quiet (fraction * 2 ^ f.gap) / 2 ^ f.gap * 2 ^ f.gap = quiet (fraction * 2 ^ f.gap) ∧
      quiet (fraction * 2 ^ f.gap) / 2 ^ f.gap ≠ 0 ∧
      quiet (fraction * 2 ^ f.gap) / 2 ^ f.gap < 2 ^ f.fractionBits := by
  have hgap : f.fractionBits + f.gap = 52 := Nat.add_sub_cancel' hf.fractionBits_le
  -- the bit that marks a quiet NaN is none of those that are cut off
  have hfirst : 0x8000000000000 = 2 ^ (f.fractionBits - 1) * 2 ^ f.gap := by
    have hpos := hf.fractionBits_pos
    have hsum : f.fractionBits - 1 + f.gap = 51 := by omega
    rw [← pow_add, hsum]
    rfl
  have hdvd : 2 ^ f.gap ∣ quiet (fraction * 2 ^ f.gap) := by
    unfold quiet
    split
    · rw [hfirst, ← Nat.add_mul]
      exact Nat.dvd_mul_left _ _
    · exact Nat.dvd_mul_left _ _
  have hcut := Nat.div_mul_cancel hdvd
  refine ⟨hcut, fun hzero => ?_, ?_⟩
  · rw [hzero, Nat.zero_mul, quiet] at hcut
    split at hcut <;> omega
  · refine (Nat.div_lt_iff_lt_mul (Nat.two_pow_pos _)).2 ?_
    rw [← pow_add, hgap]
    exact quiet_lt (mul_gap_lt hf.toNarrow hfraction)

/-- **Fields that are no NaN's** or infinity's are found again when they are widened. -/
theorem narrowFields_widenFields (hf : f.Proper) (hexponent : p.exponent < f.top)
    (hfraction : p.fraction < 2 ^ f.fractionBits) : f.narrowFields (f.widenFields p) = p := by
  obtain ⟨sign, exponent, fraction⟩ := p
  obtain ⟨hbias, htop⟩ := bias_lt hf.toNarrow
  have hwidth := hf.fractionBits_le
  have hdouble : double.bias = 1023 := rfl
  have hdouble' : double.top = 2047 := rfl
  simp only at hexponent hfraction
  rw [widenFields, if_neg hexponent.ne]
  by_cases hnormal : exponent ≠ 0
  · -- the exponent is moved by the difference of the biases, and back
    rw [if_pos hnormal, narrowFields, if_neg (by simp only; omega), if_pos (by simp only; omega)]
    simp only [Nat.mul_div_cancel _ (Nat.two_pow_pos f.gap), Fields.mk.injEq, true_and, and_true]
    omega
  · obtain rfl : exponent = 0 := not_not.1 hnormal
    rw [if_neg hnormal]
    by_cases hzero : fraction = 0
    · subst hzero
      rw [if_pos rfl, narrowFields, if_neg (by simp only; omega), if_neg (by simp only; omega),
        if_pos rfl]
    · -- the leading one tells how far the subnormal fraction was moved
      have hlog : fraction.log2 < f.fractionBits := (Nat.log2_lt hzero).2 hfraction
      have hle : 2 ^ fraction.log2 ≤ fraction := Nat.log2_self_le hzero
      have hk : double.bias + 1 + fraction.log2 - f.bias - f.fractionBits + f.bias + f.fractionBits
          - double.bias - 1 = fraction.log2 := by omega
      rw [if_neg hzero, narrowFields, if_neg (by simp only; omega), if_neg (by simp only; omega),
        if_neg (by simp only; omega)]
      simp only [hk, Nat.mul_div_cancel _ (Nat.two_pow_pos (52 - fraction.log2)),
        Nat.add_sub_cancel' hle]

/-- **Fields that were widened** are narrowed to fields of the format that are widened to the
same. -/
theorem widenFields_narrowFields (hf : f.Proper) (hexponent : p.exponent ≤ f.top)
    (hfraction : p.fraction < 2 ^ f.fractionBits) :
    f.widenFields (f.narrowFields (f.widenFields p)) = f.widenFields p ∧
      (f.narrowFields (f.widenFields p)).exponent ≤ f.top ∧
      (f.narrowFields (f.widenFields p)).fraction < 2 ^ f.fractionBits := by
  rcases hexponent.lt_or_eq with hless | htop
  · rw [narrowFields_widenFields hf hless hfraction]
    exact ⟨rfl, hexponent, hfraction⟩
  · -- an infinity, or a NaN, which is quiet already the second time
    obtain ⟨hcut, hne, hlt⟩ := quiet_cut hf hfraction
    have hwide : f.widenFields p = ⟨p.sign, double.top,
        if p.fraction = 0 then 0 else quiet (p.fraction * 2 ^ f.gap)⟩ := by
      rw [widenFields, if_pos htop]
    have hnarrow : f.narrowFields (f.widenFields p) = ⟨p.sign, f.top,
        (if p.fraction = 0 then 0 else quiet (p.fraction * 2 ^ f.gap)) / 2 ^ f.gap⟩ := by
      rw [hwide, narrowFields, if_pos rfl]
    rw [hnarrow, hwide, widenFields, if_pos rfl]
    by_cases hzero : p.fraction = 0
    · simp only [if_pos hzero, Nat.zero_div, if_true]
      exact ⟨trivial, le_refl _, Nat.two_pow_pos _⟩
    · simp only [if_neg hzero, if_neg hne, hcut, quiet_quiet]
      exact ⟨trivial, le_refl _, hlt⟩

/-- **A word that was widened can be narrowed.** -/
theorem narrow?_widen (hf : f.Proper) (bits : Nat) : f.narrow? (f.widen bits) ≠ none := by
  have hexponent := exponent_split_le f bits
  have hfraction := fraction_split_lt f bits
  obtain ⟨-, hwide, hwide'⟩ := widenFields_lt hf.toNarrow hexponent hfraction
  obtain ⟨hsame, hfits, hfits'⟩ := widenFields_narrowFields hf hexponent hfraction
  have hsplit : double.split (f.widen bits) = f.widenFields (f.split bits) := split_join hwide hwide'
  have hwiden : f.widen (f.join (f.narrowFields (double.split (f.widen bits)))) = f.widen bits := by
    rw [hsplit, widen, split_join hfits hfits', hsame, ← widen]
  rw [narrow?]
  simp only [hwiden, if_true]
  exact Option.some_ne_none _

end ObjectStore.FloatFormat
