import Mathlib
import ReactiveView.Proofs.Value.Equal

/-!
This module contains what the conversion of integers to floats does: a 64-bit integer becomes the
nearest float, a tie going to the even significand. It follows that the conversion keeps the order
of integers, although it may take different integers to the same float.

A float that comes from an integer is a multiple of `2 ^ -53`, which is the unit here.
-/

namespace ReactiveView

namespace Rounding

open Float.Model (UnpackedFloat Format totalExponent)
open Float.Model.UnpackedFloat

/-! ### Rounding to a multiple of a power of two -/

/-- `n / 2 ^ k` rounded to the nearest integer, a tie to the even one. -/
def nearest (n k : Nat) : Nat :=
  if 2 * (n % 2 ^ k) < 2 ^ k then n / 2 ^ k
  else if 2 * (n % 2 ^ k) = 2 ^ k then n / 2 ^ k + n / 2 ^ k % 2
  else n / 2 ^ k + 1

theorem nearest_bounds (n k : Nat) : n / 2 ^ k ≤ nearest n k ∧ nearest n k ≤ n / 2 ^ k + 1 := by
  unfold nearest
  split
  · omega
  · split <;> omega

theorem nearest_mul (q k : Nat) : nearest (q * 2 ^ k) k = q := by
  unfold nearest
  rw [Nat.mul_mod_left, Nat.mul_zero, if_pos (Nat.two_pow_pos k),
    Nat.mul_div_cancel _ (Nat.two_pow_pos k)]

theorem nearest_mono {n n' : Nat} (k : Nat) (h : n ≤ n') : nearest n k ≤ nearest n' k := by
  rcases Nat.eq_or_lt_of_le (Nat.div_le_div_right (c := 2 ^ k) h) with hq | hq
  · have hr : n % 2 ^ k ≤ n' % 2 ^ k := by
      have hn := Nat.div_add_mod n (2 ^ k)
      have hn' := Nat.div_add_mod n' (2 ^ k)
      rw [← hq] at hn'
      omega
    unfold nearest
    rw [← hq]
    split <;> split <;> (try split) <;> (try split) <;> omega
  · have hupper := (nearest_bounds n k).2
    have hlower := (nearest_bounds n' k).1
    omega

/-- What is left of a significand after `k` shifts: the bit shifted out last, and whether there was
any other one. -/
def shifted (n k : Nat) : ExtendedMantissa :=
  ⟨n / 2 ^ k, decide (2 ^ k ≤ 2 * (n % 2 ^ k)), 2 * (n % 2 ^ k) % 2 ^ k != 0⟩

theorem shiftRight_eq_shifted (n k : Nat) :
    ExtendedMantissa.ofMantissaAndAccuracy n .exact >>> k = shifted n k := by
  change Nat.repeat ExtendedMantissa.shiftRightOne k ⟨n, false, false⟩ = shifted n k
  induction k with
  | zero =>
    have hmod : n % 2 ^ 0 = 0 := Nat.mod_one n
    unfold shifted
    rw [hmod, Nat.pow_zero, Nat.div_one]
    rfl
  | succ k ih =>
    have hlt : n % 2 ^ k < 2 ^ k := Nat.mod_lt _ (Nat.two_pow_pos k)
    have hpow : 2 ^ (k + 1) = 2 * 2 ^ k := by rw [Nat.pow_succ, Nat.mul_comm]
    have hdiv : n / 2 ^ (k + 1) = n / 2 ^ k / 2 := by rw [Nat.div_div_eq_div_mul, Nat.pow_succ]
    have hmod : n % 2 ^ (k + 1) = n % 2 ^ k + 2 ^ k * (n / 2 ^ k % 2) := Nat.mod_pow_succ
    have hlow : 2 * (n % 2 ^ (k + 1)) % 2 ^ (k + 1) = 2 * (n % 2 ^ k) := by
      rw [hmod, hpow, Nat.mul_mod_mul_left, Nat.add_mul_mod_self_left, Nat.mod_eq_of_lt hlt]
    have hround : decide (2 ^ (k + 1) ≤ 2 * (n % 2 ^ (k + 1))) = (n / 2 ^ k % 2 != 0) := by
      rw [Bool.eq_iff_iff, decide_eq_true_iff, bne_iff_ne, hmod, hpow]
      rcases Nat.mod_two_eq_zero_or_one (n / 2 ^ k) with h | h <;> rw [h] <;> omega
    have hsticky : (2 * (n % 2 ^ k) != 0) =
        (decide (2 ^ k ≤ 2 * (n % 2 ^ k)) || 2 * (n % 2 ^ k) % 2 ^ k != 0) := by
      rw [Bool.eq_iff_iff, Bool.or_eq_true, decide_eq_true_iff, bne_iff_ne, bne_iff_ne]
      rcases Nat.lt_or_ge (2 * (n % 2 ^ k)) (2 ^ k) with h | h
      · rw [Nat.mod_eq_of_lt h]
        omega
      · exact ⟨fun _ => .inl h, fun _ => by omega⟩
    rw [Nat.repeat, ih]
    unfold shifted
    rw [hlow, hdiv, hround, hsticky]
    rfl

theorem roundedMantissa_shifted (n k : Nat) : (shifted n k).roundedMantissa = nearest n k := by
  have hlt : n % 2 ^ k < 2 ^ k := Nat.mod_lt _ (Nat.two_pow_pos k)
  unfold nearest shifted
  rcases Nat.lt_trichotomy (2 * (n % 2 ^ k)) (2 ^ k) with hless | hhalf | hmore
  · rw [if_pos hless, decide_eq_false (Nat.not_le.2 hless)]
    cases 2 * (n % 2 ^ k) % 2 ^ k != 0 <;> rfl
  · rw [if_neg (by omega), if_pos hhalf, hhalf, decide_eq_true (Nat.le_refl _), Nat.mod_self]
    rfl
  · have hrest : 2 * (n % 2 ^ k) % 2 ^ k ≠ 0 := by
      rw [Nat.mod_eq_sub_mod (Nat.le_of_lt hmore), Nat.mod_eq_of_lt (by omega)]
      omega
    rw [if_neg (by omega), if_neg (by omega), decide_eq_true (Nat.le_of_lt hmore),
      bne_iff_ne.2 hrest]
    rfl

/-! ### The significand of 53 bits -/

variable {sign : Sign} {m n k : Nat} {e : Int}

/-- The exponent that a significand of `53 + k` bits is brought to. -/
theorem targetExponent_of_log2 (hlog : n.log2 = 52 + k) (he : -1074 ≤ e + k) :
    Format.binary64.targetExponent (totalExponent n e) = e + k := by
  simp only [Format.targetExponent, totalExponent, hlog, Format.mantissaBits, Format.minExponent]
  omega

theorem shiftToTargetExponent_of_log2 (hlog : n.log2 = 52 + k) (he : -1074 ≤ e + k) :
    shiftToTargetExponent .binary64 n e .exact = (shifted n k, e + k) := by
  have hamount : (e + k - e).toNat = k := by omega
  unfold shiftToTargetExponent shiftToExponent
  simp only [targetExponent_of_log2 hlog he, hamount, shiftRight_eq_shifted]

theorem nearest_mem (hlog : n.log2 = 52 + k) : 2 ^ 52 ≤ nearest n k ∧ nearest n k ≤ 2 ^ 53 := by
  have hn : n ≠ 0 := by
    rintro rfl
    rw [Nat.log2_zero] at hlog
    omega
  obtain ⟨hlower, hupper⟩ := (Nat.log2_eq_iff hn).1 hlog
  have hq : 2 ^ 52 ≤ n / 2 ^ k ∧ n / 2 ^ k < 2 ^ 53 := by
    rw [Nat.le_div_iff_mul_le (Nat.two_pow_pos k), Nat.div_lt_iff_lt_mul (Nat.two_pow_pos k),
      ← Nat.pow_add, ← Nat.pow_add]
    exact ⟨hlower, by rwa [Nat.add_right_comm] at hupper⟩
  have hbounds := nearest_bounds n k
  omega

theorem roundWithAccuracy_eq_finite {e₁ e₂ : Int} {em em' : ExtendedMantissa} (sign : Sign)
    (hfirst : shiftToTargetExponent .binary64 n e .exact = (em, e₁))
    (hsecond : shiftToTargetExponent .binary64 em.roundedMantissa e₁ .exact = (em', e₂))
    (hpos : 0 < em'.mantissa) :
    roundWithAccuracy .binary64 sign n e .exact = .finite sign em'.mantissa e₂ hpos := by
  unfold roundWithAccuracy
  simp only [hfirst, hsecond]
  exact dif_neg (Nat.ne_of_gt hpos)

/-- A significand with at least 53 bits is rounded to 53 bits, and where that gives one bit more,
the exponent grows once more. -/
theorem roundWithAccuracy_of_log2 (sign : Sign) (hlog : n.log2 = 52 + k) (he : -1074 ≤ e + k) :
    ∃ m e' h, roundWithAccuracy .binary64 sign n e .exact = .finite sign m e' h ∧
      2 ^ 52 ≤ m ∧ m < 2 ^ 53 ∧ e + k ≤ e' ∧ e' ≤ e + k + 1 ∧
      m * 2 ^ (e' - (e + k)).toNat = nearest n k := by
  obtain ⟨hlower, hupper⟩ := nearest_mem hlog
  have hfirst := shiftToTargetExponent_of_log2 hlog he
  rcases Nat.lt_or_eq_of_le hupper with hlt | heq
  · have hfits : (nearest n k).log2 = 52 + 0 := (Nat.log2_eq_iff (by omega)).2 ⟨hlower, hlt⟩
    have hkept : (shifted (nearest n k) 0).mantissa = nearest n k := Nat.div_one _
    have hsecond := shiftToTargetExponent_of_log2 (e := e + k) hfits (by omega)
    rw [← roundedMantissa_shifted] at hsecond
    refine ⟨_, _, _, roundWithAccuracy_eq_finite sign hfirst hsecond ?_, ?_⟩ <;>
      rw [roundedMantissa_shifted, hkept]
    · omega
    · refine ⟨hlower, hlt, by omega, by omega, ?_⟩
      rw [show (e + k + (0 : Nat) - (e + k)).toNat = 0 by omega, Nat.pow_zero, Nat.mul_one]
  · have hfits : (nearest n k).log2 = 52 + 1 := by rw [heq]; rfl
    have hhalf : (shifted (nearest n k) 1).mantissa = 2 ^ 52 := by rw [heq]; rfl
    have hsecond := shiftToTargetExponent_of_log2 (e := e + k) hfits (by omega)
    rw [← roundedMantissa_shifted] at hsecond
    refine ⟨_, _, _, roundWithAccuracy_eq_finite sign hfirst hsecond ?_, ?_⟩ <;>
      rw [roundedMantissa_shifted, hhalf]
    · decide
    · refine ⟨Nat.le_refl _, by decide, by omega, by omega, ?_⟩
      rw [show (e + k + (1 : Nat) - (e + k)).toNat = 1 by omega]
      exact heq.symm

theorem log2_mul_two_pow (h : 0 < n) (k : Nat) : (n * 2 ^ k).log2 = n.log2 + k := by
  have hn := (Nat.log2_eq_iff (Nat.ne_of_gt h)).1 rfl
  have hpos := Nat.two_pow_pos k
  refine (Nat.log2_eq_iff (Nat.ne_of_gt (Nat.mul_pos h hpos))).2 ⟨?_, ?_⟩
  · rw [Nat.pow_add]
    exact Nat.mul_le_mul_right _ hn.1
  · rw [Nat.add_right_comm, Nat.pow_add]
    exact Nat.mul_lt_mul_of_pos_right hn.2 hpos

theorem log2_eq (hlower : 2 ^ 52 ≤ m) (hupper : m < 2 ^ 53) : m.log2 = 52 :=
  (Nat.log2_eq_iff (by omega)).2 ⟨hlower, hupper⟩

/-- A significand of 53 bits with zeros behind it only loses the zeros. -/
theorem roundWithAccuracy_mul_two_pow (sign : Sign) (h : 0 < m) (hlower : 2 ^ 52 ≤ m)
    (hupper : m < 2 ^ 53) (he : -1074 ≤ e) (k : Nat) :
    roundWithAccuracy .binary64 sign (m * 2 ^ k) (e - k) .exact = .finite sign m e h := by
  have hlog : (m * 2 ^ k).log2 = 52 + k := by rw [log2_mul_two_pow h, log2_eq hlower hupper]
  obtain ⟨m', e', h', hround, hlower', -, hleast, hgreatest, hvalue⟩ :=
    roundWithAccuracy_of_log2 (e := e - k) sign hlog (by omega)
  rw [nearest_mul, Int.sub_add_cancel] at hvalue
  rcases (by omega : e' = e ∨ e' = e + 1) with rfl | rfl
  · rw [Int.sub_self, Int.toNat_zero, Nat.pow_zero, Nat.mul_one] at hvalue
    subst hvalue
    exact hround
  · rw [show (e + 1 - e).toNat = 1 by omega, Nat.pow_one] at hvalue
    omega

/-! ### What a float stands for -/

/-- A float in normal form that stands for the integer `z`, counted in units of `2 ^ -53`. -/
inductive Stands : UnpackedFloat → Int → Prop
  | zero (sign : Sign) : Stands (.zero sign) 0
  | finite (sign : Sign) {m : Nat} {e : Int} (h : 0 < m) (hlower : 2 ^ 52 ≤ m) (hupper : m < 2 ^ 53)
    (hleast : -53 ≤ e) (hgreatest : e ≤ 971) :
    Stands (.finite sign m e h) (sign.apply (m * 2 ^ (e + 53).toNat : Nat))

theorem unpackSign_packComponents (sign : Sign) (exponent : BitVec 11) (fraction : BitVec 52) :
    Sign.ofBitVec (unpackSign (packComponents .binary64 sign exponent fraction)) = sign := by
  have hsign : unpackSign (packComponents .binary64 sign exponent fraction) = sign.toBitVec := by
    change (sign.toBitVec ++ exponent ++ fraction).extractLsb' 63 1 = sign.toBitVec
    rw [BitVec.extractLsb'_append_eq_of_le (by decide),
      BitVec.extractLsb'_append_eq_of_le (by decide)]
    exact BitVec.extractLsb'_eq_self
  rw [hsign]
  cases sign <;> rfl

theorem toNat_one_append (hlower : 2 ^ 52 ≤ m) (hupper : m < 2 ^ 53) :
    (1#1 ++ BitVec.ofNat 52 m).toNat = m := by
  rw [BitVec.toNat_append, ← Nat.shiftLeft_add_eq_or_of_lt (BitVec.isLt _), BitVec.toNat_ofNat,
    BitVec.toNat_ofNat, Nat.shiftLeft_eq]
  omega

/-- Packing loses nothing. -/
theorem Stands.unpack_pack {u : UnpackedFloat} {z : Int} (h : Stands u z) :
    unpack .binary64 (pack .binary64 u) = u := by
  cases h with
  | zero sign => cases sign <;> rfl
  | @finite sign m e h hlower hupper hleast hgreatest =>
    have hlog : m.log2 + 1 = Format.binary64.mantissaBits :=
      congrArg (· + 1) (log2_eq hlower hupper)
    have hbiased : (e + Format.binary64.exponentBias +
        Format.binary64.mantissaBitsWithoutImplicit).toNat = (e + 1075).toNat := by
      change (e + (1023 : Nat) + (52 : Nat)).toNat = (e + 1075).toNat
      omega
    have hexponent : (BitVec.ofNat 11 (e + 1075).toNat).toNat = (e + 1075).toNat := by
      rw [BitVec.toNat_ofNat]
      omega
    have hfinite : BitVec.ofNat 11 (e + 1075).toNat ≠ -1#11 := by
      rw [Ne, ← BitVec.toNat_inj, hexponent]
      change ¬(e + 1075).toNat = 2047
      omega
    have hnormal : BitVec.ofNat 11 (e + 1075).toNat ≠ 0#11 := by
      rw [Ne, ← BitVec.toNat_inj, hexponent]
      change ¬(e + 1075).toNat = 0
      omega
    have hpack : pack .binary64 (.finite sign m e h) =
        packComponents .binary64 sign (BitVec.ofNat 11 (e + 1075).toNat) (BitVec.ofNat 52 m) := by
      unfold pack
      simp only [hbiased]
      rw [if_neg (by omega), if_pos hlog]
    rw [hpack]
    unfold unpack
    simp only [unpackMantissa_packComponents, unpackExponent_packComponents,
      unpackSign_packComponents]
    rw [if_neg hfinite, if_neg hnormal]
    have hbias : ((BitVec.ofNat 11 (e + 1075).toNat).toNat : Int) -
        (Format.binary64.exponentBias + Format.binary64.mantissaBitsWithoutImplicit) = e := by
      rw [hexponent]
      change ((e + 1075).toNat : Int) - ((1023 : Nat) + (52 : Nat)) = e
      omega
    simp only [hbias, toNat_one_append hlower hupper]

theorem Stands.isNaN_eq_false {u : UnpackedFloat} {z : Int} (h : Stands u z) :
    u.isNaN = false := by
  cases h <;> rfl

theorem Stands.neg {u : UnpackedFloat} {z : Int} (h : Stands u z) : Stands u.neg (-z) := by
  cases h with
  | zero sign => exact .zero _
  | @finite sign m e h hlower hupper hleast hgreatest =>
    have happly : -(sign.apply (m * 2 ^ (e + 53).toNat : Nat)) =
        (-sign).apply (m * 2 ^ (e + 53).toNat : Nat) := by
      cases sign
      · exact Int.neg_neg _
      · rfl
    rw [happly]
    exact .finite _ h hlower hupper hleast hgreatest

/-- Of two significands of 53 bits the one with the greater exponent is the greater number. -/
theorem compare_scaled {m m' a a' : Nat} (hlower : 2 ^ 52 ≤ m) (hupper : m < 2 ^ 53)
    (hlower' : 2 ^ 52 ≤ m') (hupper' : m' < 2 ^ 53) :
    compare (m * 2 ^ a) (m' * 2 ^ a') = (compare a a').then (compare m m') := by
  have hless {m m' a a' : Nat} (hupper : m < 2 ^ 53) (hlower : 2 ^ 52 ≤ m') (h : a < a') :
      m * 2 ^ a < m' * 2 ^ a' :=
    calc m * 2 ^ a < 2 ^ 53 * 2 ^ a := Nat.mul_lt_mul_of_pos_right hupper (Nat.two_pow_pos a)
      _ = 2 ^ 52 * 2 ^ (a + 1) := by omega
      _ ≤ 2 ^ 52 * 2 ^ a' := Nat.mul_le_mul_left _ (Nat.pow_le_pow_right (by decide) h)
      _ ≤ m' * 2 ^ a' := Nat.mul_le_mul_right _ hlower
  rcases Nat.lt_trichotomy a a' with h | rfl | h
  · rw [Nat.compare_eq_lt.2 h, Nat.compare_eq_lt.2 (hless hupper hlower' h)]
    rfl
  · have hpos := Nat.two_pow_pos a
    rw [Nat.compare_eq_eq.2 rfl]
    rcases Nat.lt_trichotomy m m' with hm | rfl | hm
    · rw [Nat.compare_eq_lt.2 hm, Nat.compare_eq_lt.2 (Nat.mul_lt_mul_of_pos_right hm hpos)]
      rfl
    · rw [Nat.compare_eq_eq.2 rfl, Nat.compare_eq_eq.2 rfl]
      rfl
    · rw [Nat.compare_eq_gt.2 hm, Nat.compare_eq_gt.2 (Nat.mul_lt_mul_of_pos_right hm hpos)]
      rfl
  · rw [Nat.compare_eq_gt.2 h, Nat.compare_eq_gt.2 (hless hupper' hlower h)]
    rfl

theorem compare_natCast (a b : Nat) : compare (a : Int) (b : Int) = compare a b := by
  rcases Nat.lt_trichotomy a b with h | rfl | h
  · rw [Nat.compare_eq_lt.2 h, Int.compare_eq_lt.2 (Int.ofNat_lt.2 h)]
  · rw [Nat.compare_eq_eq.2 rfl, Int.compare_eq_eq.2 rfl]
  · rw [Nat.compare_eq_gt.2 h, Int.compare_eq_gt.2 (Int.ofNat_lt.2 h)]

theorem compare_neg (a b : Int) : compare (-a) (-b) = (compare a b).swap := by
  rw [Int.compare_swap]
  rcases Int.lt_trichotomy a b with h | rfl | h
  · rw [Int.compare_eq_gt.2 (Int.neg_lt_neg h), Int.compare_eq_gt.2 h]
  · rw [Int.compare_eq_eq.2 rfl, Int.compare_eq_eq.2 rfl]
  · rw [Int.compare_eq_lt.2 (Int.neg_lt_neg h), Int.compare_eq_lt.2 h]

theorem compare_add (a b c : Int) : compare (a + c) (b + c) = compare a b := by
  rcases Int.lt_trichotomy a b with h | rfl | h
  · rw [Int.compare_eq_lt.2 (Int.add_lt_add_right h c), Int.compare_eq_lt.2 h]
  · rw [Int.compare_eq_eq.2 rfl, Int.compare_eq_eq.2 rfl]
  · rw [Int.compare_eq_gt.2 (Int.add_lt_add_right h c), Int.compare_eq_gt.2 h]

/-- The order of floats is that of what they stand for. -/
theorem Stands.compare_eq {u u' : UnpackedFloat} {z z' : Int} (h : Stands u z)
    (h' : Stands u' z') : u.compare u' = some (compare z z') := by
  have hpos {m a : Nat} (h : 0 < m) : (0 : Int) < (m * 2 ^ a : Nat) :=
    Int.natCast_pos.2 (Nat.mul_pos h (Nat.two_pow_pos a))
  cases h with
  | zero sign =>
    cases h' with
    | zero => rfl
    | finite sign' h' =>
      cases sign'
      · exact congrArg some (Int.compare_eq_gt.2 (Int.neg_neg_of_pos (hpos h'))).symm
      · exact congrArg some (Int.compare_eq_lt.2 (hpos h')).symm
  | @finite sign m e h hlower hupper hleast =>
    cases h' with
    | zero =>
      cases sign
      · exact congrArg some (Int.compare_eq_lt.2 (Int.neg_neg_of_pos (hpos h))).symm
      · exact congrArg some (Int.compare_eq_gt.2 (hpos h)).symm
    | @finite sign' m' e' h' hlower' hupper' hleast' =>
      have hexponent : compare e e' = compare (e + 53).toNat (e' + 53).toNat := by
        rw [← compare_natCast, Int.toNat_of_nonneg (by omega), Int.toNat_of_nonneg (by omega),
          compare_add]
      have hscaled : compare ((m * 2 ^ (e + 53).toNat : Nat) : Int) (m' * 2 ^ (e' + 53).toNat : Nat)
          = (compare e e').then (compare m m') := by
        rw [compare_natCast, compare_scaled hlower hupper hlower' hupper', hexponent]
      cases sign <;> cases sign'
      · exact congrArg some ((congrArg Ordering.swap hscaled.symm).trans (compare_neg _ _).symm)
      · exact congrArg some (Int.compare_eq_lt.2
          (Int.lt_trans (Int.neg_neg_of_pos (hpos h)) (hpos h'))).symm
      · exact congrArg some (Int.compare_eq_gt.2
          (Int.lt_trans (Int.neg_neg_of_pos (hpos h')) (hpos h))).symm
      · exact congrArg some hscaled.symm

/-! ### The conversion -/

/-- What the float of a natural number stands for: the number itself, rounded to 53 bits. -/
def units (n : Nat) : Nat := nearest (n * 2 ^ 53) (n.log2 + 1) * 2 ^ (n.log2 + 1)

/-- What the float of an integer stands for. -/
def intUnits : Int → Int
  | .ofNat n => units n
  | .negSucc n => -units (n + 1)

/-- A number of at most 53 bits stands for itself. -/
theorem units_of_lt (h : n < 2 ^ 53) : units n = n * 2 ^ 53 := by
  have hlog : n.log2 + 1 ≤ 53 := by
    rcases Nat.eq_zero_or_pos n with rfl | hpos
    · decide
    · exact (Nat.log2_lt (Nat.ne_of_gt hpos)).2 h
  have hexact : n * 2 ^ 53 = n * 2 ^ (53 - (n.log2 + 1)) * 2 ^ (n.log2 + 1) := by
    rw [Nat.mul_assoc, ← Nat.pow_add, Nat.sub_add_cancel hlog]
  unfold units
  rw [hexact, nearest_mul]

/-- Rounding keeps the order: where two numbers have equally many bits, because rounding to one
multiple does, and where they do not, because the power of two between them is a float. -/
theorem units_mono {n n' : Nat} (h : n ≤ n') : units n ≤ units n' := by
  rcases Nat.eq_zero_or_pos n with rfl | hpos
  · rw [units_of_lt (by decide), Nat.zero_mul]
    exact Nat.zero_le _
  · have hpos' : 0 < n' := Nat.lt_of_lt_of_le hpos h
    have hlog (i : Nat) (hi : 0 < i) : (i * 2 ^ 53).log2 = 52 + (i.log2 + 1) := by
      rw [log2_mul_two_pow hi]
      omega
    have hle : n.log2 ≤ n'.log2 :=
      (Nat.le_log2 (Nat.ne_of_gt hpos')).2 (Nat.le_trans (Nat.log2_self_le (Nat.ne_of_gt hpos)) h)
    unfold units
    rcases Nat.eq_or_lt_of_le hle with heq | hlt
    · rw [← heq]
      exact Nat.mul_le_mul_right _ (nearest_mono _ (Nat.mul_le_mul_right _ h))
    · calc nearest (n * 2 ^ 53) (n.log2 + 1) * 2 ^ (n.log2 + 1)
          ≤ 2 ^ 53 * 2 ^ (n.log2 + 1) := Nat.mul_le_mul_right _ (nearest_mem (hlog n hpos)).2
        _ = 2 ^ 52 * 2 ^ (n.log2 + 1 + 1) := by omega
        _ ≤ 2 ^ 52 * 2 ^ (n'.log2 + 1) :=
          Nat.mul_le_mul_left _ (Nat.pow_le_pow_right (by decide) (by omega))
        _ ≤ _ := Nat.mul_le_mul_right _ (nearest_mem (hlog n' hpos')).1

theorem intUnits_mono {i j : Int} (h : i ≤ j) : intUnits i ≤ intUnits j := by
  cases i with
  | ofNat n =>
    cases j with
    | ofNat n' => exact Int.ofNat_le.2 (units_mono (Int.ofNat_le.1 h))
    | negSucc n' =>
      exact absurd (Int.lt_of_le_of_lt h (Int.negSucc_lt_zero n')) (Int.not_lt.2 (Int.natCast_nonneg n))
  | negSucc n =>
    cases j with
    | ofNat n' =>
      exact Int.le_trans (Int.neg_nonpos_of_nonneg (Int.natCast_nonneg _)) (Int.natCast_nonneg _)
    | negSucc n' => exact Int.neg_le_neg (Int.ofNat_le.2 (units_mono (by omega)))

/-- Multiplication by one leaves what a float stands for. -/
theorem Stands.mul_one {u : UnpackedFloat} {z : Int} (h : Stands u z) :
    Stands (mul .binary64 u (.finite .positive (2 ^ 52) (-52) (by decide))) z := by
  cases h with
  | zero sign => exact .zero _
  | @finite sign m e h hlower hupper hleast hgreatest =>
    have hsign : sign * .positive = sign := by cases sign <;> rfl
    change Stands (roundWithAccuracy .binary64 (sign * .positive) (m * 2 ^ 52) (e + -52) .exact) _
    rw [hsign, ← Int.sub_eq_add_neg]
    rw [show e - 52 = e - (52 : Nat) from rfl,
      roundWithAccuracy_mul_two_pow sign h hlower hupper (by omega)]
    exact .finite sign h hlower hupper hleast hgreatest

/-- A number of at most 53 bits is brought to 53 bits. -/
theorem stands_normalize (h : n < 2 ^ 53) :
    Stands (UnpackedFloat.normalize .binary64 n 0 .positive) (n * 2 ^ 53 : Nat) := by
  rcases Nat.eq_zero_or_pos n with rfl | hpos
  · exact .zero _
  · obtain ⟨hleast, hgreatest⟩ := (Nat.log2_eq_iff (Nat.ne_of_gt hpos)).1 rfl
    have hlog : n.log2 < 53 := (Nat.log2_lt (Nat.ne_of_gt hpos)).2 h
    have hm : 0 < n * 2 ^ (52 - n.log2) := Nat.mul_pos hpos (Nat.two_pow_pos _)
    have hbits : (n * 2 ^ (52 - n.log2)).log2 = 52 := by
      rw [log2_mul_two_pow hpos]
      omega
    obtain ⟨hlower, hupper⟩ := (Nat.log2_eq_iff (Nat.ne_of_gt hm)).1 hbits
    have htarget : Format.binary64.targetExponent (totalExponent n 0) = n.log2 - 52 := by
      simp only [Format.targetExponent, totalExponent, Format.mantissaBits, Format.minExponent]
      omega
    have hround : UnpackedFloat.normalize .binary64 n 0 .positive =
        .finite .positive (n * 2 ^ (52 - n.log2)) (n.log2 - 52) hm := by
      unfold UnpackedFloat.normalize
      rw [Int.compare_eq_gt.2 (Int.natCast_pos.2 hpos)]
      simp only [UnpackedFloat.round, decreaseExponent, htarget, Int.toNat_natCast,
        Nat.shiftLeft_eq]
      rw [show (0 - ((n.log2 : Int) - 52)).toNat = 52 - n.log2 by omega,
        show (0 : Int) - (52 - n.log2 : Nat) = (n.log2 - 52 : Int) - (0 : Nat) by omega]
      have hexact := roundWithAccuracy_mul_two_pow (e := n.log2 - 52) .positive hm hlower hupper
        (by omega) 0
      rwa [Nat.pow_zero, Nat.mul_one] at hexact
    have hvalue : n * 2 ^ (52 - n.log2) * 2 ^ ((n.log2 : Int) - 52 + 53).toNat = n * 2 ^ 53 := by
      rw [Nat.mul_assoc, ← Nat.pow_add]
      congr 2
      omega
    rw [hround, ← hvalue]
    exact .finite .positive hm hlower hupper (by omega) (by omega)

/-- A number of more bits is rounded. -/
theorem stands_ofScientific (hlower : 2 ^ 53 ≤ n) (hupper : n < 2 ^ 64) :
    Stands (ofScientific .binary64 n 0) (units n) := by
  have hpos : 0 < n := by omega
  have hlog : (n * 2 ^ 53).log2 = 52 + (n.log2 + 1) := by
    rw [log2_mul_two_pow hpos]
    omega
  have hbits : n.log2 < 64 := (Nat.log2_lt (Nat.ne_of_gt hpos)).2 hupper
  obtain ⟨m, e, h, hround, hm, hm', hleast, hgreatest, hvalue⟩ :=
    roundWithAccuracy_of_log2 (e := -53) .positive hlog (by omega)
  have hscientific : ofScientific .binary64 n 0 = .finite .positive m e h := by
    have hbig : ¬(0 : Int) > 2 ^ Format.binary64.exponentBits := by decide
    have hsmall : ¬(0 : Int) < -((2 ^ Format.binary64.exponentBits : Int) + n.log2) := by
      change ¬(0 : Int) < -((2 ^ 11 : Int) + n.log2)
      omega
    unfold ofScientific
    rw [dif_neg (Nat.ne_of_gt hpos), if_neg hbig, if_neg hsmall, if_pos (Int.le_refl 0)]
    change roundWithAccuracy .binary64 .positive (n <<< 53 * 1) (-53) .exact = _
    rwa [Nat.mul_one, Nat.shiftLeft_eq]
  have hunits : units n = m * 2 ^ (e + 53).toNat := by
    unfold units
    rw [← hvalue, Nat.mul_assoc, ← Nat.pow_add]
    congr 2
    omega
  rw [hscientific, hunits]
  exact .finite .positive h hm hm' (by omega) (by omega)

theorem stands_ofNat (h : n < 2 ^ 64) : Stands (Float.ofNat n).toModel.unpack (units n) := by
  change Stands (Float.ofScientific n false 0).toModel.unpack (units n)
  unfold Float.ofScientific
  by_cases hsmall : n < 2 ^ 53
  · rw [dif_pos ⟨hsmall, by decide⟩, units_of_lt hsmall]
    have hnormal := stands_normalize hsmall
    have hconvert : n.toUInt64.toFloat.toModel.unpack =
        UnpackedFloat.normalize .binary64 n 0 .positive := by
      have hword : n.toUInt64.toNat = n := Nat.mod_eq_of_lt h
      change unpack .binary64 (pack .binary64
        (UnpackedFloat.normalize .binary64 n.toUInt64.toNat 0 .positive)) = _
      rw [hword, hnormal.unpack_pack]
    have hone : Float.exactlyRepresentablePowersOfTen[0].toModel.unpack =
        .finite .positive (2 ^ 52) (-52) (by decide) := rfl
    change Stands (unpack .binary64 (pack .binary64 (mul .binary64
      n.toUInt64.toFloat.toModel.unpack
      Float.exactlyRepresentablePowersOfTen[0].toModel.unpack))) _
    rw [hconvert, hone, hnormal.mul_one.unpack_pack]
    exact hnormal.mul_one
  · rw [dif_neg (fun hsmall' => hsmall hsmall'.1)]
    have hstands := stands_ofScientific (Nat.not_lt.1 hsmall) h
    change Stands (unpack .binary64 (pack .binary64 (ofScientific .binary64 n 0))) _
    rwa [hstands.unpack_pack]

theorem stands_ofInt {i : Int} (h : i.natAbs < 2 ^ 64) :
    Stands (Float.ofInt i).toModel.unpack (intUnits i) := by
  cases i with
  | ofNat n => exact stands_ofNat h
  | negSucc n =>
    have hneg := (stands_ofNat (n := n + 1) h).neg
    change Stands (unpack .binary64 (pack .binary64 (Float.ofNat (n + 1)).toModel.unpack.neg)) _
    rwa [hneg.unpack_pack]

end Rounding

end ReactiveView
