import FlowGraph.Number.Binary
import Mathlib.Data.Nat.Log
import Mathlib.Tactic.IntervalCases
import Mathlib.Tactic.Positivity
import Mathlib.Tactic.Ring

/-!
# Carrying numbers between binary formats

A finite number of a format is written in one way only: `Holds f m e` says that `m · 2 ^ e` is that
way.  Rounding an exact number to a format that holds it gives its word (`encodeScaled_of_holds`),
and reading the word gives the number back (`decode_word`).  Every single is a double, so a finite
single that is carried to a double and back comes out as it was: `Single.ofDouble_toDouble`.
-/

namespace FlowGraph

/-! ## Exact values -/

/-- The numbers `m · 2 ^ e` and `n · 2 ^ k` are the same. -/
def SameValue (m : ℕ) (e : ℤ) (n : ℕ) (k : ℤ) : Prop :=
  m * 2 ^ (e - k).toNat = n * 2 ^ (k - e).toNat

lemma SameValue.symm {m n : ℕ} {e k : ℤ} (h : SameValue m e n k) : SameValue n k m e :=
  Eq.symm h

lemma log2_mul_two_pow {m : ℕ} (hm : m ≠ 0) (a : ℕ) : (m * 2 ^ a).log2 = m.log2 + a := by
  induction a with
  | zero => simp
  | succ a ih =>
    have hne : m * 2 ^ a ≠ 0 := Nat.mul_ne_zero hm (Nat.two_pow_pos a).ne'
    rw [pow_succ, ← mul_assoc, mul_comm _ 2, Nat.log2_two_mul hne, ih]
    rfl

/-- Equal numbers have their first bits at the same place. -/
lemma SameValue.log2 {m n : ℕ} {e k : ℤ} (h : SameValue m e n k) (hm : m ≠ 0) :
    (m.log2 : ℤ) + e = n.log2 + k := by
  have hn : n ≠ 0 := by
    rintro rfl
    rw [SameValue, zero_mul] at h
    exact Nat.mul_ne_zero hm (Nat.two_pow_pos _).ne' h
  have hlog := congrArg Nat.log2 h
  rw [log2_mul_two_pow hm, log2_mul_two_pow hn] at hlog
  omega

namespace BinaryFormat

/-- A quotient without a remainder is not rounded. -/
lemma roundQuotient_mul (m : ℕ) {d : ℕ} (hd : 0 < d) : roundQuotient (m * d) d = m := by
  simp [roundQuotient, Nat.mul_div_cancel m hd, hd]

lemma scaleDown_eq (num den : ℕ) (e : ℤ) :
    scaleDown num den e = (num * 2 ^ (-e).toNat, den * 2 ^ e.toNat) := by
  unfold scaleDown
  split
  · next h => simp [show (-e).toNat = 0 by omega]
  · next h => simp [show e.toNat = 0 by omega]

lemma encodeScaled_eq (f : BinaryFormat) (negative : Bool) (m : ℕ) (e : ℤ) :
    f.encodeScaled negative m e = f.encode negative (m * 2 ^ e.toNat) (2 ^ (-e).toNat) := by
  unfold encodeScaled
  split
  · next h => simp [show (-e).toNat = 0 by omega]
  · next h => simp [show e.toNat = 0 by omega]

/-- The last place that is kept of `m · 2 ^ e` depends on the place of its first bit only. -/
lemma lastPlace_scaled (f : BinaryFormat) {m : ℕ} (hm : m ≠ 0) (e : ℤ) :
    f.lastPlace (m * 2 ^ e.toNat) (2 ^ (-e).toNat) =
      max (m.log2 + e - f.fraction) f.minExponent := by
  have hguess : ((m * 2 ^ e.toNat).log2 : ℤ) - (2 ^ (-e).toNat).log2 - (f.fraction + 1) =
      m.log2 + e - (f.fraction + 1) := by
    rw [log2_mul_two_pow hm, Nat.log2_two_pow]
    omega
  simp only [lastPlace, hguess, scaleDown_eq, Nat.pow_eq]
  set guess : ℤ := m.log2 + e - (f.fraction + 1) with hset
  -- the guess is low by one: at that place the number has one bit too many
  have hbits : 2 ^ (f.fraction + 1) ≤
      m * 2 ^ e.toNat * 2 ^ (-guess).toNat / (2 ^ (-e).toNat * 2 ^ guess.toNat) := by
    rw [Nat.le_div_iff_mul_le (by positivity)]
    calc 2 ^ (f.fraction + 1) * (2 ^ (-e).toNat * 2 ^ guess.toNat)
        = 2 ^ m.log2 * (2 ^ e.toNat * 2 ^ (-guess).toNat) := by
          simp only [← pow_add]
          congr 1
          omega
      _ ≤ m * (2 ^ e.toNat * 2 ^ (-guess).toNat) :=
          Nat.mul_le_mul_right _ (Nat.log2_self_le hm)
      _ = m * 2 ^ e.toNat * 2 ^ (-guess).toNat := by ring
  rw [if_pos hbits]
  congr 1
  omega

/-! ## The numbers of a format -/

/-- The number `m · 2 ^ e` is one of the format, written in the format's own way: with all bits
that a significand has, or with the smallest exponent. -/
structure Holds (f : BinaryFormat) (m : ℕ) (e : ℤ) : Prop where
  fits : m < 2 ^ (f.fraction + 1)
  least : f.minExponent ≤ e
  full : 2 ^ f.fraction ≤ m ∨ e = f.minExponent
  finite : (e - f.minExponent).toNat * 2 ^ f.fraction + m < f.infinityBits

/-- The word of a number that the format holds. -/
def word (f : BinaryFormat) (negative : Bool) (m : ℕ) (e : ℤ) : ℕ :=
  f.signBit negative + ((e - f.minExponent).toNat * 2 ^ f.fraction + m)

lemma infinityBits_lt (f : BinaryFormat) : f.infinityBits < 2 ^ (f.fraction + f.exponent) := by
  have hpos := Nat.two_pow_pos f.exponent
  rw [infinityBits, topField, Nat.pow_eq, Nat.pow_eq, Nat.add_comm, pow_add]
  exact Nat.mul_lt_mul_of_pos_right (by omega) (Nat.two_pow_pos _)

/-- Zero is written with the smallest exponent. -/
lemma holds_zero {f : BinaryFormat} (h : 0 < f.exponent) : f.Holds 0 f.minExponent := by
  refine ⟨Nat.two_pow_pos _, le_rfl, .inr rfl, ?_⟩
  have htop : 1 < 2 ^ f.exponent := Nat.one_lt_two_pow (by omega)
  rw [sub_self, Int.toNat_zero, zero_mul, infinityBits, topField, Nat.pow_eq, Nat.pow_eq]
  exact Nat.mul_pos (by omega) (Nat.two_pow_pos _)

variable {f : BinaryFormat} {negative : Bool} {m n word : ℕ} {e k : ℤ}

/-- The place where a format keeps the last bit of a number that it holds. -/
lemma Holds.lastPlace (h : f.Holds n k) (hsame : SameValue m e n k) (hm : m ≠ 0) :
    max (m.log2 + e - f.fraction) f.minExponent = k := by
  have hlog := hsame.log2 hm
  have hn : n ≠ 0 := by
    rintro rfl
    rw [SameValue, zero_mul] at hsame
    exact Nat.mul_ne_zero hm (Nat.two_pow_pos _).ne' hsame
  have hhigh := (Nat.log2_lt hn).2 h.fits
  have hleast := h.least
  rcases h.full with hfull | hk
  · have hlow := (Nat.le_log2 hn).2 hfull
    omega
  · omega

/-- **Encoding is exact** on the numbers of the format, however they are given. -/
theorem encodeScaled_of_holds (h : f.Holds n k) (hsame : SameValue m e n k) :
    f.encodeScaled negative m e = f.word negative n k := by
  rw [encodeScaled_eq, encode, BinaryFormat.word]
  congr 1
  by_cases hm : m = 0
  · -- zero has no first bit, and is written with the smallest exponent
    subst hm
    have hn : n = 0 := by
      rw [SameValue, zero_mul] at hsame
      exact (Nat.mul_eq_zero.1 hsame.symm).resolve_right (Nat.two_pow_pos _).ne'
    subst hn
    have hk : k = f.minExponent :=
      h.full.resolve_left (Nat.two_pow_pos f.fraction).not_ge
    simp [magnitudeBits, hk]
  · have hne : m * 2 ^ e.toNat ≠ 0 := Nat.mul_ne_zero hm (Nat.two_pow_pos _).ne'
    have hexact : m * 2 ^ e.toNat * 2 ^ (-k).toNat =
        n * (2 ^ (-e).toNat * 2 ^ k.toNat) := by
      apply Nat.eq_of_mul_eq_mul_right (Nat.two_pow_pos (e - k).toNat)
      calc m * 2 ^ e.toNat * 2 ^ (-k).toNat * 2 ^ (e - k).toNat
          = m * 2 ^ (e - k).toNat * 2 ^ (e.toNat + (-k).toNat) := by ring
        _ = n * 2 ^ (k - e).toNat * 2 ^ (e.toNat + (-k).toNat) := by rw [hsame]
        _ = n * 2 ^ ((k - e).toNat + (e.toNat + (-k).toNat)) := by ring
        _ = n * 2 ^ ((-e).toNat + k.toNat + (e - k).toNat) := by
          congr 2
          omega
        _ = n * (2 ^ (-e).toNat * 2 ^ k.toNat) * 2 ^ (e - k).toNat := by ring
    simp only [magnitudeBits, if_neg hne, lastPlace_scaled f hm, h.lastPlace hsame hm,
      scaleDown_eq, hexact]
    rw [roundQuotient_mul n (by positivity), Nat.pow_eq]
    exact min_eq_left h.finite.le

/-- **Reading a word** gives back the number it was made of. -/
theorem decode_word (h : f.Holds m e) :
    f.decode (f.word negative m e) = .finite negative m e := by
  set place := (e - f.minExponent).toNat with hplace
  have he : e = f.minExponent + place := by
    have := h.least
    omega
  set bits := place * 2 ^ f.fraction + m with hbits
  have hpos := Nat.two_pow_pos f.fraction
  have hfinite : bits < f.infinityBits := h.finite
  have hbelow : bits < 2 ^ (f.fraction + f.exponent) := hfinite.trans f.infinityBits_lt
  have hsign : f.signBit negative = 2 ^ (f.fraction + f.exponent) * negative.toNat := by
    cases negative <;> simp [signBit]
  have hword : f.word negative m e = bits + 2 ^ (f.fraction + f.exponent) * negative.toNat := by
    rw [BinaryFormat.word, hsign, Nat.add_comm]
  have hnegative : f.word negative m e / 2 ^ (f.fraction + f.exponent) = negative.toNat := by
    rw [hword, Nat.add_mul_div_left _ _ (Nat.two_pow_pos _), Nat.div_eq_of_lt hbelow, zero_add]
  have hfield : f.word negative m e / 2 ^ f.fraction % 2 ^ f.exponent = bits / 2 ^ f.fraction := by
    rw [hword, pow_add, mul_assoc, Nat.add_mul_div_left _ _ hpos, Nat.add_mul_mod_self_left]
    apply Nat.mod_eq_of_lt
    rw [Nat.div_lt_iff_lt_mul hpos, ← pow_add, Nat.add_comm f.exponent]
    exact hbelow
  have hfraction : f.word negative m e % 2 ^ f.fraction = bits % 2 ^ f.fraction := by
    rw [hword, pow_add, mul_assoc, Nat.add_mul_mod_self_left]
  have hsigned : decide (negative.toNat % 2 = 1) = negative := by cases negative <;> rfl
  have htop : bits / 2 ^ f.fraction < f.topField := by
    rw [Nat.div_lt_iff_lt_mul hpos]
    exact hfinite
  simp only [decode, Nat.pow_eq, hnegative, hfield, hfraction, hsigned, htop.ne, if_false]
  rcases Nat.lt_or_ge m (2 ^ f.fraction) with hsmall | hfull
  · -- a number below all full significands: the exponent field is zero
    have hplace0 : place = 0 := by
      have := h.full.resolve_left (Nat.not_le.2 hsmall)
      omega
    have hm : bits = m := by rw [hbits, hplace0, zero_mul, zero_add]
    rw [hm, Nat.div_eq_of_lt hsmall, Nat.mod_eq_of_lt hsmall, if_pos rfl, he, hplace0]
    simp
  · have hfits := h.fits
    rw [pow_succ] at hfits
    have hsplit : bits = (m - 2 ^ f.fraction) + 2 ^ f.fraction * (place + 1) := by
      rw [hbits, Nat.mul_add, Nat.mul_comm place]
      omega
    have hrest : m - 2 ^ f.fraction < 2 ^ f.fraction := by omega
    rw [hsplit, Nat.add_mul_div_left _ _ hpos, Nat.add_mul_mod_self_left,
      Nat.div_eq_of_lt hrest, Nat.mod_eq_of_lt hrest, zero_add, if_neg (Nat.succ_ne_zero _), he]
    congr 1
    · omega
    · push_cast
      ring

/-- A word that stands for a number is the word of that number. -/
theorem word_of_decode (hlt : word < 2 ^ (f.fraction + f.exponent + 1))
    (h : f.decode word = .finite negative m e) :
    f.Holds m e ∧ word = f.word negative m e := by
  have hpos := Nat.two_pow_pos f.fraction
  have hexponent := Nat.two_pow_pos f.exponent
  set sign := word / 2 ^ (f.fraction + f.exponent) with hsign
  set field := word / 2 ^ f.fraction % 2 ^ f.exponent with hfield
  set fraction := word % 2 ^ f.fraction with hfraction
  have hfractionLt : fraction < 2 ^ f.fraction := Nat.mod_lt _ hpos
  have hsignLt : sign < 2 := by
    rw [hsign, Nat.div_lt_iff_lt_mul (Nat.two_pow_pos _), Nat.mul_comm, ← pow_succ]
    exact hlt
  have hword : word =
      sign * 2 ^ (f.fraction + f.exponent) + (field * 2 ^ f.fraction + fraction) := by
    have hlow := Nat.div_add_mod word (2 ^ f.fraction)
    have hhigh := Nat.div_add_mod (word / 2 ^ f.fraction) (2 ^ f.exponent)
    rw [Nat.div_div_eq_div_mul, ← pow_add] at hhigh
    rw [← hlow, ← hhigh]
    ring
  have hbit : f.signBit (decide (sign % 2 = 1)) = sign * 2 ^ (f.fraction + f.exponent) := by
    interval_cases sign <;> simp [signBit]
  simp only [decode, Nat.pow_eq, ← hsign, ← hfield, ← hfraction] at h
  split at h
  · split at h <;> cases h
  · next htop =>
    have hfieldLt : field < f.topField := by
      have hlt : field < 2 ^ f.exponent := Nat.mod_lt _ hexponent
      rw [topField, Nat.pow_eq] at htop ⊢
      omega
    have hbelow : field * 2 ^ f.fraction + fraction < f.infinityBits := by
      calc field * 2 ^ f.fraction + fraction
          < field * 2 ^ f.fraction + 2 ^ f.fraction := by omega
        _ = (field + 1) * 2 ^ f.fraction := by ring
        _ ≤ f.infinityBits := Nat.mul_le_mul_right _ hfieldLt
    split at h
    · next hzero =>
      -- the exponent field is zero, and the fraction is the whole significand
      obtain ⟨rfl, rfl, rfl⟩ := BinaryValue.finite.inj h
      rw [hzero, zero_mul, zero_add] at hbelow hword
      refine ⟨⟨?_, le_rfl, .inr rfl, ?_⟩, ?_⟩
      · rw [pow_succ]
        omega
      · simpa using hbelow
      · rw [BinaryFormat.word, hbit, sub_self, Int.toNat_zero, zero_mul, zero_add]
        exact hword
    · next hnonzero =>
      obtain ⟨rfl, rfl, rfl⟩ := BinaryValue.finite.inj h
      have hplace : (f.minExponent + ((field : ℤ) - 1) - f.minExponent).toNat + 1 = field := by
        omega
      have hbits : (f.minExponent + ((field : ℤ) - 1) - f.minExponent).toNat * 2 ^ f.fraction
          + (2 ^ f.fraction + fraction) = field * 2 ^ f.fraction + fraction := by
        conv => rhs; rw [← hplace]
        ring
      refine ⟨⟨?_, by omega, .inl (Nat.le_add_right _ _), ?_⟩, ?_⟩
      · rw [pow_succ]
        omega
      · rw [hbits]
        exact hbelow
      · rw [BinaryFormat.word, hbit, hbits]
        exact hword

/-- A word has one bit more than the fraction and the exponent. -/
lemma word_lt (h : f.Holds m e) (negative : Bool) :
    f.word negative m e < 2 ^ (f.fraction + f.exponent + 1) := by
  have hfinite := h.finite.trans f.infinityBits_lt
  have hsign : f.signBit negative ≤ 2 ^ (f.fraction + f.exponent) := by
    cases negative <;> simp [signBit]
  rw [BinaryFormat.word, pow_succ]
  omega

/-! ## Singles among the doubles -/

/-- Every number of four bytes is one of eight bytes. -/
lemma holds_double (h : single.Holds m e) : ∃ n k, double.Holds n k ∧ SameValue m e n k := by
  by_cases hm : m = 0
  · subst hm
    exact ⟨0, double.minExponent, holds_zero (by decide), by simp [SameValue]⟩
  · have hmin : single.minExponent = -149 := rfl
    have hmin' : double.minExponent = -1074 := rfl
    have hleast : -149 ≤ e := hmin ▸ h.least
    have hfinite : (e + 149).toNat * 2 ^ 23 + m < 255 * 2 ^ 23 := by
      have hfinite := h.finite
      rw [hmin, sub_neg_eq_add] at hfinite
      exact hfinite
    -- the significand is filled up with zeros to the bits of a double
    have hlog : m.log2 < 24 := (Nat.log2_lt hm).2 h.fits
    obtain ⟨fill, hfill⟩ : ∃ fill, m.log2 + fill = 52 := ⟨52 - m.log2, by omega⟩
    have hlow : 2 ^ 52 ≤ m * 2 ^ fill := by
      rw [← hfill, pow_add]
      exact Nat.mul_le_mul_right _ (Nat.log2_self_le hm)
    have hhigh : m * 2 ^ fill < 2 ^ 53 := by
      rw [show 53 = m.log2 + 1 + fill by omega, pow_add]
      exact Nat.mul_lt_mul_of_pos_right Nat.lt_log2_self (Nat.two_pow_pos _)
    refine ⟨m * 2 ^ fill, e - fill, ⟨hhigh, by omega, .inl hlow, ?_⟩, ?_⟩
    · have hplace : (e - fill - double.minExponent).toNat ≤ 1200 := by omega
      calc (e - fill - double.minExponent).toNat * 2 ^ 52 + m * 2 ^ fill
          ≤ 1200 * 2 ^ 52 + m * 2 ^ fill :=
            Nat.add_le_add_right (Nat.mul_le_mul_right _ hplace) _
        _ < 1200 * 2 ^ 52 + 2 ^ 53 := Nat.add_lt_add_left hhigh _
        _ < double.infinityBits := by decide
    · have hdown : (e - (e - fill)).toNat = fill := by omega
      have hup : (e - fill - e).toNat = 0 := by omega
      rw [SameValue, hdown, hup, pow_zero, mul_one]

end BinaryFormat

namespace Single

open BinaryFormat

variable {x : Single}

/-- A finite single is the word of a number. -/
lemma exists_word (h : x.isFinite = true) :
    ∃ negative m e, single.Holds m e ∧ x = ofWord (single.word negative m e) := by
  unfold isFinite at h
  split at h
  · next negative m e hdecode =>
    have hlt : x.bits.toNat < 2 ^ (single.fraction + single.exponent + 1) := x.bits.toNat_lt
    obtain ⟨hholds, hword⟩ := word_of_decode hlt hdecode
    refine ⟨negative, m, e, hholds, ?_⟩
    rw [← hword, ofWord, UInt32.ofNat_toNat]
  · cases h

lemma bits_ofWord {m : ℕ} {e : ℤ} (h : single.Holds m e) (negative : Bool) :
    (ofWord (single.word negative m e)).bits.toNat = single.word negative m e :=
  UInt32.toNat_ofNat_of_lt' (word_lt h negative)

lemma bits_ofWord_double {m : ℕ} {e : ℤ} (h : double.Holds m e) (negative : Bool) :
    (Double.ofWord (double.word negative m e)).bits.toNat = double.word negative m e :=
  UInt64.toNat_ofNat_of_lt' (word_lt h negative)

/-- A finite single as a double is the word of the same number. -/
lemma toDouble_of_holds {m n : ℕ} {e k : ℤ} (h : single.Holds m e) (hwide : double.Holds n k)
    (hsame : SameValue m e n k) (negative : Bool) :
    (ofWord (single.word negative m e)).toDouble = Double.ofWord (double.word negative n k) := by
  rw [toDouble, bits_ofWord h, convert, decode_word h]
  exact congrArg Double.ofWord (encodeScaled_of_holds hwide hsame)

/-- **The double of a single is finite exactly when the single is.** -/
theorem isFinite_toDouble (x : Single) : x.toDouble.isFinite = x.isFinite := by
  by_cases h : x.isFinite = true
  · rw [h]
    obtain ⟨negative, m, e, hholds, rfl⟩ := exists_word h
    obtain ⟨n, k, hwide, hsame⟩ := holds_double hholds
    rw [toDouble_of_holds hholds hwide hsame, Double.isFinite, Double.value,
      bits_ofWord_double hwide, decode_word hwide]
  · -- the word of a double that is infinite, or no number, is one of three
    rw [Bool.not_eq_true] at h
    rw [h]
    unfold isFinite at h
    rw [toDouble, convert]
    split at h
    · cases h
    · next hfinite =>
      rcases hvalue : single.decode x.bits.toNat with ⟨negative, m, e⟩ | negative | _
      · exact absurd hvalue (hfinite negative m e)
      · cases negative <;> decide
      · decide

/-- **A single is not changed by being carried to a double and back.** -/
theorem ofDouble_toDouble (h : x.isFinite = true) : ofDouble x.toDouble = x := by
  obtain ⟨negative, m, e, hholds, rfl⟩ := exists_word h
  obtain ⟨n, k, hwide, hsame⟩ := holds_double hholds
  rw [toDouble_of_holds hholds hwide hsame, ofDouble, bits_ofWord_double hwide, convert,
    decode_word hwide]
  exact congrArg ofWord (encodeScaled_of_holds hholds hsame.symm)

end Single

end FlowGraph
