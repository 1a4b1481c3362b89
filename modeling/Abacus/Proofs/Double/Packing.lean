import Abacus.Proofs.Double.Rounding

/-!
# The Bits of a Double

A double that is not negative is a natural number below `2 ^ 63` to its bits:
the lower 52 are the places after the first one, and what is above them counts
binades. `Double.parts` reads significand and exponent off this number.

## Main definitions

* `Double.Canonical`: A significand and an exponent that a double can have.
* `Double.parts`: The significand and the exponent in the bits of a double.
* `Double.ofParts`: A double from its parts, unpacked.
* `Double.ofRat`: The double nearest to a number that is not negative.

## Theorems

* `Double.unpack_eq_ofParts`: Unpacking reads the parts.
* `Double.toNat_pack_ofParts`: Packing puts the parts into bits.
* `Double.nearest_eq_ofParts`: A number that a double has is its nearest one.
* `Double.toNat_toBits_ofRat_le`: What is rounded has no sign bit and is not
  NaN.
* `Double.ofRat_of_large`: Beyond all doubles is infinity.
-/

namespace Abacus

open Float.Model Float.Model.UnpackedFloat

namespace Double

/-- A significand and an exponent that a double can have: 53 places with the
    first one not zero, or fewer places in the lowest binade. -/
structure Canonical (m : ℕ) (e : ℤ) : Prop where
  lt : m < 0x20000000000000
  le : -1074 ≤ e
  first : 0x10000000000000 ≤ m ∨ e = -1074

/-- The significand and the exponent in the bits of a double that is not
    negative. -/
def parts (bits : ℕ) : ℕ × ℤ :=
  if bits / 0x10000000000000 = 0 then (bits, -1074)
  else (bits % 0x10000000000000 + 0x10000000000000, (bits / 0x10000000000000 : ℕ) - 1075)

/-- A double that is not negative, unpacked, from its parts. -/
def ofParts (m : ℕ) (e : ℤ) : UnpackedFloat :=
  if hm : m = 0 then .zero .positive else .finite .positive m e (Nat.pos_of_ne_zero hm)

theorem canonical_parts (bits : ℕ) : Canonical (parts bits).1 (parts bits).2 := by
  rw [parts]
  split
  · exact ⟨by omega, le_refl _, Or.inr rfl⟩
  · exact ⟨by omega, by omega, Or.inl (by omega)⟩

theorem toNat_packComponents (e : BitVec 11) (m : BitVec 52) :
    (packComponents Format.binary64 .positive e m).toNat =
      e.toNat * 0x10000000000000 + m.toNat := by
  rw [packComponents, BitVec.toNat_append, ← Nat.shiftLeft_add_eq_or_of_lt m.isLt,
    BitVec.toNat_append, ← Nat.shiftLeft_add_eq_or_of_lt e.isLt]
  change (0 <<< 11 + e.toNat) <<< 52 + m.toNat = _
  rw [Nat.zero_shiftLeft, zero_add, Nat.shiftLeft_eq]

theorem biased_eq (e : ℤ) :
    e + Format.binary64.exponentBias + Format.binary64.mantissaBitsWithoutImplicit = e + 1075 := by
  change e + ((1023 : ℕ) : ℤ) + ((52 : ℕ) : ℤ) = e + 1075
  omega

theorem log2_add_one_eq_iff {m : ℕ} (hm : m < 0x20000000000000) :
    m.log2 + 1 = Format.binary64.mantissaBits ↔ 0x10000000000000 ≤ m := by
  change m.log2 + 1 = 53 ↔ _
  constructor
  · intro h
    have hz : m ≠ 0 := by
      rintro rfl
      exact absurd h (by decide)
    exact (Nat.le_log2 hz).mp (show 52 ≤ m.log2 by omega)
  · intro h
    have hz : m ≠ 0 := by omega
    have hlow := (Nat.le_log2 hz).mpr (show 2 ^ 52 ≤ m from h)
    have hhigh := (Nat.log2_lt hz).mpr (show m < 2 ^ 53 from hm)
    omega

/-- The bits of a packed double. -/
theorem toNat_pack_ofParts {m : ℕ} {e : ℤ} (h : Canonical m e) (he : e ≤ 971) :
    (UnpackedFloat.pack Format.binary64 (ofParts m e)).toNat =
      if m < 0x10000000000000 then m
      else (e + 1075).toNat * 0x10000000000000 + (m - 0x10000000000000) := by
  have hlow := h.le
  have hlt := h.lt
  rw [ofParts]
  by_cases hm : m = 0
  · subst hm
    rfl
  rw [dif_neg hm, UnpackedFloat.pack, biased_eq]
  dsimp only
  have hfits : ¬ 2 ^ 11 ≤ (e + 1075).toNat + 1 := by omega
  rw [if_neg hfits]
  -- The first place is not stored: it shows in whether the binade is the lowest.
  by_cases hfirst : 0x10000000000000 ≤ m
  · rw [if_pos ((log2_add_one_eq_iff hlt).mpr hfirst), if_neg (by omega), toNat_packComponents,
      BitVec.toNat_ofNat, BitVec.toNat_ofNat]
    omega
  · rw [if_neg (fun hc => hfirst ((log2_add_one_eq_iff hlt).mp hc)), if_pos (by omega),
      toNat_packComponents, BitVec.toNat_ofNat, BitVec.toNat_ofNat]
    omega

theorem toNat_unpackMantissa (f : Float.Model) :
    (@unpackMantissa Format.binary64 f.toBits.toBitVec).toNat =
      f.toBits.toNat % 0x10000000000000 := by
  rw [unpackMantissa, BitVec.toNat_cast, BitVec.extractLsb_toNat]
  rfl

theorem toNat_unpackExponent (f : Float.Model) :
    (@unpackExponent Format.binary64 f.toBits.toBitVec).toNat =
      f.toBits.toNat / 0x10000000000000 % 2048 := by
  rw [unpackExponent, BitVec.toNat_cast, BitVec.extractLsb_toNat, Nat.shiftRight_eq_div_pow]
  rfl

theorem unpackSign_eq_zero (f : Float.Model) (hsign : f.toBits.toNat < 0x8000000000000000) :
    @unpackSign Format.binary64 f.toBits.toBitVec = 0#1 := by
  apply BitVec.eq_of_toNat_eq
  rw [unpackSign, BitVec.toNat_cast, BitVec.extractLsb_toNat, Nat.shiftRight_eq_div_pow]
  change f.toBits.toNat / 0x8000000000000000 % 2 = 0
  omega

/-- The bits of a positive number are no more than those of infinity. -/
theorem toNat_pack_positive_le {m : ℕ} {e : ℤ} (hm : 0 < m) :
    (UnpackedFloat.pack Format.binary64 (.finite .positive m e hm)).toNat ≤
      0x7ff0000000000000 := by
  have hbits {x : BitVec 11} (y : BitVec 52) (hx : x.toNat < 2047) :
      (packComponents Format.binary64 .positive x y).toNat ≤ 0x7ff0000000000000 := by
    rw [toNat_packComponents]
    omega
  rw [UnpackedFloat.pack, biased_eq]
  dsimp only
  split
  · exact le_refl 0x7ff0000000000000
  · next hexp =>
    have hfield : (e + 1075).toNat < 2047 := by
      have hexp' : ¬ 2048 ≤ (e + 1075).toNat + 1 := hexp
      omega
    split
    · refine hbits _ ?_
      rw [BitVec.toNat_ofNat]
      omega
    · exact hbits _ (show 0 < 2047 by omega)

theorem ofParts_eq_finite {m m' : ℕ} {e e' : ℤ} (hm : m = m') (he : e = e') (hpos : 0 < m') :
    ofParts m e = .finite .positive m' e' hpos := by
  subst hm he
  exact dif_neg (Nat.ne_of_gt hpos)

theorem unpack_eq_ofParts (f : Float.Model) (hsign : f.toBits.toNat < 0x8000000000000000)
    (hfinite : f.toBits.toNat / 0x10000000000000 ≠ 2047) :
    f.unpack = ofParts (parts f.toBits.toNat).1 (parts f.toBits.toNat).2 := by
  have hm := toNat_unpackMantissa f
  have he := toNat_unpackExponent f
  have hinf : @unpackExponent Format.binary64 f.toBits.toBitVec ≠ -1#_ := by
    intro hc
    rw [hc] at he
    change 2047 = _ at he
    omega
  rw [Float.Model.unpack, UnpackedFloat.unpack, unpackSign_eq_zero f hsign]
  dsimp only
  rw [if_neg hinf, parts]
  by_cases hz : f.toBits.toNat / 0x10000000000000 = 0
  · -- In the lowest binade the significand is stored as it is.
    have hexpo : @unpackExponent Format.binary64 f.toBits.toBitVec = 0#_ :=
      BitVec.eq_of_toNat_eq (by rw [he, hz]; rfl)
    rw [if_pos hexpo, if_pos hz]
    by_cases hmant : @unpackMantissa Format.binary64 f.toBits.toBitVec = 0#_
    · have hbits : f.toBits.toNat = 0 := by
        rw [hmant] at hm
        change 0 = _ at hm
        omega
      rw [dif_pos hmant, hbits]
      rfl
    · rw [dif_neg hmant]
      refine (ofParts_eq_finite ?_ ?_ _).symm
      · omega
      · rw [hexpo]
        rfl
  · -- In all others a first place is put in front of it.
    have hexpo : @unpackExponent Format.binary64 f.toBits.toBitVec ≠ 0#_ := by
      intro hc
      rw [hc] at he
      change 0 = _ at he
      omega
    rw [if_neg hexpo, if_neg hz]
    refine (ofParts_eq_finite ?_ ?_ _).symm
    · rw [BitVec.toNat_append, ← Nat.shiftLeft_add_eq_or_of_lt (BitVec.isLt _), hm]
      change _ = 1 <<< 52 + _
      omega
    · rw [he]
      change _ = _ - (((1023 : ℕ) : ℤ) + ((52 : ℕ) : ℤ))
      omega

/-- A number that a double has is rounded to itself. -/
theorem nearest_eq_ofParts {m : ℕ} {e : ℤ} (h : Canonical m e) :
    nearest (m * 2 ^ e) = ofParts m e := by
  have htwo : (0 : ℚ) < 2 ^ e := zpow_pos two_pos e
  have hexact : (extended m).roundedMantissa = m := by
    rw [extended_natCast]
    rfl
  rw [ofParts, nearest]
  by_cases hm : m = 0
  · subst hm
    rw [Nat.cast_zero] at hexact
    simp only [Nat.cast_zero, zero_mul, zero_div, hexact, dif_pos]
  · -- The last place is where the exponent says, so nothing is cut off.
    have hlog : lastPlace (m * 2 ^ e) = e := by
      have hhigh := (Nat.log2_lt hm).mpr (show m < 2 ^ 53 from h.lt)
      have hmin := h.le
      rw [lastPlace_mul_zpow hm]
      rcases h.first with hfirst | hfirst
      · have hlow := (Nat.le_log2 hm).mpr (show 2 ^ 52 ≤ m from hfirst)
        omega
      · omega
    simp only [hlog, mul_div_cancel_right₀ _ htwo.ne', hexact, dif_neg hm, if_pos h.lt]

/-- Unpacking undoes packing. -/
theorem unpack_pack_ofParts {m : ℕ} {e : ℤ} (h : Canonical m e) (he : e ≤ 971) :
    (Float.Model.pack (ofParts m e)).unpack = ofParts m e := by
  have hlow := h.le
  have hlt := h.lt
  have hbits : (Float.Model.pack (ofParts m e)).toBits.toNat =
      if m < 0x10000000000000 then m
      else (e + 1075).toNat * 0x10000000000000 + (m - 0x10000000000000) :=
    toNat_pack_ofParts h he
  rcases Nat.lt_or_ge m 0x10000000000000 with hm | hm
  · have hmin : e = -1074 := h.first.resolve_left (by omega)
    rw [if_pos hm] at hbits
    rw [unpack_eq_ofParts _ (by omega) (by omega), hbits, parts, if_pos (by omega), hmin]
  · rw [if_neg (by omega)] at hbits
    rw [unpack_eq_ofParts _ (by omega) (by omega), hbits, parts, if_neg (by omega)]
    congr 1
    · dsimp only
      omega
    · dsimp only
      omega

theorem nearest_zero : nearest 0 = .zero .positive := by
  have h := nearest_eq_ofParts (m := 0) (e := -1074) ⟨by omega, le_refl _, Or.inr rfl⟩
  rw [Nat.cast_zero, zero_mul] at h
  exact h

theorem pack_of_large {m : ℕ} (hm : 0 < m) {e : ℤ} (he : 972 ≤ e) :
    UnpackedFloat.pack Format.binary64 (.finite .positive m e hm) =
      packedInfinity Format.binary64 .positive := by
  rw [UnpackedFloat.pack, biased_eq]
  exact if_pos (show 2 ^ 11 ≤ (e + 1075).toNat + 1 by omega)

/-- A number beyond all doubles is packed as infinity. -/
theorem pack_nearest_of_large {q : ℚ} (hq : 0 < q) (hlog : 1024 ≤ Int.log 2 q) :
    UnpackedFloat.pack Format.binary64 (nearest q) =
      packedInfinity Format.binary64 .positive := by
  have hlast : lastPlace q = Int.log 2 q - 52 := by
    rw [lastPlace]
    omega
  have hfirst : (2 : ℚ) ^ 52 ≤ q / 2 ^ lastPlace q := by
    rw [le_div_iff₀ (zpow_pos two_pos _), ← zpow_natCast, ← zpow_add₀ two_ne_zero, hlast]
    have hle := Int.zpow_log_le_self one_lt_two hq
    push_cast at hle ⊢
    rwa [add_sub_cancel]
  have hm : 0 < (extended (q / 2 ^ lastPlace q)).roundedMantissa := by
    refine lt_of_lt_of_le ?_ (roundedMantissa_bounds _).1
    rw [mantissa_extended, Nat.floor_pos]
    linarith
  rw [nearest, dif_neg (Nat.ne_of_gt hm)]
  split
  · exact pack_of_large _ (by omega)
  · exact pack_of_large _ (by omega)

/-- The double nearest to a number that is not negative. -/
def ofRat (q : ℚ) : Float :=
  .ofModel (.pack (nearest q))

theorem toNat_toBits_ofRat_le (q : ℚ) : (ofRat q).toBits.toNat ≤ 0x7ff0000000000000 := by
  change (UnpackedFloat.pack Format.binary64 (nearest q)).toNat ≤ _
  rw [nearest]
  split
  · exact show 0 ≤ 0x7ff0000000000000 by omega
  · split
    · exact toNat_pack_positive_le _
    · exact toNat_pack_positive_le _

/-- Doubles of the same bits are the same. -/
theorem ofModel_pack_congr {u u' : UnpackedFloat}
    (h : UnpackedFloat.pack Format.binary64 u = UnpackedFloat.pack Format.binary64 u') :
    Float.ofModel (.pack u) = Float.ofModel (.pack u') := by
  simp only [Float.Model.pack, h]

theorem ofRat_of_large {q : ℚ} (hq : 0 < q) (hlog : 1024 ≤ Int.log 2 q) :
    ofRat q = .ofModel (.pack (.infinity .positive)) :=
  ofModel_pack_congr (pack_nearest_of_large hq hlog)

/-- The number that a double has which is finite and not negative. -/
def value (v : Float) : ℚ :=
  (parts v.toBits.toNat).1 * 2 ^ (parts v.toBits.toNat).2

/-- Only infinities and NaN have all bits of the exponent set. -/
theorem exponent_mod_ne_of_isFinite {v : Float} (h : v.isFinite = true) :
    v.toBits.toNat / 0x10000000000000 % 2048 ≠ 2047 := by
  intro hc
  have he := toNat_unpackExponent v.toModel
  change _ = v.toBits.toNat / _ % _ at he
  have hinf : @unpackExponent Format.binary64 v.toModel.toBits.toBitVec = -1#_ :=
    BitVec.eq_of_toNat_eq (by rw [he, hc]; rfl)
  change v.toModel.unpack.isFinite = true at h
  rw [Float.Model.unpack, UnpackedFloat.unpack] at h
  dsimp only at h
  rw [if_pos hinf] at h
  split at h
  · exact Bool.noConfusion h
  · exact Bool.noConfusion h

theorem exponent_ne_of_isFinite {v : Float} (h : v.isFinite = true) :
    v.toBits.toNat / 0x10000000000000 ≠ 2047 := by
  have hexp := exponent_mod_ne_of_isFinite h
  omega

/-- Every double is packed from what it is unpacked to. -/
theorem eq_ofModel_pack_unpack (v : Float) : v = .ofModel (.pack v.toModel.unpack) :=
  (Float.ofBits_toBits v).symm

/-- The bits of NaN are more than those of infinity. -/
theorem isNaN_eq_false_of_le {v : Float} (h : v.toBits.toNat ≤ 0x7ff0000000000000) :
    v.isNaN = false := by
  change v.toModel.unpack.isNaN = false
  cases hunpack : v.toModel.unpack with
  | notANumber =>
    have hv := eq_ofModel_pack_unpack v
    rw [hunpack] at hv
    rw [hv] at h
    exact absurd h (show ¬ 0x7ff8000000000000 ≤ 0x7ff0000000000000 by omega)
  | _ => rfl

/-- The only double without a sign bit that is neither finite nor NaN is
    infinity. -/
theorem eq_infinity {v : Float} (hsign : v.toBits.toNat < 0x8000000000000000)
    (hfinite : v.isFinite = false) (hnan : v.isNaN = false) :
    v = .ofModel (.pack (.infinity .positive)) := by
  have hv := eq_ofModel_pack_unpack v
  change v.toModel.unpack.isFinite = false at hfinite
  change v.toModel.unpack.isNaN = false at hnan
  cases hunpack : v.toModel.unpack with
  | infinity s =>
    rw [hunpack] at hv
    cases s with
    | positive => exact hv
    | negative =>
      rw [hv] at hsign
      exact absurd hsign (show ¬ 0xfff0000000000000 < 0x8000000000000000 by omega)
  | notANumber =>
    rw [hunpack] at hnan
    exact Bool.noConfusion hnan
  | _ =>
    rw [hunpack] at hfinite
    exact Bool.noConfusion hfinite

/-- A finite double that is not negative is packed from the parts in its
    bits. -/
theorem eq_ofModel_pack {v : Float} (hsign : v.toBits.toNat < 0x8000000000000000)
    (hfinite : v.toBits.toNat / 0x10000000000000 ≠ 2047) :
    v = .ofModel (.pack (ofParts (parts v.toBits.toNat).1 (parts v.toBits.toNat).2)) := by
  have hunpack : v.toModel.unpack = ofParts (parts v.toBits.toNat).1 (parts v.toBits.toNat).2 :=
    unpack_eq_ofParts v.toModel hsign hfinite
  rw [← hunpack]
  exact eq_ofModel_pack_unpack v

/-- A finite double that is not negative is nearest to the number it has. -/
theorem eq_ofRat_value {v : Float} (hsign : v.toBits.toNat < 0x8000000000000000)
    (hfinite : v.toBits.toNat / 0x10000000000000 ≠ 2047) : v = ofRat (value v) := by
  rw [ofRat, value, nearest_eq_ofParts (canonical_parts _)]
  exact eq_ofModel_pack hsign hfinite

end Double

end Abacus
