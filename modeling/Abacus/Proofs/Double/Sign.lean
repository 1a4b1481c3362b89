import Abacus.Decimal.Shortest
import Abacus.Proofs.Double.Packing

/-!
# The Sign of a Double

The sign of a double is its highest bit, and the others are its magnitude. So
the magnitude of a double has the bits of the double without the highest one,
and a double is known by its magnitude and its sign.

NaN is a single value here. It has no magnitude that could be told from it, and
is not even equal to itself as a number.

## Theorems

* `Double.toNat_toBits_abs`: The magnitude has the bits without the sign bit.
* `Double.isFinite_abs`, `Double.abs_of_infinite`: The magnitudes of finite
  doubles and of the infinities.
* `Double.eq_of_abs_eq`: Magnitude and sign determine a double.
* `Double.eq_of_isNaN`: There is one NaN.
* `Double.beq_self`: All other doubles are equal to themselves as numbers.
-/

namespace Abacus

open Float.Model Float.Model.UnpackedFloat

namespace Double

theorem toNat_packComponents_mod (s : UnpackedFloat.Sign) (e : BitVec 11) (m : BitVec 52) :
    (packComponents Format.binary64 s e m).toNat % signBit =
      (packComponents Format.binary64 .positive e m).toNat := by
  have he := e.isLt
  have hm := m.isLt
  cases s with
  | positive =>
    rw [toNat_packComponents]
    exact Nat.mod_eq_of_lt (show _ < 0x8000000000000000 by omega)
  | negative =>
    rw [toNat_packComponents, packComponents, BitVec.toNat_append,
      ← Nat.shiftLeft_add_eq_or_of_lt m.isLt, BitVec.toNat_append,
      ← Nat.shiftLeft_add_eq_or_of_lt e.isLt]
    change ((1 <<< 11 + e.toNat) <<< 52 + m.toNat) % 0x8000000000000000 = _
    rw [Nat.shiftLeft_eq, Nat.shiftLeft_eq]
    omega

/-- Without its sign a double is packed without the sign bit. -/
theorem toNat_pack_abs {u : UnpackedFloat} (h : u.isNaN = false) :
    (UnpackedFloat.pack Format.binary64 u.abs).toNat =
      (UnpackedFloat.pack Format.binary64 u).toNat % signBit := by
  cases u with
  | notANumber => exact Bool.noConfusion h
  | infinity s => exact (toNat_packComponents_mod s _ _).symm
  | zero s => exact (toNat_packComponents_mod s _ _).symm
  | finite s m e hm =>
    -- What is packed besides the sign depends on significand and exponent only.
    rw [UnpackedFloat.abs, UnpackedFloat.pack, UnpackedFloat.pack]
    dsimp only
    split
    · exact (toNat_packComponents_mod s _ _).symm
    · split
      · exact (toNat_packComponents_mod s _ _).symm
      · exact (toNat_packComponents_mod s _ _).symm

theorem toNat_toBits_abs {v : Float} (h : v.isNaN = false) :
    v.abs.toBits.toNat = v.toBits.toNat % signBit := by
  have hbits : v.toBits.toNat = (UnpackedFloat.pack Format.binary64 v.toModel.unpack).toNat :=
    congrArg (fun w : Float => w.toBits.toNat) (eq_ofModel_pack_unpack v)
  rw [hbits]
  exact toNat_pack_abs h

theorem hasSignBit_abs {v : Float} (h : v.isNaN = false) : hasSignBit v.abs = false := by
  rw [hasSignBit, toNat_toBits_abs h, decide_eq_false_iff_not, Nat.not_le]
  exact Nat.mod_lt _ (by decide)

/-- Magnitude and sign determine a double. -/
theorem eq_of_abs_eq {v w : Float} (hv : v.isNaN = false) (hw : w.isNaN = false)
    (habs : v.abs = w.abs) (hsign : hasSignBit v = hasSignBit w) : v = w := by
  have hmod : v.toBits.toNat % signBit = w.toBits.toNat % signBit := by
    rw [← toNat_toBits_abs hv, ← toNat_toBits_abs hw, habs]
  have hvlt := v.toBits.toNat_lt
  have hwlt := w.toBits.toNat_lt
  rw [hasSignBit, hasSignBit, decide_eq_decide] at hsign
  rw [signBit] at hsign hmod
  refine Float.toBits_inj.mp (UInt64.toNat_inj.mp ?_)
  omega

theorem isNaN_of_isFinite {v : Float} (h : v.isFinite = true) : v.isNaN = false := by
  change v.toModel.unpack.isFinite = true at h
  change v.toModel.unpack.isNaN = false
  cases hunpack : v.toModel.unpack with
  | notANumber =>
    rw [hunpack] at h
    exact Bool.noConfusion h
  | _ => rfl

theorem isFinite_of_exponent_ne {v : Float} (hsign : v.toBits.toNat < 0x8000000000000000)
    (hexp : v.toBits.toNat / 0x10000000000000 ≠ 2047) : v.isFinite = true := by
  change v.toModel.unpack.isFinite = true
  rw [unpack_eq_ofParts v.toModel hsign hexp, ofParts]
  split <;> rfl

theorem isFinite_abs {v : Float} (h : v.isFinite = true) : v.abs.isFinite = true := by
  have hexp := exponent_mod_ne_of_isFinite h
  have hbits := toNat_toBits_abs (isNaN_of_isFinite h)
  rw [signBit] at hbits
  refine isFinite_of_exponent_ne ?_ ?_
  · omega
  · omega

/-- The infinities have one magnitude. -/
theorem abs_of_infinite {v : Float} (hfinite : v.isFinite = false) (hnan : v.isNaN = false) :
    v.abs = .ofModel (.pack (.infinity .positive)) := by
  change v.toModel.unpack.isFinite = false at hfinite
  change v.toModel.unpack.isNaN = false at hnan
  change Float.ofModel (.pack v.toModel.unpack.abs) = _
  cases hunpack : v.toModel.unpack with
  | infinity s => rfl
  | notANumber =>
    rw [hunpack] at hnan
    exact Bool.noConfusion hnan
  | _ =>
    rw [hunpack] at hfinite
    exact Bool.noConfusion hfinite

/-- There is one double only that is not a number. -/
theorem eq_of_isNaN {v w : Float} (hv : v.isNaN = true) (hw : w.isNaN = true) : v = w := by
  have hnan {x : Float} (hx : x.isNaN = true) : x = .ofModel (.pack .notANumber) := by
    have hself := eq_ofModel_pack_unpack x
    change x.toModel.unpack.isNaN = true at hx
    cases hunpack : x.toModel.unpack with
    | notANumber => rwa [hunpack] at hself
    | _ =>
      rw [hunpack] at hx
      exact Bool.noConfusion hx
  rw [hnan hv, hnan hw]

/-- A double that is a number is equal to itself. -/
theorem beq_self {v : Float} (h : v.isNaN = false) : (v == v) = true := by
  change v.toModel.unpack.isNaN = false at h
  change (v.toModel.unpack.compare v.toModel.unpack == some .eq) = true
  cases hunpack : v.toModel.unpack with
  | notANumber =>
    rw [hunpack] at h
    exact Bool.noConfusion h
  | infinity s => cases s <;> rfl
  | zero s => cases s <;> rfl
  | finite s m e hm =>
    have heq : (compare e e).then (compare m m) = .eq := by
      rw [compare_eq_iff_eq.mpr rfl, compare_eq_iff_eq.mpr rfl]
      rfl
    cases s with
    | positive => simp only [UnpackedFloat.compare, heq, beq_self_eq_true]
    | negative => simp only [UnpackedFloat.compare, heq, Ordering.swap_eq, beq_self_eq_true]

end Double

end Abacus
