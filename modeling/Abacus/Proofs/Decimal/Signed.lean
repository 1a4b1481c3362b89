import Abacus.Proofs.Decimal.Layout
import Abacus.Proofs.Double.Sign
import Abacus.Proofs.Numeral

/-!
# Plain Numbers With a Sign

The plain text of a number that is negative has a minus in front of the text of
its magnitude. The texts of magnitudes have no minus in them, so the sign can be
told from the text, and the rest reads back as the magnitude. An infinity and
NaN are written as words, which no numeral is like.

So different doubles have different texts, the two zeros among them, and this is
all that is needed of the texts apart from their characters.

## Main definitions

* `magnitudeText`: The text of a number without its sign.
* `isMagnitudeChar`: The characters of such texts.

## Theorems

* `Decimal.shortest_abs`: The sign makes no difference to the shortest decimal.
* `Decimal.toFloat_shortest_eq_abs`: The shortest decimal is read as the
  magnitude.
* `notMem_plainNumber`: The characters of plain texts.
* `signed_injective`: The sign can be told from the text.
* `plainNumber_injective`: Different doubles have different plain texts.
-/

namespace Abacus

theorem Fraction.ofFloat_abs {v : Float} (h : v.isNaN = false) : ofFloat v.abs = ofFloat v := by
  simp only [ofFloat, Double.toNat_toBits_abs h, Nat.mod_mod]

namespace Decimal

theorem abs_abs {v : Float} (h : v.isFinite = true) : v.abs.abs = v.abs := by
  have hnan := Double.isNaN_of_isFinite h
  have hnan' := Double.isNaN_of_isFinite (Double.isFinite_abs h)
  refine Float.toBits_inj.mp (UInt64.toNat_inj.mp ?_)
  rw [Double.toNat_toBits_abs hnan', Double.toNat_toBits_abs hnan, Nat.mod_mod]

/-- The shortest decimal is that of the magnitude. -/
theorem shortest_abs {v : Float} (h : v.isFinite = true) : shortest v.abs = shortest v := by
  have hreads : readsAs v.abs = readsAs v := by
    funext d
    rw [readsAs, readsAs, abs_abs h]
  rw [shortest, shortest, Fraction.ofFloat_abs (Double.isNaN_of_isFinite h), hreads]

/-- The shortest decimal of a finite double is read as its magnitude. -/
theorem toFloat_shortest_eq_abs {v : Float} (h : v.isFinite = true) :
    (shortest v).toFloat = v.abs := by
  have hsign := Double.hasSignBit_abs (Double.isNaN_of_isFinite h)
  rw [← shortest_abs h]
  exact toFloat_shortest (Double.isFinite_abs h) hsign

/-- Finite doubles whose digits are the same have the same magnitude. -/
theorem abs_eq_of_positional_eq {v w : Float} (hv : v.isFinite = true) (hw : w.isFinite = true)
    (h : (shortest v).positional [] = (shortest w).positional []) : v.abs = w.abs := by
  have hreads := (shortest v).reads_positional.2
  rw [h, (shortest w).reads_positional.2] at hreads
  rw [← toFloat_shortest_eq_abs hv, ← toFloat_shortest_eq_abs hw, hreads]

end Decimal

/-- The text of a number without its sign, unless it is NaN. -/
def magnitudeText (v : Float) : List Char :=
  if v.isFinite then (Decimal.shortest v).positional [] else "inf".toList

/-- The characters of magnitudes: those of numerals and of the word for the
    infinities. -/
def isMagnitudeChar (c : Char) : Bool :=
  c.isDigit || c == '.' || c == 'i' || c == 'n' || c == 'f'

theorem isMagnitudeChar_of_mem {v : Float} {c : Char} (h : c ∈ magnitudeText v) :
    isMagnitudeChar c = true := by
  unfold magnitudeText at h
  split at h
  · rcases (Decimal.shortest v).reads_positional.1.mem h with hd | rfl
    · simp only [isMagnitudeChar, hd, Bool.true_or]
    · rfl
  · exact List.all_eq_true.mp (by decide : "inf".toList.all isMagnitudeChar = true) c h

theorem notMem_magnitudeText (v : Float) {c : Char} (hc : isMagnitudeChar c = false) :
    c ∉ magnitudeText v := by
  intro h
  rw [isMagnitudeChar_of_mem h] at hc
  exact Bool.noConfusion hc

theorem plainNumber_eq_signed {v : Float} (h : v.isNaN = false) :
    plainNumber v = signed v (magnitudeText v) := by
  unfold plainNumber magnitudeText notFiniteText
  split
  · rfl
  · rw [h, if_neg Bool.false_ne_true]

theorem plainNumber_nan {v : Float} (h : v.isNaN = true) : plainNumber v = "nan".toList := by
  cases hfinite : v.isFinite with
  | true =>
    rw [Double.isNaN_of_isFinite hfinite] at h
    exact Bool.noConfusion h
  | false => rw [plainNumber, hfinite, if_neg Bool.false_ne_true, notFiniteText, if_pos h]

theorem mem_signed {v : Float} {cs : List Char} {c : Char} (h : c ∈ signed v cs) :
    c = '-' ∨ c ∈ cs := by
  unfold signed at h
  split at h
  · exact List.mem_cons.mp h
  · exact Or.inr h

/-- A text with an `a` in it is that of NaN. -/
theorem isNaN_iff_mem_plainNumber {v : Float} : v.isNaN = true ↔ 'a' ∈ plainNumber v := by
  cases hnan : v.isNaN with
  | true =>
    rw [plainNumber_nan hnan]
    exact iff_of_true rfl (by decide)
  | false =>
    rw [plainNumber_eq_signed hnan]
    refine iff_of_false Bool.false_ne_true fun h => ?_
    rcases mem_signed h with hc | hc
    · exact absurd hc (by decide)
    · exact notMem_magnitudeText v rfl hc

/-- No other characters are in a text than a minus, an `a` and those of
    magnitudes. -/
theorem notMem_plainNumber (v : Float) {c : Char} (hminus : c ≠ '-') (ha : c ≠ 'a')
    (hc : isMagnitudeChar c = false) : c ∉ plainNumber v := by
  intro h
  cases hnan : v.isNaN with
  | true =>
    rw [plainNumber_nan hnan] at h
    have hall : "nan".toList.all (fun c => c == 'a' || isMagnitudeChar c) = true := by decide
    have hmem := List.all_eq_true.mp hall c h
    simp only [hc, Bool.or_false, beq_iff_eq] at hmem
    exact ha hmem
  | false =>
    rw [plainNumber_eq_signed hnan] at h
    rcases mem_signed h with h | h
    · exact hminus h
    · exact notMem_magnitudeText v hc h

theorem plainNumber_ne_nil (v : Float) : plainNumber v ≠ [] := by
  cases hnan : v.isNaN with
  | true =>
    rw [plainNumber_nan hnan]
    decide
  | false =>
    have hmagnitude : magnitudeText v ≠ [] := by
      unfold magnitudeText
      split
      · exact (Decimal.shortest v).reads_positional.1.ne_nil
      · decide
    rw [plainNumber_eq_signed hnan, signed]
    split
    · exact List.cons_ne_nil _ _
    · exact hmagnitude

/-- An infinity is written as a word, which is no numeral. -/
theorem isFinite_iff_mem_magnitudeText {v : Float} :
    v.isFinite = false ↔ 'i' ∈ magnitudeText v := by
  unfold magnitudeText
  cases v.isFinite with
  | true =>
    refine iff_of_false Bool.noConfusion fun h => ?_
    rcases (Decimal.shortest v).reads_positional.1.mem h with hd | hp
    · exact absurd hd (by decide)
    · exact absurd hp (by decide)
  | false => exact iff_of_true rfl (show 'i' ∈ "inf".toList by decide)

/-- Numbers whose magnitudes have the same text have the same magnitude. -/
theorem abs_eq_of_magnitudeText_eq {v w : Float} (hv : v.isNaN = false) (hw : w.isNaN = false)
    (h : magnitudeText v = magnitudeText w) : v.abs = w.abs := by
  have hkind : v.isFinite = false ↔ w.isFinite = false := by
    rw [isFinite_iff_mem_magnitudeText, isFinite_iff_mem_magnitudeText, h]
  cases hfinite : v.isFinite with
  | true =>
    have hfinite' : w.isFinite = true := by
      rwa [← Bool.not_eq_false, ← hkind, Bool.not_eq_false]
    rw [magnitudeText, magnitudeText, if_pos hfinite, if_pos hfinite'] at h
    exact Decimal.abs_eq_of_positional_eq hfinite hfinite' h
  | false =>
    rw [Double.abs_of_infinite hfinite hv, Double.abs_of_infinite (hkind.mp hfinite) hw]

/-- The sign can be told from the text, if the magnitudes have no minus. -/
theorem signed_injective {v w : Float} {m n : List Char} (hm : '-' ∉ m) (hn : '-' ∉ n)
    (h : signed v m = signed w n) : hasSignBit v = hasSignBit w ∧ m = n := by
  cases hv : hasSignBit v <;> cases hw : hasSignBit w <;>
    simp only [signed, hv, hw, if_true, Bool.false_eq_true, if_false] at h
  · exact ⟨rfl, h⟩
  · exact absurd (h ▸ List.mem_cons_self) hm
  · exact absurd (h ▸ List.mem_cons_self) hn
  · exact ⟨rfl, List.cons.inj h |>.2⟩

/-- Different doubles have different plain texts. -/
theorem plainNumber_injective : Function.Injective plainNumber := by
  intro v w h
  have hkind : v.isNaN = true ↔ w.isNaN = true := by
    rw [isNaN_iff_mem_plainNumber, isNaN_iff_mem_plainNumber, h]
  cases hnan : v.isNaN with
  | true => exact Double.eq_of_isNaN hnan (hkind.mp hnan)
  | false =>
    have hnan' : w.isNaN = false := by
      rwa [← Bool.not_eq_true, ← hkind, Bool.not_eq_true]
    rw [plainNumber_eq_signed hnan, plainNumber_eq_signed hnan'] at h
    rcases signed_injective (notMem_magnitudeText v rfl) (notMem_magnitudeText w rfl) h with
      ⟨hsign, htext⟩
    exact Double.eq_of_abs_eq hnan hnan' (abs_eq_of_magnitudeText_eq hnan hnan' htext) hsign

end Abacus
