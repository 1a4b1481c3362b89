import Abacus.Datum.Json
import Abacus.Expr.Printer
import Abacus.Proofs.Decimal.Layout

/-!
# Texts That Stay on One Line

Numbers, labels, trees and values for other programs are written in visible
characters of ASCII and blanks only. None of these ends a line, so whatever is
put together from such texts is a single line, however long it gets.

For the texts that a value holds this is the work of the escapes, which turn
every other character into visible ones, line breaks included.

## Main definitions

* `isVisible`: A visible character of ASCII, or the blank.
* `OneLine`: A text of such characters.

## Theorems

* `newline_notMem_of_oneLine`: Nothing in such a text ends a line.
* `oneLine_jsonEscaped`, `oneLine_jsonText`: Escapes are visible.
* `oneLine_plainNumber`, `oneLine_numberLabel`, `oneLine_jsonFloat`: So are
  numbers.
* `Token.oneLine_label`, `Expr.oneLine_text`: And so are the labels of tokens and
  the texts of trees.
-/

namespace Abacus

/-- Whether a character is a visible one of ASCII or the blank. -/
def isVisible (c : Char) : Bool :=
  0x20 ≤ c.toNat && c.toNat ≤ 0x7e

/-- A text of visible characters of ASCII and blanks. -/
def OneLine (cs : List Char) : Prop :=
  cs.all isVisible = true

theorem oneLine_iff {cs : List Char} : OneLine cs ↔ ∀ c ∈ cs, isVisible c = true :=
  List.all_eq_true

theorem newline_notMem_of_oneLine {cs : List Char} (h : OneLine cs) : '\n' ∉ cs := by
  intro hmem
  exact Bool.noConfusion (oneLine_iff.mp h '\n' hmem)

theorem oneLine_append {cs ds : List Char} : OneLine (cs ++ ds) ↔ OneLine cs ∧ OneLine ds := by
  rw [OneLine, List.all_append, Bool.and_eq_true]
  rfl

theorem oneLine_cons {c : Char} {cs : List Char} :
    OneLine (c :: cs) ↔ isVisible c = true ∧ OneLine cs := by
  rw [OneLine, List.all_cons, Bool.and_eq_true]
  rfl

theorem OneLine.mono {cs ds : List Char} (h : OneLine ds) (hsub : cs ⊆ ds) : OneLine cs :=
  oneLine_iff.mpr fun c hc => oneLine_iff.mp h c (hsub hc)

theorem oneLine_replicate {c : Char} (hc : isVisible c = true) (n : Nat) :
    OneLine (List.replicate n c) := by
  refine oneLine_iff.mpr fun d hd => ?_
  rw [List.eq_of_mem_replicate hd]
  exact hc

/-! ### Digits and escapes -/

theorem isVisible_digitChar (n : Nat) : isVisible n.digitChar = true := by
  have hsmall : ∀ k < 16, isVisible k.digitChar = true := by decide
  by_cases hn : n < 16
  · exact hsmall n hn
  · rw [Nat.digitChar_eq_star.mpr (Nat.le_of_not_lt hn)]
    rfl

theorem oneLine_toDigits {b : Nat} (hb : 1 < b) (n : Nat) : OneLine (Nat.toDigits b n) := by
  have hlast (k : Nat) : OneLine [k.digitChar] := oneLine_cons.mpr ⟨isVisible_digitChar k, rfl⟩
  induction n using Nat.strongRecOn with
  | _ n ih =>
    rw [Nat.toDigits_eq_if hb]
    split
    · exact hlast n
    · exact oneLine_append.mpr ⟨ih _ (Nat.div_lt_self (by omega) hb), hlast _⟩

theorem oneLine_jsonUnit (n : Nat) : OneLine (jsonUnit n) := by
  rw [jsonUnit, hexDigits, oneLine_cons, oneLine_cons, oneLine_append]
  exact ⟨rfl, rfl, oneLine_replicate rfl _, oneLine_toDigits (by omega) n⟩

theorem oneLine_jsonEscaped (c : Char) : OneLine (jsonEscaped c) := by
  unfold jsonEscaped
  split
  · next h => rcases h with rfl | rfl <;> rfl
  split
  · next h =>
    refine oneLine_cons.mpr ⟨?_, rfl⟩
    simp only [isVisible, h.1, h.2, decide_true, Bool.and_self]
  -- Five characters have an escape of their own, and all others have one or two units.
  iterate 5
    split
    · rfl
  split
  · exact oneLine_jsonUnit _
  · exact oneLine_append.mpr ⟨oneLine_jsonUnit _, oneLine_jsonUnit _⟩

theorem oneLine_jsonText (s : String) : OneLine (jsonText s).toList := by
  rw [jsonText, String.toList_ofList, List.cons_append, oneLine_cons, oneLine_append]
  refine ⟨rfl, oneLine_iff.mpr fun c hc => ?_, rfl⟩
  rcases List.mem_flatMap.mp hc with ⟨d, _, hd⟩
  exact oneLine_iff.mp (oneLine_jsonEscaped d) c hd

/-! ### Numbers -/

theorem oneLine_digits (d : Decimal) : OneLine d.digits :=
  oneLine_toDigits (by omega) _

theorem oneLine_zeros (n : Int) : OneLine (zeros n) :=
  oneLine_replicate rfl _

theorem oneLine_positional {wholeMark : List Char} (h : OneLine wholeMark) (d : Decimal) :
    OneLine (d.positional wholeMark) := by
  have hzero : isVisible '0' = true := rfl
  have hpoint : isVisible '.' = true := rfl
  have htake (n : Nat) : OneLine (d.digits.take n) := (oneLine_digits d).mono (List.take_subset _ _)
  have hdrop (n : Nat) : OneLine (d.digits.drop n) := (oneLine_digits d).mono (List.drop_subset _ _)
  unfold Decimal.positional
  repeat' split
  all_goals
    simp only [oneLine_append, oneLine_cons, oneLine_zeros, oneLine_digits, h, hzero, hpoint, htake,
      hdrop, and_self]

theorem oneLine_exponentText (e : Int) : OneLine (Decimal.exponentText e) := by
  have hds := oneLine_toDigits (b := 10) (by omega) e.natAbs
  unfold Decimal.exponentText
  refine oneLine_cons.mpr ⟨?_, ?_⟩
  · split <;> rfl
  · split
    · exact oneLine_cons.mpr ⟨rfl, hds⟩
    · exact hds

theorem oneLine_scientific (d : Decimal) : OneLine d.scientific := by
  have hpart {ds : List Char} (hsub : ds ⊆ d.digits) : OneLine ds := (oneLine_digits d).mono hsub
  unfold Decimal.scientific
  rw [oneLine_append, oneLine_append, oneLine_cons]
  refine ⟨⟨hpart (List.take_subset _ _), ?_⟩, rfl, oneLine_exponentText _⟩
  split
  · rfl
  · exact oneLine_cons.mpr ⟨rfl, hpart (List.drop_subset _ _)⟩

theorem oneLine_signed (v : Float) {cs : List Char} (h : OneLine cs) : OneLine (signed v cs) := by
  unfold signed
  split
  · exact oneLine_cons.mpr ⟨rfl, h⟩
  · exact h

theorem oneLine_notFiniteText (v : Float) : OneLine (notFiniteText v) := by
  unfold notFiniteText
  split
  · rfl
  · exact oneLine_signed v rfl

theorem oneLine_plainNumber (v : Float) : OneLine (plainNumber v) := by
  unfold plainNumber
  split
  · exact oneLine_signed v (oneLine_positional (show OneLine [] from rfl) _)
  · exact oneLine_notFiniteText v

theorem oneLine_numberLabel (v : Float) : OneLine (numberLabel v).toList := by
  unfold numberLabel
  rw [String.toList_ofList]
  split
  · refine oneLine_signed v ?_
    split
    · exact oneLine_positional (show OneLine ['.', '0'] from rfl) _
    · exact oneLine_scientific _
  · exact oneLine_notFiniteText v

theorem oneLine_jsonFloat (v : Float) : OneLine (jsonFloat v).toList := by
  unfold jsonFloat
  split
  · exact oneLine_numberLabel v
  · repeat' split
    all_goals rfl

/-! ### Tokens and trees -/

theorem Token.oneLine_label (t : Token) : OneLine t.label.toList := by
  rcases t with (v | _ | _) | (s | b) | _ | _
  case atom.number => exact oneLine_numberLabel v
  case op.unary => cases s <;> rfl
  case op.binary => cases b <;> rfl
  all_goals rfl

theorem Expr.oneLine_text (t : Expr) : OneLine t.text := by
  induction t with
  | leaf a =>
    cases a with
    | number v => exact oneLine_plainNumber v
    | e => rfl
    | pi => rfl
  | unary s x ih =>
    have hs : OneLine s.symbol.toList := by cases s <;> rfl
    rw [text, oneLine_append, List.cons_append, oneLine_cons, oneLine_append]
    exact ⟨⟨rfl, hs, ih⟩, rfl⟩
  | binary o l r ihl ihr =>
    have ho : OneLine o.symbol.toList := by cases o <;> rfl
    rw [text, oneLine_append, oneLine_append, oneLine_append, oneLine_cons, oneLine_cons,
      oneLine_cons]
    exact ⟨⟨⟨⟨rfl, ihl⟩, rfl, ho⟩, rfl, ihr⟩, rfl⟩

end Abacus
