import Abacus.Proofs.Decimal.Signed
import Abacus.Proofs.Printing

/-!
# Printed Trees Are Told Apart

No two trees are printed alike. For trees of plain numbers this is seen from
reading the text back, but other trees are printed as well, and their texts are
not read: a number that is negative has a minus in front, as the negative of a
number has, and infinities are words.

A printed tree consists of words, and of marks between them, which are blanks
and parentheses. A leaf is one word, a node starts with a mark. Where a word ends
can be seen from the text, since there is a mark behind it or nothing. So a text
with a printed tree at its front determines the tree, if what follows a leaf is
a mark; and in a printed tree it always is.

Only in one place do words stand next to each other: the symbol of a sign stands
before its operand. With a leaf it makes a single word, which may be that of a
negative number, as in `(-1)` and `(-1 ** 2)`. What is behind this word decides
then, since no blank follows an operand of a sign.

## Main definitions

* `isMark`: The characters between the words of a printed tree.
* `IsWord`: Some characters without a mark.
* `EndsWord`: No word goes on into a text.

## Theorems

* `IsWord.append_inj`: Where a word ends can be seen from the text.
* `Atom.text_injective`: Leaves are told apart by their words.
* `Expr.text_append_inj`: A tree at the front of a text is determined by it.
* `render_eq_iff`: Two trees are printed alike only if they are the same.
-/

namespace Abacus

/-- The characters between the words of a printed tree. -/
def isMark (c : Char) : Bool :=
  c == ' ' || c == '(' || c == ')'

/-- Some characters without a mark. -/
def IsWord (cs : List Char) : Prop :=
  cs ≠ [] ∧ ∀ c ∈ cs, isMark c = false

/-- No word goes on into a text: it is empty or starts with a mark. -/
def EndsWord (rest : List Char) : Prop :=
  ∀ c ∈ rest.head?, isMark c = true

theorem endsWord_nil : EndsWord [] :=
  fun _ hc => nomatch hc

theorem endsWord_cons {c : Char} (hc : isMark c = true) (rest : List Char) :
    EndsWord (c :: rest) := by
  intro d hd
  rwa [← Option.some.inj hd]

namespace IsWord

variable {cs ds rest rest' : List Char}

theorem append (h : IsWord cs) (h' : IsWord ds) : IsWord (cs ++ ds) := by
  refine ⟨List.append_ne_nil_of_left_ne_nil h.1 _, fun c hc => ?_⟩
  rcases List.mem_append.mp hc with hc | hc
  · exact h.2 c hc
  · exact h'.2 c hc

/-- A word does not start with a mark. -/
theorem ne_mark (h : IsWord cs) {c : Char} (hc : isMark c = true) : cs ++ rest ≠ c :: rest' := by
  intro heq
  cases cs with
  | nil => exact h.1 rfl
  | cons d ds =>
    have hd := h.2 d List.mem_cons_self
    rw [(List.cons.inj heq).1, hc] at hd
    exact Bool.noConfusion hd

/-- Where a word ends can be seen from the text. -/
theorem append_inj (h : IsWord cs) (h' : IsWord ds) (hend : EndsWord rest)
    (hend' : EndsWord rest') (heq : cs ++ rest = ds ++ rest') : cs = ds ∧ rest = rest' := by
  have hword {cs rest : List Char} (h : IsWord cs) (hend : EndsWord rest) :
      (cs ++ rest).takeWhile (fun c => !isMark c) = cs := by
    have hall : ∀ c ∈ cs, (!isMark c) = true := fun c hc => by rw [h.2 c hc, Bool.not_false]
    have hstop : rest.takeWhile (fun c => !isMark c) = [] := by
      cases rest with
      | nil => rfl
      | cons c rest =>
        rw [List.takeWhile_cons, hend c rfl, Bool.not_true, if_neg Bool.false_ne_true]
    rw [List.takeWhile_append_of_pos hall, hstop, List.append_nil]
  have hcs : cs = ds := by
    rw [← hword h hend, heq, hword h' hend']
  exact ⟨hcs, List.append_cancel_left (hcs ▸ heq)⟩

end IsWord

/-! ### The words of a printed tree -/

/-- A text whose characters all are no marks is a word. -/
theorem isWord_of_all {cs : List Char} (hne : cs ≠ [])
    (hall : cs.all (fun c => !isMark c) = true) : IsWord cs := by
  refine ⟨hne, fun c hc => ?_⟩
  rw [← Bool.not_eq_true']
  exact List.all_eq_true.mp hall c hc

theorem Sign.isWord_symbol (s : Sign) : IsWord s.symbol.toList := by
  cases s <;> exact isWord_of_all (by decide) (by decide)

theorem BinOp.isWord_symbol (o : BinOp) : IsWord o.symbol.toList := by
  cases o <;> exact isWord_of_all (by decide) (by decide)

theorem Atom.isWord_text (a : Atom) : IsWord a.text := by
  cases a with
  | e => exact isWord_of_all (by decide) (by decide)
  | pi => exact isWord_of_all (by decide) (by decide)
  | number v =>
    refine ⟨plainNumber_ne_nil v, fun c hc => ?_⟩
    rw [← Bool.not_eq_true, isMark, Bool.or_eq_true, Bool.or_eq_true, beq_iff_eq, beq_iff_eq,
      beq_iff_eq]
    rintro ((rfl | rfl) | rfl) <;> exact notMem_plainNumber v (by decide) (by decide) rfl hc

theorem Sign.length_symbol (s : Sign) : s.symbol.toList.length = 1 := by
  cases s <;> rfl

theorem Sign.symbol_injective {s s' : Sign} (h : s.symbol.toList = s'.symbol.toList) : s = s' := by
  cases s <;> cases s' <;> first | rfl | exact absurd h (by decide)

theorem BinOp.symbol_injective {o o' : BinOp} (h : o.symbol.toList = o'.symbol.toList) :
    o = o' := by
  cases o <;> cases o' <;> first | rfl | exact absurd h (by decide)

/-- No number is written like a constant. -/
theorem plainNumber_ne_constant (v : Float) :
    plainNumber v ≠ ['e'] ∧ plainNumber v ≠ ['p', 'i'] := by
  constructor
  · intro h
    exact notMem_plainNumber v (c := 'e') (by decide) (by decide) rfl (by rw [h]; decide)
  · intro h
    exact notMem_plainNumber v (c := 'p') (by decide) (by decide) rfl (by rw [h]; decide)

/-- Leaves are told apart by their words. -/
theorem Atom.text_injective {a b : Atom} (h : a.text = b.text) : a = b := by
  cases a with
  | number v =>
    cases b with
    | number w => rw [plainNumber_injective h]
    | e => exact absurd h (plainNumber_ne_constant v).1
    | pi => exact absurd h (plainNumber_ne_constant v).2
  | e =>
    cases b with
    | number w => exact absurd h.symm (plainNumber_ne_constant w).1
    | e => rfl
    | pi => exact absurd h (by decide)
  | pi =>
    cases b with
    | number w => exact absurd h.symm (plainNumber_ne_constant w).2
    | e => exact absurd h (by decide)
    | pi => rfl

namespace Expr

variable {rest rest' : List Char}

theorem text_unary_append (s : Sign) (x : Expr) (rest : List Char) :
    (unary s x).text ++ rest = '(' :: (s.symbol.toList ++ (x.text ++ ')' :: rest)) := by
  simp only [text, List.cons_append, List.append_assoc, List.nil_append]

theorem text_binary_append (o : BinOp) (l r : Expr) (rest : List Char) :
    (binary o l r).text ++ rest =
      '(' :: (l.text ++ ' ' :: (o.symbol.toList ++ ' ' :: (r.text ++ ')' :: rest))) := by
  simp only [text, List.cons_append, List.append_assoc, List.nil_append]

/-- A tree is a word or starts with a mark. -/
theorem word_or_node (t : Expr) :
    (∃ a, t = leaf a) ∨ ∀ rest, ∃ tail, t.text ++ rest = '(' :: tail := by
  cases t with
  | leaf a => exact .inl ⟨a, rfl⟩
  | unary s x => exact .inr fun rest => ⟨_, text_unary_append s x rest⟩
  | binary o l r => exact .inr fun rest => ⟨_, text_binary_append o l r rest⟩

/-- What stands behind the opening parenthesis of a sign is no operand with a
    blank behind it. -/
theorem sign_append_ne (s : Sign) (x l : Expr) (rest rest' : List Char) :
    s.symbol.toList ++ (x.text ++ ')' :: rest) ≠ l.text ++ ' ' :: rest' := by
  intro h
  have hs := s.isWord_symbol
  have hblank : EndsWord (' ' :: rest') := endsWord_cons rfl rest'
  rcases l.word_or_node with ⟨a, rfl⟩ | hnode
  · have ha : IsWord (leaf a).text := a.isWord_text
    rcases x.word_or_node with ⟨b, rfl⟩ | hx
    · -- The sign and its operand are one word, which ends with a parenthesis.
      have hword : IsWord (s.symbol.toList ++ (leaf b).text) := hs.append b.isWord_text
      rw [← List.append_assoc] at h
      exact absurd (hword.append_inj ha (endsWord_cons rfl rest) hblank h).2 (by simp)
    · rcases hx (')' :: rest) with ⟨tail, htail⟩
      rw [htail] at h
      exact absurd (hs.append_inj ha (endsWord_cons rfl tail) hblank h).2 (by simp)
  · rcases hnode (' ' :: rest') with ⟨tail, htail⟩
    rw [htail] at h
    exact hs.ne_mark rfl h

/-- A tree at the front of a text is determined by the text, and so is what
    follows it. -/
theorem text_append_inj {t u : Expr} (hend : EndsWord rest) (hend' : EndsWord rest')
    (h : t.text ++ rest = u.text ++ rest') : t = u ∧ rest = rest' := by
  induction t generalizing u rest rest' with
  | leaf a =>
    have ha : IsWord (leaf a).text := a.isWord_text
    rcases u.word_or_node with ⟨b, rfl⟩ | hnode
    · rcases ha.append_inj b.isWord_text hend hend' h with ⟨htext, hrest⟩
      exact ⟨congrArg leaf (Atom.text_injective htext), hrest⟩
    · rcases hnode rest' with ⟨tail, htail⟩
      exact absurd (h.trans htail) (ha.ne_mark rfl)
  | unary s x ih =>
    rw [text_unary_append] at h
    cases u with
    | leaf b => exact absurd h.symm (b.isWord_text.ne_mark rfl)
    | unary s' y =>
      rw [text_unary_append] at h
      -- No mark ends the symbol here, but all symbols of signs are equally long.
      have hlength : s.symbol.toList.length = s'.symbol.toList.length := by
        rw [s.length_symbol, s'.length_symbol]
      rcases List.append_inj (List.cons.inj h).2 hlength with ⟨hsymbol, hoperand⟩
      rcases ih (endsWord_cons rfl _) (endsWord_cons rfl _) hoperand with ⟨rfl, hclose⟩
      rw [Sign.symbol_injective hsymbol]
      exact ⟨rfl, (List.cons.inj hclose).2⟩
    | binary o l r =>
      rw [text_binary_append] at h
      exact absurd (List.cons.inj h).2 (sign_append_ne s x l _ _)
  | binary o l r ihl ihr =>
    rw [text_binary_append] at h
    cases u with
    | leaf b => exact absurd h.symm (b.isWord_text.ne_mark rfl)
    | unary s y =>
      rw [text_unary_append] at h
      exact absurd (List.cons.inj h).2.symm (sign_append_ne s y l _ _)
    | binary o' l' r' =>
      rw [text_binary_append] at h
      rcases ihl (endsWord_cons rfl _) (endsWord_cons rfl _) (List.cons.inj h).2 with ⟨rfl, hop⟩
      have hmark (tail : List Char) : EndsWord (' ' :: tail) := endsWord_cons rfl tail
      rcases o.isWord_symbol.append_inj o'.isWord_symbol (hmark _) (hmark _) (List.cons.inj hop).2
        with ⟨hsymbol, hright⟩
      rcases ihr (endsWord_cons rfl _) (endsWord_cons rfl _) (List.cons.inj hright).2 with
        ⟨rfl, hclose⟩
      rw [BinOp.symbol_injective hsymbol]
      exact ⟨rfl, (List.cons.inj hclose).2⟩

/-- A tree without NaN is the same as itself when numbers are compared as
    numbers. -/
theorem same_self {t : Expr} (h : ∀ v, Atom.number v ∈ t.atoms → v.isNaN = false) :
    t.same t = true := by
  induction t with
  | leaf a =>
    cases a with
    | number v => exact Double.beq_self (h v List.mem_cons_self)
    | e => rfl
    | pi => rfl
  | unary s x ih => rw [same, beq_self_eq_true, ih h, Bool.and_self]
  | binary o l r ihl ihr =>
    rw [same, ihl fun v hv => h v (List.mem_append_left _ hv), beq_self_eq_true,
      ihr fun v hv => h v (List.mem_append_right _ hv), Bool.and_self, Bool.and_self]

end Expr

/-- Two trees are printed alike exactly if they are the same tree, whatever
    numbers are at their leaves. If there is no NaN among these, they are also the
    same when numbers are compared as numbers. -/
theorem render_eq_iff (t u : Expr) :
    (t.render = u.render ↔ t = u) ∧
      ((∀ v, Atom.number v ∈ t.atoms ++ u.atoms → v.isNaN = false) → t.render = u.render →
        t.same u = true) := by
  have hinj (h : t.render = u.render) : t = u := by
    rw [t.render_eq_text, u.render_eq_text] at h
    have hends : t.text ++ [] = u.text ++ [] := congrArg (· ++ []) h
    exact (Expr.text_append_inj endsWord_nil endsWord_nil hends).1
  refine ⟨⟨hinj, congrArg Expr.render⟩, fun hnan h => ?_⟩
  rw [← hinj h] at hnan ⊢
  exact Expr.same_self fun v hv => hnan v (List.mem_append_left _ hv)

end Abacus
