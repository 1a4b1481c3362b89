import Abacus.Expr.Grammar
import Abacus.Proofs.Neighbours
import Abacus.Proofs.Parser.Counting

/-!
# Placement of Tokens

Which tokens are an expression, found by looking once from left to right with
one bit of memory: whether an operand is due. An atom, a sign or an open
parenthesis may stand where one is due, an operator of two places or a closing
parenthesis where none is, and only the depth of parentheses has to be known
besides. `Placed` says that every token stands where it may.

Tokens that are placed derive a tree. The argument does not look for it in
the way the parser does: what is derived so far is always a sum, and an
operator with the signed operand behind it is fitted in at the right end of
it, as deep as it binds.

Counting finds out about misplaced tokens. Where the expression goes on after
every operand, nothing can be placed wrongly without losing an operand for
good: an operator where an operand is due takes one that nobody has brought,
and a closing parenthesis there pretends that one has been brought. So the
operands can only add up to one if nothing is misplaced.

## Main definitions

* `Placed`: Every token stands where it may.

## Theorems

* `Derives.append_operator`: An operator and an operand are fitted in at the
  right end.
* `exists_derives_of_placed`: Tokens that are placed derive a tree.
* `placed_of_derives`: The tokens of an expression are placed.
* `separated_of_derives`: No operands abut in them.
* `surplus_le_missing`: Tokens that go on bring no more than is missing.
* `placed_of_counts`: Tokens that go on and add up are placed.
-/

namespace Abacus

/-- Every token stands where it may, with an operand due or not at the start
    and `depth` parentheses open there. -/
inductive Placed : Bool → Nat → List Token → Prop where
  | done : Placed false 0 []
  | atom {depth : Nat} {ts : List Token} (a : Atom) (h : Placed false depth ts) :
    Placed true depth (.atom a :: ts)
  | sign {depth : Nat} {ts : List Token} (s : Sign) (h : Placed true depth ts) :
    Placed true depth (.op (.unary s) :: ts)
  | openParen {depth : Nat} {ts : List Token} (h : Placed true (depth + 1) ts) :
    Placed true depth (.openParen :: ts)
  | operator {depth : Nat} {ts : List Token} (b : BinOp) (h : Placed true depth ts) :
    Placed false depth (.op (.binary b) :: ts)
  | closeParen {depth : Nat} {ts : List Token} (h : Placed false depth ts) :
    Placed false (depth + 1) (.closeParen :: ts)

/-- The tokens of an expression stand where they may when an operand is due,
    and none is due after them. -/
theorem placed_of_derives {layer : Layer} {ts : List Token} {t : Expr}
    (h : Derives layer ts t) :
    ∀ {depth : Nat} {rest : List Token}, Placed false depth rest →
      Placed true depth (ts ++ rest) := by
  induction h with
  | leaf a => exact fun hr => .atom a hr
  | parens h ih =>
    intro depth rest hr
    rw [List.cons_append, List.cons_append, List.append_assoc]
    exact .openParen (ih (.closeParen hr))
  | sign s h ih => exact fun hr => .sign s (ih hr)
  | pow hl hr ihl ihr =>
    intro depth rest hrest
    rw [List.append_assoc]
    exact ihl (.operator _ (ihr hrest))
  | product ho hl hr ihl ihr =>
    intro depth rest hrest
    rw [List.append_assoc]
    exact ihl (.operator _ (ihr hrest))
  | sum ho hl hr ihl ihr =>
    intro depth rest hrest
    rw [List.append_assoc]
    exact ihl (.operator _ (ihr hrest))
  | unsigned h ih => exact ih
  | base h ih => exact ih
  | factor h ih => exact ih
  | term h ih => exact ih

/-- Tokens that are placed with no operand due cannot bring one. -/
theorem continued_of_placed {due : Bool} {depth : Nat} {ts : List Token}
    (h : Placed due depth ts) :
    Continued ts ∧ (due = false → ∀ u ∈ ts.head?, u.continues = true) := by
  induction h with
  | done => exact ⟨.nil, fun _ u hu => nomatch hu⟩
  | atom a h ih =>
    exact ⟨List.isChain_cons.mpr ⟨fun u hu _ => ih.2 rfl u hu, ih.1⟩, (fun hd => nomatch hd)⟩
  | sign s h ih =>
    exact ⟨List.isChain_cons.mpr ⟨(fun u _ hend => nomatch hend), ih.1⟩, (fun hd => nomatch hd)⟩
  | openParen h ih =>
    exact ⟨List.isChain_cons.mpr ⟨(fun u _ hend => nomatch hend), ih.1⟩, (fun hd => nomatch hd)⟩
  | operator b h ih =>
    refine ⟨List.isChain_cons.mpr ⟨(fun u _ hend => nomatch hend), ih.1⟩, fun _ u hu => ?_⟩
    rw [← Option.some.inj hu]
    rfl
  | closeParen h ih =>
    refine ⟨List.isChain_cons.mpr ⟨fun u hu _ => ih.2 rfl u hu, ih.1⟩, fun _ u hu => ?_⟩
    rw [← Option.some.inj hu]
    rfl

/-- No two operands abut in the tokens of an expression. -/
theorem separated_of_derives {layer : Layer} {ts : List Token} {t : Expr}
    (h : Derives layer ts t) : Separated ts := by
  have hplaced : Placed true 0 (ts ++ []) := placed_of_derives h .done
  rw [List.append_nil] at hplaced
  exact (continued_iff.mp (continued_of_placed hplaced).1).1

namespace Derives

theorem append_pow {us : List Token} {u : Expr} (hu : Derives .signed us u) :
    ∀ {ts : List Token} {t : Expr}, Derives .power ts t →
      ∃ t', Derives .power (ts ++ .op (.binary .pow) :: us) t'
  | _, _, .base h => ⟨_, .pow h (.base hu)⟩
  | _, _, .pow hl hr => by
    rcases append_pow hu hr with ⟨t', h'⟩
    rw [List.append_assoc]
    exact ⟨_, .pow hl h'⟩

theorem append_factor {ts us : List Token} {t u : Expr} {b : BinOp}
    (h : Derives .product ts t) (hu : Derives .signed us u)
    (hb : b = .mul ∨ b = .div ∨ b = .pow) :
    ∃ t', Derives .product (ts ++ .op (.binary b) :: us) t' := by
  rcases hb with rfl | rfl | rfl
  · exact ⟨_, .product (Or.inl rfl) h (.base hu)⟩
  · exact ⟨_, .product (Or.inr rfl) h (.base hu)⟩
  · cases h with
    | factor h =>
      rcases append_pow hu h with ⟨t', h'⟩
      exact ⟨_, .factor h'⟩
    | product ho hl hr =>
      rcases append_pow hu hr with ⟨t', h'⟩
      rw [List.append_assoc]
      exact ⟨_, .product ho hl h'⟩

/-- An operator and a signed operand are fitted in at the right end of a sum,
    as deep as the operator binds. -/
theorem append_operator {ts us : List Token} {t u : Expr} (h : Derives .sum ts t)
    (hu : Derives .signed us u) (b : BinOp) :
    ∃ t', Derives .sum (ts ++ .op (.binary b) :: us) t' := by
  have hdeep (hb : b = .mul ∨ b = .div ∨ b = .pow) :
      ∃ t', Derives .sum (ts ++ .op (.binary b) :: us) t' := by
    cases h with
    | term h =>
      rcases append_factor h hu hb with ⟨t', h'⟩
      exact ⟨_, .term h'⟩
    | sum ho hl hr =>
      rcases append_factor hr hu hb with ⟨t', h'⟩
      rw [List.append_assoc]
      exact ⟨_, .sum ho hl h'⟩
  cases b with
  | add => exact ⟨_, .sum (Or.inl rfl) h (.factor (.base hu))⟩
  | sub => exact ⟨_, .sum (Or.inr rfl) h (.factor (.base hu))⟩
  | mul => exact hdeep (Or.inl rfl)
  | div => exact hdeep (Or.inr (Or.inl rfl))
  | pow => exact hdeep (Or.inr (Or.inr rfl))

end Derives

/-- What was read before ends where an operand is due: a signed operand makes
    a sum of it. -/
def Awaits (before : List Token) : Prop :=
  ∀ (us : List Token) (u : Expr), Derives .signed us u → ∃ t, Derives .sum (before ++ us) t

/-- The tokens finish the sum that was begun before them, up to the
    parenthesis that closes it if there is one. Whatever sum that parenthesis
    then belongs to, the tokens behind it finish as well. -/
def Finishes : Nat → List Token → List Token → Prop
  | 0, before, ts => ∃ t, Derives .sum (before ++ ts) t
  | depth + 1, before, ts =>
    ∃ us rest t, ts = us ++ .closeParen :: rest ∧ Derives .sum (before ++ us) t ∧
      ∀ (ls : List Token) (l : Expr), Derives .sum ls l → Finishes depth ls rest

theorem Finishes.append {depth : Nat} {before mid ts : List Token}
    (h : Finishes depth (before ++ mid) ts) : Finishes depth before (mid ++ ts) := by
  cases depth with
  | zero =>
    rw [Finishes, List.append_assoc] at h
    exact h
  | succ depth =>
    rcases h with ⟨us, rest, t, rfl, hsum, hrest⟩
    rw [List.append_assoc] at hsum
    exact ⟨mid ++ us, rest, t, (List.append_assoc _ _ _).symm, hsum, hrest⟩

/-- Tokens that are placed finish whatever sum was begun before them. -/
theorem finishes_of_placed {due : Bool} {depth : Nat} {ts : List Token}
    (h : Placed due depth ts) :
    ∀ before : List Token,
      (if due then Awaits before else ∃ l, Derives .sum before l) → Finishes depth before ts := by
  induction h with
  | done =>
    rintro before ⟨l, hl⟩
    exact ⟨l, by rwa [List.append_nil]⟩
  | atom a h ih =>
    intro before hawaits
    exact (ih (before ++ [.atom a]) (hawaits _ _ (.unsigned (.leaf a)))).append
  | sign s h ih =>
    intro before hawaits
    refine (ih (before ++ [.op (.unary s)]) (fun us u hu => ?_)).append
    rw [List.append_assoc]
    exact hawaits _ _ (.sign s hu)
  | @openParen depth ts h ih =>
    -- The parentheses start a sum of their own, which then is an operand.
    intro before hawaits
    rcases ih [] (fun us u hu => ⟨u, hu.toSum⟩) with ⟨us, rest, t, rfl, hsum, hrest⟩
    rw [List.nil_append] at hsum
    rcases hawaits _ _ (.unsigned (.parens hsum)) with ⟨l, hl⟩
    have hfin := (hrest _ l hl).append
    rwa [List.append_assoc] at hfin
  | operator b h ih =>
    rintro before ⟨l, hl⟩
    refine (ih (before ++ [.op (.binary b)]) (fun us u hu => ?_)).append
    rw [List.append_assoc]
    exact hl.append_operator hu b
  | closeParen h ih =>
    -- The sum ends here, and the tokens behind belong to the one around it.
    rintro before ⟨l, hl⟩
    exact ⟨[], _, l, rfl, by rwa [List.append_nil], fun ls l' hl' => ih ls ⟨l', hl'⟩⟩

theorem exists_derives_of_placed {ts : List Token} (h : Placed true 0 ts) :
    ∃ t, Derives .sum ts t :=
  finishes_of_placed h [] (fun _ u hu => ⟨u, hu.toSum⟩)

/-- What is missing of one operand. -/
def missing (due : Bool) : Int :=
  if due then 1 else 0

theorem continued_cons {t : Token} {ts : List Token} (h : Continued (t :: ts)) :
    (t.opensSign = false → ∀ u ∈ ts.head?, u.continues = true) ∧ Continued ts := by
  rcases List.isChain_cons.mp h with ⟨hnext, htail⟩
  refine ⟨fun hopens u hu => hnext u hu ?_, htail⟩
  rw [Token.opensSign_eq_not_endsOperand, Bool.not_eq_false'] at hopens
  exact hopens

/-- One token and the operand that is due behind it bring no more than is
    missing before it. -/
theorem surplus_add_missing_le {due : Bool} {t : Token}
    (h : due = false → t.continues = true) : t.surplus + missing t.opensSign ≤ missing due := by
  cases due with
  | true =>
    rcases t with a | (s | b) | _ | _
    · exact Int.le_refl 1
    · exact Int.le_refl 1
    · exact show (0 : Int) ≤ 1 by decide
    · exact Int.le_refl 1
    · exact show (0 : Int) ≤ 1 by decide
  | false =>
    have hc := h rfl
    rcases t with a | (s | b) | _ | _
    · exact Bool.noConfusion hc
    · exact Bool.noConfusion hc
    · exact Int.le_refl 0
    · exact Bool.noConfusion hc
    · exact Int.le_refl 0

/-- Where the expression goes on after every operand, the tokens bring no more
    operands than are missing. -/
theorem surplus_le_missing {ts : List Token} :
    Continued ts → ∀ due : Bool, (due = false → ∀ u ∈ ts.head?, u.continues = true) →
      (ts.map Token.surplus).sum ≤ missing due := by
  induction ts with
  | nil =>
    intro _ due _
    cases due <;> decide
  | cons t ts ih =>
    intro h due hhead
    rcases continued_cons h with ⟨hgo, htail⟩
    have hstep := surplus_add_missing_le fun hd => hhead hd t rfl
    have hrest := ih htail t.opensSign hgo
    rw [List.map_cons, List.sum_cons]
    omega

/-- Where the expression goes on after every operand and the parentheses are
    nested, the tokens bring all that is missing only if they are placed. -/
theorem placed_of_counts {ts : List Token} :
    Continued ts → ∀ {due : Bool} {depth : Nat},
      (due = false → ∀ u ∈ ts.head?, u.continues = true) → Nested depth ts →
      (ts.map Token.surplus).sum = missing due → Placed due depth ts := by
  induction ts with
  | nil =>
    intro _ due depth _ hnest hsum
    cases due with
    | true => exact absurd hsum (by decide)
    | false =>
      rw [show depth = 0 from hnest]
      exact .done
  | cons t ts ih =>
    intro h due depth hhead hnest hsum
    rcases continued_cons h with ⟨hgo, htail⟩
    rw [List.map_cons, List.sum_cons] at hsum
    -- Nothing can make up for what is lost at a token, so nothing is lost.
    have hstep := surplus_add_missing_le fun hd => hhead hd t rfl
    have hle := surplus_le_missing htail t.opensSign hgo
    have hrest : (ts.map Token.surplus).sum = missing t.opensSign := by omega
    have hexact : t.surplus + missing t.opensSign = missing due := by omega
    cases due with
    | true =>
      rcases t with a | (s | b) | _ | _
      · exact .atom a (ih htail hgo hnest hrest)
      · exact .sign s (ih htail hgo hnest hrest)
      · -- An operator where an operand is due loses one.
        exact absurd (show (0 : Int) = 1 from hexact) (by decide)
      · exact .openParen (ih htail hgo hnest hrest)
      · exact absurd (show (0 : Int) = 1 from hexact) (by decide)
    | false =>
      have hc := hhead rfl t rfl
      rcases t with a | (s | b) | _ | _
      · exact Bool.noConfusion hc
      · exact Bool.noConfusion hc
      · exact .operator b (ih htail hgo hnest hrest)
      · exact Bool.noConfusion hc
      · rcases hnest with ⟨hpos, hnest⟩
        cases depth with
        | zero => exact absurd hpos (Nat.lt_irrefl 0)
        | succ depth => exact .closeParen (ih htail hgo hnest hrest)

end Abacus
