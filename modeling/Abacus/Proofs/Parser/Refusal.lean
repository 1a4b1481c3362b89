import Abacus.Proofs.Parser.Settling

/-!
# How the Parser Refuses

What a run that fails has done before. The three loops over the operators that
wait all stop early in one way: some of the operators on top have settled, and
the next one finds too few operands. Besides, a closing parenthesis may find
nothing open, and the end of the input something open. At the very end there
may be no operand or several.

So there are five ways to fail, and `Refusal` has a constructor for each. It
says how much was read, what waited then and what is left behind. A proof
about errors goes over its cases and never over the loops.

The operands are gone whenever one was missing: an operator that fails takes
what there is.

## Main definitions

* `Parser.Starves`: Among the operators on top there is one that finds too few
  operands.
* `Parser.Refusal`: A run fails.

## Theorems

* `Outcome.andThen_eq_fail`: Of two steps that fail together one does.
* `Parser.fail_of_applyOp`: An operator fails by naming itself and leaves no
  operand.
* `Parser.starves_of_pushOp`, `Parser.fail_of_closeParen`,
  `Parser.fail_of_drain`: How the loops fail.
* `Parser.refusal_of_run`, `refusal_of_parse`: Every run that fails does so in
  one of the five ways.
-/

namespace Abacus

namespace Outcome

variable {σ α β : Type}

/-- Two steps fail together if the first one does, or if the second one fails
    on what the first one has left. -/
theorem andThen_eq_fail {o : Outcome σ α} {next : α → σ → Outcome σ β} {e : ParseError} {s : σ}
    (h : o.andThen next = .fail e s) :
    o = .fail e s ∨ ∃ a mid, o = .ok a mid ∧ next a mid = .fail e s := by
  rcases o with ⟨⟨e'⟩ | ⟨a⟩, mid⟩
  · cases h
    exact Or.inl rfl
  · exact Or.inr ⟨a, mid, rfl, h⟩

end Outcome

namespace Parser

theorem fail_of_applyOp {o : Operator} {out out' : List Expr} {e : ParseError}
    (h : applyOp o out = .fail e out') : e = .notEnoughOperands o ∧ out' = [] := by
  rcases o with s | b
  · rcases out with _ | ⟨x, rest⟩
    · cases h
      exact ⟨rfl, rfl⟩
    · exact nomatch h
  · rcases out with _ | ⟨r, _ | ⟨l, rest⟩⟩
    · cases h
      exact ⟨rfl, rfl⟩
    · cases h
      exact ⟨rfl, rfl⟩
    · exact nomatch h

/-- Of the operators that wait on top one finds too few operands. It and those
    above it are gone, and no operand is left. -/
def Starves (ops : List Pending) (e : ParseError) (s : State) : Prop :=
  ∃ (os : List Operator) (o : Operator) (rest : List Pending),
    ops = os.map .op ++ .op o :: rest ∧ e = .notEnoughOperands o ∧ s = ⟨[], rest⟩

namespace Starves

theorem of_applyOp {o : Operator} {rest : List Pending} {out out' : List Expr} {e : ParseError}
    (h : applyOp o out = .fail e out') : Starves (.op o :: rest) e ⟨out', rest⟩ := by
  rcases fail_of_applyOp h with ⟨rfl, rfl⟩
  exact ⟨[], o, rest, rfl, rfl, rfl⟩

theorem cons {ops : List Pending} {e : ParseError} {s : State} (h : Starves ops e s)
    (o : Operator) : Starves (.op o :: ops) e s := by
  rcases h with ⟨os, p, rest, rfl, he, hs⟩
  exact ⟨o :: os, p, rest, rfl, he, hs⟩

end Starves

theorem starves_of_pushOp {op : Operator} {ops : List Pending} :
    ∀ {out : List Expr} {e : ParseError} {s : State}, pushOp op out ops = .fail e s →
      Starves ops e s := by
  induction ops with
  | nil =>
    intro out e s h
    cases h
  | cons top rest ih =>
    intro out e s h
    cases top with
    | openParen => cases h
    | op o =>
      simp only [pushOp] at h
      split at h
      · split at h
        · exact (ih h).cons o
        · next heq =>
          cases h
          exact .of_applyOp heq
      · cases h

/-- A closing parenthesis fails below an operator that does, or because all
    that waits are operators. -/
theorem fail_of_closeParen {ops : List Pending} :
    ∀ {out : List Expr} {e : ParseError} {s : State}, closeParen out ops = .fail e s →
      Starves ops e s ∨ ∃ os out', ops = os.map .op ∧ settle os out = .ok () out' ∧
        e = .neverOpened ∧ s = ⟨out', []⟩ := by
  induction ops with
  | nil =>
    intro out e s h
    cases h
    exact Or.inr ⟨[], out, rfl, rfl, rfl, rfl⟩
  | cons top rest ih =>
    intro out e s h
    cases top with
    | openParen => exact nomatch h
    | op o =>
      simp only [closeParen] at h
      split at h
      · next mid heq =>
        rcases ih h with hst | ⟨os, out', rfl, hs, he, rfl⟩
        · exact Or.inl (hst.cons o)
        · exact Or.inr ⟨o :: os, out', rfl, by rw [settle_cons heq, hs], he, rfl⟩
      · next heq =>
        cases h
        exact Or.inl (.of_applyOp heq)

/-- The end of the input fails at an operator that does, or at a parenthesis
    below operators that settle. -/
theorem fail_of_drain {ops : List Pending} :
    ∀ {out : List Expr} {e : ParseError} {s : State}, drain out ops = .fail e s →
      Starves ops e s ∨ ∃ os rest out', ops = os.map .op ++ .openParen :: rest ∧
        settle os out = .ok () out' ∧ e = .neverClosed ∧ s = ⟨out', rest⟩ := by
  induction ops with
  | nil => exact fun h => nomatch h
  | cons top rest ih =>
    intro out e s h
    cases top with
    | openParen =>
      cases h
      exact Or.inr ⟨[], rest, out, rfl, rfl, rfl, rfl⟩
    | op o =>
      simp only [drain] at h
      split at h
      · next mid heq =>
        rcases ih h with hst | ⟨os, rest, out', rfl, hs, he, rfl⟩
        · exact Or.inl (hst.cons o)
        · exact Or.inr ⟨o :: os, rest, out', rfl, by rw [settle_cons heq, hs], he, rfl⟩
      · next heq =>
        cases h
        exact Or.inl (.of_applyOp heq)

/-- A run over the tokens from the given state fails with the error and leaves
    the last state behind. -/
inductive Refusal (ts : List Token) (s₀ : State) : ParseError → State → Prop where
  /-- Behind some of the tokens, or at the end, operators that wait settle down
      to one that finds too few operands. -/
  | starves {before : List Token} {s : State} {os : List Operator} {o : Operator}
    {rest : List Pending} (hpre : before <+: ts) (hread : readAll before s₀ = .ok () s)
    (hops : s.operators = os.map .op ++ .op o :: rest) :
    Refusal ts s₀ (.notEnoughOperands o) ⟨[], rest⟩
  /-- A parenthesis closes where only operators wait. -/
  | neverOpened {before after : List Token} {s : State} {os : List Operator} {out : List Expr}
    (hts : ts = before ++ .closeParen :: after) (hread : readAll before s₀ = .ok () s)
    (hops : s.operators = os.map .op) (hs : settle os s.output = .ok () out) :
    Refusal ts s₀ .neverOpened ⟨out, []⟩
  /-- A parenthesis waits at the end. -/
  | neverClosed {s : State} {os : List Operator} {rest : List Pending} {out : List Expr}
    (hread : readAll ts s₀ = .ok () s) (hops : s.operators = os.map .op ++ .openParen :: rest)
    (hs : settle os s.output = .ok () out) : Refusal ts s₀ .neverClosed ⟨out, rest⟩
  /-- All has settled in the end, and there is no operand. -/
  | noOperand {s : State} {os : List Operator} (hread : readAll ts s₀ = .ok () s)
    (hops : s.operators = os.map .op) (hs : settle os s.output = .ok () []) :
    Refusal ts s₀ .noOperand ⟨[], []⟩
  /-- All has settled in the end, and there are several operands. -/
  | tooManyOperands {s : State} {os : List Operator} {out : List Expr}
    (hread : readAll ts s₀ = .ok () s) (hops : s.operators = os.map .op)
    (hs : settle os s.output = .ok () out) (hlen : 2 ≤ out.length) :
    Refusal ts s₀ (.tooManyOperands out.length) ⟨out, []⟩

theorem Refusal.of_starves {ts before : List Token} {s₀ s left : State} {e : ParseError}
    (hpre : before <+: ts) (hread : readAll before s₀ = .ok () s)
    (h : Starves s.operators e left) : Refusal ts s₀ e left := by
  rcases h with ⟨os, o, rest, hops, rfl, rfl⟩
  exact .starves hpre hread hops

/-- The token at which reading fails, and what was read before it. -/
theorem exists_fail_of_readAll {ts : List Token} :
    ∀ {s₀ left : State} {e : ParseError}, readAll ts s₀ = .fail e left →
      ∃ before t after s, ts = before ++ t :: after ∧ readAll before s₀ = .ok () s ∧
        readToken t s = .fail e left := by
  induction ts with
  | nil => exact fun h => nomatch h
  | cons t ts ih =>
    intro s₀ left e h
    rcases Outcome.andThen_eq_fail h with ht | ⟨_, mid, ht, hts⟩
    · exact ⟨[], t, ts, s₀, rfl, rfl, ht⟩
    · rcases ih hts with ⟨before, u, after, s, rfl, hread, hu⟩
      refine ⟨t :: before, u, after, s, rfl, ?_, hu⟩
      rw [readAll, ht, Outcome.andThen_ok, hread]

theorem refusal_of_readAll {ts : List Token} {s₀ left : State} {e : ParseError}
    (h : readAll ts s₀ = .fail e left) : Refusal ts s₀ e left := by
  rcases exists_fail_of_readAll h with ⟨before, t, after, s, hts, hread, ht⟩
  have hpre : before <+: ts := ⟨t :: after, hts.symm⟩
  cases t with
  | atom a => exact nomatch ht
  | openParen => exact nomatch ht
  | op o => exact .of_starves hpre hread (starves_of_pushOp ht)
  | closeParen =>
    rcases fail_of_closeParen ht with hst | ⟨os, out, hops, hs, rfl, rfl⟩
    · exact .of_starves hpre hread hst
    · exact .neverOpened hts hread hops hs

/-- Every run that fails does so in one of the five ways. -/
theorem refusal_of_run {ts : List Token} {s₀ left : State} {e : ParseError}
    (h : run ts s₀ = .fail e left) : Refusal ts s₀ e left := by
  rcases Outcome.andThen_eq_fail h with hread | ⟨_, s, hread, hfinish⟩
  · exact refusal_of_readAll hread
  · rcases Outcome.andThen_eq_fail hfinish with hdrain | ⟨_, last, hdrain, honly⟩
    · rcases fail_of_drain hdrain with hst | ⟨os, rest, out, hops, hs, rfl, rfl⟩
      · exact .of_starves (List.prefix_refl ts) hread hst
      · exact .neverClosed hread hops hs
    · rcases exists_settle_of_drain hdrain with ⟨os, out, hops, hs, rfl⟩
      rcases out with _ | ⟨x, _ | ⟨y, rest⟩⟩
      · cases honly
        exact .noOperand hread hops hs
      · exact nomatch honly
      · cases honly
        exact .tooManyOperands hread hops hs (Nat.le_add_left 2 _)

end Parser

/-- Tokens that are not parsed are refused in one of the five ways. -/
theorem refusal_of_parse {ts : List Token} {e : ParseError} (h : parse ts = .error e) :
    ∃ left, Parser.Refusal ts .empty e left := by
  have hrun : Parser.run ts .empty = .fail e (Parser.run ts .empty).left := by
    rw [Outcome.fail, ← h]
    rfl
  exact ⟨_, Parser.refusal_of_run hrun⟩

end Abacus
