import Abacus.Parser

/-!
# Settling Waiting Operators

What the three loops over waiting operators have in common: operators from the
top of the stack take their operands, one after the other, until something
stops the loop. `settle` is that common part for a run of operators that is
given beforehand. Which run it is depends on the loop: what comes in settles
those it does not bind tighter than, a closing parenthesis those down to the
opening one, the end of the input all of them.

How tightly an operator must bind to go before another one is a single number,
`Operator.threshold`. Associativity is hidden in it: the power, which groups to
the right, asks for more than its own precedence, and a sign asks for more
than there is.

## Main definitions

* `Pending.precedence`: How tightly what waits binds; an open parenthesis does
  not at all.
* `Operator.threshold`: How tightly an operator must bind to go first.
* `Parser.Applies`: An operator takes its operands off a stack.
* `Parser.settle`: A run of operators takes its operands.

## Theorems

* `applies_of_applyOp`: What an operator that succeeds has done.
* `shouldPop_iff`: What waits goes first if it reaches the threshold.
* `settle_append`: Two runs settle one after the other.
* `pushOp_of_settle`, `closeParen_of_settle`, `drain_of_settle`: The loops
  settle the run on top.
* `exists_settle_of_pushOp`, `exists_settle_of_closeParen`,
  `exists_settle_of_drain`: That is all they do when they succeed.
* `exists_settle_of_run`, `exists_settle_of_parse`, `run_of_settle`: A run
  succeeds if what waits at the end settles to one tree.
* `readAll_append`, `run_append`: Reading goes on from where it was.
* `Outcome.andThen_eq_ok`: Two steps that succeed together succeed in turn.
-/

namespace Abacus

/-- How tightly what waits binds. -/
def Pending.precedence : Pending → Nat
  | op o => o.precedence
  | openParen => 0

/-- How tightly an operator must bind to go before the given one. -/
def Operator.threshold : Operator → Nat
  | unary _ => 5
  | binary .pow => 4
  | binary .mul => 2
  | binary .div => 2
  | binary .add => 1
  | binary .sub => 1

theorem Operator.precedence_le (o : Operator) : o.precedence ≤ 4 := by
  rcases o with s | b
  · exact Nat.le_refl 4
  · cases b <;> decide

theorem Operator.threshold_pos (o : Operator) : 0 < o.threshold := by
  rcases o with s | b
  · exact Nat.zero_lt_succ 4
  · cases b <;> decide

namespace Outcome

variable {σ α β : Type}

theorem fail_ne_ok {e : ParseError} {a : α} {s s' : σ} :
    (fail e s : Outcome σ α) ≠ .ok a s' := by
  intro h
  exact nomatch congrArg Outcome.result h

/-- Two steps that succeed together succeed one after the other. -/
theorem andThen_eq_ok {o : Outcome σ α} {next : α → σ → Outcome σ β} {b : β}
    {s : σ} (h : o.andThen next = .ok b s) :
    ∃ a mid, o = .ok a mid ∧ next a mid = .ok b s := by
  rcases o with ⟨⟨e⟩ | ⟨a⟩, mid⟩
  · exact nomatch h
  · exact ⟨a, mid, rfl, h⟩

end Outcome

namespace Parser

/-- What waits goes before an operator that comes in if it reaches that one's
    threshold. -/
theorem shouldPop_iff (incoming : Operator) (top : Pending) :
    shouldPop incoming top = true ↔ incoming.threshold ≤ top.precedence := by
  cases top with
  | openParen =>
    have hpos := incoming.threshold_pos
    simp only [shouldPop, Pending.precedence, Bool.false_eq_true, false_iff]
    omega
  | op o =>
    have hle := o.precedence_le
    rcases incoming with s | b
    · simp only [shouldPop, Operator.isUnary, Bool.not_true, Bool.false_and, Bool.false_eq_true,
        Pending.precedence, Operator.threshold, false_iff]
      omega
    · cases b <;>
        simp only [shouldPop, Operator.isUnary, Bool.not_false, Bool.true_and,
          Operator.isLeftAssoc, Bool.and_true, Bool.and_false, Bool.or_false, Bool.or_eq_true,
          decide_eq_true_eq, beq_iff_eq, Pending.precedence, Operator.threshold] <;>
        simp only [Operator.precedence] <;> omega

/-- The operator takes its operands off the one stack, and the other one has
    its node in their place. -/
inductive Applies : Operator → List Expr → List Expr → Prop where
  | unary (s : Sign) (x : Expr) (rest : List Expr) :
    Applies (.unary s) (x :: rest) (.unary s x :: rest)
  | binary (b : BinOp) (r l : Expr) (rest : List Expr) :
    Applies (.binary b) (r :: l :: rest) (.binary b l r :: rest)

theorem applies_of_applyOp {o : Operator} {out out' : List Expr}
    (h : applyOp o out = .ok () out') : Applies o out out' := by
  rcases o with s | b
  · rcases out with _ | ⟨x, rest⟩
    · exact nomatch h
    · rw [applyOp_unary] at h
      cases h
      exact .unary s x rest
  · rcases out with _ | ⟨r, _ | ⟨l, rest⟩⟩
    · exact nomatch h
    · exact nomatch h
    · rw [applyOp_binary] at h
      cases h
      exact .binary b r l rest

/-- Lets the operators take their operands one after the other, the first one
    first. -/
def settle : List Operator → List Expr → Outcome (List Expr) Unit
  | [], output => .ok () output
  | o :: os, output =>
    match applyOp o output with
    | ⟨.ok (), output⟩ => settle os output
    | ⟨.error e, output⟩ => .fail e output

theorem settle_cons {o : Operator} {os : List Operator} {out out' : List Expr}
    (h : applyOp o out = .ok () out') : settle (o :: os) out = settle os out' := by
  simp only [settle, h, Outcome.ok]

/-- A run that settles starts with an operator that finds its operands. -/
theorem settle_cons_ok {o : Operator} {os : List Operator} {out out'' : List Expr}
    (h : settle (o :: os) out = .ok () out'') :
    ∃ out', applyOp o out = .ok () out' ∧ settle os out' = .ok () out'' := by
  simp only [settle] at h
  split at h
  · next out' heq => exact ⟨out', heq, h⟩
  · next e out' heq =>
    exact absurd h Outcome.fail_ne_ok

theorem settle_append {os ps : List Operator} :
    ∀ {out out' out'' : List Expr}, settle os out = .ok () out' →
      settle ps out' = .ok () out'' → settle (os ++ ps) out = .ok () out'' := by
  induction os with
  | nil =>
    intro out out' out'' h h'
    cases h
    exact h'
  | cons o os ih =>
    intro out out' out'' h h'
    rcases settle_cons_ok h with ⟨mid, hmid, hrest⟩
    rw [List.cons_append, settle_cons hmid]
    exact ih hrest h'

/-- An operator that comes in settles the run on top if all of it goes first
    and what is below does not. -/
theorem pushOp_of_settle {op : Operator} {ops : List Pending}
    (htop : ∀ top ∈ ops.head?, top.precedence < op.threshold) :
    ∀ {os : List Operator} {out out' : List Expr},
      (∀ o ∈ os, op.threshold ≤ o.precedence) → settle os out = .ok () out' →
      pushOp op out (os.map .op ++ ops) = .ok () ⟨out', .op op :: ops⟩ := by
  intro os
  induction os with
  | nil =>
    intro out out' _ h
    cases h
    rw [List.map_nil, List.nil_append]
    -- The whole run has gone, and what is below it ends the loop.
    rcases ops with _ | ⟨top, rest⟩
    · rfl
    · have hlt := htop top rfl
      cases top with
      | openParen => rfl
      | op o =>
        have hno : ¬ shouldPop op (.op o) = true := by
          rw [shouldPop_iff]
          omega
        simp only [pushOp, if_neg hno]
  | cons o os ih =>
    intro out out' hall h
    rcases settle_cons_ok h with ⟨mid, hmid, hrest⟩
    have hpop : shouldPop op (.op o) = true :=
      (shouldPop_iff op (.op o)).mpr (hall o List.mem_cons_self)
    simp only [List.map_cons, List.cons_append, pushOp, if_pos hpop, hmid, Outcome.ok]
    exact ih (fun p hp => hall p (List.mem_cons_of_mem o hp)) hrest

/-- A closing parenthesis settles the run above the opening one. -/
theorem closeParen_of_settle {ops : List Pending} {os : List Operator} :
    ∀ {out out' : List Expr}, settle os out = .ok () out' →
      closeParen out (os.map .op ++ .openParen :: ops) = .ok () ⟨out', ops⟩ := by
  induction os with
  | nil =>
    intro out out' h
    cases h
    rfl
  | cons o os ih =>
    intro out out' h
    rcases settle_cons_ok h with ⟨mid, hmid, hrest⟩
    simp only [List.map_cons, List.cons_append, closeParen, hmid, Outcome.ok]
    exact ih hrest

/-- The end of the input settles all that waits. -/
theorem drain_of_settle {os : List Operator} :
    ∀ {out out' : List Expr}, settle os out = .ok () out' →
      drain out (os.map .op) = .ok () ⟨out', []⟩ := by
  induction os with
  | nil =>
    intro out out' h
    cases h
    rfl
  | cons o os ih =>
    intro out out' h
    rcases settle_cons_ok h with ⟨mid, hmid, hrest⟩
    simp only [List.map_cons, drain, hmid, Outcome.ok]
    exact ih hrest

/-- What stops an operator that comes in: everything above the stop has gone
    first, and the stop stays below it. -/
theorem exists_settle_of_pushOp {op : Operator} :
    ∀ {ops : List Pending} {out : List Expr} {s : State}, pushOp op out ops = .ok () s →
      ∃ os ops' out', ops = os.map .op ++ ops' ∧ (∀ o ∈ os, op.threshold ≤ o.precedence) ∧
        (∀ top ∈ ops'.head?, top.precedence < op.threshold) ∧ settle os out = .ok () out' ∧
        s = ⟨out', .op op :: ops'⟩ := by
  intro ops
  induction ops with
  | nil =>
    intro out s h
    cases h
    exact ⟨[], [], out, rfl, fun o ho => absurd ho List.not_mem_nil,
      (fun top ht => nomatch ht), rfl, rfl⟩
  | cons top rest ih =>
    intro out s h
    cases top with
    | openParen =>
      cases h
      refine ⟨[], .openParen :: rest, out, rfl, fun o ho => absurd ho List.not_mem_nil, ?_, rfl,
        rfl⟩
      intro top ht
      rw [← Option.some.inj ht]
      exact op.threshold_pos
    | op o =>
      simp only [pushOp] at h
      split at h
      · next hpop =>
        -- The top goes first and belongs to the run.
        split at h
        · next mid heq =>
          rcases ih h with ⟨os, ops', out', rfl, hall, htop, hs, rfl⟩
          refine ⟨o :: os, ops', out', rfl, ?_, htop, ?_, rfl⟩
          · intro p hp
            rcases List.mem_cons.mp hp with rfl | hp
            · exact (shouldPop_iff op (.op p)).mp hpop
            · exact hall p hp
          · rw [settle_cons heq, hs]
        · exact absurd h Outcome.fail_ne_ok
      · next hpop =>
        -- The top stays, and the run is empty.
        cases h
        refine ⟨[], .op o :: rest, out, rfl, fun o ho => absurd ho List.not_mem_nil, ?_, rfl, rfl⟩
        intro top ht
        rw [← Option.some.inj ht]
        rw [shouldPop_iff] at hpop
        omega

/-- A closing parenthesis that succeeds has found the opening one. -/
theorem exists_settle_of_closeParen :
    ∀ {ops : List Pending} {out : List Expr} {s : State}, closeParen out ops = .ok () s →
      ∃ os ops' out', ops = os.map .op ++ .openParen :: ops' ∧ settle os out = .ok () out' ∧
        s = ⟨out', ops'⟩ := by
  intro ops
  induction ops with
  | nil => exact fun h => nomatch h
  | cons top rest ih =>
    intro out s h
    cases top with
    | openParen =>
      cases h
      exact ⟨[], rest, out, rfl, rfl, rfl⟩
    | op o =>
      simp only [closeParen] at h
      split at h
      · next mid heq =>
        rcases ih h with ⟨os, ops', out', rfl, hs, rfl⟩
        exact ⟨o :: os, ops', out', rfl, by rw [settle_cons heq, hs], rfl⟩
      · exact absurd h Outcome.fail_ne_ok

/-- The end of the input that succeeds has found operators only. -/
theorem exists_settle_of_drain :
    ∀ {ops : List Pending} {out : List Expr} {s : State}, drain out ops = .ok () s →
      ∃ os out', ops = os.map .op ∧ settle os out = .ok () out' ∧ s = ⟨out', []⟩ := by
  intro ops
  induction ops with
  | nil =>
    intro out s h
    cases h
    exact ⟨[], out, rfl, rfl, rfl⟩
  | cons top rest ih =>
    intro out s h
    cases top with
    | openParen => exact nomatch h
    | op o =>
      simp only [drain] at h
      split at h
      · next mid heq =>
        rcases ih h with ⟨os, out', rfl, hs, rfl⟩
        exact ⟨o :: os, out', rfl, by rw [settle_cons heq, hs], rfl⟩
      · exact absurd h Outcome.fail_ne_ok

theorem readAll_append (ts us : List Token) :
    ∀ s : State, readAll (ts ++ us) s = (readAll ts s).andThen fun () s => readAll us s := by
  induction ts with
  | nil => intro s; rfl
  | cons t ts ih =>
    intro s
    simp only [List.cons_append, readAll]
    rcases readToken t s with ⟨⟨e⟩ | ⟨⟨⟩⟩, left⟩
    · rfl
    · exact ih left

theorem run_append (ts us : List Token) (s : State) :
    run (ts ++ us) s = (readAll ts s).andThen fun () s => run us s := by
  rw [run, readAll_append]
  rcases readAll ts s with ⟨⟨e⟩ | ⟨⟨⟩⟩, left⟩ <;> rfl

/-- A run that succeeds reads all tokens, and settling what waits then leaves
    the tree alone. -/
theorem exists_settle_of_run {ts : List Token} {s s' : State} {t : Expr}
    (h : run ts s = .ok t s') :
    ∃ mid os, readAll ts s = .ok () mid ∧ mid.operators = os.map .op ∧
      settle os mid.output = .ok () [t] ∧ s' = ⟨[t], []⟩ := by
  rcases Outcome.andThen_eq_ok h with ⟨_, mid, hread, hfinish⟩
  rcases Outcome.andThen_eq_ok hfinish with ⟨_, last, hdrain, honly⟩
  rcases exists_settle_of_drain hdrain with ⟨os, out, hops, hs, rfl⟩
  -- No operand and more than one are errors.
  rcases out with _ | ⟨x, _ | ⟨y, rest⟩⟩
  · exact nomatch honly
  · cases honly
    exact ⟨mid, os, hread, hops, hs, rfl⟩
  · exact nomatch honly

theorem run_of_settle {ts : List Token} {s mid : State} {t : Expr} {os : List Operator}
    (hread : readAll ts s = .ok () mid) (hops : mid.operators = os.map .op)
    (hs : settle os mid.output = .ok () [t]) : run ts s = .ok t ⟨[t], []⟩ := by
  rw [run, hread, Outcome.andThen_ok, finish, hops, drain_of_settle hs]
  rfl

end Parser

theorem parse_eq_ok_iff {ts : List Token} {t : Expr} :
    parse ts = .ok t ↔ ∃ s, Parser.run ts .empty = .ok t s := by
  constructor
  · intro h
    exact ⟨(Parser.run ts .empty).left, by rw [Outcome.ok, ← h]; rfl⟩
  · rintro ⟨s, h⟩
    rw [parse, h]
    rfl

/-- Tokens that are parsed are all read, and settling what waits then leaves
    the tree alone. -/
theorem exists_settle_of_parse {ts : List Token} {t : Expr} (h : parse ts = .ok t) :
    ∃ mid os, Parser.readAll ts .empty = .ok () mid ∧ mid.operators = os.map .op ∧
      Parser.settle os mid.output = .ok () [t] := by
  rcases parse_eq_ok_iff.mp h with ⟨s, hrun⟩
  rcases Parser.exists_settle_of_run hrun with ⟨mid, os, hread, hops, hs, _⟩
  exact ⟨mid, os, hread, hops, hs⟩

end Abacus
