import Abacus.Proofs.Parser.Soundness

/-!
# Postfix Order

What the parser finds in an arbitrary list of tokens, expression or not. It
does two things at once that do not depend on each other. Atoms and operators
are brought into postfix order, by precedences and parentheses alone, and the
postfix list is worked off over a stack of trees. `Reordered` is the first of
the two, without any operands. The second one undoes `Expr.postfixTokens`, so
a tree is found exactly if the reordered tokens are its postfix form.

This is more than the grammar allows. An operator comes behind its operands in
postfix order wherever it stood before, so `e pi *` is parsed like `e * pi`.
Without implied multiplications nothing keeps a text from being such a list:
two operands abut in it and an operator elsewhere takes the one that is left
over.

## Main definitions

* `Reordered`: Postfix order by precedences and parentheses.
* `Parser.Builds`: A postfix list is worked off over a stack of trees.
* `Parser.stackOnto`: The postfix forms of a stack in front of a list.

## Theorems

* `Parser.stackOnto_of_builds`: Working off undoes the postfix form.
* `Parser.run_iff_reordered`: The parser reorders and works off.
* `parse_iff_reordered`: It finds a tree if the tokens reorder to its postfix
  form.
* `strict_parse_sound_iff`: For which texts without implied multiplications
  it finds derived trees only.
-/

namespace Abacus

/-- Brings atoms and operators into postfix order, with operators and open
    parentheses waiting from before. An operator that waits comes out when an
    operator that it goes before comes in, when its parenthesis is closed or
    at the end. -/
inductive Reordered : List Pending → List Token → List Token → Prop where
  | done (os : List Operator) : Reordered (os.map .op) [] (os.map .op)
  | atom (a : Atom) {ops : List Pending} {ts ps : List Token} (h : Reordered ops ts ps) :
    Reordered ops (.atom a :: ts) (.atom a :: ps)
  | op (o : Operator) {os : List Operator} {ops : List Pending} {ts ps : List Token}
    (hout : ∀ p ∈ os, o.threshold ≤ p.precedence)
    (hstop : ∀ top ∈ ops.head?, top.precedence < o.threshold)
    (h : Reordered (.op o :: ops) ts ps) :
    Reordered (os.map .op ++ ops) (.op o :: ts) (os.map .op ++ ps)
  | openParen {ops : List Pending} {ts ps : List Token} (h : Reordered (.openParen :: ops) ts ps) :
    Reordered ops (.openParen :: ts) ps
  | closeParen {os : List Operator} {ops : List Pending} {ts ps : List Token}
    (h : Reordered ops ts ps) :
    Reordered (os.map .op ++ .openParen :: ops) (.closeParen :: ts) (os.map .op ++ ps)

namespace Parser

/-- Working a postfix list off takes one stack of trees to another. -/
inductive Builds : List Token → List Expr → List Expr → Prop where
  | done (out : List Expr) : Builds [] out out
  | atom (a : Atom) {ps : List Token} {out out' : List Expr}
    (h : Builds ps (.leaf a :: out) out') : Builds (.atom a :: ps) out out'
  | op (o : Operator) {ps : List Token} {out mid out' : List Expr}
    (happly : applyOp o out = .ok () mid) (h : Builds ps mid out') : Builds (.op o :: ps) out out'

/-- The postfix forms of the trees on a stack, the top last, in front of a
    list. -/
def stackOnto : List Expr → List Token → List Token
  | [], ps => ps
  | x :: out, ps => stackOnto out (x.postfixOnto ps)

theorem stackOnto_of_applyOp {o : Operator} {out mid : List Expr}
    (h : applyOp o out = .ok () mid) (ps : List Token) :
    stackOnto out (.op o :: ps) = stackOnto mid ps := by
  cases applies_of_applyOp h with
  | unary s x rest => rfl
  | binary b r l rest => rfl

theorem stackOnto_of_builds {ps : List Token} {out out' : List Expr} (h : Builds ps out out') :
    stackOnto out ps = stackOnto out' [] := by
  induction h with
  | done out => rfl
  | atom a h ih => exact ih
  | op o happly h ih => rw [stackOnto_of_applyOp happly, ih]

theorem builds_postfixOnto (t : Expr) :
    ∀ {ps : List Token} {out out' : List Expr}, Builds ps (t :: out) out' →
      Builds (t.postfixOnto ps) out out' := by
  induction t with
  | leaf a => exact fun h => .atom a h
  | unary s x ih => exact fun h => ih (.op _ (applyOp_unary s x _) h)
  | binary b l r ihl ihr => exact fun h => ihl (ihr (.op _ (applyOp_binary b r l _) h))

/-- A postfix list makes a single tree if it is the postfix form of it. -/
theorem builds_iff_postfixTokens {ps : List Token} {t : Expr} :
    Builds ps [] [t] ↔ ps = t.postfixTokens := by
  constructor
  · exact fun h => stackOnto_of_builds h
  · rintro rfl
    exact builds_postfixOnto t (.done [t])

/-- A run of operators in a postfix list settles. -/
theorem builds_operators_iff {os : List Operator} {ps : List Token} :
    ∀ {out out' : List Expr}, Builds (os.map .op ++ ps) out out' ↔
      ∃ mid, settle os out = .ok () mid ∧ Builds ps mid out' := by
  induction os with
  | nil =>
    intro out out'
    constructor
    · exact fun h => ⟨out, rfl, h⟩
    · rintro ⟨mid, hs, h⟩
      cases hs
      exact h
  | cons o os ih =>
    intro out out'
    constructor
    · intro h
      rcases h with _ | _ | ⟨_, happly, h⟩
      rcases ih.mp h with ⟨mid, hs, hrest⟩
      exact ⟨mid, by rw [settle_cons happly, hs], hrest⟩
    · rintro ⟨mid, hs, h⟩
      rcases settle_cons_ok hs with ⟨out₁, happly, hrest⟩
      exact .op o happly (ih.mpr ⟨mid, hrest, h⟩)

theorem run_cons (t : Token) (ts : List Token) (s : State) :
    run (t :: ts) s = (readToken t s).andThen fun () s => run ts s := by
  simp only [run, readAll]
  rcases readToken t s with ⟨⟨e⟩ | ⟨⟨⟩⟩, left⟩ <;> rfl

theorem exists_reordered_of_run {ts : List Token} {t : Expr} :
    ∀ {out : List Expr} {ops : List Pending} {s : State}, run ts ⟨out, ops⟩ = .ok t s →
      ∃ ps, Reordered ops ts ps ∧ Builds ps out [t] := by
  induction ts with
  | nil =>
    intro out ops s h
    rcases exists_settle_of_run h with ⟨mid, os, hread, hops, hs, _⟩
    cases hread
    change ops = _ at hops
    rw [hops]
    refine ⟨os.map .op, .done os, ?_⟩
    rw [← List.append_nil (os.map _), builds_operators_iff]
    exact ⟨[t], hs, .done [t]⟩
  | cons tok ts ih =>
    intro out ops s h
    rw [run_cons] at h
    rcases Outcome.andThen_eq_ok h with ⟨_, mid, htok, hrest⟩
    cases tok with
    | atom a =>
      cases htok
      rcases ih hrest with ⟨ps, hre, hb⟩
      exact ⟨_, .atom a hre, .atom a hb⟩
    | op o =>
      -- The run that settles comes out here, and is worked off here.
      rcases exists_settle_of_pushOp htok with ⟨os, ops', out', rfl, hout, hstop, hs, rfl⟩
      rcases ih hrest with ⟨ps, hre, hb⟩
      exact ⟨_, .op o hout hstop hre, builds_operators_iff.mpr ⟨out', hs, hb⟩⟩
    | openParen =>
      cases htok
      rcases ih hrest with ⟨ps, hre, hb⟩
      exact ⟨ps, .openParen hre, hb⟩
    | closeParen =>
      rcases exists_settle_of_closeParen htok with ⟨os, ops', out', rfl, hs, rfl⟩
      rcases ih hrest with ⟨ps, hre, hb⟩
      exact ⟨_, .closeParen hre, builds_operators_iff.mpr ⟨out', hs, hb⟩⟩

theorem run_of_reordered {ops : List Pending} {ts ps : List Token} {t : Expr}
    (h : Reordered ops ts ps) :
    ∀ {out : List Expr}, Builds ps out [t] → run ts ⟨out, ops⟩ = .ok t ⟨[t], []⟩ := by
  induction h with
  | done os =>
    intro out hb
    rw [← List.append_nil (os.map _), builds_operators_iff] at hb
    rcases hb with ⟨mid, hs, hb⟩
    cases hb
    exact run_of_settle rfl rfl hs
  | atom a h ih =>
    intro out hb
    rcases hb with _ | ⟨_, hb⟩ | _
    rw [run_cons]
    exact ih hb
  | op o hout hstop h ih =>
    intro out hb
    rcases builds_operators_iff.mp hb with ⟨mid, hs, hb⟩
    rw [run_cons, readToken, pushOp_of_settle hstop hout hs]
    exact ih hb
  | openParen h ih =>
    intro out hb
    rw [run_cons]
    exact ih hb
  | closeParen h ih =>
    intro out hb
    rcases builds_operators_iff.mp hb with ⟨mid, hs, hb⟩
    rw [run_cons, readToken, closeParen_of_settle hs]
    exact ih hb

/-- From any stacks the parser finds a tree exactly if the tokens reorder to a
    list that makes the tree of the operands. -/
theorem run_iff_reordered {ts : List Token} {out : List Expr} {ops : List Pending} {t : Expr} :
    (∃ s, run ts ⟨out, ops⟩ = .ok t s) ↔ ∃ ps, Reordered ops ts ps ∧ Builds ps out [t] := by
  constructor
  · rintro ⟨s, h⟩
    exact exists_reordered_of_run h
  · rintro ⟨ps, hre, hb⟩
    exact ⟨_, run_of_reordered hre hb⟩

end Parser

/-- The parser finds a tree in a list of tokens exactly if the list reorders to
    the postfix form of the tree. -/
theorem parse_iff_reordered {ts : List Token} {t : Expr} :
    parse ts = .ok t ↔ Reordered [] ts t.postfixTokens := by
  rw [parse_eq_ok_iff, Parser.State.empty, Parser.run_iff_reordered]
  constructor
  · rintro ⟨ps, hre, hb⟩
    rw [← Parser.builds_iff_postfixTokens.mp hb]
    exact hre
  · intro h
    exact ⟨_, h, Parser.builds_iff_postfixTokens.mpr rfl⟩

/-- A list is refused if it reorders to the postfix form of no tree. -/
theorem exists_error_iff_reordered {ts : List Token} :
    (∃ e, parse ts = .error e) ↔ ∀ t : Expr, ¬ Reordered [] ts t.postfixTokens := by
  constructor
  · rintro ⟨e, he⟩ t hre
    rw [parse_iff_reordered.mpr hre] at he
    exact nomatch he
  · intro hnone
    cases hparse : parse ts with
    | error e => exact ⟨e, rfl⟩
    | ok t => exact absurd (parse_iff_reordered.mp hparse) (hnone t)

/-- Without implied multiplications the parser finds derived trees only, and
    refuses a text in which two operands abut, exactly if nothing abuts or the
    tokens reorder to the postfix form of no tree. -/
theorem strict_parse_sound_iff {text : List Char} {ts : List Token}
    (h : tokenize text false = .ok ts) :
    ((∀ t, parse ts = .ok t → Derives .sum ts t) ↔
        Separated ts ∨ ∀ t : Expr, ¬ Reordered [] ts t.postfixTokens) ∧
      ((∀ before a b after, ts = before ++ a :: b :: after → a.Abut b →
          ∃ e, parse ts = .error e) ↔
        Separated ts ∨ ∀ t : Expr, ¬ Reordered [] ts t.postfixTokens) := by
  have hsound (hsep : Separated ts) (t : Expr) (hparse : parse ts = .ok t) :
      Derives .sum ts t := derives_of_parse (continued_of_separated h hsep) hparse
  constructor
  · constructor
    · intro hall
      by_cases hsep : Separated ts
      · exact Or.inl hsep
      · -- A tree that is found would be derived, and then nothing abuts.
        refine Or.inr fun t hre => hsep ?_
        exact separated_of_derives (hall t (parse_iff_reordered.mpr hre))
    · rintro (hsep | hnone) t hparse
      · exact hsound hsep t hparse
      · exact absurd (parse_iff_reordered.mp hparse) (hnone t)
  · rw [← exists_error_iff_reordered]
    constructor
    · intro hall
      by_cases hsep : Separated ts
      · exact Or.inl hsep
      · rcases not_separated_iff.mp hsep with ⟨before, a, b, after, hts, hab⟩
        exact Or.inr (hall before a b after hts hab)
    · rintro (hsep | herror) before a b after hts hab
      · exact absurd hsep (not_separated_iff.mpr ⟨before, a, b, after, hts, hab⟩)
      · exact herror

/-- Nothing abuts where the operator is between its operands. -/
theorem strict_parse_e_times_pi :
    tokenize "e*pi".toList false = .ok [.atom .e, .times, .atom .pi] ∧
      Derives .sum [.atom .e, .times, .atom .pi] (.binary .mul (.leaf .e) (.leaf .pi)) := by
  have htok : tokenize "e*pi".toList false = .ok [.atom .e, .times, .atom .pi] := by cbv
  have hsep : Separated [.atom .e, .times, .atom .pi] := by decide
  exact ⟨htok, (strict_parse_sound_iff htok).1.mpr (Or.inl hsep) _ rfl⟩

/-- Two operands abut and the operator behind them takes both. -/
theorem strict_parse_e_pi_times :
    tokenize "e pi *".toList false = .ok [.atom .e, .atom .pi, .times] ∧
      (Token.atom .e).Abut (.atom .pi) ∧
      parse [.atom .e, .atom .pi, .times] = .ok (.binary .mul (.leaf .e) (.leaf .pi)) ∧
      ¬ ∃ t, Derives .sum [.atom .e, .atom .pi, .times] t := by
  refine ⟨by cbv, ⟨rfl, rfl⟩, rfl, ?_⟩
  rintro ⟨t, ht⟩
  exact not_separated_iff.mpr ⟨[], _, _, _, rfl, rfl, rfl⟩ (separated_of_derives ht)

end Abacus
