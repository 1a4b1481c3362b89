import Abacus.Parser.Call
import Abacus.Proofs.Parser.Settling

/-!
# Stacks Below a Run

Tokens that are parsed from empty stacks never ask for more than they have put
there. So there may be something below: operands, which are not touched, and
waiting operators, as long as the topmost of them is an open parenthesis, which
stops a loop just as an empty stack does. What succeeds by itself then does the
same on top.

A parser that is asked to read its tokens again has the trees of the runs before
below the new one. It reads them as it did the first time, and only at the end
it counts how many trees there are. A second run is therefore an error, with the
number of runs in it, and no tree is ever made of operands of two runs.

## Main definitions

* `Parser.State.over`: A state on top of other stacks.

## Theorems

* `Parser.readToken_over`, `Parser.readAll_over`: What succeeds by itself does
  the same on top of other stacks.
* `Parser.run_over`: A run on top of operands comes down to counting them.
* `Parser.parse_again`: Reading the same tokens again is an error from the
  second time on.
-/

namespace Abacus

namespace Parser

/-- The state on top of other stacks. -/
def State.over (low : List Expr) (base : List Pending) (s : State) : State :=
  ⟨s.output ++ low, s.operators ++ base⟩

section Over

variable (low : List Expr) {base : List Pending}

theorem applyOp_over {o : Operator} {out out' : List Expr} (h : applyOp o out = .ok () out') :
    applyOp o (out ++ low) = .ok () (out' ++ low) := by
  cases applies_of_applyOp h with
  | unary s x rest => exact applyOp_unary s x (rest ++ low)
  | binary b r l rest => exact applyOp_binary b r l (rest ++ low)

theorem settle_over {os : List Operator} :
    ∀ {out out' : List Expr}, settle os out = .ok () out' →
      settle os (out ++ low) = .ok () (out' ++ low) := by
  induction os with
  | nil =>
    intro out out' h
    cases h
    rfl
  | cons o os ih =>
    intro out out' h
    rcases settle_cons_ok h with ⟨mid, hmid, hrest⟩
    rw [settle_cons (applyOp_over low hmid)]
    exact ih hrest

theorem readToken_over (hbase : ∀ top ∈ base.head?, top = .openParen) {t : Token} {s s' : State}
    (h : readToken t s = .ok () s') :
    readToken t (s.over low base) = .ok () (s'.over low base) := by
  rcases s with ⟨output, operators⟩
  cases t with
  | atom a =>
    cases h
    rfl
  | openParen =>
    cases h
    rfl
  | op o =>
    rcases exists_settle_of_pushOp h with ⟨os, ops, out, rfl, hall, htop, hs, rfl⟩
    -- Where nothing waited any more, the parenthesis below stops the operator.
    have hstop : ∀ top ∈ (ops ++ base).head?, top.precedence < o.threshold := by
      rcases ops with _ | ⟨p, ops⟩
      · intro top ht
        rw [hbase top ht]
        exact o.threshold_pos
      · exact htop
    have hpush := pushOp_of_settle hstop hall (settle_over low hs)
    rw [← List.append_assoc] at hpush
    exact hpush
  | closeParen =>
    rcases exists_settle_of_closeParen h with ⟨os, ops, out, rfl, hs, rfl⟩
    have hclose : closeParen (output ++ low) (os.map .op ++ .openParen :: (ops ++ base)) = _ :=
      closeParen_of_settle (settle_over low hs)
    rw [← List.cons_append, ← List.append_assoc] at hclose
    exact hclose

/-- What succeeds by itself does the same on top of other stacks, of which
    nothing can be settled. -/
theorem readAll_over (hbase : ∀ top ∈ base.head?, top = .openParen) {ts : List Token} :
    ∀ {s s' : State}, readAll ts s = .ok () s' →
      readAll ts (s.over low base) = .ok () (s'.over low base) := by
  induction ts with
  | nil =>
    intro s s' h
    cases h
    rfl
  | cons t ts ih =>
    intro s s' h
    rcases Outcome.andThen_eq_ok h with ⟨_, mid, ht, hts⟩
    rw [readAll, readToken_over low hbase ht]
    exact ih hts

end Over

theorem onlyOperand_of_length {s : State} (h : 2 ≤ s.output.length) :
    onlyOperand s = .fail (.tooManyOperands s.output.length) s := by
  rcases s with ⟨_ | ⟨x, _ | ⟨y, rest⟩⟩, ops⟩
  · exact absurd h (Nat.not_succ_le_zero 1)
  · exact absurd h (Nat.lt_irrefl 1)
  · rfl

/-- On top of operands a run puts its tree there and ends by counting. -/
theorem run_over {ts : List Token} {t : Expr} (h : parse ts = .ok t) (low : List Expr) :
    run ts ⟨low, []⟩ = onlyOperand ⟨t :: low, []⟩ := by
  rcases exists_settle_of_parse h with ⟨mid, os, hread, hops, hs⟩
  -- An empty stack of operators below stops a loop as it is.
  have hbase : ∀ top ∈ ([] : List Pending).head?, top = .openParen := fun _ htop => nomatch htop
  have hover : readAll ts ⟨low, []⟩ = .ok () (mid.over low []) := readAll_over low hbase hread
  rw [run, hover, Outcome.andThen_ok, finish, State.over, List.append_nil, hops,
    drain_of_settle (settle_over low hs)]
  rfl

theorem call_parse_over {ts : List Token} {t : Expr} (h : parse ts = .ok t) (low : List Expr) :
    call ts .parse ⟨low, []⟩ =
      if low = [] then .ok (.tree t) ⟨[t], []⟩
      else .fail (.tooManyOperands (low.length + 1)) ⟨t :: low, []⟩ := by
  rw [call, run_over h]
  by_cases hlow : low = []
  · rw [if_pos hlow, hlow]
    rfl
  · have hlen : 2 ≤ (t :: low).length := by
      have hpos := List.length_pos_iff.mpr hlow
      rw [List.length_cons]
      omega
    rw [if_neg hlow, onlyOperand_of_length hlen]
    rfl

theorem left_call_parse_over {ts : List Token} {t : Expr} (h : parse ts = .ok t)
    (low : List Expr) : (call ts .parse ⟨low, []⟩).left = ⟨t :: low, []⟩ := by
  rw [call_parse_over h]
  split
  · next hlow => rw [hlow]; rfl
  · rfl

/-- Each of the calls finds one tree more than the call before. -/
theorem callAll_parse_over {ts : List Token} {t : Expr} (h : parse ts = .ok t) (n : Nat) :
    ∀ low : List Expr, callAll ts (List.replicate n .parse) ⟨low, []⟩ =
      (List.range n).map fun k => call ts .parse ⟨List.replicate k t ++ low, []⟩ := by
  induction n with
  | zero => exact fun _ => rfl
  | succ n ih =>
    intro low
    rw [List.replicate_succ, callAll, left_call_parse_over h, ih, List.range_succ_eq_map,
      List.map_cons, List.map_map]
    refine congrArg (_ :: ·) (List.map_congr_left fun k _ => ?_)
    -- The tree of the first call is the lowest of those that the later ones find.
    rw [Function.comp_apply, List.replicate_succ', List.append_assoc]
    rfl

/-- Reading its own tokens on top of operands that are there already, a parser
    leaves its tree above them, and this is its answer only if there were none.
    Otherwise it fails with their number. So every time but the first, reading
    the same tokens again fails with the number of times. -/
theorem parse_again {ts : List Token} {t : Expr} (h : parse ts = .ok t) :
    (∀ low : List Expr, call ts .parse ⟨low, []⟩ =
      if low = [] then .ok (.tree t) ⟨[t], []⟩
      else .fail (.tooManyOperands (low.length + 1)) ⟨t :: low, []⟩) ∧
    ∀ n, callAll ts (List.replicate n .parse) .empty = (List.range n).map fun k =>
      if k = 0 then .ok (.tree t) ⟨[t], []⟩
      else .fail (.tooManyOperands (k + 1)) ⟨List.replicate (k + 1) t, []⟩ := by
  refine ⟨call_parse_over h, fun n => ?_⟩
  rw [State.empty, callAll_parse_over h]
  refine List.map_congr_left fun k _ => ?_
  simp only [List.append_nil, call_parse_over h, List.replicate_eq_nil_iff,
    List.length_replicate, List.replicate_succ]

/-- The tokens `e * - pi`, on top of `pi` and three times in a row. -/
theorem parse_again_e_times_neg_pi :
    let ts : List Token :=
      [.atom .e, .op (.binary .mul), .op (.unary .minus), .atom .pi]
    let t : Expr := .binary .mul (.leaf .e) (.unary .minus (.leaf .pi))
    parse ts = .ok t ∧
      call ts .parse ⟨[.leaf .pi], []⟩ = .fail (.tooManyOperands 2) ⟨[t, .leaf .pi], []⟩ ∧
      callAll ts [.parse, .parse, .parse] .empty =
        [.ok (.tree t) ⟨[t], []⟩, .fail (.tooManyOperands 2) ⟨[t, t], []⟩,
          .fail (.tooManyOperands 3) ⟨[t, t, t], []⟩] := by
  intro ts t
  have h : parse ts = .ok t := rfl
  exact ⟨h, (parse_again h).1 [.leaf .pi], (parse_again h).2 3⟩

end Parser

end Abacus
