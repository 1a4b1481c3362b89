import Abacus.Expr.Node
import Abacus.Proofs.Writing

/-!
# Roots of the Two Walks

The printer and the evaluation take a root as it is. Both keep it on a list of
work together with what they put there themselves, and look at an item when its
turn comes. So what becomes of a root is a case of what becomes of any list: all
items are done in their order, up to the first one that the walk has no case for.
What an item in front of it comes to is what the loops over trees say.

What the printer puts on its list are nodes and pieces of text, and it has a case
for both. A text that comes from the caller looks like a piece, and is written.
The evaluation has a case for nodes only. On lists without texts the two refuse
the same values, and a text is the only root that one of them takes and the other
one refuses.

A value is refused with its text as a message shows it. A whole number with too
many digits has no such text, and ends both walks with another error.

## Main definitions

* `Node.unprintable?`, `Node.foreign?`: The value for which a walk has no case.
* `Node.pieces`: The pieces that an item of the printer's list comes to.
* `Node.meaning?`: The number that an item of the other list comes to.
* `Node.IsRefused`: A walk is ended by a value that is no node of a tree.
* `Node.WalksAgree`: The two walks refuse a root exactly if it is no tree.

## Theorems

* `Node.printAll_eq`: What a list of work comes to in the printer.
* `Node.compute_visits`: What a list of visits comes to in the evaluation.
* `Node.printAll_eq_error_iff`: Without texts on the list both refuse the same.
* `Node.render_eq_error_iff`: Unless the root is a text, both end with the same
  error.
* `Node.walksAgree_iff`: The walks agree on a root unless it is a text or a number
  that is too long.
-/

namespace Abacus

namespace Node

/-- The value of an item that the printer has no case for. -/
def unprintable? : Node → Option Foreign
  | tree _ => none
  | foreign (.text _) => none
  | foreign value => some value

/-- The value of an item that is no tree. -/
def foreign? : Node → Option Foreign
  | tree _ => none
  | foreign value => some value

/-- The pieces that an item of the printer's list comes to. -/
def pieces : Node → List (List Char)
  | tree t => t.pieces
  | foreign (.text cs) => [cs]
  | foreign _ => []

theorem printAll_tree (written : List (List Char)) (t : Expr) (rest : List Node) :
    printAll written (tree t :: rest) = printAll (t.pieces.reverse ++ written) rest := by
  have h := printAll_ofPrinting written [.tree t] rest
  rwa [Printing.printAll_eq, List.flatMap_singleton] at h

theorem printAll_foreign (written : List (List Char)) {value : Foreign}
    (h : ∀ cs, value ≠ .text cs) (rest : List Node) :
    printAll written (foreign value :: rest) = .error value.refusal := by
  rw [printAll]
  exact h

/-- A list of work is written item by item, up to the first value that is neither
    a tree nor a text. If there is one, it is refused. -/
theorem printAll_eq (written : List (List Char)) (work : List Node) :
    printAll written work =
      match work.findSome? unprintable? with
      | some value => .error value.refusal
      | none => .ok ((work.flatMap pieces).reverse ++ written) := by
  induction work generalizing written with
  | nil => rw [printAll]; rfl
  | cons x rest ih =>
    -- The first item is written or refused, whatever stands behind it.
    have hcons : printAll written (x :: rest) = match x.unprintable? with
        | some value => .error value.refusal
        | none => printAll (x.pieces.reverse ++ written) rest := by
      rcases x with t | (_ | n | v | cs)
      · exact printAll_tree written t rest
      · exact printAll_foreign written (by simp) rest
      · exact printAll_foreign written (by simp) rest
      · exact printAll_foreign written (by simp) rest
      · rw [printAll]
        rfl
    rw [hcons, List.findSome?_cons, List.flatMap_cons, List.reverse_append, List.append_assoc]
    cases x.unprintable? with
    | some value => rfl
    | none => exact ih _

theorem render_tree (t : Expr) : (tree t).render = .ok t.render := by
  have h : printAll [] [tree t] = printAll (Expr.printAll [] [.tree t]) [] :=
    printAll_ofPrinting [] [.tree t] []
  rw [render, h, printAll]
  rfl

theorem render_text (cs : List Char) : (foreign (.text cs)).render = .ok cs := by
  rw [render, printAll_eq]
  simp only [List.findSome?_cons, List.findSome?_nil, unprintable?, pieces, Except.map,
    List.flatMap_cons, List.flatMap_nil, List.append_nil, List.reverse_cons, List.reverse_nil,
    List.nil_append, List.flatten_cons, List.flatten_nil]

theorem render_foreign {value : Foreign} (h : ∀ cs, value ≠ .text cs) :
    (foreign value).render = .error value.refusal := by
  rw [render, printAll_eq]
  cases value with
  | text cs => exact absurd rfl (h cs)
  | _ => rfl

theorem unprintable?_eq_foreign? {x : Node} (h : ∀ cs, x ≠ foreign (.text cs)) :
    x.unprintable? = x.foreign? := by
  rcases x with t | (_ | _ | _ | cs)
  · rfl
  · rfl
  · rfl
  · rfl
  · exact absurd rfl (h cs)

theorem findSome?_unprintable? {work : List Node} (h : ∀ cs, foreign (.text cs) ∉ work) :
    work.findSome? unprintable? = work.findSome? foreign? := by
  induction work with
  | nil => rfl
  | cons x rest ih =>
    have hx : x.unprintable? = x.foreign? :=
      unprintable?_eq_foreign? fun cs hcs => h cs (hcs ▸ List.mem_cons_self)
    have hrest := ih fun cs hcs => h cs (List.mem_cons_of_mem x hcs)
    rw [List.findSome?_cons, List.findSome?_cons, hx, hrest]

section Evaluation

variable {α : Type} (A : Arithmetic α)

/-- The number that an item of the evaluation's list comes to. -/
def meaning? : Node → Option α
  | tree t => some (t.meaning A)
  | foreign _ => none

/-- A list of visits is worked off item by item, up to the first value that is no
    tree. If there is one, it is refused. -/
theorem compute_visits (work : List Node) (stack : List α) :
    compute A (work.map (·, false)) stack =
      match work.findSome? foreign? with
      | some value => some (.error value.refusal)
      | none => some (.ok ((work.filterMap (meaning? A)).reverse ++ stack)) := by
  induction work generalizing stack with
  | nil => rw [List.map_nil, compute]; rfl
  | cons x rest ih =>
    cases x with
    | tree t =>
      rw [List.map_cons, compute_visit, ih]
      simp only [List.findSome?_cons, foreign?, List.filterMap_cons, meaning?, List.reverse_cons,
        List.append_assoc, List.cons_append, List.nil_append]
    | foreign value =>
      rw [List.map_cons, compute_foreign]
      rfl

/-- On a list without texts the two walks refuse the same value. -/
theorem printAll_eq_error_iff {work : List Node} (h : ∀ cs, foreign (.text cs) ∉ work)
    (written : List (List Char)) (stack : List α) (e : NodeError) :
    printAll written work = .error e ↔
      compute A (work.map (·, false)) stack = some (.error e) := by
  rw [printAll_eq, compute_visits, findSome?_unprintable? h]
  cases work.findSome? foreign? with
  | none => exact iff_of_false nofun nofun
  | some value => simp only [Except.error.injEq, Option.some.injEq]

theorem value_eq_error_iff (x : Node) (e : NodeError) :
    x.value A = .error e ↔ compute A [(x, false)] [] = some (.error e) := by
  cases x with
  | tree t =>
    rw [value_tree, compute_tree]
    exact iff_of_false nofun nofun
  | foreign v =>
    rw [value_foreign, compute_foreign]
    simp only [Except.error.injEq, Option.some.injEq]

end Evaluation

/-- A walk is ended by a value that is no node of a tree. -/
def IsRefused {α : Type} (result : Except NodeError α) : Prop :=
  ∃ e, result = .error e ∧ ∃ shown, e.message = "Invalid AST node: " ++ shown

/-- The two walks refuse a root exactly if it is no tree, and nothing else becomes
    of a tree than its text and its value. -/
def WalksAgree (x : Node) (p : Precision) : Prop :=
  (IsRefused x.render ↔ IsRefused (x.evaluate p)) ∧
  (IsRefused (x.evaluate p) ↔ ∀ t, x ≠ tree t) ∧
  ∀ t, x = tree t → (∃ cs, x.render = .ok cs) ∧ ∃ v, x.evaluate p = .ok v

theorem not_isRefused_ok {α : Type} (a : α) : ¬IsRefused (.ok a) := by
  rintro ⟨e, he, _⟩
  cases he

theorem map_eq_error_iff {α β : Type} (f : α → β) (result : Except NodeError α) (e : NodeError) :
    result.map f = .error e ↔ result = .error e := by
  cases result with
  | error e' => simp only [Except.map, Except.error.injEq]
  | ok a => exact iff_of_false nofun nofun

/-- Unless the root is a text, the two walks end with the same error. -/
theorem render_eq_error_iff {x : Node} (h : ∀ cs, x ≠ foreign (.text cs)) (p : Precision)
    (e : NodeError) : x.render = .error e ↔ x.evaluate p = .error e := by
  have hwork : ∀ cs, foreign (.text cs) ∉ [x] := fun cs hcs => h cs (List.mem_singleton.mp hcs).symm
  rw [render, map_eq_error_iff]
  cases p with
  | f64 =>
    rw [printAll_eq_error_iff Arithmetic.double hwork [] [], evaluate, value_eq_error_iff]
    rfl
  | f32 =>
    rw [printAll_eq_error_iff Arithmetic.single hwork [] [], evaluate, map_eq_error_iff,
      value_eq_error_iff]
    rfl

theorem isRefused_render_iff {x : Node} (h : ∀ cs, x ≠ foreign (.text cs)) (p : Precision) :
    IsRefused x.render ↔ IsRefused (x.evaluate p) :=
  exists_congr fun e => and_congr_left fun _ => render_eq_error_iff h p e

theorem message_tooLong_ne (s : String) :
    NodeError.tooLong.message ≠ "Invalid AST node: " ++ s := by
  intro h
  unfold NodeError.message at h
  dsimp only at h
  generalize toString digitLimit = limit at h
  -- The two messages differ in their first letter.
  have hfirst := congrArg (fun m : String => m.toList.head?) h
  have hlong : "Exceeds the limit (".toList.head? = some 'E' := by cbv
  have hrefused : "Invalid AST node: ".toList.head? = some 'I' := by cbv
  simp only [String.toList_append, List.head?_append, hlong, hrefused, Option.some_or,
    Option.some.injEq] at hfirst
  exact absurd hfirst (by decide)

/-- A value is refused if it can be shown. -/
theorem isRefused_refusal {α : Type} (value : Foreign) :
    IsRefused (.error value.refusal : Except NodeError α) ↔ ∃ s, value.shown? = some s := by
  rw [Foreign.refusal]
  cases hs : value.shown? with
  | some s => exact iff_of_true ⟨_, rfl, s, rfl⟩ ⟨s, rfl⟩
  | none =>
    refine iff_of_false ?_ nofun
    rintro ⟨e, he, s, hmessage⟩
    cases he
    exact message_tooLong_ne s hmessage

/-- Only whole numbers cannot be shown. -/
theorem exists_shown?_iff (value : Foreign) :
    (∃ s, value.shown? = some s) ↔
      ∀ n, value = .int n → (toString n.natAbs).length ≤ digitLimit := by
  cases value with
  | int n =>
    simp only [Foreign.shown?, shownInt?, Foreign.int.injEq, forall_eq']
    split
    · next h => exact iff_of_true ⟨_, rfl⟩ h
    · next h => exact iff_of_false nofun h
  | _ => exact iff_of_true ⟨_, rfl⟩ nofun

theorem walksAgree_tree (t : Expr) (p : Precision) : (tree t).WalksAgree p := by
  refine ⟨isRefused_render_iff (by simp) p, ?_, ?_⟩
  · rw [evaluate_tree]
    exact iff_of_false (not_isRefused_ok _) fun h => h t rfl
  · rw [render_tree, evaluate_tree]
    exact fun _ _ => ⟨⟨_, rfl⟩, ⟨_, rfl⟩⟩

theorem walksAgree_foreign_iff {value : Foreign} (h : ∀ cs, value ≠ .text cs) (p : Precision) :
    (foreign value).WalksAgree p ↔ ∃ s, value.shown? = some s := by
  rw [WalksAgree, isRefused_render_iff (fun cs hcs => h cs (Node.foreign.inj hcs)),
    evaluate_foreign, isRefused_refusal]
  constructor
  · rintro ⟨-, hroot, -⟩
    exact hroot.mpr nofun
  · intro hs
    exact ⟨Iff.rfl, iff_of_true hs nofun, nofun⟩

theorem not_walksAgree_text (cs : List Char) (p : Precision) :
    ¬(foreign (.text cs)).WalksAgree p := by
  rw [WalksAgree, render_text, evaluate_foreign]
  rintro ⟨h, _⟩
  exact not_isRefused_ok cs (h.mpr ((isRefused_refusal _).mpr ⟨_, rfl⟩))

/-- The printer and the evaluation refuse the same roots, those that are no
    trees, unless the root is a text or a number that is too long: a text is
    printed as it is, although it has no value, and a number that is too long ends
    both walks, but not as a value that is refused. A tree of any shape has both a
    text and a value. -/
theorem walksAgree_iff (x : Node) (p : Precision) :
    (x.WalksAgree p ↔ (∀ cs, x ≠ foreign (.text cs)) ∧
      ∀ n, x = foreign (.int n) → (toString n.natAbs).length ≤ digitLimit) ∧
    (∀ t, x = tree t → x.render = .ok t.render ∧ x.evaluate p = .ok (t.evaluate p)) ∧
    (∀ value s, x = foreign value → value.shown? = some s →
      x.evaluate p = .error (.notATree s) ∧
        ((∀ cs, value ≠ .text cs) → x.render = .error (.notATree s))) ∧
    (∀ cs, x = foreign (.text cs) → x.render = .ok cs) ∧
    ∀ n, x = foreign (.int n) → digitLimit < (toString n.natAbs).length →
      x.render = .error .tooLong ∧ x.evaluate p = .error .tooLong := by
  refine ⟨?_, ?_, ?_, ?_, ?_⟩
  · cases x with
    | tree t => exact iff_of_true (walksAgree_tree t p) ⟨nofun, nofun⟩
    | foreign value =>
      by_cases htext : ∃ cs, value = .text cs
      · rcases htext with ⟨cs, rfl⟩
        exact iff_of_false (not_walksAgree_text cs p) fun h => h.1 cs rfl
      · have hno : ∀ cs, value ≠ .text cs := fun cs hcs => htext ⟨cs, hcs⟩
        rw [walksAgree_foreign_iff hno, exists_shown?_iff]
        simp only [ne_eq, foreign.injEq, hno, not_false_eq_true, implies_true, true_and]
  · rintro t rfl
    exact ⟨render_tree t, evaluate_tree p t⟩
  · rintro value s rfl hs
    have hrefusal : value.refusal = .notATree s := by rw [Foreign.refusal, hs]
    exact ⟨hrefusal ▸ evaluate_foreign p value, fun h => hrefusal ▸ render_foreign h⟩
  · rintro cs rfl
    exact render_text cs
  · rintro n rfl hn
    have hrefusal : (Foreign.int n).refusal = .tooLong := by
      rw [Foreign.refusal, Foreign.shown?, shownInt?, if_neg (Nat.not_le.mpr hn)]
    exact ⟨hrefusal ▸ render_foreign nofun, hrefusal ▸ evaluate_foreign p _⟩

/-- A text of one letter is printed as it is, and has no value. -/
theorem not_walksAgree_letter : ¬(foreign (.text ['x'])).WalksAgree .f64 :=
  not_walksAgree_text ['x'] .f64

end Node

end Abacus
