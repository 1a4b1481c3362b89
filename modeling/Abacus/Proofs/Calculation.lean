import Abacus.Calculation
import Abacus.Proofs.Printing

/-!
# What Becomes of a Text

A calculation can come to an end in three places: where the text has no tokens,
where the tokens have no tree, and where there is a value. In the first two the
stages that follow are not reached, whatever they would have made of it, and in
the third nothing can go wrong any more. The walks over a tree do have steps
that could: an operator that finds too few numbers, a precision without the
name. That every tree comes through them is what keeps the failures down to
two.

`Calculates` says this for a text without looking at how it is calculated. Each
place has its own notes, so the number of notes tells where a calculation ended,
and two notes are never left alone.

## Main definitions

* `Evaluates`: The walk over a tree ends with one number, the value.
* `Calculates`: What becomes of a text, with the notes that are left.

## Theorems

* `evaluates_iff`: Every tree comes through the walk in each precision.
* `calculates_iff`: A calculation leaves what becomes of the text.
* `Calculates.length_log`: The number of notes tells the place.
* `Calculates.report`: What a report is made of.
* `calculates_run`: Report, value and notes of a calculation agree.
-/

namespace Abacus

/-- The walk over a tree ends with a single number on its stack, and this is the
    value of the tree. The precision is looked up by its name. -/
inductive Evaluates (name : String) (t : Expr) : Float → Prop where
  | double {v : Float} (hp : Precision.ofName? name = some .f64)
    (hv : Expr.compute Arithmetic.double [.visit t] [] = some [v]) : Evaluates name t v
  | single {v : Float32} (hp : Precision.ofName? name = some .f32)
    (hv : Expr.compute Arithmetic.single [.visit t] [] = some [v]) : Evaluates name t v.toFloat

theorem evaluates_iff {p : Precision} {t : Expr} {v : Float} :
    Evaluates p.name t v ↔ v = t.evaluate p := by
  constructor
  · intro h
    cases h with
    | double hp hv =>
      rw [Precision.ofName?_name] at hp
      cases hp
      rw [Expr.compute_tree] at hv
      cases hv
      exact (t.value_eq_meaning Arithmetic.double).symm
    | single hp hv =>
      rw [Precision.ofName?_name] at hp
      cases hp
      rw [Expr.compute_tree] at hv
      cases hv
      exact congrArg Float32.toFloat (t.value_eq_meaning Arithmetic.single).symm
  · rintro rfl
    cases p with
    | f64 =>
      rw [Expr.evaluate, Expr.value_eq_meaning]
      exact .double rfl (t.compute_tree Arithmetic.double)
    | f32 =>
      rw [Expr.evaluate, Expr.value_eq_meaning]
      exact .single rfl (t.compute_tree Arithmetic.single)

/-- What becomes of a text: what is written about the stages that are done, and
    a failure or a report. -/
inductive Calculates (text : List Char) (config : Config) :
    List String → Except Failure Report → Prop where
  | noTokens {e : LexError} (ht : tokenize text config.implicitMul = .error e) :
    Calculates text config [] (.error (.lex e))
  | noTree {ts : List Token} {e : ParseError} (ht : tokenize text config.implicitMul = .ok ts)
    (hp : parse ts = .error e) :
    Calculates text config
      ["tokenize tokens=" ++ toString ts.length ++ " expr=" ++ String.ofList (quoted text)]
      (.error (.parse e))
  | value {ts : List Token} {t : Expr} {v : Float}
    (ht : tokenize text config.implicitMul = .ok ts) (hp : parse ts = .ok t)
    (hv : Evaluates config.precision.name t v) :
    Calculates text config
      ["tokenize tokens=" ++ toString ts.length ++ " expr=" ++ String.ofList (quoted text),
       "parse tree=" ++ String.ofList t.text,
       "evaluate precision=" ++ config.precision.name ++ " value=" ++ numberLabel v]
      (.ok ⟨text, ts, t, v, config.precision⟩)

/-- A calculation leaves what becomes of its text, and nothing else can. -/
theorem calculates_iff {text : List Char} {config : Config} {log : List String}
    {result : Except Failure Report} :
    Calculates text config log result ↔
      log = (calculateWithNotes text config).1.map Note.message ∧
        result = (calculateWithNotes text config).2 := by
  constructor
  · intro h
    cases h with
    | noTokens ht =>
      simp only [calculateWithNotes, ht, and_true]
      rfl
    | noTree ht hp =>
      simp only [calculateWithNotes, ht, hp, and_true]
      rfl
    | value ht hp hv =>
      rw [← Expr.render_eq_text, evaluates_iff.mp hv]
      simp only [calculateWithNotes, ht, hp, and_true]
      rfl
  · rintro ⟨rfl, rfl⟩
    -- By the stages in their order, as far as they are reached.
    cases ht : tokenize text config.implicitMul with
    | error e =>
      simp only [calculateWithNotes, ht]
      exact .noTokens ht
    | ok ts =>
      cases hp : parse ts with
      | error e =>
        simp only [calculateWithNotes, ht, hp]
        exact .noTree ht hp
      | ok t =>
        have hvalue := Calculates.value ht hp (evaluates_iff.mpr rfl)
        rw [← Expr.render_eq_text] at hvalue
        simp only [calculateWithNotes, ht, hp]
        exact hvalue

/-- How much is written tells where a calculation ended. -/
theorem Calculates.length_log {text : List Char} {config : Config} {log : List String}
    {result : Except Failure Report} (h : Calculates text config log result) :
    (log.length = 0 ↔ ∃ e, result = .error (.lex e)) ∧
    (log.length = 1 ↔ ∃ e, result = .error (.parse e)) ∧
    (log.length = 3 ↔ ∃ r, result = .ok r) ∧ log.length ≠ 2 := by
  cases h <;> simp

/-- What a report is made of. -/
theorem Calculates.report {text : List Char} {config : Config} {log : List String} {r : Report}
    (h : Calculates text config log (.ok r)) :
    r.value = r.tree.evaluate config.precision ∧ r.toDatum = .map
      [(.text "expression", .text (String.ofList text)),
       (.text "tokens", .list (r.tokens.map fun t => .text t.label)),
       (.text "tree", .text (String.ofList r.tree.text)),
       (.text "value", .scalar (.float r.value)),
       (.text "precision", .text config.precision.name)] := by
  cases h with
  | value ht hp hv =>
    rw [Report.toDatum, Expr.render_eq_text]
    exact ⟨evaluates_iff.mp hv, rfl⟩

/-- A calculation, with what is written about its stages, leaves the one thing
    that becomes of its text. Its report alone and its value alone come out the
    same as with the writing, and how much is written tells where it ended. A
    report is made of the labels of the tokens, the text of the tree and the
    value. -/
theorem calculates_run (text : List Char) (config : Config) :
    let log := (calculateWithNotes text config).1.map Note.message
    let result := (calculateWithNotes text config).2
    (∀ log' result', Calculates text config log' result' ↔ log' = log ∧ result' = result) ∧
    run text config = result ∧
    calculate text config = result.map (·.value) ∧
    (log.length = 0 ↔ ∃ e, result = .error (.lex e)) ∧
    (log.length = 1 ↔ ∃ e, result = .error (.parse e)) ∧
    (log.length = 3 ↔ ∃ r, result = .ok r) ∧ log.length ≠ 2 ∧
    (∀ r, result = .ok r → r.value = r.tree.evaluate config.precision ∧ r.toDatum = .map
      [(.text "expression", .text (String.ofList text)),
       (.text "tokens", .list (r.tokens.map fun t => .text t.label)),
       (.text "tree", .text (String.ofList r.tree.text)),
       (.text "value", .scalar (.float r.value)),
       (.text "precision", .text config.precision.name)]) := by
  intro log result
  have h : Calculates text config log result := calculates_iff.mpr ⟨rfl, rfl⟩
  rcases h.length_log with ⟨hzero, hone, hthree, htwo⟩
  refine ⟨fun _ _ => calculates_iff, rfl, calculate_eq_map_run text config, hzero, hone, hthree,
    htwo, fun r hr => ?_⟩
  rw [hr] at h
  exact h.report

end Abacus
