import Abacus.Config.Session
import Abacus.Proofs.Config.Merging

/-!
# The Configuration in Force

What a session has come to after any number of steps. Looking at the session is
not needed to tell: the steps and the answers to them are enough. A change that
was answered with an error has no part in it, not even with those of its
settings that could have been accepted. The other changes since the last reset
count as if they were a single list of entries, of which the last one that gives
a key a value decides.

`Agrees` says this of a session and the changes that were accepted. It holds at
the start and every step keeps it, so it holds after all of them.

## Main definitions

* `Session.after`: The session after some steps.
* `Session.log`: Steps with the answers to them.
* `Session.accepted`: The changes that were accepted since the last reset.
* `Session.Agrees`: A session is what the accepted changes amount to.

## Theorems

* `Mapping.keyIssue?_eq_none_iff`: Only the two settings are keys without an
  issue.
* `Session.agrees_step`: A step keeps the agreement.
* `Session.agrees_after`: So do any steps.
* `Session.config_in_force`: What a session has come to after any steps.
-/

namespace Abacus

namespace Mapping

theorem keyIssue?_eq_none_iff {key : Scalar} :
    keyIssue? key = none ↔ key = precisionKey ∨ key = implicitMulKey := by
  unfold keyIssue?
  by_cases hkey : key = precisionKey ∨ key = implicitMulKey
  · simp only [hkey, if_true]
  · rw [if_neg hkey]
    refine iff_of_false ?_ hkey
    split <;> exact Option.some_ne_none _

/-- A mapping that is accepted has no other keys than those of the settings. -/
theorem key_of_validate {m : Mapping} {c : Config} (h : m.validate = .ok c) {entry : Scalar × Datum}
    (hmem : entry ∈ m) : entry.1 = precisionKey ∨ entry.1 = implicitMulKey := by
  have hissues := (validate_eq_ok_iff m).mp ⟨c, h⟩
  rw [issues, List.append_eq_nil_iff, List.filterMap_eq_nil_iff] at hissues
  exact keyIssue?_eq_none_iff.mp (hissues.2 entry hmem)

end Mapping

namespace Session

/-- The session after some steps. -/
def after (s : Session) (steps : List Step) : Session :=
  steps.foldl (fun s x => (step s x).2) s

/-- Steps with the answers to them. -/
def log (s : Session) (steps : List Step) : List (Step × Answer) :=
  steps.zip ((runAll steps s).map (·.1))

/-- The accepted changes after one more step. A reset drops all of them. -/
def noted (given : List Mapping) : Step × Answer → List Mapping
  | (.set overrides, .ok) => given ++ [overrides]
  | (.reset, _) => []
  | _ => given

/-- The changes that were accepted since the last reset, in their order. -/
def accepted (entries : List (Step × Answer)) : List Mapping :=
  entries.foldl noted []

/-- A session is what the accepted changes amount to. -/
structure Agrees (given : List Mapping) (s : Session) : Prop where
  valid : s.state.validate = .ok s.config
  distinct : s.state.Distinct
  found : ∀ key, s.state.get? key = Mapping.given? key given.flatten

theorem agrees_start : Agrees [] start :=
  ⟨Mapping.validate_nil, List.nodup_nil, fun _ => rfl⟩

/-- A change is accepted if the whole that it makes is. -/
theorem step_set_ok {s : Session} {overrides : Mapping} {c : Config}
    (h : (s.state.merge overrides).validate = .ok c) :
    step s (.set overrides) = (.ok, ⟨s.state.merge overrides, c⟩) := by
  simp only [step, h]

theorem agrees_step {given : List Mapping} {s : Session} (h : Agrees given s) (x : Step) :
    Agrees (noted given (x, (step s x).1)) (step s x).2 := by
  cases x with
  | set overrides =>
    cases hv : (s.state.merge overrides).validate with
    | ok c =>
      rw [step_set_ok hv]
      refine ⟨hv, Mapping.distinct_merge overrides h.distinct, fun key => ?_⟩
      -- The new entries are the last ones, and so they count before all others.
      rw [Mapping.get?_merge, h.found, noted, List.flatten_append, Mapping.given?_append,
        List.flatten_singleton]
    | error issues =>
      rw [step_set_error hv]
      exact h
  | assign name =>
    rw [step_assign]
    exact h
  | reset => exact agrees_start
  | calculate text =>
    rw [step]
    cases Abacus.calculate text s.config <;> exact h
  | run text =>
    rw [step]
    cases Abacus.run text s.config <;> exact h

theorem agrees_after (steps : List Step) : ∀ {given : List Mapping} {s : Session}, Agrees given s →
    Agrees ((s.log steps).foldl noted given) (s.after steps) := by
  induction steps with
  | nil => exact fun h => h
  | cons x steps ih => exact fun h => ih (agrees_step h x)

/-- Only a step that is answered with `ok` changes the session. -/
theorem step_of_ne_ok {s : Session} {x : Step} (h : (step s x).1 ≠ .ok) : (step s x).2 = s := by
  cases x with
  | set overrides =>
    cases hv : (s.state.merge overrides).validate with
    | ok c => exact absurd (congrArg (·.1) (step_set_ok hv)) h
    | error issues => rw [step_set_error hv]
  | assign name => exact step_assign s name
  | reset => exact absurd rfl h
  | calculate text =>
    rw [step]
    cases Abacus.calculate text s.config <;> rfl
  | run text =>
    rw [step]
    cases Abacus.run text s.config <;> rfl

theorem step_set_iff {s : Session} {overrides : Mapping} :
    (step s (.set overrides)).1 = .ok ↔ ∃ c, (s.state.merge overrides).validate = .ok c ∧
      (step s (.set overrides)).2 = ⟨s.state.merge overrides, c⟩ := by
  cases hv : (s.state.merge overrides).validate with
  | ok c =>
    rw [step_set_ok hv]
    exact ⟨fun _ => ⟨c, rfl, rfl⟩, fun _ => rfl⟩
  | error issues =>
    rw [step_set_error hv]
    constructor
    · exact nofun
    · rintro ⟨c, hc, _⟩
      exact nomatch hc

/-- After any steps the configuration in force is that of the mapping, which has
    no keys but the two settings, each with one entry at most. Under each is the
    last value that a change gave it which was accepted since the last reset.

    A change is accepted if the whole that it makes is, and takes effect as a
    whole; a step with another answer, as every assignment in place is, changes
    nothing. And changes that are made one after the other can be joined
    first. -/
theorem config_in_force (steps : List Step) :
    let s := start.after steps
    s.state.validate = .ok s.config ∧
    s.state.Distinct ∧
    (∀ entry ∈ s.state, entry.1 = precisionKey ∨ entry.1 = implicitMulKey) ∧
    (∀ key, s.state.get? key = Mapping.given? key (accepted (start.log steps)).flatten) ∧
    (∀ overrides, (step s (.set overrides)).1 = .ok ↔
      ∃ c, (s.state.merge overrides).validate = .ok c ∧
        (step s (.set overrides)).2 = ⟨s.state.merge overrides, c⟩) ∧
    (∀ x, (step s x).1 ≠ .ok → (step s x).2 = s) ∧
    (∀ name, (step s (.assign name)).1 = .refused [.frozen name]) ∧
    (∀ base m n : Mapping, m.Distinct → ∀ key,
      ((base.merge m).merge n).get? key = (base.merge (m.merge n)).get? key) := by
  intro s
  have h : Agrees (accepted (start.log steps)) s := agrees_after steps agrees_start
  refine ⟨h.valid, h.distinct, fun entry hmem => Mapping.key_of_validate h.valid hmem, h.found,
    fun overrides => step_set_iff, fun x => step_of_ne_ok, fun name => rfl, ?_⟩
  intro base m n hm key
  exact Mapping.get?_merge_merge key base hm n

/-- A null leaves the precision as it was, and the change that is refused for its
    other key leaves everything as it was. -/
example : (start.after
    [.set [(precisionKey, .text "f32"), (implicitMulKey, .bool true)],
     .set [(precisionKey, .null), (implicitMulKey, .text "off")],
     .set [(precisionKey, .text "f64"), (.text "x", .bool true)],
     .assign "precision"]).config = ⟨.f32, false⟩ := by cbv

end Session

end Abacus
