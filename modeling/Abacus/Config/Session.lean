import Abacus.Calculation

/-!
# Sessions

A configuration that changes over time. A session keeps the mapping of all
settings that were made and the configuration they amount to. A change is
laid over the mapping and takes effect only if the whole is accepted;
otherwise nothing changes. A setting can never be changed in place.

## Main definitions

* `Session`: The mapping and the configuration in force.
* `Session.Step`: What can be done in a session.
* `Session.Answer`: What a step answers.
* `Session.step`: Carries out one step.
* `Session.runAll`: Carries out steps one after the other.

## Theorems

* `Session.step_assign`: An assignment in place changes nothing.
* `Session.step_set_error`: A change that is refused changes nothing.
-/

namespace Abacus

/-- The mapping of the settings that were made, and the configuration in
    force. -/
structure Session where
  state : Mapping
  config : Config
  deriving Inhabited

namespace Session

/-- A session in which nothing was set. -/
def start : Session :=
  ⟨[], {}⟩

/-- What can be done in a session. -/
inductive Step where
  /-- Lays settings over the mapping. -/
  | set (overrides : Mapping)
  /-- Tries to change a setting of the configuration in place. -/
  | assign (name : String)
  | reset
  | calculate (text : List Char)
  | run (text : List Char)
  deriving Inhabited

/-- What a step answers. -/
inductive Answer where
  | ok
  | refused (issues : List Issue)
  | failed (failure : Failure)
  | value (v : Float)
  | report (r : Report)
  deriving Inhabited

/-- Carries out one step. -/
def step (s : Session) : Step → Answer × Session
  | .set overrides =>
    let merged := s.state.merge overrides
    match merged.validate with
    | .ok config => (.ok, ⟨merged, config⟩)
    | .error issues => (.refused issues, s)
  | .assign name => (.refused [.frozen name], s)
  | .reset => (.ok, start)
  | .calculate text =>
    match Abacus.calculate text s.config with
    | .ok v => (.value v, s)
    | .error e => (.failed e, s)
  | .run text =>
    match Abacus.run text s.config with
    | .ok r => (.report r, s)
    | .error e => (.failed e, s)

/-- Carries out steps one after the other. Each answer comes with the
    configuration after its step. -/
def runAll : List Step → Session → List (Answer × Config)
  | [], _ => []
  | x :: xs, s =>
    let (answer, after) := step s x
    (answer, after.config) :: runAll xs after

theorem step_assign (s : Session) (name : String) : (step s (.assign name)).2 = s := rfl

theorem step_set_error {s : Session} {overrides : Mapping} {issues : List Issue}
    (h : (s.state.merge overrides).validate = .error issues) :
    step s (.set overrides) = (.refused issues, s) := by
  simp only [step, h]

end Session

end Abacus
