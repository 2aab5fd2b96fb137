import Mathlib

/-!
Runs of a labelled transition system. `Reaches` is the states reached by steps
that all meet a condition on the state before the step and its label; `run`
executes a given list of labels.
-/
namespace Expbuild.Runs

variable {L S : Type}

/-- The states reached from `s` by steps that are all allowed where they start. -/
inductive Reaches (step : L → S → Option S) (allowed : S → L → Prop) (s : S) : S → Prop where
  | refl : Reaches step allowed s s
  | tail {t u : S} {l : L} : Reaches step allowed s t → allowed t l → step l t = some u → Reaches step allowed s u

/-- Executes the labels in order, as long as each passes the check where it starts. -/
def run (step : L → S → Option S) (check : S → L → Bool) : List L → S → Option S
  | [],s => some s
  | l :: rest,s => if check s l then (step l s).bind (run step check rest) else none

variable {step : L → S → Option S} {allowed : S → L → Prop} {s t u : S}

/-- What holds at the start and is kept by every allowed step holds in every
    state reached. -/
theorem Reaches.invariant {I : S → Prop} (reached : Reaches step allowed s t) (base : I s)
    (kept : ∀ {t u l}, I t → allowed t l → step l t = some u → I u) : I t := by
  induction reached with
  | refl => exact base
  | tail _ may moved ih => exact kept ih may moved

theorem Reaches.trans (reached : Reaches step allowed s t) (rest : Reaches step allowed t u) : Reaches step allowed s u :=
  rest.invariant reached (fun before may moved => .tail before may moved)

theorem Reaches.head {l : L} (may : allowed s l) (moved : step l s = some t) (rest : Reaches step allowed t u) :
    Reaches step allowed s u :=
  .trans (.tail .refl may moved) rest

/-- An executed run whose checks imply the condition reaches its last state. -/
theorem reaches_run {check : S → L → Bool} {labels : List L} (may : ∀ state l, check state l = true → allowed state l)
    (executed : run step check labels s = some t) : Reaches step allowed s t := by
  induction labels generalizing s with
  | nil => cases executed; exact .refl
  | cons l rest ih =>
    simp only [run] at executed
    split at executed
    · rename_i checked
      obtain ⟨middle,moved,ran⟩ := Option.bind_eq_some_iff.mp executed
      exact .head (may s l checked) moved (ih ran)
    · cases executed

theorem reaches_of_run {check : S → L → Bool} {labels : List L} {final : S → Bool}
    (may : ∀ state l, check state l = true → allowed state l)
    (executed : (run step check labels s).any final = true) : ∃ t, Reaches step allowed s t ∧ final t = true := by
  obtain ⟨t,ran,holds⟩ := (Option.any_eq_true _ _).mp executed
  exact ⟨t,reaches_run may ran,holds⟩

/-- Fewer conditions allow more runs. -/
theorem Reaches.mono {other : S → L → Prop} (weaker : ∀ state l, allowed state l → other state l)
    (reached : Reaches step allowed s t) : Reaches step other s t := by
  induction reached with
  | refl => exact .refl
  | tail _ may moved ih => exact .tail ih (weaker _ _ may) moved

end Expbuild.Runs
