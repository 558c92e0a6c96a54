import Mathlib.Logic.Relation

/-!
Runs of a partial step function.

`step s e = some t` is one step from `s` to `t` under the label `e`. A `Run` is a finite sequence of
such steps, each allowed by a condition on the state it starts from and its label. Every fact about
runs is proved once for a single step: `Run.invariant` carries a property along a run, `Run.related`
a reflexive and transitive relation. `follow` executes a list of labels where all of them are allowed,
and `run_of_follow` turns an execution into a run.
-/
namespace Psop

variable {σ ε : Type*} {step : σ → ε → Option σ} {allowed : σ → ε → Prop}

inductive Run (step : σ → ε → Option σ) (allowed : σ → ε → Prop) : σ → σ → Prop
  | refl (s : σ) : Run step allowed s s
  | tail {s t u : σ} {e : ε} (run : Run step allowed s t) (may : allowed t e)
      (stepped : step t e = some u) : Run step allowed s u

/-- No condition on the steps. -/
abbrev anyStep : σ → ε → Prop := fun _ _ => True

namespace Run

/-- What every allowed step preserves holds along the whole run. -/
theorem invariant {inv : σ → Prop}
    (preserved : ∀ s e t, inv s → allowed s e → step s e = some t → inv t)
    {s t : σ} (run : Run step allowed s t) (start : inv s) : inv t := by
  induction run with
  | refl => exact start
  | tail _ may stepped ih => exact preserved _ _ _ ih may stepped

/-- A preorder that relates the two ends of every allowed step from a state of the invariant relates
the two ends of the run. -/
theorem related {inv : σ → Prop} {rel : σ → σ → Prop} (same : ∀ s, rel s s)
    (chain : ∀ s t u, rel s t → rel t u → rel s u)
    (preserved : ∀ s e t, inv s → allowed s e → step s e = some t → inv t)
    (moved : ∀ s e t, inv s → allowed s e → step s e = some t → rel s t)
    {s t : σ} (run : Run step allowed s t) (start : inv s) : rel s t := by
  induction run with
  | refl => exact same _
  | tail run may stepped ih =>
    have held := run.invariant preserved start
    exact chain _ _ _ ih (moved _ _ _ held may stepped)

theorem single {s t : σ} {e : ε} (may : allowed s e) (stepped : step s e = some t) :
    Run step allowed s t :=
  .tail (.refl s) may stepped

theorem trans {s t u : σ} (first : Run step allowed s t) (second : Run step allowed t u) :
    Run step allowed s u := by
  induction second with
  | refl => exact first
  | tail _ may stepped ih => exact .tail ih may stepped

theorem mono {weaker : σ → ε → Prop} (imp : ∀ s e, allowed s e → weaker s e) {s t : σ}
    (run : Run step allowed s t) : Run step weaker s t := by
  induction run with
  | refl => exact .refl _
  | tail _ may stepped ih => exact .tail ih (imp _ _ may) stepped

end Run

/-- The state after a list of labels, `none` as soon as one of them is not allowed or has no step. -/
def follow (step : σ → ε → Option σ) (allowed : σ → ε → Prop) [∀ s e, Decidable (allowed s e)] :
    σ → List ε → Option σ
  | s, [] => some s
  | s, e :: es => if allowed s e then (step s e).bind fun t => follow step allowed t es else none

theorem run_of_follow [∀ s e, Decidable (allowed s e)] {s t : σ} {es : List ε}
    (followed : follow step allowed s es = some t) : Run step allowed s t := by
  induction es generalizing s with
  | nil => obtain rfl : s = t := by simpa [follow] using followed
           exact .refl _
  | cons e es ih =>
    simp only [follow] at followed
    split at followed
    · rename_i may
      obtain ⟨u, stepped, rest⟩ := Option.bind_eq_some_iff.mp followed
      exact (Run.single may stepped).trans (ih rest)
    · cases followed

/-- An execution whose labels are allowed wherever they come is a run of allowed steps. -/
theorem run_of_labels {s t : σ} {es : List ε} (followed : follow step anyStep s es = some t)
    (may : ∀ e ∈ es, ∀ s, allowed s e) : Run step allowed s t := by
  induction es generalizing s with
  | nil =>
    obtain rfl : s = t := by simpa [follow] using followed
    exact .refl _
  | cons e es ih =>
    simp only [follow, if_true] at followed
    obtain ⟨u, stepped, rest⟩ := Option.bind_eq_some_iff.mp followed
    have first := Run.single (may e List.mem_cons_self s) stepped
    exact first.trans (ih rest fun e isLater => may e (List.mem_cons_of_mem _ isLater))

/-- A check that an execution passes, where the state to start from is found first. -/
theorem checked_run {α β : Type*} {start : Option α} {run : α → Option β} {check : β → Bool}
    (checked : (start.bind run).any check = true) :
    ∃ a b, start = some a ∧ run a = some b ∧ check b = true := by
  obtain ⟨b, ran, passes⟩ := (Option.any_eq_true ..).mp checked
  obtain ⟨a, isStart, ran⟩ := Option.bind_eq_some_iff.mp ran
  exact ⟨a, b, isStart, ran, passes⟩

end Psop
