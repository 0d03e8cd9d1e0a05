import Mathlib.Data.List.Perm.Subperm
import Mathlib.Tactic.Common

/-!
# Runs of a deterministic step function

A system is a step function `step : σ → α → σ`; everything the environment chooses (the
scheduler, a failing write, an upstream answer) is part of the action. A run is the fold of the
step function over a list of actions, and every list of actions is a prefix of a longer run, so a
fact about all runs is a fact about every reachable state.

`Along step P s as` says that `P` holds of every state of the run together with the action taken
there. The invariant rules come in two forms, one for all actions (`run_invariant`) and one for
the actions that satisfy a side condition at the state where they are taken
(`run_invariant_along`).
-/

namespace Lib

section Run

variable {σ α : Type*} (step : σ → α → σ)

/-- The state reached from `s` by the actions `as`. -/
def run (s : σ) (as : List α) : σ := as.foldl step s

@[simp] theorem run_nil (s : σ) : run step s [] = s := rfl
@[simp] theorem run_cons (s : σ) (a : α) (as : List α) : run step s (a :: as) = run step (step s a) as := rfl

theorem run_append (s : σ) (as bs : List α) : run step s (as ++ bs) = run step (run step s as) bs := List.foldl_append

/-- `P` holds of every action of the run, at the state where the action is taken. -/
def Along (P : σ → α → Prop) : σ → List α → Prop
  | _, [] => True
  | s, a :: as => P s a ∧ Along P (step s a) as

instance Along.decidable {P : σ → α → Prop} [∀ s a, Decidable (P s a)] :
    ∀ (s : σ) (as : List α), Decidable (Along step P s as)
  | _, [] => .isTrue trivial
  | s, a :: as =>
    have : Decidable (Along step P (step s a) as) := Along.decidable (step s a) as
    inferInstanceAs (Decidable (P s a ∧ Along step P (step s a) as))

variable {step}

variable {P : σ → α → Prop} {s : σ} {as : List α} {I : σ → Prop}

@[simp] theorem along_nil (s : σ) : Along step P s [] := trivial

@[simp] theorem along_cons {a : α} : Along step P s (a :: as) ↔ P s a ∧ Along step P (step s a) as := Iff.rfl

theorem along_append {as bs : List α} :
    Along step P s (as ++ bs) ↔ Along step P s as ∧ Along step P (run step s as) bs := by
  induction as generalizing s with
  | nil => simp
  | cons a as ih => simp [ih, and_assoc]

/-- What holds of every state and action holds along every run. -/
theorem Along.of_forall (h : ∀ s a, P s a) (s : σ) (as : List α) : Along step P s as := by
  induction as generalizing s with
  | nil => trivial
  | cons a as ih => exact ⟨h s a, ih (step s a)⟩

/-- A condition on the actions alone. -/
theorem Along.of_mem {P : α → Prop} (h : ∀ a ∈ as, P a) (s : σ) : Along step (fun _ a => P a) s as := by
  induction as generalizing s with
  | nil => trivial
  | cons a as ih =>
    exact ⟨h a List.mem_cons_self, ih (fun b hb => h b (List.mem_cons_of_mem _ hb)) (step s a)⟩

theorem Along.and {P Q : σ → α → Prop} (hP : Along step P s as) (hQ : Along step Q s as) :
    Along step (fun s a => P s a ∧ Q s a) s as := by
  induction as generalizing s with
  | nil => trivial
  | cons a as ih => exact ⟨⟨hP.1, hQ.1⟩, ih hP.2 hQ.2⟩

/-- **Invariant rule.** What every step keeps holds in every state reached. -/
theorem run_invariant (hstep : ∀ s a, I s → I (step s a)) (hs : I s) (as : List α) : I (run step s as) := by
  induction as generalizing s with
  | nil => exact hs
  | cons a as ih => exact ih (hstep s a hs)

/-- **Conditional invariant rule.** What the steps that meet `P` keep holds in every state reached
by such steps. -/
theorem run_invariant_along (hstep : ∀ s a, I s → P s a → I (step s a)) (hs : I s) (hP : Along step P s as) :
    I (run step s as) := by
  induction as generalizing s with
  | nil => exact hs
  | cons a as ih => exact ih (hstep s a hs hP.1) hP.2

/-- What holds of every action at a good state holds along every run of good states. -/
theorem along_of_invariant (hstep : ∀ s a, I s → I (step s a)) (hP : ∀ s a, I s → P s a) (hs : I s) (as : List α) :
    Along step P s as := by
  induction as generalizing s with
  | nil => trivial
  | cons a as ih => exact ⟨hP s a hs, ih (hstep s a hs)⟩

/-- The same for runs whose actions meet a side condition. -/
theorem along_of_invariant_along {P Q : σ → α → Prop} (hstep : ∀ s a, I s → Q s a → I (step s a))
    (hP : ∀ s a, I s → Q s a → P s a) (hs : I s) (hQ : Along step Q s as) : Along step P s as := by
  induction as generalizing s with
  | nil => trivial
  | cons a as ih => exact ⟨hP s a hs hQ.1, ih (hstep s a hs hQ.1) hQ.2⟩

/-- **Refinement rule.** When every step of the system carries out at most one call of another system, as seen through
`view`, and what it carries out or leaves pending was pending or is asked for by the step, then every run is a run of
that system that carries out every call asked for at most once. -/
theorem run_refines {τ β : Type*} {step' : τ → β → τ} {view : σ → τ} {pending : σ → List β} {asked : α → List β}
    {I : σ → Prop} (hI : ∀ s a, I s → I (step s a))
    (hstep : ∀ s a, I s → ∃ b : Option β, view (step s a) = run step' (view s) b.toList ∧
      (b.toList ++ pending (step s a)).Subperm (pending s ++ asked a))
    {s : σ} (hs : I s) (as : List α) : ∃ bs, view (run step s as) = run step' (view s) bs ∧
      (bs ++ pending (run step s as)).Subperm (pending s ++ as.flatMap asked) := by
  induction as generalizing s with
  | nil => exact ⟨[], rfl, by simp [List.Subperm.refl]⟩
  | cons a as ih =>
    obtain ⟨b, hview, hcalls⟩ := hstep s a hs
    obtain ⟨bs, hviews, hrest⟩ := ih (hI s a hs)
    refine ⟨b.toList ++ bs, by rw [run_cons, hviews, hview, run_append], ?_⟩
    rw [run_cons, List.flatMap_cons, List.append_assoc, ← List.append_assoc (pending s)]
    have hmore := (List.subperm_append_left b.toList).mpr hrest
    rw [← List.append_assoc b.toList (pending _)] at hmore
    exact hmore.trans ((List.subperm_append_right _).mpr hcalls)

/-- **Exact condition rule.** When a step from a good state keeps `J` exactly if it meets `P`, then `J`
holds in every state of the run exactly if every step meets `P`. -/
theorem run_forall_iff_along {I J : σ → Prop} (hI : ∀ s a, I s → I (step s a))
    (hJ : ∀ s a, I s → J s → (J (step s a) ↔ P s a)) (hs : I s) (hj : J s) (as : List α) :
    (∀ pre, pre <+: as → J (run step s pre)) ↔ Along step P s as := by
  induction as generalizing s with
  | nil =>
    refine iff_of_true (fun pre h => ?_) trivial
    rw [List.prefix_nil.mp h]; exact hj
  | cons a as ih =>
    constructor
    · intro h
      have ha : J (step s a) := h [a] (by simp)
      refine ⟨(hJ s a hs hj).mp ha, (ih (hI s a hs) ha).mp fun pre hp => ?_⟩
      exact h (a :: pre) (List.prefix_cons_inj a |>.mpr hp)
    · rintro ⟨ha, has⟩ pre hp
      cases pre with
      | nil => exact hj
      | cons b pre =>
        obtain ⟨rfl, hpre⟩ := List.cons_prefix_cons.mp hp
        exact (ih (hI s b hs) ((hJ s b hs hj).mpr ha)).mpr has pre hpre

/-- **Absorbing failure rule.** When `J` holds after a step exactly if it held before and the step
meets `P`, then `J` holds at the end of a run exactly if it held at the start and every step meets
`P`. The steps of the run meet the side condition `Q`. -/
theorem run_iff_along {I J : σ → Prop} {P Q : σ → α → Prop} (hI : ∀ s a, I s → Q s a → I (step s a))
    (hJ : ∀ s a, I s → Q s a → (J (step s a) ↔ J s ∧ P s a)) (hs : I s) (hQ : Along step Q s as) :
    J (run step s as) ↔ J s ∧ Along step P s as := by
  induction as generalizing s with
  | nil => exact ⟨fun h => ⟨h, trivial⟩, fun h => h.1⟩
  | cons a as ih =>
    refine (ih (hI s a hs hQ.1) hQ.2).trans ?_
    rw [hJ s a hs hQ.1, along_cons, and_assoc]

end Run

end Lib
