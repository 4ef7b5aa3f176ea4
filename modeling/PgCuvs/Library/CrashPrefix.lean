import Mathlib.Data.List.Basic

/-! Programs of atomic steps on a durable state. A crash leaves the state that
some prefix of the program has reached. -/

namespace CrashPrefix

variable {ω σ τ : Type*} (step : ω → σ → σ)

def run : List ω → σ → σ
  | [], s => s
  | o :: os, s => run os (step o s)

@[simp] theorem run_nil (s : σ) : run step [] s = s := rfl

@[simp] theorem run_cons (o : ω) (os : List ω) (s : σ) :
    run step (o :: os) s = run step os (step o s) := rfl

/-- The state on disk when the program dies after `n` steps. -/
def crash (n : ℕ) (os : List ω) (s : σ) : σ := run step (os.take n) s

theorem run_append (os ps : List ω) (s : σ) :
    run step (os ++ ps) s = run step ps (run step os s) := by
  induction os generalizing s with
  | nil => rfl
  | cons o os ih =>
    rw [List.cons_append, run_cons, run_cons]
    exact ih (step o s)

/-- What every step keeps, every run keeps. -/
theorem run_induct {P : σ → Prop} {os : List ω} (h : ∀ o ∈ os, ∀ s, P s → P (step o s)) {s : σ}
    (hs : P s) : P (run step os s) := by
  induction os generalizing s with
  | nil => exact hs
  | cons o os ih =>
    have hhead : P (step o s) := h o List.mem_cons_self s hs
    exact ih (fun p hp => h p (List.mem_cons_of_mem o hp)) hhead

theorem run_field {β : Type*} {f : σ → β} {os : List ω} (h : ∀ o ∈ os, ∀ s, f (step o s) = f s)
    (s : σ) : f (run step os s) = f s :=
  run_induct (P := fun s' => f s' = f s) step (fun o ho s' hs' => (h o ho s').trans hs') rfl

variable {step} {step' : ω → τ → τ}

theorem run_view {f : σ → τ} (h : ∀ o s, f (step o s) = step' o (f s)) (os : List ω) (s : σ) :
    f (run step os s) = run step' os (f s) := by
  induction os generalizing s with
  | nil => rfl
  | cons o os ih =>
    rw [run_cons, run_cons, ← h o s]
    exact ih (step o s)

/-- Steps without an effect can be left out. -/
theorem run_filter {p : ω → Bool} (h : ∀ o s, p o = false → step o s = s) (os : List ω) (s : σ) :
    run step (os.filter p) s = run step os s := by
  induction os generalizing s with
  | nil => rfl
  | cons o os ih =>
    rcases hp : p o with _ | _
    · rw [List.filter_cons_of_neg (by simp [hp]), run_cons, h o s hp]
      exact ih s
    · rw [List.filter_cons_of_pos hp, run_cons, run_cons]
      exact ih (step o s)

end CrashPrefix
