import Mathlib.Data.List.Basic

/-! Runs of a deterministic machine on a list of events, and the rule that
carries an invariant through them. -/

namespace Run

variable {σ ε : Type*} (step : σ → ε → σ)

def run : σ → List ε → σ
  | s, [] => s
  | s, e :: es => run (step s e) es

theorem run_append (s : σ) (es fs : List ε) :
    run step s (es ++ fs) = run step (run step s es) fs := by
  induction es generalizing s with
  | nil => rfl
  | cons e es ih => exact ih _

/-- `P` holds at every event, in the state the event finds. -/
def Along (P : σ → ε → Prop) : σ → List ε → Prop
  | _, [] => True
  | s, e :: es => P s e ∧ Along P (step s e) es

instance Along.decidable (P : σ → ε → Prop) [∀ s e, Decidable (P s e)] :
    ∀ s es, Decidable (Along step P s es)
  | _, [] => isTrue trivial
  | s, e :: es => @instDecidableAnd _ _ _ (Along.decidable P (step s e) es)

variable {step} (inv : σ → Prop) {C Q : σ → ε → Prop}

/-- What `C`-steps keep holds at the end of a `C`-run. -/
theorem run_invariant (hstep : ∀ s e, inv s → C s e → inv (step s e)) {s : σ} {es : List ε}
    (hs : inv s) (hC : Along step C s es) : inv (run step s es) := by
  induction es generalizing s with
  | nil => exact hs
  | cons e es ih => exact ih (hstep s e hs hC.1) hC.2

/-- An invariant that looks at the events so far. -/
theorem run_history {hist : List ε → σ → Prop}
    (hstep : ∀ es s e, hist es s → C s e → hist (es ++ [e]) (step s e)) {past es : List ε} {s : σ}
    (hs : hist past s) (hC : Along step C s es) : hist (past ++ es) (run step s es) := by
  induction es generalizing past s with
  | nil =>
    rw [List.append_nil]
    exact hs
  | cons e es ih =>
    have hnext := ih (hstep past s e hs hC.1) hC.2
    rwa [List.append_assoc] at hnext

/-- What the invariant gives at a `C`-step holds along every `C`-run. -/
theorem along_invariant (hstep : ∀ s e, inv s → C s e → inv (step s e))
    (hQ : ∀ s e, inv s → C s e → Q s e) {s : σ} {es : List ε} (hs : inv s)
    (hC : Along step C s es) : Along step Q s es := by
  induction es generalizing s with
  | nil => trivial
  | cons e es ih => exact ⟨hQ s e hs hC.1, ih (hstep s e hs hC.1) hC.2⟩

theorem along_iff (hstep : ∀ s e, inv s → C s e → inv (step s e))
    (hiff : ∀ s e, inv s → (Q s e ↔ C s e)) {s : σ} {es : List ε} (hs : inv s) :
    Along step Q s es ↔ Along step C s es := by
  induction es generalizing s with
  | nil => exact Iff.rfl
  | cons e es ih =>
    refine ⟨fun h => ?_, fun h => ?_⟩
    · have hC : C s e := (hiff s e hs).mp h.1
      exact ⟨hC, (ih (hstep s e hs hC)).mp h.2⟩
    · exact ⟨(hiff s e hs).mpr h.1, (ih (hstep s e hs h.1)).mpr h.2⟩

theorem along_of_forall {P : ε → Prop} {es : List ε} (h : ∀ e ∈ es, P e) (s : σ) :
    Along step (fun _ e => P e) s es := by
  induction es generalizing s with
  | nil => trivial
  | cons e es ih =>
    exact ⟨h e List.mem_cons_self, ih (fun f hf => h f (List.mem_cons_of_mem e hf)) _⟩

theorem Along.and {P Q : σ → ε → Prop} {s : σ} {es : List ε} (hP : Along step P s es)
    (hQ : Along step Q s es) : Along step (fun s e => P s e ∧ Q s e) s es := by
  induction es generalizing s with
  | nil => trivial
  | cons e es ih => exact ⟨⟨hP.1, hQ.1⟩, ih hP.2 hQ.2⟩

theorem Along.mono {s : σ} {es : List ε} (hC : Along step C s es)
    (himp : ∀ s e, C s e → Q s e) : Along step Q s es := by
  induction es generalizing s with
  | nil => trivial
  | cons e es ih => exact ⟨himp s e hC.1, ih hC.2⟩

theorem along_append {s : σ} {es fs : List ε} :
    Along step C s (es ++ fs) ↔ Along step C s es ∧ Along step C (run step s es) fs := by
  induction es generalizing s with
  | nil => simp [run, Along]
  | cons e es ih => exact (and_congr_right fun _ => ih).trans and_assoc.symm

theorem exists_first_not_along {s : σ} {es : List ε} (h : ¬ Along step C s es) :
    ∃ pre e post, es = pre ++ e :: post ∧ Along step C s pre ∧ ¬ C (run step s pre) e := by
  induction es generalizing s with
  | nil => exact absurd trivial h
  | cons e es ih =>
    by_cases hC : C s e
    · obtain ⟨pre, f, post, rfl, hpre, hf⟩ := ih fun hes => h ⟨hC, hes⟩
      exact ⟨e :: pre, f, post, rfl, ⟨hC, hpre⟩, hf⟩
    · exact ⟨[], e, es, rfl, trivial, hC⟩

theorem along_last {s : σ} {es : List ε} {e : ε} (h : Along step C s (es ++ [e])) :
    C (run step s es) e :=
  (along_append.mp h).2.1

end Run
