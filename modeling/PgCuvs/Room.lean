import PgCuvs.Build.Handle
import PgCuvs.LoadSpec

/-! Making room: evictions leave the budgets and the reservations of builds alone. -/

namespace PgCuvs

structure MakesRoom (cfg : Config) (d d' : Daemon) : Prop where
  evictions : Evictions cfg d.resident d'.resident
  budget : d'.maxVramPerGpu = d.maxVramPerGpu
  pending : d'.pendingBuildVram = d.pendingBuildVram

namespace MakesRoom

variable {cfg : Config} {d d' d'' : Daemon}

theorem refl (d : Daemon) : MakesRoom cfg d d := ⟨Relation.ReflTransGen.refl, rfl, rfl⟩

theorem trans (h : MakesRoom cfg d d') (h' : MakesRoom cfg d' d'') : MakesRoom cfg d d'' :=
  ⟨h.evictions.trans h'.evictions, h'.budget.trans h.budget, h'.pending.trans h.pending⟩

end MakesRoom

section Closed

variable {cfg : Config} {env : Env} {R : Daemon → Daemon → Prop}

theorem EvictClosed.of_buildShards (h : EvictClosed cfg env R) (benv : BuildEnv)
    (frame : BuildFrame) (vecs : List Vec) (sc todo i : ℕ) (d : Daemon) :
    R d (buildShards cfg env benv frame vecs sc todo i d).1 := by
  induction todo generalizing i d with
  | zero => exact h.refl d
  | succ todo ih =>
    simp only [buildShards]
    have hplace := h.of_placeShard d
      (estimateVramBytes (shardRange vecs.length sc i).2 frame.dim frame.graphDegree)
      (usableGpu cfg (i % nUsableGpus cfg))
    split
    · rename_i heq
      rwa [heq] at hplace
    · rename_i d1 dev heq
      rw [heq] at hplace
      have hrest := h.trans hplace (ih (i + 1) d1)
      split
      · exact hplace
      · split
        · rename_i hb
          rwa [hb] at hrest
        · rename_i hb
          rwa [hb] at hrest

theorem EvictClosed.of_runBuild (h : EvictClosed cfg env R) (benv : BuildEnv) (t : BuildTicket)
    (fuel round : ℕ) (d : Daemon) : R d (runBuild cfg env benv t fuel round d).1 := by
  induction fuel generalizing round d with
  | zero => exact h.refl d
  | succ fuel ih =>
    have hstep : R d (retryBuild cfg env d t).1 := h.step d t.targetGpu
    unfold runBuild
    split
    · rcases hretry : retryBuild cfg env d t with ⟨d1, _ | _⟩
      · rwa [hretry] at hstep
      · rw [hretry] at hstep
        exact h.trans hstep (ih _ _)
    · exact h.refl d
    · exact h.refl d

end Closed

section Evict

variable (cfg : Config) (env : Env)

theorem evictLru_room (d : Daemon) (device : ℕ) :
    MakesRoom cfg d (evictLru cfg env d device).1 := by
  refine ⟨evictLru_evictions cfg env d device, ?_, ?_⟩
  all_goals
    unfold evictLru
    split
    · rfl
    · split
      · rfl
      · split_ifs
        · split <;> rfl
        · rfl

theorem evictClosed_room : EvictClosed cfg env (MakesRoom cfg) :=
  ⟨.refl, .trans, evictLru_room cfg env⟩

theorem ensureVram_room (d : Daemon) (needed device : ℕ) :
    MakesRoom cfg d (ensureVram cfg env d needed device).1 :=
  (evictClosed_room cfg env).of_ensureVram d needed device

theorem buildShards_room (benv : BuildEnv) (frame : BuildFrame) (vecs : List Vec) (sc todo i : ℕ)
    (d : Daemon) : MakesRoom cfg d (buildShards cfg env benv frame vecs sc todo i d).1 :=
  (evictClosed_room cfg env).of_buildShards benv frame vecs sc todo i d

theorem runBuild_room (benv : BuildEnv) (t : BuildTicket) (fuel round : ℕ) (d : Daemon) :
    MakesRoom cfg d (runBuild cfg env benv t fuel round d).1 :=
  (evictClosed_room cfg env).of_runBuild benv t fuel round d

end Evict

end PgCuvs
