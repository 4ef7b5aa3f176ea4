import Mathlib.Data.List.MinMax
import PgCuvs.Evict

/-! Placing a new index: when the device the daemon picks has the most room. -/

namespace PgCuvs

def handleSetVramBudget (d : Daemon) (nVecs : ℕ) : Daemon :=
  { d with maxVramPerGpu := fun dev => if dev < cuvsMaxGpus then nVecs else d.maxVramPerGpu dev }

def usableGpus (cfg : Config) : List ℕ := (List.range (nUsableGpus cfg)).map (usableGpu cfg)

def CanHold (d : Daemon) (needed dev : ℕ) : Prop :=
  d.maxVramPerGpu dev = 0 ∨ needed ≤ d.maxVramPerGpu dev

instance (d : Daemon) (needed dev : ℕ) : Decidable (CanHold d needed dev) :=
  inferInstanceAs (Decidable (_ ∨ _))

def headroom (env : Env) (d : Daemon) (dev : ℕ) : ℕ :=
  if d.maxVramPerGpu dev = 0 then env.freeVram d.live dev
  else d.maxVramPerGpu dev - totalVramUsed d dev

/-- The headroom as `pick_gpu_for_index` computes it. -/
def measuredHeadroom (env : Env) (d : Daemon) (dev : ℕ) : ℕ :=
  if 0 < d.maxVramPerGpu dev then sizeSub (d.maxVramPerGpu dev) (totalVramUsed d dev)
  else env.freeVram d.live dev

/-- The pick has the most headroom of the devices that can hold the index at
all, and every subtraction made for it is exact. -/
structure PicksHeadroom (cfg : Config) (env : Env) (d : Daemon) (needed : ℕ) : Prop where
  refuses : pickGpuForIndex cfg env d needed = none →
    ∀ dev ∈ usableGpus cfg, 0 < d.maxVramPerGpu dev ∧ d.maxVramPerGpu dev < needed
  picks : ∀ dev, pickGpuForIndex cfg env d needed = some dev →
    dev ∈ usableGpus cfg ∧ CanHold d needed dev ∧
      ∀ other ∈ usableGpus cfg, CanHold d needed other →
        headroom env d other ≤ headroom env d dev
  exact : ∀ dev ∈ usableGpus cfg, 0 < d.maxVramPerGpu dev → needed ≤ d.maxVramPerGpu dev →
    (sizeSub (d.maxVramPerGpu dev) (totalVramUsed d dev) : ℤ) =
      d.maxVramPerGpu dev - totalVramUsed d dev

section Pick

variable {cfg : Config} {env : Env} {d : Daemon} {needed : ℕ}

theorem canHold_iff {dev : ℕ} :
    CanHold d needed dev ↔ ¬(0 < d.maxVramPerGpu dev ∧ d.maxVramPerGpu dev < needed) := by
  rw [CanHold]
  omega

def pickStep (cfg : Config) (env : Env) (d : Daemon) (needed : ℕ) (best : Option (ℕ × ℕ))
    (i : ℕ) : Option (ℕ × ℕ) :=
  let dev := usableGpu cfg i
  if 0 < d.maxVramPerGpu dev ∧ d.maxVramPerGpu dev < needed then best
  else
    best.elim (some (dev, measuredHeadroom env d dev)) fun p =>
      if p.2 < measuredHeadroom env d dev then some (dev, measuredHeadroom env d dev) else best

theorem pickGpuForIndex_eq_foldl :
    pickGpuForIndex cfg env d needed =
      ((List.range (nUsableGpus cfg)).foldl (pickStep cfg env d needed) none).map Prod.fst := by
  refine congrArg (Option.map Prod.fst) (congrArg (List.foldl · none _) ?_)
  funext best i
  cases best <;> rfl

/-- The scan keeps the best device with its headroom at hand. -/
theorem pickGpuForIndex_eq_argmax :
    pickGpuForIndex cfg env d needed =
      ((usableGpus cfg).filter fun dev => CanHold d needed dev).argmax
        (measuredHeadroom env d) := by
  have hscan : ∀ (l : List ℕ) (best : Option ℕ),
      l.foldl (pickStep cfg env d needed)
          (best.map fun dev => (dev, measuredHeadroom env d dev)) =
        (((l.map (usableGpu cfg)).filter fun dev => CanHold d needed dev).foldl
          (List.argAux fun b c => measuredHeadroom env d c < measuredHeadroom env d b)
          best).map fun dev => (dev, measuredHeadroom env d dev) := by
    intro l
    induction l with
    | nil => intro best; rfl
    | cons i l ih =>
      intro best
      rw [List.foldl_cons, List.map_cons]
      by_cases hfit : CanHold d needed (usableGpu cfg i)
      · rw [List.filter_cons_of_pos (by simpa using hfit), List.foldl_cons, ← ih]
        congr 1
        rw [pickStep, if_neg (canHold_iff.mp hfit)]
        cases best with
        | none => rfl
        | some dev =>
          change (if measuredHeadroom env d dev < measuredHeadroom env d (usableGpu cfg i) then _
            else _) = Option.map _ (if measuredHeadroom env d dev <
              measuredHeadroom env d (usableGpu cfg i) then _ else _)
          rw [apply_ite (Option.map _)]
          rfl
      · rw [List.filter_cons_of_neg (by simpa using hfit), ← ih]
        congr 1
        exact if_pos (not_not.mp fun h => hfit (canHold_iff.mpr h))
  rw [pickGpuForIndex_eq_foldl, List.argmax]
  have h := congrArg (Option.map Prod.fst) (hscan (List.range (nUsableGpus cfg)) none)
  rw [Option.map_map, Function.comp_def, Option.map_id'] at h
  exact h

theorem mem_pickGpuForIndex {dev : ℕ} (h : pickGpuForIndex cfg env d needed = some dev) :
    dev ∈ usableGpus cfg ∧ CanHold d needed dev ∧
      ∀ other ∈ usableGpus cfg, CanHold d needed other →
        measuredHeadroom env d other ≤ measuredHeadroom env d dev := by
  rw [pickGpuForIndex_eq_argmax] at h
  obtain ⟨hmem, hfit⟩ := List.mem_filter.mp (List.argmax_mem h)
  refine ⟨hmem, of_decide_eq_true hfit, fun other hother hfits => ?_⟩
  exact List.le_of_mem_argmax (List.mem_filter.mpr ⟨hother, decide_eq_true hfits⟩) h

theorem pickGpuForIndex_eq_none :
    pickGpuForIndex cfg env d needed = none ↔ ∀ dev ∈ usableGpus cfg, ¬CanHold d needed dev := by
  rw [pickGpuForIndex_eq_argmax, List.argmax_eq_none, List.filter_eq_nil_iff]
  simp only [decide_eq_true_eq]

theorem sizeSub_exact_iff {a b : ℕ} : (sizeSub a b : ℤ) = a - b ↔ b ≤ a := by
  rw [sizeSub]
  split_ifs with h
  · exact ⟨fun _ => h, fun _ => by omega⟩
  · exact ⟨fun heq => by omega, fun hle => absurd hle h⟩

theorem measuredHeadroom_eq {dev : ℕ} (hfit : CanHold d needed dev)
    (h : 0 < d.maxVramPerGpu dev → needed ≤ d.maxVramPerGpu dev →
      totalVramUsed d dev ≤ d.maxVramPerGpu dev) :
    measuredHeadroom env d dev = headroom env d dev := by
  rw [measuredHeadroom, headroom]
  by_cases h0 : d.maxVramPerGpu dev = 0
  · rw [if_neg (by omega), if_pos h0]
  · rw [if_pos (by omega), if_neg h0, sizeSub, if_pos (h (by omega) (hfit.resolve_left h0))]

end Pick

/-- The pick can be trusted exactly as long as no device that could hold the
index is above its budget. -/
theorem pickGpuForIndex_picksHeadroom_iff (cfg : Config) (env : Env) (d : Daemon) (needed : ℕ) :
    PicksHeadroom cfg env d needed ↔
      ∀ dev ∈ usableGpus cfg, 0 < d.maxVramPerGpu dev → needed ≤ d.maxVramPerGpu dev →
        totalVramUsed d dev ≤ d.maxVramPerGpu dev := by
  constructor
  · intro h dev hdev hpos hneeded
    exact sizeSub_exact_iff.mp (h.exact dev hdev hpos hneeded)
  · intro h
    constructor
    · intro hnone dev hdev
      exact not_not.mp fun hno =>
        pickGpuForIndex_eq_none.mp hnone dev hdev (canHold_iff.mpr hno)
    · intro dev hpick
      obtain ⟨hmem, hfit, hbest⟩ := mem_pickGpuForIndex hpick
      refine ⟨hmem, hfit, fun other hother hfits => ?_⟩
      rw [← measuredHeadroom_eq hfits (h other hother), ← measuredHeadroom_eq hfit (h dev hmem)]
      exact hbest other hother hfits
    · intro dev hdev hpos hneeded
      exact sizeSub_exact_iff.mpr (h dev hdev hpos hneeded)

def shrunkBudget : Daemon :=
  handleSetVramBudget
    { Daemon.initial (fun _ => 1000) (fun _ _ => Artifacts.empty) with
      registry := ⟨[{ IndexEntry.zero with
        key := ⟨1, 2⟩, dim := 1, nVecs := 2, vramBytes := 520 }], []⟩ }
    400

theorem pickGpuForIndex_shrunkBudget :
    pickGpuForIndex { sampleConfig with nGpus := 2 } (Env.quiet 0 0) shrunkBudget 100 = some 0 ∧
      headroom (Env.quiet 0 0) shrunkBudget 0 = 0 ∧
      headroom (Env.quiet 0 0) shrunkBudget 1 = 400 ∧
      ¬PicksHeadroom { sampleConfig with nGpus := 2 } (Env.quiet 0 0) shrunkBudget 100 := by
  refine ⟨by decide, by decide, by decide, fun h => ?_⟩
  obtain ⟨-, -, hbest⟩ := h.picks 0 (by decide)
  exact absurd (hbest 1 (by decide) (by decide)) (by decide)

end PgCuvs
