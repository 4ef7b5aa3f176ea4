import PgCuvs.Build.Handle

/-! The automatic shard count against the memory the shards are then charged. -/

namespace PgCuvs

/-! `cuvs_auto_shard_count` on machine integers. -/

def sizeT (x : ℕ) : ℕ := x % 2 ^ 64

def intCast (x : ℤ) : ℤ := x.bmod (2 ^ 32)

def neededBytes (nVecs : Int64) (dim : Int32) : ℕ :=
  sizeT (nVecs.toInt.toNat * sizeT (sizeT (dim.toInt.toNat * 4) + 16 * 4))

def shardCap (nVecs : Int64) (nGpus maxShards : Int32) : ℤ :=
  let cap := if 0 < maxShards.toInt ∧ maxShards.toInt < nGpus.toInt then maxShards.toInt
    else nGpus.toInt
  if nVecs.toInt / 2 < cap then intCast (nVecs.toInt / 2) else cap

def wantedShards (needed : ℕ) (budget : UInt64) : ℤ :=
  intCast ((sizeSub (sizeT (needed + budget.toNat)) 1 / budget.toNat : ℕ) : ℤ)

def cuvsAutoShardCountSized (nVecs : Int64) (dim : Int32) (perGpuBudgetBytes : UInt64)
    (nGpus maxShards : Int32) : ℤ :=
  if nVecs.toInt ≤ 0 ∨ dim.toInt ≤ 0 ∨ nGpus.toInt ≤ 0 then 1
  else if perGpuBudgetBytes.toNat = 0 then 1
  else
    let needed := neededBytes nVecs dim
    if needed ≤ perGpuBudgetBytes.toNat then 1
    else
      let cap := shardCap nVecs nGpus maxShards
      -- 0 stands for "does not fit", 1 for an unsharded build
      if cap < 2 then 0
      else
        let want := wantedShards needed perGpuBudgetBytes
        let want := if want < 2 then 2 else want
        if cap < want then 0 else want

/-! What a count is worth. -/

def bytesPerVector (dim graphDegree : ℕ) : ℕ :=
  dim * 4 + (if 0 < graphDegree then graphDegree else 64) * 4

def shardSizes (n s : ℕ) : List ℕ :=
  if s = 1 then [n]
  else (List.range (clampShards s n)).map fun i => (shardRange n (clampShards s n) i).2

def SplitFits (n dim graphDegree budget s : ℕ) : Prop :=
  ∀ size ∈ shardSizes n s, estimateVramBytes size dim graphDegree ≤ budget

/-- The most shards there may be: one for each device, and two vectors in each. -/
def maxSplit (n nGpus maxShards : ℕ) : ℕ :=
  min (if 0 < maxShards ∧ maxShards < nGpus then maxShards else nGpus) (n / 2)

/-- The count respects the budget and gives up only where no count does. -/
structure RespectsBudget (nVecs : Int64) (dim graphDegree : Int32) (budget : UInt64)
    (nGpus maxShards : Int32) : Prop where
  needed : neededBytes nVecs dim = nVecs.toInt.toNat * (dim.toInt.toNat * 4 + 16 * 4)
  rounded : budget.toNat < neededBytes nVecs dim → 2 ≤ shardCap nVecs nGpus maxShards →
    sizeT (neededBytes nVecs dim + budget.toNat) = neededBytes nVecs dim + budget.toNat
  wanted : budget.toNat < neededBytes nVecs dim → 2 ≤ shardCap nVecs nGpus maxShards →
    wantedShards (neededBytes nVecs dim) budget =
      ((neededBytes nVecs dim + budget.toNat - 1) / budget.toNat : ℕ)
  fits : ∀ s : ℕ, 1 ≤ s → cuvsAutoShardCountSized nVecs dim budget nGpus maxShards = s →
    SplitFits nVecs.toInt.toNat dim.toInt.toNat graphDegree.toInt.toNat budget.toNat s
  refuses : cuvsAutoShardCountSized nVecs dim budget nGpus maxShards = 0 →
    ∀ s : ℕ, 1 ≤ s → (s : ℤ) ≤ nGpus.toInt → (0 < maxShards.toInt → (s : ℤ) ≤ maxShards.toInt) →
      s ≤ nVecs.toInt.toNat / 2 →
      ¬SplitFits nVecs.toInt.toNat dim.toInt.toNat graphDegree.toInt.toNat budget.toNat s

section Split

variable {n dim graphDegree budget s : ℕ}

theorem estimateVramBytes_eq (m : ℕ) :
    estimateVramBytes m dim graphDegree = m * bytesPerVector dim graphDegree := rfl

theorem bytesPerVector_pos : 0 < bytesPerVector dim graphDegree := by
  rw [bytesPerVector]
  split_ifs <;> omega

theorem estimateVramBytes_le_iff {m : ℕ} :
    estimateVramBytes m dim graphDegree ≤ budget ↔ m ≤ budget / bytesPerVector dim graphDegree := by
  rw [estimateVramBytes_eq, Nat.le_div_iff_mul_le bytesPerVector_pos]

theorem shardRange_le_iff {sc q : ℕ} (hsc : 0 < sc) :
    (∀ i < sc, (shardRange n sc i).2 ≤ q) ↔ n ≤ sc * q := by
  have hdm := Nat.div_add_mod n sc
  have hlt := Nat.mod_lt n hsc
  constructor
  · intro h
    have h0 := h 0 hsc
    simp only [shardRange] at h0
    split_ifs at h0 with hrem
    · calc n = sc * (n / sc) + n % sc := hdm.symm
        _ ≤ sc * (n / sc) + sc * 1 := by omega
        _ = sc * (n / sc + 1) := (Nat.mul_add ..).symm
        _ ≤ sc * q := Nat.mul_le_mul_left sc h0
    · calc n = sc * (n / sc) := by omega
        _ ≤ sc * q := Nat.mul_le_mul_left sc (by omega)
  · intro h i hi
    have hle : n / sc ≤ q := Nat.div_le_of_le_mul h
    simp only [shardRange]
    split_ifs with hrem
    · by_contra hgt
      obtain rfl : q = n / sc := by omega
      omega
    · omega

theorem splitFits_iff (hs : 1 ≤ s) (hn : s = 1 ∨ s ≤ n / 2) :
    SplitFits n dim graphDegree budget s ↔
      n ≤ min s shardsMax * (budget / bytesPerVector dim graphDegree) := by
  rw [SplitFits, shardSizes]
  by_cases h1 : s = 1
  · subst h1
    rw [if_pos rfl, List.forall_mem_singleton, estimateVramBytes_le_iff]
    rw [show min 1 shardsMax = 1 from rfl, Nat.one_mul]
  · have hclamp : clampShards s n = min s shardsMax := by
      rw [clampShards]
      have := hn.resolve_left h1
      omega
    have hpos : 0 < min s shardsMax := Nat.lt_min.mpr ⟨hs, by decide⟩
    rw [if_neg h1, List.forall_mem_map, hclamp, ← shardRange_le_iff hpos]
    simp only [List.mem_range, estimateVramBytes_le_iff]

end Split

/-- Counting `graphDegree` links for a vector gives an answer that counting sixteen,
and rounding up bytes in place of vectors, gives too. -/
def CountsAgree (n dim graphDegree budget nGpus maxShards : ℕ) : Prop :=
  let needed := n * (dim * 4 + 16 * 4)
  let want := (needed + budget - 1) / budget
  let rows := budget / bytesPerVector dim graphDegree
  let cap := maxSplit n nGpus maxShards
  if needed ≤ budget then n ≤ rows
  else if want ≤ cap then n ≤ min want shardsMax * rows
  else min cap shardsMax * rows < n

def SizesFit (n dim budget nGpus maxShards : ℕ) : Prop :=
  let needed := n * (dim * 4 + 16 * 4)
  needed < 2 ^ 64 ∧ (budget < needed → 2 ≤ maxSplit n nGpus maxShards →
    needed + budget < 2 ^ 64 ∧ (needed + budget - 1) / budget < 2 ^ 31)

section Exact

variable {n dim graphDegree budget nGpus maxShards : ℕ}

theorem two_le_want {needed : ℕ} (hb : 0 < budget) (h : budget < needed) :
    2 ≤ (needed + budget - 1) / budget := by
  rw [Nat.le_div_iff_mul_le hb]
  omega

theorem refuses_iff {cap : ℕ} (hn : 0 < n) (hcap : cap ≤ n / 2) :
    (∀ s, 1 ≤ s → s ≤ cap → ¬SplitFits n dim graphDegree budget s) ↔
      min cap shardsMax * (budget / bytesPerVector dim graphDegree) < n := by
  constructor
  · intro h
    rcases Nat.eq_zero_or_pos cap with rfl | hpos
    · rwa [Nat.zero_min, Nat.zero_mul]
    · have hfull := h cap hpos le_rfl
      rw [splitFits_iff hpos (Or.inr hcap)] at hfull
      exact Nat.lt_of_not_le hfull
  · intro h s hs hle
    rw [splitFits_iff hs (Or.inr (hle.trans hcap))]
    have hmin : min s shardsMax ≤ min cap shardsMax := by omega
    exact Nat.not_le_of_lt (lt_of_le_of_lt (Nat.mul_le_mul_right _ hmin) h)

theorem cuvsAutoShardCount_eq (hn : 0 < n) (hd : 0 < dim) (hb : 0 < budget) (hg : 0 < nGpus) :
    cuvsAutoShardCount n dim budget nGpus maxShards =
      if n * (dim * 4 + 16 * 4) ≤ budget then 1
      else if (n * (dim * 4 + 16 * 4) + budget - 1) / budget ≤ maxSplit n nGpus maxShards then
        (n * (dim * 4 + 16 * 4) + budget - 1) / budget
      else 0 := by
  rw [cuvsAutoShardCount, if_neg (by omega), if_neg (by omega), maxSplit]
  dsimp only
  generalize min (if 0 < maxShards ∧ maxShards < nGpus then maxShards else nGpus) (n / 2) = cap
  generalize n * (dim * 4 + 16 * 4) = needed
  by_cases hfit : needed ≤ budget
  · rw [if_pos hfit, if_pos hfit]
  · have hwant := two_le_want hb (Nat.lt_of_not_le hfit)
    rw [if_neg hfit, if_neg hfit, Nat.max_eq_right hwant]
    generalize (needed + budget - 1) / budget = want at *
    split_ifs <;> omega

theorem cuvsAutoShardCount_respects_iff (hn : 0 < n) (hd : 0 < dim) (hb : 0 < budget)
    (hg : 0 < nGpus) :
    ((1 ≤ cuvsAutoShardCount n dim budget nGpus maxShards →
        SplitFits n dim graphDegree budget (cuvsAutoShardCount n dim budget nGpus maxShards)) ∧
      (cuvsAutoShardCount n dim budget nGpus maxShards = 0 →
        ∀ s, 1 ≤ s → s ≤ maxSplit n nGpus maxShards → ¬SplitFits n dim graphDegree budget s)) ↔
      CountsAgree n dim graphDegree budget nGpus maxShards := by
  have hcap : maxSplit n nGpus maxShards ≤ n / 2 := Nat.min_le_right _ _
  rw [cuvsAutoShardCount_eq hn hd hb hg, CountsAgree]
  by_cases hfit : n * (dim * 4 + 16 * 4) ≤ budget
  · rw [if_pos hfit, if_pos hfit, splitFits_iff le_rfl (Or.inl rfl), Nat.min_eq_left (by decide),
      Nat.one_mul]
    exact ⟨fun h => h.1 le_rfl, fun h => ⟨fun _ => h, fun h0 => absurd h0 (by decide)⟩⟩
  rw [if_neg hfit, if_neg hfit]
  have hwant := two_le_want hb (Nat.lt_of_not_le hfit)
  generalize (n * (dim * 4 + 16 * 4) + budget - 1) / budget = want at *
  by_cases hle : want ≤ maxSplit n nGpus maxShards
  · rw [if_pos hle, if_pos hle, ← splitFits_iff (by omega) (Or.inr (hle.trans hcap))]
    exact ⟨fun h => h.1 (by omega), fun h => ⟨fun _ => h, fun h0 => by omega⟩⟩
  · rw [if_neg hle, if_neg hle, refuses_iff hn hcap]
    exact ⟨fun h => h.2 rfl, fun h => ⟨fun h0 => absurd h0 (by decide), fun _ => h⟩⟩

end Exact

/-! The machine integers. -/

section Sized

variable {nVecs : Int64} {dim : Int32} {budget : UInt64} {nGpus maxShards : Int32}

theorem sizeT_eq_iff {x : ℕ} : sizeT x = x ↔ x < 2 ^ 64 := by
  rw [sizeT]
  constructor
  · intro h
    rw [← h]
    exact Nat.mod_lt _ (by decide)
  · exact Nat.mod_eq_of_lt

theorem intCast_eq_iff {x : ℕ} : intCast x = x ↔ x < 2 ^ 31 := by
  rw [intCast, Int.bmod_def]
  split_ifs <;> omega

theorem neededBytes_eq : neededBytes nVecs dim =
    sizeT (nVecs.toInt.toNat * (dim.toInt.toNat * 4 + 16 * 4)) := by
  have hd := dim.toInt_lt
  have h4 : sizeT (dim.toInt.toNat * 4) = dim.toInt.toNat * 4 := sizeT_eq_iff.mpr (by omega)
  have h64 : sizeT (dim.toInt.toNat * 4 + 16 * 4) = dim.toInt.toNat * 4 + 16 * 4 :=
    sizeT_eq_iff.mpr (by omega)
  rw [neededBytes, h4, h64]

theorem le_maxSplit_iff {n s : ℕ} (hs : 1 ≤ s) :
    s ≤ maxSplit n nGpus.toInt.toNat maxShards.toInt.toNat ↔
      (s : ℤ) ≤ nGpus.toInt ∧ (0 < maxShards.toInt → (s : ℤ) ≤ maxShards.toInt) ∧ s ≤ n / 2 := by
  rw [maxSplit]
  split_ifs <;> omega

theorem shardCap_eq (hn : 0 < nVecs.toInt) (hg : 0 < nGpus.toInt) :
    shardCap nVecs nGpus maxShards =
      maxSplit nVecs.toInt.toNat nGpus.toInt.toNat maxShards.toInt.toNat := by
  have hgpus := nGpus.toInt_lt
  rw [shardCap, maxSplit]
  have hcap : (if 0 < maxShards.toInt ∧ maxShards.toInt < nGpus.toInt then maxShards.toInt
      else nGpus.toInt) = ((if 0 < maxShards.toInt.toNat ∧
        maxShards.toInt.toNat < nGpus.toInt.toNat then maxShards.toInt.toNat
      else nGpus.toInt.toNat : ℕ) : ℤ) ∧
      (if 0 < maxShards.toInt ∧ maxShards.toInt < nGpus.toInt then maxShards.toInt
      else nGpus.toInt) ≤ nGpus.toInt := by
    split_ifs <;> omega
  rw [hcap.1] at *
  generalize (if 0 < maxShards.toInt.toNat ∧ maxShards.toInt.toNat < nGpus.toInt.toNat then
    maxShards.toInt.toNat else nGpus.toInt.toNat : ℕ) = cap at *
  have hcast : nVecs.toInt / 2 < cap → intCast (nVecs.toInt / 2) = nVecs.toInt / 2 := by
    intro h
    rw [intCast, Int.bmod_def]
    split_ifs <;> omega
  split_ifs with h
  · rw [hcast h]
    omega
  · omega

theorem exact_iff_sizesFit (hb : 0 < budget.toNat) (hn : 0 < nVecs.toInt)
    (hg : 0 < nGpus.toInt) :
    (neededBytes nVecs dim = nVecs.toInt.toNat * (dim.toInt.toNat * 4 + 16 * 4) ∧
      (budget.toNat < neededBytes nVecs dim → 2 ≤ shardCap nVecs nGpus maxShards →
        sizeT (neededBytes nVecs dim + budget.toNat) = neededBytes nVecs dim + budget.toNat ∧
        wantedShards (neededBytes nVecs dim) budget =
          ((neededBytes nVecs dim + budget.toNat - 1) / budget.toNat : ℕ))) ↔
      SizesFit nVecs.toInt.toNat dim.toInt.toNat budget.toNat nGpus.toInt.toNat
        maxShards.toInt.toNat := by
  have htwo : (2 ≤ shardCap nVecs nGpus maxShards) ↔
      2 ≤ maxSplit nVecs.toInt.toNat nGpus.toInt.toNat maxShards.toInt.toNat := by
    rw [shardCap_eq hn hg]
    omega
  have hneeded : neededBytes nVecs dim = nVecs.toInt.toNat * (dim.toInt.toNat * 4 + 16 * 4) ↔
      nVecs.toInt.toNat * (dim.toInt.toNat * 4 + 16 * 4) < 2 ^ 64 := by
    rw [neededBytes_eq, sizeT_eq_iff]
  rw [SizesFit, htwo, ← hneeded]
  refine and_congr_right fun heq => ?_
  rw [heq]
  refine imp_congr_right fun hlt => imp_congr_right fun _ => ?_
  rw [sizeT_eq_iff]
  refine and_congr_right fun hsum => ?_
  rw [wantedShards, sizeT_eq_iff.mpr hsum, sizeSub, if_pos (by omega), intCast_eq_iff]

/-- Where they are, the count is the one computed on naturals. -/
theorem cuvsAutoShardCountSized_eq (hn : 0 < nVecs.toInt) (hd : 0 < dim.toInt)
    (hb : 0 < budget.toNat) (hg : 0 < nGpus.toInt)
    (hfit : SizesFit nVecs.toInt.toNat dim.toInt.toNat budget.toNat nGpus.toInt.toNat
      maxShards.toInt.toNat) :
    cuvsAutoShardCountSized nVecs dim budget nGpus maxShards =
      cuvsAutoShardCount nVecs.toInt.toNat dim.toInt.toNat budget.toNat nGpus.toInt.toNat
        maxShards.toInt.toNat := by
  obtain ⟨hneeded, hrest⟩ := (exact_iff_sizesFit hb hn hg).mpr hfit
  rw [cuvsAutoShardCountSized, if_neg (by omega), if_neg (by omega),
    cuvsAutoShardCount_eq (by omega) (by omega) hb (by omega), ← hneeded]
  dsimp only
  by_cases hle : neededBytes nVecs dim ≤ budget.toNat
  · rw [if_pos hle, if_pos hle]
    rfl
  rw [if_neg hle, if_neg hle]
  have hlt := Nat.lt_of_not_le hle
  have hwant := two_le_want hb hlt
  by_cases hcap : shardCap nVecs nGpus maxShards < 2
  · rw [if_pos hcap]
    rw [shardCap_eq hn hg] at hcap
    rw [if_neg (by omega)]
    rfl
  · obtain ⟨-, hwanted⟩ := hrest hlt (Int.not_lt.mp hcap)
    rw [if_neg hcap, hwanted, shardCap_eq hn hg]
    split_ifs <;> omega

end Sized

/-- The automatic count respects the budget exactly when its sizes fit and its
sixteen links for a vector lead to the same answer as the links there will be. -/
theorem cuvsAutoShardCount_respectsBudget_iff (nVecs : Int64) (dim graphDegree : Int32)
    (budget : UInt64) (nGpus maxShards : Int32) (hn : 1 ≤ nVecs.toInt) (hd : 1 ≤ dim.toInt)
    (hb : 0 < budget.toNat) (hg : 1 ≤ nGpus.toInt) :
    RespectsBudget nVecs dim graphDegree budget nGpus maxShards ↔
      SizesFit nVecs.toInt.toNat dim.toInt.toNat budget.toNat nGpus.toInt.toNat
          maxShards.toInt.toNat ∧
        CountsAgree nVecs.toInt.toNat dim.toInt.toNat graphDegree.toInt.toNat budget.toNat
          nGpus.toInt.toNat maxShards.toInt.toNat := by
  have hexact := @exact_iff_sizesFit nVecs dim budget nGpus maxShards hb hn hg
  have hcount := @cuvsAutoShardCount_respects_iff nVecs.toInt.toNat dim.toInt.toNat
    graphDegree.toInt.toNat budget.toNat nGpus.toInt.toNat maxShards.toInt.toNat (by omega)
    (by omega) hb (by omega)
  constructor
  · intro h
    have hfit := hexact.mp ⟨h.needed, fun hlt hcap => ⟨h.rounded hlt hcap, h.wanted hlt hcap⟩⟩
    have heq := cuvsAutoShardCountSized_eq hn hd hb hg hfit
    refine ⟨hfit, hcount.mp ⟨fun hs => h.fits _ hs heq, fun h0 s hs hle => ?_⟩⟩
    obtain ⟨hgpus, hmax, hhalf⟩ := (le_maxSplit_iff hs).mp hle
    exact h.refuses (by rw [heq, h0]; rfl) s hs hgpus hmax hhalf
  · rintro ⟨hfit, hagree⟩
    obtain ⟨hneeded, hrest⟩ := hexact.mpr hfit
    obtain ⟨hfits, hrefuses⟩ := hcount.mpr hagree
    have heq := cuvsAutoShardCountSized_eq hn hd hb hg hfit
    refine ⟨hneeded, fun hlt hcap => (hrest hlt hcap).1, fun hlt hcap => (hrest hlt hcap).2,
      fun s hs hcount => ?_, fun h0 s hs hgpus hmax hhalf => ?_⟩
    · obtain rfl : cuvsAutoShardCount nVecs.toInt.toNat dim.toInt.toNat budget.toNat
          nGpus.toInt.toNat maxShards.toInt.toNat = s := Int.ofNat_inj.mp (heq.symm.trans hcount)
      exact hfits hs
    · exact hrefuses (Int.ofNat_inj.mp (heq.symm.trans h0)) s hs
        ((le_maxSplit_iff hs).mpr ⟨hgpus, hmax, hhalf⟩)

/-- A thousand vectors of sixteen dimensions are counted as 128000 bytes, and are
charged 320000. -/
theorem cuvsAutoShardCount_overcommits :
    cuvsAutoShardCountSized 1000 16 128000 4 256 = 1 ∧
      ¬SplitFits 1000 16 0 128000 1 ∧ ¬RespectsBudget 1000 16 0 128000 4 256 := by
  have hcount : cuvsAutoShardCountSized 1000 16 128000 4 256 = 1 := by decide
  have hover : ¬SplitFits 1000 16 0 128000 1 := by
    rw [splitFits_iff le_rfl (Or.inl rfl)]
    decide
  exact ⟨hcount, hover, fun h => hover (h.fits 1 le_rfl hcount)⟩

/-- With sixteen links and a budget that divides evenly the two counts agree. -/
theorem cuvsAutoShardCount_sixteen_links : RespectsBudget 1000 16 16 64000 4 256 := by
  refine (cuvsAutoShardCount_respectsBudget_iff 1000 16 16 64000 4 256 (by decide) (by decide)
    (by decide) (by decide)).mpr ⟨⟨by decide, fun _ _ => by decide⟩, ?_⟩
  rw [CountsAgree]
  decide

end PgCuvs
