import PgCuvs.Backend.Append
import PgCuvs.Backend.Scan

/-! The plan-time gate on `.delta` against the checks of the scan that merges
it. Both look at one file, but only the scan looks at its dimension. The limit of `palloc`,
`MaxAllocSize`, which 2^26 merged rows would exceed, is left out. -/

namespace PgCuvs

def DeltaOfDim (a : Artifacts) (dim : ℕ) : Prop :=
  ∀ f ∈ a.delta, ∀ hdr ∈ f.content.header, hdr.dim = dim

theorem cuvsIndexDeltaUnusable_eq_false {g : Guc} {a : Artifacts} {f : Stamped DeltaFile}
    (hf : a.delta = some f) :
    cuvsIndexDeltaUnusable g a = false ↔
      ∃ hdr, f.content.header = some hdr ∧
        (hdr.magic = deltaMagic ∧ hdr.version = deltaVersion ∧ hdr.reserved = 0) ∧
        cuvsDeltaValidate hdr f.content.bodyBytes = true ∧ hdr.nRows ≤ g.maxDeltaRows ∧
        cuvsReadTidsCrc a = some hdr.baseTidsCrc32 := by
  unfold cuvsIndexDeltaUnusable
  rw [hf]
  simp only
  cases hread : cuvsDeltaReadHeader f.content with
  | none =>
    simp only [Bool.true_eq_false, false_iff, not_exists]
    rintro hdr ⟨hhdr, hvalid, -⟩
    rw [cuvsDeltaReadHeader, hhdr, Option.filter_eq_none_iff] at hread
    exact hread hdr rfl (by simp [hvalid])
  | some hdr =>
    obtain ⟨hhdr, hvalid⟩ := Option.filter_eq_some_iff.mp hread
    have hfields : hdr.magic = deltaMagic ∧ hdr.version = deltaVersion ∧ hdr.reserved = 0 := by
      simpa [and_assoc] using hvalid
    simp only [hhdr, Option.some.injEq, exists_eq_left', hfields, and_self, true_and]
    cases cuvsDeltaValidate hdr f.content.bodyBytes <;>
      by_cases hrows : g.maxDeltaRows < hdr.nRows <;>
      simp [hrows, Nat.not_lt.mp, Nat.not_le.mpr]

section Merge

variable {D : Type} [LT D] [DecidableLT D]

theorem deltaRowsForScan_ok_iff {g : Guc} {a : Artifacts} {dim : ℕ}
    (hgate : cuvsIndexDeltaUnusable g a = false) :
    (∃ rows, deltaRowsForScan g a dim = .ok rows) ↔ DeltaOfDim a dim := by
  unfold deltaRowsForScan DeltaOfDim
  cases hf : a.delta with
  | none => simp
  | some f =>
    obtain ⟨hdr, hhdr, ⟨hmagic, hversion, -⟩, hvalid, hrows, hcrc⟩ :=
      (cuvsIndexDeltaUnusable_eq_false hf).mp hgate
    simp only [hhdr, hmagic, hversion, hvalid, hcrc, Nat.not_lt.mpr hrows, ne_eq,
      not_true_eq_false, Bool.true_eq_false, false_or, or_false, Option.mem_def,
      Option.some.injEq, forall_eq']
    by_cases hdim : hdr.dim = dim
    · simp [hdim]
    · simp [hdim]

theorem cuvsMergeDelta_ok_iff {g : Guc} {a : Artifacts} {dist : Vec → D} {dim k : ℕ}
    {metric : Metric} {base : List (CuvsResult D)} :
    (∃ out, cuvsMergeDelta g a dist dim k metric base = .ok out) ↔
      ∃ rows, deltaRowsForScan g a dim = .ok rows := by
  unfold cuvsMergeDelta
  cases hrows : deltaRowsForScan g a dim with
  | error err => exact ⟨fun ⟨_, h⟩ => (nomatch h), fun ⟨_, h⟩ => (nomatch h)⟩
  | ok rows =>
    refine ⟨fun _ => ⟨rows, rfl⟩, fun _ => ?_⟩
    by_cases hempty : rows = []
    · exact ⟨base, if_pos hempty⟩
    · exact ⟨_, if_neg hempty⟩

theorem cuvsMergeDeltaFiltered_ok_iff {g : Guc} {a : Artifacts} {dist : Vec → D} {dim k : ℕ}
    {metric : Metric} {filterArr : List Tid} {base : List (CuvsResult D)} :
    (∃ out, cuvsMergeDeltaFiltered g a dist dim k metric filterArr base = .ok out) ↔
      ∃ rows, deltaRowsForScan g a dim = .ok rows := by
  unfold cuvsMergeDeltaFiltered mergeDeltaFilteredBy
  cases hrows : deltaRowsForScan g a dim with
  | error err => exact ⟨fun ⟨_, h⟩ => (nomatch h), fun ⟨_, h⟩ => (nomatch h)⟩
  | ok rows =>
    refine ⟨fun _ => ⟨rows, rfl⟩, fun _ => ?_⟩
    by_cases hempty : rows = []
    · exact ⟨base, if_pos hempty⟩
    · exact ⟨_, if_neg hempty⟩

end Merge

section Append

theorem deltaWrites_header (fault : Option AppendFault) (hdr : DeltaHeader) (tid : Tid)
    (vec : Vec) (f : DeltaFile) :
    (deltaWrites fault hdr tid vec f).1.header = f.header ∨
      (deltaWrites fault hdr tid vec f).1.header = some { hdr with nRows := hdr.nRows + 1 } := by
  unfold deltaWrites
  simp only
  split
  · left
    unfold DeltaFile.writeTid
    split_ifs <;> rfl
  · exact .inl rfl
  · exact .inr rfl
  · exact .inr rfl
  · exact .inr rfl

theorem DeltaOfDim.append {a : Artifacts} {dim maxDeltaRows now : ℕ} {fault : Option AppendFault}
    {tid : Tid} {vec : Vec} {metric : Metric} (h : DeltaOfDim a dim) (hvec : vec.length = dim) :
    DeltaOfDim (cuvsDeltaAppend maxDeltaRows now fault tid vec metric a).1 dim := by
  have hopened : DeltaOfDim { a with delta := some (a.delta.getD ⟨DeltaFile.empty, now⟩) } dim := by
    intro f hf hdr hhdr
    cases hfile : a.delta with
    | none =>
      obtain rfl : ⟨DeltaFile.empty, now⟩ = f := by simpa [hfile] using hf
      exact nomatch hhdr
    | some f' =>
      obtain rfl : f' = f := by simpa [hfile] using hf
      exact h f' hfile hdr hhdr
  unfold cuvsDeltaAppend
  simp only
  split_ifs
  · exact h
  · exact hopened
  · split
    · exact hopened
    · rename_i hdr hhdr
      have hdim : hdr.dim = dim := by
        unfold deltaAppendHeader at hhdr
        split_ifs at hhdr
        · obtain ⟨crc, -, rfl⟩ := Option.map_eq_some_iff.mp hhdr
          exact hvec
        · have hfits := (Option.filter_eq_some_iff.mp hhdr).2
          simp only [Bool.and_eq_true, beq_iff_eq] at hfits
          exact hfits.2.trans hvec
      split_ifs
      · exact hopened
      · intro f hf hdr' hhdr'
        obtain rfl := Option.some.inj hf
        -- the header is as it was, or counts a row of this dimension
        obtain hkept | hbumped := deltaWrites_header fault hdr tid vec
          (a.delta.getD ⟨DeltaFile.empty, now⟩).content
        · exact hopened _ rfl hdr' (hkept ▸ hhdr')
        · obtain rfl := Option.some.inj (hbumped.symm.trans hhdr')
          exact hdim

structure DeltaAppend where
  now : ℕ
  fault : Option AppendFault
  tid : Tid
  vec : Vec
  metric : Metric

def DeltaAppend.apply (maxDeltaRows : ℕ) (a : Artifacts) (r : DeltaAppend) : Artifacts :=
  (cuvsDeltaAppend maxDeltaRows r.now r.fault r.tid r.vec r.metric a).1

theorem DeltaOfDim.appends {maxDeltaRows dim : ℕ} (rows : List DeltaAppend) {a : Artifacts}
    (h : DeltaOfDim a dim) (hrows : ∀ r ∈ rows, r.vec.length = dim) :
    DeltaOfDim (rows.foldl (DeltaAppend.apply maxDeltaRows) a) dim := by
  induction rows generalizing a with
  | nil => exact h
  | cons r rows ih =>
    obtain ⟨hr, hrest⟩ := List.forall_mem_cons.mp hrows
    exact ih (h.append hr) hrest

end Append

section Claim

variable {D : Type} [LT D] [DecidableLT D]

/-- Of the files the gate passes, the merges take exactly those whose rows have
the index's dimension. -/
theorem deltaGate_predicts_scan_iff {g : Guc} {a : Artifacts}
    (hgate : cuvsIndexDeltaUnusable g a = false) (dist : Vec → D) (dim k : ℕ) (metric : Metric)
    (filterArr : List Tid) (base : List (CuvsResult D)) :
    ((∃ out, cuvsMergeDelta g a dist dim k metric base = .ok out) ∧
      ∃ out, cuvsMergeDeltaFiltered g a dist dim k metric filterArr base = .ok out) ↔
      DeltaOfDim a dim := by
  rw [cuvsMergeDelta_ok_iff, cuvsMergeDeltaFiltered_ok_iff, and_self]
  exact deltaRowsForScan_ok_iff hgate

def wideDelta : Artifacts :=
  DeltaAppend.apply 10 { Artifacts.empty with tids := some (cuvsTidsWrite 1 .l2 [101]) }
    { now := 7, fault := none, tid := 102, vec := [5, 6], metric := .l2 }

theorem deltaGate_predicts_scan_wide :
    ¬ ((∃ out, cuvsMergeDelta Guc.default wideDelta (fun _ => 0) 1 5 .l2 [⟨101, 3⟩] = .ok out) ∧
      ∃ out, cuvsMergeDeltaFiltered Guc.default wideDelta (fun _ => 0) 1 5 .l2 [101, 102]
        [⟨101, 3⟩] = .ok out) :=
  fun hok => absurd ((deltaGate_predicts_scan_iff (D := ℕ) (by decide +kernel) _ 1 5 .l2 _ _).mp hok)
    fun hdim => absurd (hdim _ rfl _ rfl) (by decide)

theorem deltaGate_passes_wide_row :
    ¬ ∀ (g : Guc) (a : Artifacts) (dist : Vec → ℕ) (dim k : ℕ) (metric : Metric)
      (filterArr : List Tid) (base : List (CuvsResult ℕ)),
      cuvsIndexDeltaUnusable g a = false →
      (∃ out, cuvsMergeDelta g a dist dim k metric base = .ok out) ∧
        ∃ out, cuvsMergeDeltaFiltered g a dist dim k metric filterArr base = .ok out := by
  intro hall
  have hgate : cuvsIndexDeltaUnusable Guc.default wideDelta = false := by decide +kernel
  obtain ⟨⟨out, hout⟩, -⟩ := hall Guc.default wideDelta (fun _ => 0) 1 5 .l2 [101, 102]
    [⟨101, 3⟩] hgate
  have herror : cuvsMergeDelta Guc.default wideDelta (fun _ => 0) 1 5 .l2 [⟨101, 3⟩]
      = .error .deltaUnusable := by rfl
  exact nomatch herror.symm.trans hout

/-- When every inserted row has the index's dimension, a `.delta` grown from
nothing is merged as soon as the gate passes it. -/
theorem appended_delta_merges {g : Guc} {a : Artifacts} {maxDeltaRows dim : ℕ}
    (rows : List DeltaAppend) (hnew : a.delta = none) (hrows : ∀ r ∈ rows, r.vec.length = dim)
    (hgate : cuvsIndexDeltaUnusable g (rows.foldl (DeltaAppend.apply maxDeltaRows) a) = false) :
    ∃ pending, deltaRowsForScan g (rows.foldl (DeltaAppend.apply maxDeltaRows) a) dim
      = .ok pending := by
  refine (deltaRowsForScan_ok_iff hgate).mpr (DeltaOfDim.appends rows ?_ hrows)
  intro f hf
  rw [hnew] at hf
  exact nomatch hf

end Claim

end PgCuvs
