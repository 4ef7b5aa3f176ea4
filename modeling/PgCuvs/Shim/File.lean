import PgCuvs.Shim.Kernels

/-! An index of the reference kernels saved and loaded. -/

namespace PgCuvs

open Records

namespace Shim

structure Fits (ix : ShimIndex) : Prop where
  code_lt : ix.metric.code < 2 ^ 32
  metric : Metric.ofCode ix.metric.code = ix.metric
  dim_lt : ix.dim < 2 ^ 31
  n_lt : ix.n < 2 ^ 63

def readVecs (metric : Metric) (dim n : ℕ) : Reader ShimIndex := do
  let vecs ← many readU32 (n * dim)
  if h : vecs.length = n * dim then pure { vecs, n, dim, metric, size := h } else failure

theorem readIndex_eq : readIndex = (do
    expect 4 shimMagic.toNat
    let metric ← nat 4
    let dim ← nat 4
    let n ← nat 8
    if dim < 2 ^ 31 ∧ n < 2 ^ 63 then readVecs (.ofCode metric) dim n else failure) := rfl

theorem reads_vecs (ix : ShimIndex) :
    Reads (readVecs ix.metric ix.dim ix.n) (ix.vecs.flatMap u32Bytes) ix := by
  have hvecs := Reads.many u32Bytes id ix.vecs (fun x _ => reads_u32 x)
  rw [List.map_id, ix.size] at hvecs
  set next : List UInt32 → Reader ShimIndex := fun vecs =>
    if h : vecs.length = ix.n * ix.dim then pure ⟨vecs, ix.n, ix.dim, ix.metric, h⟩ else failure
    with hdef
  have hnext : Reads (next ix.vecs) [] ix := by
    rw [hdef]
    dsimp only
    rw [dif_pos ix.size]
    exact Reads.pure ix
  have hread := hvecs.bind hnext
  rwa [List.append_nil] at hread

theorem reads_index {ix : ShimIndex} (h : Fits ix) : Reads readIndex (shimWrite ix) ix := by
  have hdim : ix.dim < 256 ^ 4 := Nat.lt_trans h.dim_lt (by decide)
  have hn : ix.n < 256 ^ 8 := Nat.lt_trans h.n_lt (by decide)
  rw [readIndex_eq, shimWrite]
  refine (Reads.expect (leBytes_length 4 _) (leNat_leBytes shimMagic.toNat_lt)).bind ?_
  refine (Reads.nat (leBytes_length 4 _) (leNat_leBytes h.code_lt)).bind ?_
  refine (Reads.nat (leBytes_length 4 _) (leNat_leBytes hdim)).bind ?_
  refine (Reads.nat (leBytes_length 8 _) (leNat_leBytes hn)).bind ?_
  rw [if_pos ⟨h.dim_lt, h.n_lt⟩, h.metric]
  exact reads_vecs ix

theorem canonical_vecs {metric : Metric} {dim n : ℕ} {bytes rest : List UInt8} {ix : ShimIndex}
    (h : readVecs metric dim n bytes = some (ix, rest)) :
    ix.metric = metric ∧ ix.dim = dim ∧ ix.n = n ∧
      bytes = ix.vecs.flatMap u32Bytes ++ rest := by
  obtain ⟨vecs, mid, hvecs, hrest⟩ := bind_eq_some h
  obtain ⟨hlen, hbytes⟩ := canonical_u32.many hvecs
  rw [dif_pos hlen] at hrest
  obtain ⟨rfl, rfl⟩ := Prod.mk.inj (Option.some.inj hrest)
  exact ⟨rfl, rfl, rfl, hbytes⟩

theorem field_of_nat {width n : ℕ} {bytes rest : List UInt8}
    (h : nat width bytes = some (n, rest)) :
    n < 256 ^ width ∧ bytes = leBytes width n ++ rest := by
  obtain ⟨field, hlen, rfl, hbytes⟩ := nat_eq_some h
  refine ⟨hlen ▸ leNat_lt field, ?_⟩
  rw [← hlen, leBytes_leNat]
  exact hbytes

theorem expect_eq_some {width value : ℕ} {bytes rest : List UInt8} {u : Unit}
    (h : expect width value bytes = some (u, rest)) : bytes = leBytes width value ++ rest := by
  rw [expect] at h
  cases hnat : nat width bytes with
  | none =>
    rw [hnat] at h
    cases h
  | some p =>
    rw [hnat] at h
    dsimp only at h
    split_ifs at h with hsame
    obtain ⟨-, hbytes⟩ := field_of_nat hnat
    rw [hbytes, hsame, (Prod.mk.inj (Option.some.inj h)).2]

/-- What can be read is an index that was written. -/
theorem canonical_index {bytes rest : List UInt8} {ix : ShimIndex}
    (h : readIndex bytes = some (ix, rest)) : Fits ix ∧ bytes = shimWrite ix ++ rest := by
  rw [readIndex_eq] at h
  obtain ⟨u, b1, hmagic, h⟩ := bind_eq_some h
  obtain ⟨metric, b2, hmetric, h⟩ := bind_eq_some h
  obtain ⟨dim, b3, hdim, h⟩ := bind_eq_some h
  obtain ⟨n, b4, hn, h⟩ := bind_eq_some h
  obtain ⟨hmetriclt, hmetric⟩ := field_of_nat hmetric
  obtain ⟨-, hdim⟩ := field_of_nat hdim
  obtain ⟨-, hn⟩ := field_of_nat hn
  split_ifs at h with hsizes
  · obtain ⟨hm, hd, hcount, hvecs⟩ := canonical_vecs h
    have hcode : ix.metric.code = metric := by rw [hm, Metric.code_ofCode]
    refine ⟨⟨?_, ?_, ?_, ?_⟩, ?_⟩
    · rw [hcode]
      exact hmetriclt
    · rw [hcode, hm]
    · rw [hd]
      exact hsizes.1
    · rw [hcount]
      exact hsizes.2
    · rw [expect_eq_some hmagic, hmetric, hdim, hn, hvecs, shimWrite, hcode, hd, hcount]
      simp only [List.append_assoc]
      rfl
  · cases h

/-- A saved index is loaded as it was; a file that was cut short is not loaded. -/
theorem readIndex_prefix {ix : ShimIndex} (h : Fits ix) {file : List UInt8}
    (hfile : file <+: shimWrite ix) :
    (readIndex file).map Prod.fst = if file = shimWrite ix then some ix else none := by
  split_ifs with hwhole
  · have hread := (reads_index h).run []
    rwa [List.append_nil, ← hwhole] at hread
  · obtain ⟨cut, hcut⟩ := hfile
    cases hread : readIndex file with
    | none => rfl
    | some p =>
      have hpair : readIndex file = some (p.1, p.2) := hread
      obtain ⟨hfits, hbytes⟩ := canonical_index hpair
      have hsame := reads_index hfits (p.2 ++ cut)
      have horig := reads_index h []
      rw [← List.append_assoc, ← hbytes, hcut] at hsame
      rw [List.append_nil, hsame] at horig
      have hrest := (Prod.mk.inj (Option.some.inj horig)).2
      have hnil := (List.append_eq_nil_iff.mp hrest).2
      rw [hnil, List.append_nil] at hcut
      exact absurd hcut hwhole

section Object

/-- An index in the types of the source, whatever sizes a file gives it. -/
structure ShimObject where
  metric : UInt32
  dim : Int32
  n : Int64
  vecs : List UInt32

/-- `(size_t) n * dim` -/
def floats (dim : Int32) (n : Int64) : ℕ := (n.toUInt64 * dim.toInt64.toUInt64).toNat

def ShimObject.bytes (o : ShimObject) : List UInt8 :=
  u32Bytes shimMagic ++ (u32Bytes o.metric ++ (u32Bytes o.dim.toUInt32 ++ (i64Bytes o.n ++
    o.vecs.flatMap u32Bytes)))

def shimRead : Reader ShimObject := do
  expect 4 shimMagic.toNat
  let metric ← readU32
  let dim ← readU32
  let n ← readI64
  if 0 < n then
    -- without a positive `dim` there is no array to read into
    if dim.toInt32 ≤ 0 ∧ 0 < floats dim.toInt32 n then failure
    else
      let vecs ← many readU32 (floats dim.toInt32 n)
      pure { metric, dim := dim.toInt32, n, vecs }
  else pure { metric, dim := dim.toInt32, n, vecs := [] }

/-- The array has the size `shim_new` and `shim_read` give it. -/
structure ShimObject.Sized (o : ShimObject) : Prop where
  vecs : o.vecs.length = if 0 < o.n then floats o.dim o.n else 0
  room : o.dim ≤ 0 → o.vecs = []

def readArray (metric : UInt32) (dim : Int32) (n : Int64) : Reader ShimObject :=
  if 0 < n then
    if dim ≤ 0 ∧ 0 < floats dim n then failure
    else do
      let vecs ← many readU32 (floats dim n)
      pure { metric, dim, n, vecs }
  else pure { metric, dim, n, vecs := [] }

theorem shimRead_eq : shimRead = (do
    expect 4 shimMagic.toNat
    let metric ← readU32
    let dim ← readU32
    let n ← readI64
    readArray metric dim.toInt32 n) := rfl

theorem reads_array {o : ShimObject} (h : o.Sized) :
    Reads (readArray o.metric o.dim o.n) (o.vecs.flatMap u32Bytes) o := by
  have hlen := h.vecs
  rw [readArray]
  by_cases hn : 0 < o.n
  · rw [if_pos hn] at hlen ⊢
    rw [if_neg]
    · have hvecs := Reads.many u32Bytes id o.vecs (fun x _ => reads_u32 x)
      rw [List.map_id, hlen] at hvecs
      exact hvecs.map
    · rintro ⟨hdim, hpos⟩
      rw [h.room hdim] at hlen
      exact absurd hlen (Nat.ne_of_lt hpos)
  · rw [if_neg hn] at hlen ⊢
    obtain ⟨metric, dim, n, vecs⟩ := o
    obtain rfl : vecs = [] := List.eq_nil_of_length_eq_zero hlen
    exact Reads.pure _

theorem reads_object {o : ShimObject} (h : o.Sized) : Reads shimRead o.bytes o := by
  rw [shimRead_eq, ShimObject.bytes]
  refine (Reads.expect (leBytes_length 4 _) (leNat_leBytes shimMagic.toNat_lt)).bind ?_
  refine (reads_u32 o.metric).bind ?_
  refine (reads_u32 o.dim.toUInt32).bind ?_
  refine (reads_i64 o.n).bind ?_
  rw [Int32.toInt32_toUInt32]
  exact reads_array h

theorem canonical_array {metric : UInt32} {dim : Int32} {n : Int64} {bytes rest : List UInt8}
    {o : ShimObject} (h : readArray metric dim n bytes = some (o, rest)) :
    o.metric = metric ∧ o.dim = dim ∧ o.n = n ∧ o.Sized ∧
      bytes = o.vecs.flatMap u32Bytes ++ rest := by
  rw [readArray] at h
  split_ifs at h with hn hnull
  · cases h
  · obtain ⟨vecs, mid, hvecs, hrest⟩ := bind_eq_some h
    obtain ⟨hlen, hbytes⟩ := canonical_u32.many hvecs
    obtain ⟨rfl, rfl⟩ := Prod.mk.inj (Option.some.inj hrest)
    refine ⟨rfl, rfl, rfl, ⟨hlen.trans (if_pos hn).symm, ?_⟩, hbytes⟩
    intro hdim
    have hnone : floats dim n = 0 := Nat.eq_zero_of_not_pos fun hpos => hnull ⟨hdim, hpos⟩
    exact List.eq_nil_of_length_eq_zero (hlen.trans hnone)
  · obtain ⟨rfl, rfl⟩ := Prod.mk.inj (Option.some.inj h)
    exact ⟨rfl, rfl, rfl, ⟨(if_neg hn).symm, fun _ => rfl⟩, rfl⟩

/-- A file is loaded as an index if and only if it begins with what saving that index writes. -/
theorem shimRead_eq_some_iff {file rest : List UInt8} {o : ShimObject} :
    shimRead file = some (o, rest) ↔ o.Sized ∧ file = o.bytes ++ rest := by
  constructor
  · intro h
    rw [shimRead_eq] at h
    obtain ⟨u, b1, hmagic, h⟩ := bind_eq_some h
    obtain ⟨metric, b2, hmetric, h⟩ := bind_eq_some h
    obtain ⟨dim, b3, hdim, h⟩ := bind_eq_some h
    obtain ⟨n, b4, hn, h⟩ := bind_eq_some h
    obtain ⟨rfl, hd, rfl, hsized, hvecs⟩ := canonical_array h
    refine ⟨hsized, ?_⟩
    rw [expect_eq_some hmagic, canonical_u32 _ _ _ hmetric, canonical_u32 _ _ _ hdim,
      canonical_i64 _ _ _ hn, hvecs, ShimObject.bytes, hd, UInt32.toUInt32_toInt32]
    simp only [List.append_assoc]
    rfl
  · rintro ⟨hsized, rfl⟩
    exact reads_object hsized rest

/-- The product of the sizes wraps: no float is read for these. -/
example : shimRead (ShimObject.bytes ⟨0, 4, 0x4000000000000000, []⟩) =
    some (⟨0, 4, 0x4000000000000000, []⟩, []) := by
  have hsized : ShimObject.Sized ⟨0, 4, 0x4000000000000000, []⟩ := by
    refine ⟨?_, fun _ => rfl⟩
    decide +kernel
  have hread := reads_object hsized []
  rwa [List.append_nil] at hread

def object (ix : ShimIndex) : ShimObject where
  metric := UInt32.ofNat ix.metric.code
  dim := Int32.ofNat ix.dim
  n := Int64.ofNat ix.n
  vecs := ix.vecs

theorem floats_ofNat {dim n : ℕ} (hdim : dim < 2 ^ 31) (hroom : n * dim < 2 ^ 64) :
    floats (Int32.ofNat dim) (Int64.ofNat n) = n * dim := by
  have hwide : (Int32.ofNat dim).toInt64 = Int64.ofNat dim := Int32.toInt64_ofNat' (by
    rw [Int32.toInt_maxValue]
    omega)
  rw [floats, hwide, Int64.toUInt64_ofNat', Int64.toUInt64_ofNat', UInt64.toNat_mul,
    UInt64.toNat_ofNat', UInt64.toNat_ofNat', ← Nat.mul_mod, Nat.mod_eq_of_lt hroom]

/-- An index is read back by the source as well, as long as the number of its floats does not
wrap. -/
theorem shimRead_of_readIndex {file rest : List UInt8} {ix : ShimIndex}
    (h : readIndex file = some (ix, rest)) (hroom : ix.n * ix.dim < 2 ^ 64) :
    shimRead file = some (object ix, rest) := by
  obtain ⟨hfits, rfl⟩ := canonical_index h
  have hcount := floats_ofNat hfits.dim_lt hroom
  have hempty : ix.n * ix.dim = 0 → ix.vecs = [] :=
    fun hnone => List.eq_nil_of_length_eq_zero (ix.size.trans hnone)
  have hsized : (object ix).Sized := by
    constructor
    · split_ifs with hn
      · exact ix.size.trans hcount.symm
      · have hzero : ix.n = 0 := by
          rw [Int64.lt_iff_toInt_lt, object, Int64.toInt_ofNat_of_lt hfits.n_lt] at hn
          have hnot : ¬(0 : ℤ) < (ix.n : ℤ) := hn
          omega
        have hnone : (object ix).vecs = [] := hempty (by rw [hzero, Nat.zero_mul])
        rw [hnone]
        rfl
    · intro hdim
      have hzero : ix.dim = 0 := by
        rw [Int32.le_iff_toInt_le, object, Int32.toInt_ofNat_of_lt hfits.dim_lt] at hdim
        have hle : (ix.dim : ℤ) ≤ 0 := hdim
        omega
      exact hempty (by rw [hzero, Nat.mul_zero])
  have hdim : ix.dim < 2 ^ 32 := Nat.lt_trans hfits.dim_lt (by decide)
  have hn : ix.n < 2 ^ 64 := Nat.lt_trans hfits.n_lt (by decide)
  have hbytes : shimWrite ix = (object ix).bytes := by
    rw [shimWrite, ShimObject.bytes, object, Int32.toUInt32_ofNat', i64Bytes, Int64.toUInt64_ofNat',
      u32Bytes, u32Bytes, u32Bytes, UInt32.toNat_ofNat_of_lt' hfits.code_lt,
      UInt32.toNat_ofNat_of_lt' hdim, UInt64.toNat_ofNat_of_lt' hn]
  rw [hbytes]
  exact reads_object hsized rest

end Object

end Shim

end PgCuvs
