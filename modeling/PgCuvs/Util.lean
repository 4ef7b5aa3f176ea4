import PgCuvs.Types
import PgCuvs.Library.BinarySearch
import PgCuvs.Library.Records
import PgCuvs.Library.Selection

/-! Dependency-free helpers of `cuvs_util.c`: checksums, sorting and the
fail-closed filter decision. -/

namespace PgCuvs

/-- One entry of `crc32_table`: eight rounds of the reflected polynomial. -/
def crc32TableEntry (i : UInt32) : UInt32 :=
  (List.range 8).foldl
    (fun c _ => if c &&& 1 = 1 then (0xEDB88320 : UInt32) ^^^ (c >>> 1) else c >>> 1) i

def cuvsCrc32StreamBegin : UInt32 := 0xFFFFFFFF

def cuvsCrc32StreamUpdate (crc : UInt32) (data : List UInt8) : UInt32 :=
  data.foldl (fun c p => crc32TableEntry ((c ^^^ p.toUInt32) &&& 0xFF) ^^^ (c >>> 8)) crc

def cuvsCrc32StreamEnd (crc : UInt32) : UInt32 := crc ^^^ 0xFFFFFFFF

def cuvsCrc32 (data : List UInt8) : UInt32 :=
  cuvsCrc32StreamEnd (cuvsCrc32StreamUpdate cuvsCrc32StreamBegin data)

/-- A large artifact may be checksummed chunk by chunk. -/
theorem cuvsCrc32StreamUpdate_append (crc : UInt32) (a b : List UInt8) :
    cuvsCrc32StreamUpdate crc (a ++ b)
      = cuvsCrc32StreamUpdate (cuvsCrc32StreamUpdate crc a) b :=
  List.foldl_append

example : cuvsCrc32 [0x31, 0x32, 0x33, 0x34, 0x35, 0x36, 0x37, 0x38, 0x39] = 0xCBF43926 := by
  decide +kernel

/-- The `width` low bytes of `n`, least significant first. -/
def leBytes : ℕ → ℕ → List UInt8
  | 0, _ => []
  | width + 1, n => UInt8.ofNat n :: leBytes width (n / 256)

@[simp] theorem leBytes_length (width n : ℕ) : (leBytes width n).length = width := by
  induction width generalizing n with
  | zero => rfl
  | succ width ih => rw [leBytes, List.length_cons, ih]

theorem leNat_leBytes {width n : ℕ} (h : n < 256 ^ width) : Records.leNat (leBytes width n) = n := by
  induction width generalizing n with
  | zero => rw [Nat.pow_zero] at h; rw [leBytes, Records.leNat]; omega
  | succ width ih =>
    have hbyte : (UInt8.ofNat n).toNat = n % 256 := UInt8.toNat_ofNat'
    rw [leBytes, Records.leNat, hbyte, ih (by rw [Nat.pow_succ] at h; omega)]
    omega

theorem leBytes_leNat (bytes : List UInt8) :
    leBytes bytes.length (Records.leNat bytes) = bytes := by
  induction bytes with
  | nil => rfl
  | cons b rest ih =>
    have hb := b.toNat_lt
    have hrest : (b.toNat + 256 * Records.leNat rest) / 256 = Records.leNat rest := by omega
    have hbyte : UInt8.ofNat (b.toNat + 256 * Records.leNat rest) = b := by
      apply UInt8.toNat_inj.mp
      rw [UInt8.toNat_ofNat']
      omega
    rw [Records.leNat, List.length_cons, leBytes, hrest, hbyte, ih]

def tidBytes (tids : List Tid) : List UInt8 := tids.flatMap (leBytes 8)

def vecBytes (vecs : List Vec) : List UInt8 :=
  vecs.flatten.flatMap fun x => leBytes 4 x.toNat

def int32 (n : ℕ) : ℤ := (n : ℤ).bmod (2 ^ 32)

theorem int32_of_lt {n : ℕ} (h : n < 2 ^ 31) : int32 n = n := by
  apply Int.bmod_eq_of_le_mul_two <;> omega

/-- `qsort` with a three-way comparator. -/
def qsort {α : Type*} (cmp : α → α → ℤ) (l : List α) : List α :=
  l.insertionSort fun a b => cmp a b ≤ 0

theorem qsort_perm {α : Type*} (cmp : α → α → ℤ) (l : List α) : (qsort cmp l).Perm l :=
  List.perm_insertionSort _ l

def compareU64 (a b : ℕ) : ℤ := if b < a then 1 else if a < b then -1 else 0

def cuvsU64Sort (values : List ℕ) : List ℕ := qsort compareU64 values

theorem compareU64_nonpos {a b : ℕ} : compareU64 a b ≤ 0 ↔ a ≤ b := by
  unfold compareU64
  split_ifs <;> omega

theorem cuvsU64Sort_sorted (values : List ℕ) : (cuvsU64Sort values).Pairwise (· ≤ ·) := by
  have hrel : cuvsU64Sort values = values.insertionSort (· ≤ ·) := by
    unfold cuvsU64Sort qsort
    congr 1
    funext a b
    exact propext compareU64_nonpos
  rw [hrel]
  exact List.pairwise_insertionSort (· ≤ ·) values

section Candidates

variable {D : Type}

/-- Nearest-first comparator of the merges: the larger inner product is nearer,
otherwise the smaller distance. -/
def candCmp [LT D] [DecidableLT D] (metric : Metric) (x y : CuvsResult D) : ℤ :=
  if metric = .ip then
    if y.distance < x.distance then -1 else if x.distance < y.distance then 1 else 0
  else
    if x.distance < y.distance then -1 else if y.distance < x.distance then 1 else 0

variable [LinearOrder D]

theorem candCmp_nonpos {metric : Metric} {x y : CuvsResult D} :
    candCmp metric x y ≤ 0 ↔ metric.Nearer x.distance y.distance := by
  have hlt := lt_or_ge x.distance y.distance
  cases metric <;> simp only [candCmp, Metric.Nearer, reduceCtorEq, if_true, if_false] <;>
    split_ifs <;> simp_all [le_of_lt]

theorem qsort_candCmp (metric : Metric) (l : List (CuvsResult D)) :
    qsort (candCmp metric) l
      = l.insertionSort fun a b => metric.Nearer a.distance b.distance := by
  unfold qsort
  congr 1
  funext a b
  exact propext candCmp_nonpos

/-- Sorting and cutting at `k` selects the `k` nearest candidates. -/
theorem isNearest_qsort (metric : Metric) (k : ℕ) (l : List (CuvsResult D)) :
    Selection.IsNearest metric.Nearer CuvsResult.distance k l
      ((qsort (candCmp metric) l).take k) := by
  rw [qsort_candCmp]
  exact Selection.isNearest_insertionSort k l

end Candidates

def midpoint (lo hi : ℕ) : ℕ := lo + (hi - lo) / 2

theorem within_midpoint : BinarySearch.Within midpoint := by
  intro lo hi h
  unfold midpoint
  omega

def cuvsU64Contains (sortedValues : List ℕ) (target : ℕ) : Bool :=
  (BinarySearch.find midpoint (fun i => sortedValues.getD i 0) target
    (sortedValues.length + 1) 0 sortedValues.length).isSome

theorem cuvsU64Contains_iff {l : List ℕ} (hl : l.Pairwise (· ≤ ·)) {t : ℕ} :
    cuvsU64Contains l t = true ↔ t ∈ l :=
  BinarySearch.find_isSome_iff_mem within_midpoint hl

/-- A frame that names a whitelist is refused when the whitelist is not there. -/
def cuvsFilterFrameRefuses (nFilterTids : ℕ) (filterAvailable : Bool) : Bool :=
  decide (0 < nFilterTids) && !filterAvailable

end PgCuvs
