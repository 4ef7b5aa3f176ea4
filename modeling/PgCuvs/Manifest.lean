import Mathlib.Algebra.Order.BigOperators.Group.List
import Mathlib.Algebra.Order.Group.Int
import PgCuvs.Sidecar

/-! The bytes of the `.shards` manifest: its writer, its reader, and the
manifests the reader takes. -/

namespace PgCuvs

open Records

structure CuvsShardsHeader where
  magic : UInt32
  version : UInt32
  shardCount : UInt32
  baseTidsCrc32 : UInt32
  nVecs : Int64
  dim : UInt32
  metric : UInt32
  bodyCrc32 : UInt32
  reserved : UInt32
deriving DecidableEq, Repr

structure CuvsShardRecord where
  shardId : UInt32
  gpuDeviceId : UInt32
  tidOffset : Int64
  nVecs : Int64
  dim : UInt32
  metric : UInt32
  artifactCrc32 : UInt32
  reserved : UInt32
deriving DecidableEq, Repr

def u32Bytes (x : UInt32) : List UInt8 := leBytes 4 x.toNat

def i64Bytes (x : Int64) : List UInt8 := leBytes 8 x.toUInt64.toNat

def u64Bytes (x : UInt64) : List UInt8 := leBytes 8 x.toNat

def readU32 : Reader UInt32 := do
  let n ← nat 4
  pure (UInt32.ofNat n)

def readU64 : Reader UInt64 := do
  let n ← nat 8
  pure (UInt64.ofNat n)

def readI64 : Reader Int64 := do
  let n ← nat 8
  pure (UInt64.ofNat n).toInt64

def CuvsShardsHeader.bytes (h : CuvsShardsHeader) : List UInt8 :=
  u32Bytes h.magic ++ (u32Bytes h.version ++ (u32Bytes h.shardCount ++
    (u32Bytes h.baseTidsCrc32 ++ (i64Bytes h.nVecs ++ (u32Bytes h.dim ++
      (u32Bytes h.metric ++ (u32Bytes h.bodyCrc32 ++ u32Bytes h.reserved)))))))

def CuvsShardRecord.bytes (r : CuvsShardRecord) : List UInt8 :=
  u32Bytes r.shardId ++ (u32Bytes r.gpuDeviceId ++ (i64Bytes r.tidOffset ++
    (i64Bytes r.nVecs ++ (u32Bytes r.dim ++ (u32Bytes r.metric ++
      (u32Bytes r.artifactCrc32 ++ u32Bytes r.reserved))))))

def readShardsHeader : Reader CuvsShardsHeader := do
  let magic ← readU32
  let version ← readU32
  let shardCount ← readU32
  let baseTidsCrc32 ← readU32
  let nVecs ← readI64
  let dim ← readU32
  let metric ← readU32
  let bodyCrc32 ← readU32
  let reserved ← readU32
  pure { magic, version, shardCount, baseTidsCrc32, nVecs, dim, metric, bodyCrc32, reserved }

def readShardRecord : Reader CuvsShardRecord := do
  let shardId ← readU32
  let gpuDeviceId ← readU32
  let tidOffset ← readI64
  let nVecs ← readI64
  let dim ← readU32
  let metric ← readU32
  let artifactCrc32 ← readU32
  let reserved ← readU32
  pure { shardId, gpuDeviceId, tidOffset, nVecs, dim, metric, artifactCrc32, reserved }

def shardsHeader (shardCount : UInt32) (nVecs : Int64) (dim metric baseTidsCrc32 : UInt32)
    (recs : List CuvsShardRecord) : CuvsShardsHeader where
  magic := UInt32.ofNat shardsMagic
  version := UInt32.ofNat shardsVersion
  shardCount := shardCount
  baseTidsCrc32 := baseTidsCrc32
  nVecs := nVecs
  dim := dim
  metric := metric
  bodyCrc32 := cuvsCrc32 ((recs.take shardCount.toNat).flatMap CuvsShardRecord.bytes)
  reserved := 0

def cuvsShardsWriteBytes (shardCount : UInt32) (nVecs : Int64) (dim metric baseTidsCrc32 : UInt32)
    (recs : List CuvsShardRecord) : List UInt8 :=
  (shardsHeader shardCount nVecs dim metric baseTidsCrc32 recs).bytes ++
    (recs.take shardCount.toNat).flatMap CuvsShardRecord.bytes

/-- The loop over the records from number `i` on. It returns `sum_n`, which 256
sizes of at most a billion leave far from overflowing. -/
def checkShardRecords (hdr : CuvsShardsHeader) (i : ℕ) (sumN : ℤ) :
    List CuvsShardRecord → Option ℤ
  | [] => some sumN
  | r :: recs =>
    if r.reserved ≠ 0 then none
    else if r.shardId.toNat ≠ i then none
    else if r.tidOffset.toInt ≠ sumN then none
    else if r.nVecs.toInt ≤ 0 ∨ (tidsMaxVecs : ℤ) < r.nVecs.toInt then none
    else if r.dim ≠ hdr.dim ∨ r.metric ≠ hdr.metric then none
    else checkShardRecords hdr (i + 1) (sumN + r.nVecs.toInt) recs

def cuvsShardsReadBytes (bytes : List UInt8) :
    Option ((CuvsShardsHeader × List CuvsShardRecord) × List UInt8) :=
  match readShardsHeader bytes with
  | none => none
  | some (hdr, bytes) =>
    if hdr.magic ≠ UInt32.ofNat shardsMagic then none
    else if hdr.version ≠ UInt32.ofNat shardsVersion then none
    else if hdr.reserved ≠ 0 then none
    else if hdr.shardCount = 0 ∨ shardsMax < hdr.shardCount.toNat then none
    else if hdr.nVecs.toInt ≤ 0 ∨ (tidsMaxVecs : ℤ) < hdr.nVecs.toInt then none
    else if hdr.dim = 0 then none
    else
      match many readShardRecord hdr.shardCount.toNat bytes with
      | none => none
      | some (recs, bytes) =>
        if cuvsCrc32 (recs.flatMap CuvsShardRecord.bytes) ≠ hdr.bodyCrc32 then none
        else
          match checkShardRecords hdr 0 0 recs with
          | none => none
          | some sumN => if sumN ≠ hdr.nVecs.toInt then none else some ((hdr, recs), bytes)

/-- The records cut `[0, nVecs)` into consecutive, non-empty ranges, in shard order. -/
structure CoherentShards (shardCount : UInt32) (nVecs : Int64) (dim metric : UInt32)
    (recs : List CuvsShardRecord) : Prop where
  count : 1 ≤ shardCount.toNat ∧ shardCount.toNat ≤ shardsMax
  size : 0 < nVecs.toInt ∧ nVecs.toInt ≤ tidsMaxVecs
  width : 0 < dim.toNat
  fields : ∀ (i : ℕ) (r : CuvsShardRecord), recs[i]? = some r →
    r.shardId.toNat = i ∧ 0 < r.nVecs.toInt ∧ r.dim = dim ∧ r.metric = metric ∧ r.reserved = 0
  offsets : ∀ (i : ℕ) (r : CuvsShardRecord), recs[i]? = some r →
    r.tidOffset.toInt = ((recs.take i).map fun r => r.nVecs.toInt).sum
  covers : (recs.map fun r => r.nVecs.toInt).sum = nVecs.toInt

/-! The fields, the header and a record: what is written is read back, and what
was read is what is written. -/

section Fields

theorem reads_u32 (x : UInt32) : Reads readU32 (u32Bytes x) x := by
  have hnat : Reads (nat 4) (u32Bytes x) x.toNat :=
    Reads.nat (leBytes_length 4 _) (leNat_leBytes x.toNat_lt)
  have h := hnat.map (f := UInt32.ofNat)
  rwa [UInt32.ofNat_toNat] at h

theorem reads_i64 (x : Int64) : Reads readI64 (i64Bytes x) x := by
  have hnat : Reads (nat 8) (i64Bytes x) x.toUInt64.toNat :=
    Reads.nat (leBytes_length 8 _) (leNat_leBytes x.toUInt64.toNat_lt)
  have h := hnat.map (f := fun n => (UInt64.ofNat n).toInt64)
  rwa [UInt64.ofNat_toNat, Int64.toInt64_toUInt64] at h

theorem takes_u32 : Takes readU32 4 := (Takes.nat 4).bind fun _ => Takes.pure _

theorem takes_i64 : Takes readI64 8 := (Takes.nat 8).bind fun _ => Takes.pure _

theorem takes_u64 : Takes readU64 8 := (Takes.nat 8).bind fun _ => Takes.pure _

theorem canonical_u32 : Canonical readU32 u32Bytes := by
  intro bytes x rest h
  obtain ⟨n, mid, hn, h⟩ := bind_eq_some h
  obtain ⟨rfl, rfl⟩ := Prod.mk.inj (Option.some.inj h)
  obtain ⟨field, hlen, rfl, rfl⟩ := nat_eq_some hn
  have hlt : leNat field < 2 ^ 32 := by
    have := leNat_lt field
    rwa [hlen] at this
  rw [u32Bytes, UInt32.toNat_ofNat_of_lt' hlt, ← hlen, leBytes_leNat]

theorem canonical_i64 : Canonical readI64 i64Bytes := by
  intro bytes x rest h
  obtain ⟨n, mid, hn, h⟩ := bind_eq_some h
  obtain ⟨rfl, rfl⟩ := Prod.mk.inj (Option.some.inj h)
  obtain ⟨field, hlen, rfl, rfl⟩ := nat_eq_some hn
  have hlt : leNat field < 2 ^ 64 := by
    have := leNat_lt field
    rwa [hlen] at this
  rw [i64Bytes, UInt64.toUInt64_toInt64, UInt64.toNat_ofNat_of_lt' hlt, ← hlen, leBytes_leNat]

theorem reads_u64 (x : UInt64) : Reads readU64 (u64Bytes x) x := by
  have hnat : Reads (nat 8) (u64Bytes x) x.toNat :=
    Reads.nat (leBytes_length 8 _) (leNat_leBytes x.toNat_lt)
  have h := hnat.map (f := UInt64.ofNat)
  rwa [UInt64.ofNat_toNat] at h

theorem canonical_u64 : Canonical readU64 u64Bytes := by
  intro bytes x rest h
  obtain ⟨n, mid, hn, h⟩ := bind_eq_some h
  obtain ⟨rfl, rfl⟩ := Prod.mk.inj (Option.some.inj h)
  obtain ⟨field, hlen, rfl, rfl⟩ := nat_eq_some hn
  have hlt : leNat field < 2 ^ 64 := by
    have := leNat_lt field
    rwa [hlen] at this
  rw [u64Bytes, UInt64.toNat_ofNat_of_lt' hlt, ← hlen, leBytes_leNat]

theorem reads_shardsHeader (h : CuvsShardsHeader) : Reads readShardsHeader h.bytes h := by
  refine (reads_u32 h.magic).bind ?_
  refine (reads_u32 h.version).bind ?_
  refine (reads_u32 h.shardCount).bind ?_
  refine (reads_u32 h.baseTidsCrc32).bind ?_
  refine (reads_i64 h.nVecs).bind ?_
  refine (reads_u32 h.dim).bind ?_
  refine (reads_u32 h.metric).bind ?_
  refine (reads_u32 h.bodyCrc32).bind ?_
  exact (reads_u32 h.reserved).map

theorem reads_shardRecord (r : CuvsShardRecord) : Reads readShardRecord r.bytes r := by
  refine (reads_u32 r.shardId).bind ?_
  refine (reads_u32 r.gpuDeviceId).bind ?_
  refine (reads_i64 r.tidOffset).bind ?_
  refine (reads_i64 r.nVecs).bind ?_
  refine (reads_u32 r.dim).bind ?_
  refine (reads_u32 r.metric).bind ?_
  refine (reads_u32 r.artifactCrc32).bind ?_
  exact (reads_u32 r.reserved).map

theorem canonical_shardsHeader : Canonical readShardsHeader CuvsShardsHeader.bytes := by
  intro bytes h rest hread
  obtain ⟨magic, b1, h1, hread⟩ := bind_eq_some hread
  obtain ⟨version, b2, h2, hread⟩ := bind_eq_some hread
  obtain ⟨shardCount, b3, h3, hread⟩ := bind_eq_some hread
  obtain ⟨baseTidsCrc32, b4, h4, hread⟩ := bind_eq_some hread
  obtain ⟨nVecs, b5, h5, hread⟩ := bind_eq_some hread
  obtain ⟨dim, b6, h6, hread⟩ := bind_eq_some hread
  obtain ⟨metric, b7, h7, hread⟩ := bind_eq_some hread
  obtain ⟨bodyCrc32, b8, h8, hread⟩ := bind_eq_some hread
  obtain ⟨reserved, b9, h9, hread⟩ := bind_eq_some hread
  obtain ⟨rfl, rfl⟩ := Prod.mk.inj (Option.some.inj hread)
  rw [canonical_u32 _ _ _ h1, canonical_u32 _ _ _ h2, canonical_u32 _ _ _ h3,
    canonical_u32 _ _ _ h4, canonical_i64 _ _ _ h5, canonical_u32 _ _ _ h6,
    canonical_u32 _ _ _ h7, canonical_u32 _ _ _ h8, canonical_u32 _ _ _ h9]
  simp only [CuvsShardsHeader.bytes, List.append_assoc]

theorem canonical_shardRecord : Canonical readShardRecord CuvsShardRecord.bytes := by
  intro bytes r rest hread
  obtain ⟨shardId, b1, h1, hread⟩ := bind_eq_some hread
  obtain ⟨gpuDeviceId, b2, h2, hread⟩ := bind_eq_some hread
  obtain ⟨tidOffset, b3, h3, hread⟩ := bind_eq_some hread
  obtain ⟨nVecs, b4, h4, hread⟩ := bind_eq_some hread
  obtain ⟨dim, b5, h5, hread⟩ := bind_eq_some hread
  obtain ⟨metric, b6, h6, hread⟩ := bind_eq_some hread
  obtain ⟨artifactCrc32, b7, h7, hread⟩ := bind_eq_some hread
  obtain ⟨reserved, b8, h8, hread⟩ := bind_eq_some hread
  obtain ⟨rfl, rfl⟩ := Prod.mk.inj (Option.some.inj hread)
  rw [canonical_u32 _ _ _ h1, canonical_u32 _ _ _ h2, canonical_i64 _ _ _ h3,
    canonical_i64 _ _ _ h4, canonical_u32 _ _ _ h5, canonical_u32 _ _ _ h6,
    canonical_u32 _ _ _ h7, canonical_u32 _ _ _ h8]
  simp only [CuvsShardRecord.bytes, List.append_assoc]

end Fields

/-! The record loop. -/

section Loop

variable {hdr : CuvsShardsHeader}

structure ShardFits (hdr : CuvsShardsHeader) (i : ℕ) (start : ℤ) (r : CuvsShardRecord) :
    Prop where
  shardId : r.shardId.toNat = i
  tidOffset : r.tidOffset.toInt = start
  nVecs : 0 < r.nVecs.toInt ∧ r.nVecs.toInt ≤ tidsMaxVecs
  dim : r.dim = hdr.dim
  metric : r.metric = hdr.metric
  reserved : r.reserved = 0

theorem checkShardRecords_cons {i : ℕ} {sumN total : ℤ} {r : CuvsShardRecord}
    {recs : List CuvsShardRecord} :
    checkShardRecords hdr i sumN (r :: recs) = some total ↔
      ShardFits hdr i sumN r ∧
        checkShardRecords hdr (i + 1) (sumN + r.nVecs.toInt) recs = some total := by
  rw [checkShardRecords]
  simp only [Option.ite_none_left_eq_some, ne_eq, not_not, not_or, not_le, not_lt]
  constructor
  · rintro ⟨hreserved, hid, hoffset, hn, ⟨hdim, hmetric⟩, hrest⟩
    exact ⟨⟨hid, hoffset, hn, hdim, hmetric, hreserved⟩, hrest⟩
  · rintro ⟨h, hrest⟩
    exact ⟨h.reserved, h.shardId, h.tidOffset, h.nVecs, ⟨h.dim, h.metric⟩, hrest⟩

theorem checkShardRecords_eq_some {i : ℕ} {sumN total : ℤ} {recs : List CuvsShardRecord} :
    checkShardRecords hdr i sumN recs = some total ↔
      (∀ (j : ℕ) (r : CuvsShardRecord), recs[j]? = some r →
        ShardFits hdr (i + j) (sumN + ((recs.take j).map fun r => r.nVecs.toInt).sum) r) ∧
      sumN + (recs.map fun r => r.nVecs.toInt).sum = total := by
  induction recs generalizing i sumN with
  | nil => simp [checkShardRecords]
  | cons r recs ih =>
    rw [checkShardRecords_cons, ih, List.map_cons, List.sum_cons, ← add_assoc]
    constructor
    · rintro ⟨hr, hrest, htotal⟩
      refine ⟨fun j r' hj => ?_, htotal⟩
      cases j with
      | zero =>
        obtain rfl := Option.some.inj hj
        simpa using hr
      | succ j =>
        have h := hrest j r' hj
        rwa [Nat.add_right_comm, Nat.add_assoc, Int.add_assoc] at h
    · rintro ⟨hall, htotal⟩
      refine ⟨by simpa using hall 0 r rfl, fun j r' hj => ?_, htotal⟩
      have h := hall (j + 1) r' hj
      rwa [List.take_succ_cons, List.map_cons, List.sum_cons, ← Int.add_assoc, ← Nat.add_assoc,
        Nat.add_right_comm] at h

/-- The checks on the header and the loop's, together. -/
theorem coherentShards_iff {hdr : CuvsShardsHeader} {recs : List CuvsShardRecord} :
    CoherentShards hdr.shardCount hdr.nVecs hdr.dim hdr.metric recs ↔
      (1 ≤ hdr.shardCount.toNat ∧ hdr.shardCount.toNat ≤ shardsMax) ∧
      (0 < hdr.nVecs.toInt ∧ hdr.nVecs.toInt ≤ tidsMaxVecs) ∧ 0 < hdr.dim.toNat ∧
      checkShardRecords hdr 0 0 recs = some hdr.nVecs.toInt := by
  rw [checkShardRecords_eq_some]
  simp only [zero_add]
  constructor
  · intro h
    refine ⟨h.count, h.size, h.width, fun j r hj => ?_, h.covers⟩
    obtain ⟨hid, hpos, hdim, hmetric, hreserved⟩ := h.fields j r hj
    refine ⟨hid, h.offsets j r hj, ⟨hpos, ?_⟩, hdim, hmetric, hreserved⟩
    have hnonneg : ∀ x ∈ recs.map fun r => r.nVecs.toInt, 0 ≤ x := by
      intro x hx
      obtain ⟨r', hr', rfl⟩ := List.mem_map.mp hx
      obtain ⟨i, hi⟩ := List.mem_iff_getElem?.mp hr'
      exact (h.fields i r' hi).2.1.le
    calc r.nVecs.toInt
        ≤ (recs.map fun r => r.nVecs.toInt).sum :=
          List.single_le_sum hnonneg _ (List.mem_map_of_mem (List.mem_of_getElem? hj))
      _ ≤ tidsMaxVecs := by rw [h.covers]; exact h.size.2
  · rintro ⟨hcount, hsize, hwidth, hall, hcovers⟩
    refine ⟨hcount, hsize, hwidth, fun j r hj => ?_, fun j r hj => (hall j r hj).tidOffset,
      hcovers⟩
    have h := hall j r hj
    exact ⟨h.shardId, h.nVecs.1, h.dim, h.metric, h.reserved⟩

end Loop

/-! The reader. -/

section Read

/-- What the reader takes, field by field. -/
theorem cuvsShardsReadBytes_eq_some {bytes rest : List UInt8} {hdr : CuvsShardsHeader}
    {recs : List CuvsShardRecord} :
    cuvsShardsReadBytes bytes = some ((hdr, recs), rest) ↔
      (∃ mid, readShardsHeader bytes = some (hdr, mid) ∧
        many readShardRecord hdr.shardCount.toNat mid = some (recs, rest)) ∧
      hdr.magic = UInt32.ofNat shardsMagic ∧ hdr.version = UInt32.ofNat shardsVersion ∧
      hdr.reserved = 0 ∧ cuvsCrc32 (recs.flatMap CuvsShardRecord.bytes) = hdr.bodyCrc32 ∧
      CoherentShards hdr.shardCount hdr.nVecs hdr.dim hdr.metric recs := by
  rw [coherentShards_iff, cuvsShardsReadBytes]
  cases hhdr : readShardsHeader bytes with
  | none => simp
  | some p =>
    obtain ⟨found, mid⟩ := p
    simp only [Option.some.injEq, Prod.mk.injEq, Option.ite_none_left_eq_some, not_or, ne_eq,
      not_not, not_le, not_lt]
    constructor
    · rintro ⟨hmagic, hversion, hreserved, ⟨hcount, hcountMax⟩, hsize, hdim, h⟩
      cases hmany : many readShardRecord found.shardCount.toNat mid with
      | none => rw [hmany] at h; nomatch h
      | some q =>
        obtain ⟨found', rest'⟩ := q
        rw [hmany] at h
        simp only [Option.ite_none_left_eq_some, not_not] at h
        obtain ⟨hcrc, h⟩ := h
        cases hcheck : checkShardRecords found 0 0 found' with
        | none => rw [hcheck] at h; nomatch h
        | some total =>
          rw [hcheck] at h
          simp only [Option.ite_none_left_eq_some, not_not, Option.some.injEq,
            Prod.mk.injEq] at h
          obtain ⟨rfl, ⟨rfl, rfl⟩, rfl⟩ := h
          refine ⟨⟨mid, ⟨rfl, rfl⟩, hmany⟩, hmagic, hversion, hreserved, hcrc, ?_⟩
          refine ⟨⟨?_, hcountMax⟩, hsize, ?_, hcheck⟩
          · exact Nat.pos_of_ne_zero fun h0 => hcount (UInt32.toNat_inj.mp h0)
          · exact Nat.pos_of_ne_zero fun h0 => hdim (UInt32.toNat_inj.mp h0)
    · rintro ⟨⟨mid', ⟨rfl, rfl⟩, hmany⟩, hmagic, hversion, hreserved, hcrc, hcount, hsize, hdim,
        hcheck⟩
      have hcount0 : found.shardCount ≠ 0 := by
        intro h0
        rw [h0] at hcount
        exact absurd hcount.1 (by decide)
      have hdim0 : found.dim ≠ 0 := by
        intro h0
        rw [h0] at hdim
        exact absurd hdim (by decide)
      refine ⟨hmagic, hversion, hreserved, ⟨hcount0, hcount.2⟩, hsize, hdim0, ?_⟩
      rw [hmany]
      simp only [hcrc, hcheck, not_true_eq_false, if_false]

/-- A manifest that was written is taken when it is coherent, and then read as written. -/
theorem cuvsShardsReadBytes_write {shardCount : UInt32} {nVecs : Int64} {dim metric baseTidsCrc32 : UInt32}
    {recs : List CuvsShardRecord} (hlen : recs.length = shardCount.toNat) {rest rest' : List UInt8}
    {hdr : CuvsShardsHeader} {recs' : List CuvsShardRecord} :
    cuvsShardsReadBytes (cuvsShardsWriteBytes shardCount nVecs dim metric baseTidsCrc32 recs ++ rest) =
        some ((hdr, recs'), rest') ↔
      CoherentShards shardCount nVecs dim metric recs ∧
        hdr = shardsHeader shardCount nVecs dim metric baseTidsCrc32 recs ∧ recs' = recs ∧
        rest' = rest := by
  have htake : recs.take shardCount.toNat = recs := List.take_of_length_le hlen.le
  have hmany : Reads (many readShardRecord shardCount.toNat)
      (recs.flatMap CuvsShardRecord.bytes) recs := by
    have h := Reads.many (r := readShardRecord) CuvsShardRecord.bytes id recs
      fun r _ => reads_shardRecord r
    rwa [List.map_id, hlen] at h
  rw [cuvsShardsReadBytes_eq_some, cuvsShardsWriteBytes, htake, List.append_assoc, reads_shardsHeader]
  constructor
  · rintro ⟨⟨mid, hhdr, hrecs⟩, -, -, -, -, hcoherent⟩
    obtain ⟨rfl, rfl⟩ := Prod.mk.inj (Option.some.inj hhdr)
    rw [show (shardsHeader shardCount nVecs dim metric baseTidsCrc32 recs).shardCount =
      shardCount from rfl, hmany] at hrecs
    obtain ⟨rfl, rfl⟩ := Prod.mk.inj (Option.some.inj hrecs)
    exact ⟨hcoherent, rfl, rfl, rfl⟩
  · rintro ⟨hcoherent, rfl, rfl, rfl⟩
    refine ⟨⟨_, rfl, hmany _⟩, rfl, rfl, rfl, ?_, hcoherent⟩
    rw [shardsHeader, htake]

end Read

/-! The manifest as the daemon's loads see it. -/

section Decoded

def Metric.ofCode : ℕ → Metric
  | 0 => .l2
  | 1 => .cosine
  | 2 => .ip
  | code => .other code

theorem Metric.code_ofCode (code : ℕ) : (Metric.ofCode code).code = code := by
  rw [ofCode.eq_def]
  split <;> rfl

def CuvsShardRecord.decoded (r : CuvsShardRecord) : ShardRecord where
  shardId := r.shardId.toNat
  gpuDeviceId := r.gpuDeviceId.toNat
  tidOffset := r.tidOffset.toInt.toNat
  nVecs := r.nVecs.toInt.toNat
  dim := r.dim.toNat
  metric := .ofCode r.metric.toNat
  artifactCrc32 := r.artifactCrc32
  reserved := r.reserved.toNat

def CuvsShardsHeader.decoded (h : CuvsShardsHeader) : ShardsHeader where
  magic := h.magic.toNat
  version := h.version.toNat
  shardCount := h.shardCount.toNat
  baseTidsCrc32 := h.baseTidsCrc32
  nVecs := h.nVecs.toInt.toNat
  dim := h.dim.toNat
  metric := .ofCode h.metric.toNat
  bodyCrc32 := h.bodyCrc32
  reserved := h.reserved.toNat

theorem leBytes_toInt {x : Int64} (h : 0 ≤ x.toInt) : leBytes 8 x.toInt.toNat = i64Bytes x := by
  have hx : 0 ≤ x := Int64.le_iff_toInt_le.mpr h
  rw [i64Bytes, Int64.toNat_toUInt64_of_le hx]
  rfl

theorem CuvsShardRecord.decoded_bytes {hdr : CuvsShardsHeader} {i : ℕ} {start : ℤ}
    {r : CuvsShardRecord} (h : ShardFits hdr i start r) (hstart : 0 ≤ start) :
    r.decoded.bytes = r.bytes := by
  simp only [ShardRecord.bytes, decoded, Metric.code_ofCode, CuvsShardRecord.bytes,
    leBytes_toInt (h.tidOffset ▸ hstart), leBytes_toInt h.nVecs.1.le, u32Bytes, List.append_assoc]

theorem shardRecordsCover_decoded {hdr : CuvsShardsHeader} {recs : List CuvsShardRecord} {i : ℕ}
    {sumN : ℤ} (hsum : 0 ≤ sumN)
    (h : checkShardRecords hdr i sumN recs = some hdr.nVecs.toInt) :
    shardRecordsCover hdr.decoded i sumN.toNat (recs.map CuvsShardRecord.decoded) = true ∧
      shardRecordBytes (recs.map CuvsShardRecord.decoded) =
        recs.flatMap CuvsShardRecord.bytes := by
  induction recs generalizing i sumN with
  | nil =>
    obtain rfl := Option.some.inj h
    exact ⟨beq_self_eq_true _, rfl⟩
  | cons r recs ih =>
    obtain ⟨hr, hrest⟩ := checkShardRecords_cons.mp h
    have hn := hr.nVecs
    obtain ⟨hcover, hbytes⟩ := ih (by omega) hrest
    have hnext : (sumN + r.nVecs.toInt).toNat = sumN.toNat + r.nVecs.toInt.toNat := by omega
    rw [hnext] at hcover
    constructor
    · rw [List.map_cons, shardRecordsCover]
      simp only [CuvsShardRecord.decoded, CuvsShardsHeader.decoded, hr.shardId, hr.tidOffset,
        hr.dim, hr.metric, hr.reserved, Bool.and_eq_true, beq_iff_eq, decide_eq_true_eq]
      refine ⟨⟨⟨⟨⟨rfl, trivial⟩, trivial⟩, by omega, by omega⟩, trivial, trivial⟩, hcover⟩
    · rw [List.map_cons, shardRecordBytes, List.flatMap_cons, List.flatMap_cons,
        CuvsShardRecord.decoded_bytes hr hsum]
      exact congrArg (r.bytes ++ ·) hbytes

theorem cuvsShardsRead_decoded {bytes rest : List UInt8} {hdr : CuvsShardsHeader}
    {recs : List CuvsShardRecord} (h : cuvsShardsReadBytes bytes = some ((hdr, recs), rest)) :
    cuvsShardsRead ⟨hdr.decoded, recs.map CuvsShardRecord.decoded⟩ =
      some (hdr.decoded, recs.map CuvsShardRecord.decoded) := by
  obtain ⟨⟨mid, -, hrecs⟩, hmagic, hversion, hreserved, hcrc, hcoherent⟩ :=
    cuvsShardsReadBytes_eq_some.mp h
  obtain ⟨hcount, hsize, hwidth, hcheck⟩ := coherentShards_iff.mp hcoherent
  obtain ⟨hlen, -⟩ := canonical_shardRecord.many hrecs
  obtain ⟨hcover, hbytes⟩ := shardRecordsCover_decoded le_rfl hcheck
  have htake : (recs.map CuvsShardRecord.decoded).take hdr.decoded.shardCount =
      recs.map CuvsShardRecord.decoded := List.take_of_length_le (by rw [List.length_map, hlen]; rfl)
  have hmagic' : hdr.decoded.magic = shardsMagic := congrArg UInt32.toNat hmagic
  have hversion' : hdr.decoded.version = shardsVersion := congrArg UInt32.toNat hversion
  have hreserved' : hdr.decoded.reserved = 0 := congrArg UInt32.toNat hreserved
  have hcount' : hdr.decoded.shardCount ≠ 0 ∧ hdr.decoded.shardCount ≤ shardsMax :=
    ⟨Nat.ne_of_gt hcount.1, hcount.2⟩
  have hsize' : hdr.decoded.nVecs ≠ 0 ∧ hdr.decoded.nVecs ≤ tidsMaxVecs := by
    change hdr.nVecs.toInt.toNat ≠ 0 ∧ hdr.nVecs.toInt.toNat ≤ tidsMaxVecs
    omega
  have hlen' : ¬(recs.map CuvsShardRecord.decoded).length < hdr.decoded.shardCount := by
    rw [List.length_map, hlen]
    exact lt_irrefl _
  have hwidth' : hdr.decoded.dim ≠ 0 := Nat.ne_of_gt hwidth
  have hcrc' : cuvsCrc32 (shardRecordBytes (recs.map CuvsShardRecord.decoded)) =
      hdr.decoded.bodyCrc32 := by rw [hbytes]; exact hcrc
  simp only [cuvsShardsRead, htake, hmagic', hversion', hreserved', hcount'.1, hsize'.1, hlen',
    hwidth', hcrc', Nat.not_lt.mpr hcount'.2, Nat.not_lt.mpr hsize'.2, or_false, if_false, ne_eq,
    not_true_eq_false, Bool.not_eq_true', Bool.eq_false_iff]
  exact if_neg fun hno => hno hcover

end Decoded

/-- The reader takes a written manifest exactly when it is coherent, returns what
was written, and takes nothing that writing again would not produce. -/
theorem cuvsShardsReadBytes_codec :
    (∀ (shardCount : UInt32) (nVecs : Int64) (dim metric baseTidsCrc32 : UInt32)
        (recs : List CuvsShardRecord) (rest : List UInt8), recs.length = shardCount.toNat →
      ((cuvsShardsReadBytes (cuvsShardsWriteBytes shardCount nVecs dim metric baseTidsCrc32 recs ++ rest)).isSome ↔
        CoherentShards shardCount nVecs dim metric recs) ∧
      (CoherentShards shardCount nVecs dim metric recs →
        cuvsShardsReadBytes (cuvsShardsWriteBytes shardCount nVecs dim metric baseTidsCrc32 recs ++ rest) =
          some ((shardsHeader shardCount nVecs dim metric baseTidsCrc32 recs, recs), rest))) ∧
    ∀ (bytes rest : List UInt8) (hdr : CuvsShardsHeader) (recs : List CuvsShardRecord),
      cuvsShardsReadBytes bytes = some ((hdr, recs), rest) →
        CoherentShards hdr.shardCount hdr.nVecs hdr.dim hdr.metric recs ∧
        bytes = cuvsShardsWriteBytes hdr.shardCount hdr.nVecs hdr.dim hdr.metric hdr.baseTidsCrc32 recs ++
          rest := by
  constructor
  · intro shardCount nVecs dim metric baseTidsCrc32 recs rest hlen
    refine ⟨⟨fun hsome => ?_, fun hcoherent => ?_⟩, fun hcoherent => ?_⟩
    · obtain ⟨⟨⟨hdr, recs'⟩, rest'⟩, hread⟩ := Option.isSome_iff_exists.mp hsome
      exact ((cuvsShardsReadBytes_write hlen).mp hread).1
    · rw [(cuvsShardsReadBytes_write hlen).mpr ⟨hcoherent, rfl, rfl, rfl⟩]
      rfl
    · exact (cuvsShardsReadBytes_write hlen).mpr ⟨hcoherent, rfl, rfl, rfl⟩
  · intro bytes rest hdr recs hread
    obtain ⟨⟨mid, hhdr, hrecs⟩, hmagic, hversion, hreserved, hcrc, hcoherent⟩ :=
      cuvsShardsReadBytes_eq_some.mp hread
    obtain ⟨hlen, hmid⟩ := canonical_shardRecord.many hrecs
    have htake : recs.take hdr.shardCount.toNat = recs := List.take_of_length_le hlen.le
    have hsame : shardsHeader hdr.shardCount hdr.nVecs hdr.dim hdr.metric hdr.baseTidsCrc32 recs
        = hdr := by
      rw [shardsHeader, htake, hcrc, ← hmagic, ← hversion, ← hreserved]
    refine ⟨hcoherent, ?_⟩
    rw [cuvsShardsWriteBytes, hsame, htake, List.append_assoc, ← hmid]
    exact canonical_shardsHeader _ _ _ hhdr

def sampleShards : List CuvsShardRecord :=
  [⟨0, 0, 0, 2, 4, 0, 7, 0⟩, ⟨1, 1, 2, 3, 4, 0, 9, 0⟩]

theorem cuvsShardsReadBytes_sample :
    cuvsShardsReadBytes (cuvsShardsWriteBytes 2 5 4 0 11 sampleShards ++ [1, 2]) =
        some ((shardsHeader 2 5 4 0 11 sampleShards, sampleShards), [1, 2]) ∧
      CoherentShards 2 5 4 0 sampleShards ∧
      (cuvsShardsReadBytes (cuvsShardsWriteBytes 2 6 4 0 11 sampleShards)).isSome = false := by
  have hcoherent : CoherentShards 2 5 4 0 sampleShards := by
    refine ⟨by decide, by decide, by decide, ?_, ?_, by decide⟩
    · intro i r h
      rcases i with _ | _ | i
      · obtain rfl := Option.some.inj h
        decide
      · obtain rfl := Option.some.inj h
        decide
      · nomatch h
    · intro i r h
      rcases i with _ | _ | i
      · obtain rfl := Option.some.inj h
        decide
      · obtain rfl := Option.some.inj h
        decide
      · nomatch h
  have hread := (cuvsShardsReadBytes_codec.1 2 5 4 0 11 sampleShards [1, 2] rfl).2 hcoherent
  refine ⟨hread, (cuvsShardsReadBytes_codec.2 _ _ _ _ hread).1, ?_⟩
  · rw [Bool.eq_false_iff, ← List.append_nil (cuvsShardsWriteBytes ..), Ne,
      (cuvsShardsReadBytes_codec.1 2 6 4 0 11 sampleShards [] rfl).1]
    exact fun h => absurd h.covers (by decide)

end PgCuvs
