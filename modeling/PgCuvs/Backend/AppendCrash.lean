import PgCuvs.Library.CountedLog
import PgCuvs.Manifest

/-! Appends to the `.delta` and `.tombstone` sidecars byte by byte, each of
which a crash may cut short, and what readers and later appends make of the file. -/

namespace PgCuvs

open Records CountedLog

structure CuvsDeltaHeader where
  magic : UInt32
  version : UInt32
  nRows : Int64
  dim : UInt32
  metric : UInt32
  baseTidsCrc32 : UInt32
  reserved : UInt32
deriving DecidableEq, Repr

structure CuvsTombstoneHeader where
  magic : UInt32
  version : UInt32
  nEntries : Int64
  baseTidsCrc32 : UInt32
  reserved : UInt32
  pad0 : UInt64
deriving DecidableEq, Repr

def CuvsDeltaHeader.bytes (h : CuvsDeltaHeader) : List UInt8 :=
  u32Bytes h.magic ++ (u32Bytes h.version ++ (i64Bytes h.nRows ++ (u32Bytes h.dim ++
    (u32Bytes h.metric ++ (u32Bytes h.baseTidsCrc32 ++ u32Bytes h.reserved)))))

def CuvsTombstoneHeader.bytes (h : CuvsTombstoneHeader) : List UInt8 :=
  u32Bytes h.magic ++ (u32Bytes h.version ++ (i64Bytes h.nEntries ++
    (u32Bytes h.baseTidsCrc32 ++ (u32Bytes h.reserved ++ u64Bytes h.pad0))))

def readDeltaHeader : Reader CuvsDeltaHeader := do
  let magic ← readU32
  let version ← readU32
  let nRows ← readI64
  let dim ← readU32
  let metric ← readU32
  let baseTidsCrc32 ← readU32
  let reserved ← readU32
  pure { magic, version, nRows, dim, metric, baseTidsCrc32, reserved }

def readTombstoneHeader : Reader CuvsTombstoneHeader := do
  let magic ← readU32
  let version ← readU32
  let nEntries ← readI64
  let baseTidsCrc32 ← readU32
  let reserved ← readU32
  let pad0 ← readU64
  pure { magic, version, nEntries, baseTidsCrc32, reserved, pad0 }

def headerBytes : ℕ := 32

def CuvsDeltaHeader.init (dim metric baseTidsCrc32 : UInt32) : CuvsDeltaHeader where
  magic := UInt32.ofNat deltaMagic
  version := UInt32.ofNat deltaVersion
  nRows := 0
  dim := dim
  metric := metric
  baseTidsCrc32 := baseTidsCrc32
  reserved := 0

def CuvsTombstoneHeader.init (baseTidsCrc32 : UInt32) : CuvsTombstoneHeader where
  magic := UInt32.ofNat tombstoneMagic
  version := UInt32.ofNat tombstoneVersion
  nEntries := 0
  baseTidsCrc32 := baseTidsCrc32
  reserved := 0
  pad0 := 0

def CuvsDeltaHeader.validate (h : CuvsDeltaHeader) (bodyBytes : ℤ) : Bool :=
  h.magic == UInt32.ofNat deltaMagic && h.version == UInt32.ofNat deltaVersion && h.reserved == 0
    && h.dim != 0 && decide (0 ≤ h.nRows.toInt) && decide (h.nRows.toInt ≤ tidsMaxVecs)
    && decide (0 ≤ bodyBytes) && decide (bodyBytes = h.nRows.toInt * cuvsDeltaRecordBytes h.dim.toNat)

def CuvsTombstoneHeader.validate (h : CuvsTombstoneHeader) (bodyBytes : ℤ) : Bool :=
  h.magic == UInt32.ofNat tombstoneMagic && h.version == UInt32.ofNat tombstoneVersion
    && h.reserved == 0 && decide (0 ≤ h.nEntries.toInt) && decide (h.nEntries.toInt ≤ tidsMaxVecs)
    && decide (0 ≤ bodyBytes) && decide (bodyBytes = h.nEntries.toInt * tombstoneRecordBytes)

/-! The writes of an append to a file that holds these bytes. A GUC bounds the
count, and no offset comes near an overflow. -/

/-- A row of an index whose vectors have `dim` dimensions, with what its append
finds: the checksum of the base build, when it can be read, and the row cap. -/
structure DeltaInsert (dim : UInt32) where
  tid : UInt64
  vec : Vec
  metric : UInt32
  baseTidsCrc32 : Option UInt32
  maxDeltaRows : Int32
  vec_length : vec.length = dim.toNat
  vec_ne_nil : vec ≠ []
deriving DecidableEq

structure TombstoneInsert where
  tid : UInt64
  deleteXid : UInt64
  baseTidsCrc32 : Option UInt32
  maxDeltaRows : Int32
deriving DecidableEq

def deltaHeaderFor {dim : UInt32} (c : DeltaInsert dim) (file : List UInt8) :
    Option CuvsDeltaHeader :=
  if file = [] then c.baseTidsCrc32.map (CuvsDeltaHeader.init dim c.metric)
  else
    match readDeltaHeader file with
    | none => none
    | some (hdr, _) =>
      if hdr.magic ≠ UInt32.ofNat deltaMagic ∨ hdr.version ≠ UInt32.ofNat deltaVersion
          ∨ hdr.dim ≠ dim then none
      else some hdr

/-- The writes of `cuvs_delta_append`, unless it gives up before them. -/
def deltaAppendOps {dim : UInt32} (c : DeltaInsert dim) (file : List UInt8) : Option (List Op) :=
  match deltaHeaderFor c file with
  | none => none
  | some hdr =>
    if c.maxDeltaRows.toInt ≤ hdr.nRows.toInt then none
    else
      let recBytes : ℤ := cuvsDeltaRecordBytes dim.toNat
      let recOff := headerBytes + hdr.nRows.toInt * recBytes
      let hdr' := { hdr with nRows := hdr.nRows + 1 }
      if recOff < 0 then none
      else some (write recOff.toNat (u64Bytes c.tid)
        ++ (write (recOff.toNat + 8) (c.vec.flatMap u32Bytes)
        ++ (write 0 hdr'.bytes
        ++ [.cut (headerBytes + hdr'.nRows.toInt * recBytes).toNat])))

def tombstoneHeaderFor (c : TombstoneInsert) (file : List UInt8) : Option CuvsTombstoneHeader :=
  if file = [] then c.baseTidsCrc32.map CuvsTombstoneHeader.init
  else
    match readTombstoneHeader file with
    | none => none
    | some (hdr, _) =>
      if hdr.magic ≠ UInt32.ofNat tombstoneMagic ∨ hdr.version ≠ UInt32.ofNat tombstoneVersion then
        none
      else some hdr

def tombstoneAppendOps (c : TombstoneInsert) (file : List UInt8) : Option (List Op) :=
  match tombstoneHeaderFor c file with
  | none => none
  | some hdr =>
    if c.maxDeltaRows.toInt ≤ hdr.nEntries.toInt then none
    else
      let recOff := headerBytes + hdr.nEntries.toInt * (tombstoneRecordBytes : ℤ)
      let hdr' := { hdr with nEntries := hdr.nEntries + 1 }
      if recOff < 0 then none
      else some (write recOff.toNat (u64Bytes c.tid ++ u64Bytes c.deleteXid)
        ++ (write 0 hdr'.bytes
        ++ [.cut (headerBytes + hdr'.nEntries.toInt * (tombstoneRecordBytes : ℤ)).toNat]))

/-! The readers: each takes the records of a file that validates, if what else
it asks of the header holds; a missing file has none. -/

def readDeltaRecord (dim : ℕ) : Reader DeltaRecord := do
  let tid ← nat 8
  let vec ← many readU32 dim
  pure ⟨tid, vec⟩

def readTombstoneRecord : Reader TombstoneRecord := do
  let tid ← nat 8
  let deleteXid ← nat 8
  pure ⟨tid, deleteXid⟩

def readDelta (dim : UInt32) (accepts : CuvsDeltaHeader → Bool) :
    Option (List UInt8) → Option (List DeltaRecord)
  | none => some []
  | some file =>
    match readDeltaHeader file with
    | none => none
    | some (hdr, body) =>
      if hdr.dim ≠ dim ∨ hdr.validate (file.length - headerBytes) = false ∨ accepts hdr = false then
        none
      else (many (readDeltaRecord dim.toNat) hdr.nRows.toInt.toNat body).map Prod.fst

/-- The rows `cuvs_merge_delta` merges, or its error. -/
def deltaRowsInFile (dim : UInt32) (maxDeltaRows : Int32) (baseTidsCrc32 : Option UInt32) :
    Option (List UInt8) → Option (List DeltaRecord) :=
  readDelta dim fun hdr => decide (hdr.nRows.toInt ≤ maxDeltaRows.toInt)
    && baseTidsCrc32 == some hdr.baseTidsCrc32

def readTombstones (accepts : CuvsTombstoneHeader → Bool) :
    Option (List UInt8) → Option (List TombstoneRecord)
  | none => some []
  | some file =>
    match readTombstoneHeader file with
    | none => none
    | some (hdr, body) =>
      if hdr.validate (file.length - headerBytes) = false ∨ accepts hdr = false then none
      else (many readTombstoneRecord hdr.nEntries.toInt.toNat body).map Prod.fst

/-! Both files as logs of counted records. -/

section Fields

theorem u32Bytes_injective {a b : UInt32} (h : u32Bytes a = u32Bytes b) : a = b := by
  have hnat : a.toNat = b.toNat := by
    rw [← @leNat_leBytes 4 _ a.toNat_lt, ← @leNat_leBytes 4 _ b.toNat_lt]
    exact congrArg leNat h
  exact UInt32.toNat_inj.mp hnat

theorem takes_deltaHeader : Takes readDeltaHeader 32 := by
  refine takes_u32.bind fun _ => ?_
  refine takes_u32.bind fun _ => ?_
  refine takes_i64.bind fun _ => ?_
  refine takes_u32.bind fun _ => ?_
  refine takes_u32.bind fun _ => ?_
  refine takes_u32.bind fun _ => ?_
  exact takes_u32.bind fun _ => Takes.pure _

theorem takes_tombstoneHeader : Takes readTombstoneHeader 32 := by
  refine takes_u32.bind fun _ => ?_
  refine takes_u32.bind fun _ => ?_
  refine takes_i64.bind fun _ => ?_
  refine takes_u32.bind fun _ => ?_
  refine takes_u32.bind fun _ => ?_
  exact takes_u64.bind fun _ => Takes.pure _

theorem canonical_deltaHeader : Canonical readDeltaHeader CuvsDeltaHeader.bytes := by
  intro bytes h rest hread
  obtain ⟨magic, b1, h1, hread⟩ := bind_eq_some hread
  obtain ⟨version, b2, h2, hread⟩ := bind_eq_some hread
  obtain ⟨nRows, b3, h3, hread⟩ := bind_eq_some hread
  obtain ⟨dim, b4, h4, hread⟩ := bind_eq_some hread
  obtain ⟨metric, b5, h5, hread⟩ := bind_eq_some hread
  obtain ⟨baseTidsCrc32, b6, h6, hread⟩ := bind_eq_some hread
  obtain ⟨reserved, b7, h7, hread⟩ := bind_eq_some hread
  obtain ⟨rfl, rfl⟩ := Prod.mk.inj (Option.some.inj hread)
  rw [canonical_u32 _ _ _ h1, canonical_u32 _ _ _ h2, canonical_i64 _ _ _ h3,
    canonical_u32 _ _ _ h4, canonical_u32 _ _ _ h5, canonical_u32 _ _ _ h6,
    canonical_u32 _ _ _ h7]
  simp only [CuvsDeltaHeader.bytes, List.append_assoc]

theorem canonical_tombstoneHeader : Canonical readTombstoneHeader CuvsTombstoneHeader.bytes := by
  intro bytes h rest hread
  obtain ⟨magic, b1, h1, hread⟩ := bind_eq_some hread
  obtain ⟨version, b2, h2, hread⟩ := bind_eq_some hread
  obtain ⟨nEntries, b3, h3, hread⟩ := bind_eq_some hread
  obtain ⟨baseTidsCrc32, b4, h4, hread⟩ := bind_eq_some hread
  obtain ⟨reserved, b5, h5, hread⟩ := bind_eq_some hread
  obtain ⟨pad0, b6, h6, hread⟩ := bind_eq_some hread
  obtain ⟨rfl, rfl⟩ := Prod.mk.inj (Option.some.inj hread)
  rw [canonical_u32 _ _ _ h1, canonical_u32 _ _ _ h2, canonical_i64 _ _ _ h3,
    canonical_u32 _ _ _ h4, canonical_u32 _ _ _ h5, canonical_u64 _ _ _ h6]
  simp only [CuvsTombstoneHeader.bytes, List.append_assoc]

@[simp] theorem u32Bytes_length (x : UInt32) : (u32Bytes x).length = 4 := leBytes_length 4 _

@[simp] theorem i64Bytes_length (x : Int64) : (i64Bytes x).length = 8 := leBytes_length 8 _

@[simp] theorem u64Bytes_length (x : UInt64) : (u64Bytes x).length = 8 := leBytes_length 8 _

theorem leNat_i64Bytes (x : Int64) : leNat (i64Bytes x) = x.toUInt64.toNat :=
  @leNat_leBytes 8 _ x.toUInt64.toNat_lt

theorem toInt_of_leNat {x : Int64} {n : ℕ} (h : leNat (i64Bytes x) = n) (hn : n < 2 ^ 31) :
    x.toInt = n ∧ (x + 1).toInt = n + 1 ∧ leNat (i64Bytes (x + 1)) = n + 1 := by
  rw [leNat_i64Bytes] at h
  have hbv : x.toBitVec.toNat = n := h
  have hx : x.toInt = n := by
    rw [Int64.toInt, BitVec.toInt_eq_toNat_of_lt (by omega), hbv]
  have hsum : (x + 1).toBitVec.toNat = n + 1 := by
    rw [Int64.toBitVec_add, BitVec.toNat_add, hbv]
    exact Nat.mod_eq_of_lt (by change n + 1 < 2 ^ 64; omega)
  refine ⟨hx, ?_, ?_⟩
  · rw [Int64.toInt, BitVec.toInt_eq_toNat_of_lt (by omega), hsum]
    rfl
  · rw [leNat_i64Bytes]
    exact hsum

theorem header_inj {magic magic' version version' : UInt32} {count count' post post' : List UInt8}
    (h : u32Bytes magic ++ (u32Bytes version ++ (count ++ post)) =
      (u32Bytes magic' ++ u32Bytes version') ++ (count' ++ post'))
    (hlen : count.length = count'.length) :
    magic = magic' ∧ version = version' ∧ count = count' ∧ post = post' := by
  rw [List.append_assoc] at h
  obtain ⟨hmagic, h⟩ := List.append_inj h (by rw [u32Bytes_length, u32Bytes_length])
  obtain ⟨hversion, h⟩ := List.append_inj h (by rw [u32Bytes_length, u32Bytes_length])
  obtain ⟨hcount, hpost⟩ := List.append_inj h hlen
  exact ⟨u32Bytes_injective hmagic, u32Bytes_injective hversion, hcount, hpost⟩

end Fields

def ReservedAt (off : ℕ) (post : List UInt8) : Prop :=
  ∃ before after, before.length = off ∧ post = before ++ (u32Bytes 0 ++ after)

theorem ReservedAt.torn {off : ℕ} {post : List UInt8} (h : ReservedAt off post) (k : ℕ) :
    ReservedAt off (torn k post (zeros post.length)) := by
  obtain ⟨before, after, hlen, rfl⟩ := h
  have hzeros : zeros (before ++ (u32Bytes 0 ++ after)).length =
      zeros before.length ++ (u32Bytes 0 ++ zeros after.length) := by
    have hreserved : u32Bytes 0 = zeros 4 := rfl
    rw [List.length_append, List.length_append, u32Bytes_length, hreserved, zeros, zeros, zeros,
      zeros, List.replicate_append_replicate, List.replicate_append_replicate]
  have hbefore : before.length = (zeros before.length).length := List.length_replicate.symm
  rw [hzeros, torn_append _ _ _ hbefore, torn_append _ _ _ rfl, torn_self]
  exact ⟨_, _, (length_torn hbefore).trans hlen, rfl⟩

section Delta

variable {dim : UInt32}

def DeltaInsert.bytes (c : DeltaInsert dim) : List UInt8 :=
  u64Bytes c.tid ++ c.vec.flatMap u32Bytes

def DeltaInsert.row (c : DeltaInsert dim) : DeltaRecord := ⟨c.tid.toNat, c.vec⟩

def deltaLog (dim : UInt32) : Layout where
  magic := u32Bytes (UInt32.ofNat deltaMagic) ++ u32Bytes (UInt32.ofNat deltaVersion)
  rest := 16
  accepts post := decide (post.take 4 = u32Bytes dim)
  sane := ReservedAt 12
  sane_torn k _ h := h.torn k
  width := cuvsDeltaRecordBytes dim.toNat
  limit := 2 ^ 31 - 1

theorem deltaLog_size : (deltaLog dim).size = 32 := rfl

theorem deltaLog_limit : (deltaLog dim).limit < 2 ^ 31 := by
  change 2 ^ 31 - 1 < 2 ^ 31
  decide

theorem flatMap_u32Bytes_length (vec : Vec) : (vec.flatMap u32Bytes).length = vec.length * 4 :=
  length_flatMap_width fun x _ => u32Bytes_length x

theorem DeltaInsert.bytes_length (c : DeltaInsert dim) :
    c.bytes.length = (deltaLog dim).width := by
  rw [DeltaInsert.bytes, List.length_append, u64Bytes_length, flatMap_u32Bytes_length, c.vec_length]
  rfl

structure DeltaHeaderOf (dim : UInt32) (f post : List UInt8) (n : ℕ) (hdr : CuvsDeltaHeader) :
    Prop where
  magic : hdr.magic = UInt32.ofNat deltaMagic
  version : hdr.version = UInt32.ofNat deltaVersion
  hasDim : hdr.dim = dim
  reserved : hdr.reserved = 0
  read : readDeltaHeader f = some (hdr, f.drop 32)
  nRows : hdr.nRows.toInt = n
  nRows_succ : (hdr.nRows + 1).toInt = n + 1
  next : (deltaLog dim).IsHeader (i64Bytes (hdr.nRows + 1)) post (n + 1)
  bytes : { hdr with nRows := hdr.nRows + 1 }.bytes =
    (deltaLog dim).magic ++ (i64Bytes (hdr.nRows + 1) ++ post)

theorem deltaHeaderOf_holds {f count post tail : List UInt8} {records : List (List UInt8)}
    (h : (deltaLog dim).Holds f count post tail records) :
    ∃ hdr, DeltaHeaderOf dim f post records.length hdr := by
  obtain ⟨hdr, hread⟩ := takes_deltaHeader f h.readable.length
  have hbytes := canonical_deltaHeader _ _ _ hread
  have hlen : hdr.bytes.length = 32 := by simp [CuvsDeltaHeader.bytes]
  have hsame : hdr.bytes = (deltaLog dim).magic ++ (count ++ post) := by
    refine (List.append_inj (hbytes.symm.trans h.bytes) ?_).1
    rw [hlen, h.header.size, deltaLog_size]
  obtain ⟨hmagic, hversion, hcount, hpost⟩ := header_inj hsame
    ((i64Bytes_length _).trans h.header.count_length.symm)
  have haccepts : post.take 4 = u32Bytes dim := of_decide_eq_true h.header.accepts
  have hdim : hdr.dim = dim := by
    rw [← hpost, List.take_left' (u32Bytes_length _)] at haccepts
    exact u32Bytes_injective haccepts
  obtain ⟨before, after, hbefore, hreserved⟩ := h.header.sane
  have hzero : hdr.reserved = 0 := by
    have hsplit : (u32Bytes hdr.dim ++ (u32Bytes hdr.metric ++ u32Bytes hdr.baseTidsCrc32)) ++
        u32Bytes hdr.reserved = before ++ (u32Bytes 0 ++ after) := by
      rw [← hreserved, ← hpost]
      simp only [List.append_assoc]
    obtain ⟨-, hrest⟩ := List.append_inj hsplit (by simp [hbefore])
    have hafter : after = [] := by
      have hcongr := congrArg List.length hrest
      rw [List.length_append, u32Bytes_length, u32Bytes_length] at hcongr
      exact List.length_eq_zero_iff.mp (by omega)
    rw [hafter, List.append_nil] at hrest
    exact u32Bytes_injective hrest
  have hlimit : (deltaLog dim).limit < 2 ^ 31 := deltaLog_limit
  have hsmall : records.length < 2 ^ 31 := Nat.lt_of_le_of_lt h.limit hlimit
  obtain ⟨hn, hsucc, hnext⟩ := toInt_of_leNat (hcount ▸ h.header.count) hsmall
  refine ⟨hdr, hmagic, hversion, hdim, hzero, hread, hn, hsucc, ?_, ?_⟩
  · exact ⟨i64Bytes_length _, hnext, h.header.post_length, h.header.accepts, h.header.sane⟩
  · have hfields : u32Bytes hdr.dim ++ (u32Bytes hdr.metric ++ (u32Bytes hdr.baseTidsCrc32 ++
        u32Bytes hdr.reserved)) = post := hpost
    rw [CuvsDeltaHeader.bytes, hmagic, hversion, hfields, deltaLog, List.append_assoc]

theorem deltaAppendOps_eq {c : DeltaInsert dim} {f : List UInt8} {hdr : CuvsDeltaHeader} {n : ℕ}
    (hhdr : deltaHeaderFor c f = some hdr) (hn : hdr.nRows.toInt = n)
    (hsucc : (hdr.nRows + 1).toInt = n + 1) :
    deltaAppendOps c f = if c.maxDeltaRows.toInt ≤ n then none
      else some ((deltaLog dim).plan n { hdr with nRows := hdr.nRows + 1 }.bytes c.bytes) := by
  rw [deltaAppendOps, hhdr]
  dsimp only
  have hoff : (headerBytes : ℤ) + n * (cuvsDeltaRecordBytes dim.toNat : ℤ) =
      ((deltaLog dim).size + n * (deltaLog dim).width : ℕ) := by
    rw [Int.natCast_add, Int.natCast_mul]
    rfl
  have hend : (headerBytes : ℤ) + (n + 1) * (cuvsDeltaRecordBytes dim.toNat : ℤ) =
      ((deltaLog dim).size + (n + 1) * (deltaLog dim).width : ℕ) := by
    rw [Int.natCast_add, Int.natCast_mul, Int.natCast_add]
    rfl
  rw [hn, hsucc, hoff, hend, Int.toNat_natCast, Int.toNat_natCast,
    if_neg (Int.not_lt.mpr (Int.natCast_nonneg _)), Layout.plan, DeltaInsert.bytes, write_append,
    u64Bytes_length, List.append_assoc]

theorem deltaHeaderFor_holds {c : DeltaInsert dim} {f count post tail : List UInt8}
    {records : List (List UInt8)} (h : (deltaLog dim).Holds f count post tail records) :
    ∃ hdr, DeltaHeaderOf dim f post records.length hdr ∧ deltaHeaderFor c f = some hdr := by
  obtain ⟨hdr, hhdr⟩ := deltaHeaderOf_holds h
  refine ⟨hdr, hhdr, ?_⟩
  have hne : f ≠ [] := by
    rintro rfl
    exact absurd h.readable.length (by rw [deltaLog_size]; exact Nat.not_succ_le_zero _)
  rw [deltaHeaderFor, if_neg hne, hhdr.read]
  exact if_neg fun hbad => hbad.elim (· hhdr.magic) fun hbad =>
    hbad.elim (· hhdr.version) (· hhdr.hasDim)

theorem deltaLog_readable {f rest : List UInt8} {hdr : CuvsDeltaHeader}
    (hread : readDeltaHeader f = some (hdr, rest)) (hmagic : hdr.magic = UInt32.ofNat deltaMagic)
    (hversion : hdr.version = UInt32.ofNat deltaVersion) (hdim : hdr.dim = dim) :
    (deltaLog dim).Readable f := by
  have hbytes := canonical_deltaHeader _ _ _ hread
  set after := u32Bytes hdr.metric ++ (u32Bytes hdr.baseTidsCrc32 ++ u32Bytes hdr.reserved)
  have hsplit : f = (deltaLog dim).magic ++ (i64Bytes hdr.nRows ++ ((u32Bytes dim ++ after) ++
      rest)) := by
    rw [hbytes, CuvsDeltaHeader.bytes, hmagic, hversion, hdim, deltaLog]
    simp only [List.append_assoc, after]
  have hafter : (u32Bytes dim ++ after).length = (deltaLog dim).rest := by
    simp [after, deltaLog]
  have hcount := i64Bytes_length hdr.nRows
  refine ⟨?_, ?_, ?_⟩
  · rw [hsplit, List.length_append, List.length_append, List.length_append, hcount, hafter,
      Layout.size]
    omega
  · rw [hsplit, List.take_left]
  · have hdrop : f.drop ((deltaLog dim).magic.length + 8) = (u32Bytes dim ++ after) ++ rest := by
      rw [hsplit, ← hcount, List.drop_length_add_append, List.drop_left]
    rw [hdrop, List.take_left' hafter]
    exact decide_eq_true (List.take_left' (u32Bytes_length dim))

theorem maxRows_le (x : Int32) : x.toInt ≤ 2 ^ 31 - 1 := by
  have := x.toInt_lt
  omega

theorem deltaAppends (dim : UInt32) :
    Appends (deltaLog dim) (@deltaAppendOps dim) DeltaInsert.bytes where
  width_pos := by
    change 0 < 8 + dim.toNat * 4
    omega
  record_length := DeltaInsert.bytes_length
  start c os h := by
    obtain ⟨hdr, hhdr⟩ : ∃ hdr, deltaHeaderFor c [] = some hdr := by
      cases hhdr : deltaHeaderFor c [] with
      | none =>
        rw [deltaAppendOps, hhdr] at h
        nomatch h
      | some hdr => exact ⟨hdr, rfl⟩
    have hinit : ∃ crc, hdr = CuvsDeltaHeader.init dim c.metric crc := by
      rw [deltaHeaderFor, if_pos rfl, Option.map_eq_some_iff] at hhdr
      obtain ⟨crc, -, hcrc⟩ := hhdr
      exact ⟨crc, hcrc.symm⟩
    obtain ⟨crc, rfl⟩ := hinit
    rw [@deltaAppendOps_eq dim c [] _ 0 hhdr rfl rfl] at h
    split_ifs at h with hcap
    obtain rfl := Option.some.inj h
    refine ⟨by change 1 ≤ 2 ^ 31 - 1; decide, i64Bytes 1, u32Bytes dim ++ (u32Bytes c.metric ++
      (u32Bytes crc ++ u32Bytes 0)), ⟨rfl, rfl, rfl, ?_, ?_⟩, rfl⟩
    · exact decide_eq_true (List.take_left' (u32Bytes_length dim))
    · refine ⟨u32Bytes dim ++ (u32Bytes c.metric ++ u32Bytes crc), [], rfl, ?_⟩
      simp only [List.append_assoc, List.append_nil]
  next c os f count post tail records hholds h := by
    obtain ⟨hdr, hhdr, hfor⟩ := @deltaHeaderFor_holds dim c _ _ _ _ _ hholds
    rw [deltaAppendOps_eq hfor hhdr.nRows hhdr.nRows_succ] at h
    split_ifs at h with hcap
    obtain rfl := Option.some.inj h
    have hmax := maxRows_le c.maxDeltaRows
    refine ⟨?_, i64Bytes (hdr.nRows + 1), hhdr.next, by rw [hhdr.bytes]⟩
    change records.length + 1 ≤ 2 ^ 31 - 1
    omega
  refuse c f h := by
    have hnone : deltaHeaderFor c f = none := by
      rw [deltaHeaderFor, if_neg h.ne_nil]
      cases hread : readDeltaHeader f with
      | none => rfl
      | some p =>
        obtain ⟨hdr, rest⟩ := p
        refine if_pos ?_
        by_contra hgood
        simp only [not_or, not_not] at hgood
        exact h.unreadable (deltaLog_readable hread hgood.1 hgood.2.1 hgood.2.2)
    rw [deltaAppendOps, hnone]

structure DeltaInsert.Fits (c : DeltaInsert dim) (n : ℕ) : Prop where
  cap : (n : ℤ) < c.maxDeltaRows.toInt
  count : n < tidsMaxVecs
  base : n = 0 → c.baseTidsCrc32.isSome

theorem reads_deltaRecord (c : DeltaInsert dim) :
    Records.Reads (readDeltaRecord dim.toNat) c.bytes c.row := by
  have htid : Records.Reads (nat 8) (u64Bytes c.tid) c.tid.toNat :=
    Reads.nat (leBytes_length 8 _) (leNat_leBytes c.tid.toNat_lt)
  have hvec := Reads.many u32Bytes id c.vec fun x _ => reads_u32 x
  rw [List.map_id, c.vec_length] at hvec
  exact htid.bind hvec.map

theorem reads_deltaRecords (cs : List (DeltaInsert dim)) (tail : List UInt8) :
    (many (readDeltaRecord dim.toNat) cs.length ((cs.map DeltaInsert.bytes).flatten ++ tail)).map
      Prod.fst = some (cs.map DeltaInsert.row) := by
  rw [← List.flatMap_def]
  exact (Reads.many DeltaInsert.bytes DeltaInsert.row cs fun c _ => reads_deltaRecord c).run tail

/-- A reader either refuses a file that holds records or finds them. -/
theorem readDelta_holds {f count post tail : List UInt8} {cs : List (DeltaInsert dim)}
    (h : (deltaLog dim).Holds f count post tail (cs.map DeltaInsert.bytes)) :
    ∃ hdr, DeltaHeaderOf dim f post cs.length hdr ∧ ∀ accepts, readDelta dim accepts (some f) =
      if hdr.validate (f.length - headerBytes) = false ∨ accepts hdr = false then none
      else some (cs.map DeltaInsert.row) := by
  obtain ⟨hdr, hhdr⟩ := deltaHeaderOf_holds h
  rw [List.length_map] at hhdr
  refine ⟨hdr, hhdr, fun accepts => ?_⟩
  have hbody : f.drop 32 = (cs.map DeltaInsert.bytes).flatten ++ tail := by
    have hsize := h.header.size
    rw [deltaLog_size] at hsize
    rw [h.bytes, ← hsize, List.drop_left]
  have hrows := reads_deltaRecords cs tail
  rw [readDelta, hhdr.read]
  dsimp only
  rw [hhdr.nRows, Int.toNat_natCast, hbody, hrows]
  simp only [hhdr.hasDim, not_true_eq_false, ne_eq, false_or]

theorem deltaReads (dim : UInt32) :
    ReadsLog (deltaLog dim) (@deltaAppendOps dim) DeltaInsert.bytes DeltaInsert.row (readDelta dim)
      DeltaInsert.Fits where
  absent _ := rfl
  empty _ := rfl
  damaged accepts f h := by
    rw [readDelta]
    cases hread : readDeltaHeader f with
    | none => rfl
    | some p =>
      obtain ⟨hdr, rest⟩ := p
      refine if_pos ?_
      by_contra hgood
      simp only [not_or, not_not, Bool.not_eq_false] at hgood
      obtain ⟨hdim, hvalid, -⟩ := hgood
      simp only [CuvsDeltaHeader.validate, Bool.and_eq_true, beq_iff_eq] at hvalid
      exact h.unreadable (deltaLog_readable hread hvalid.1.1.1.1.1.1.1 hvalid.1.1.1.1.1.1.2 hdim)
  holds accepts f count post tail cs h := by
    obtain ⟨hdr, -, hread⟩ := readDelta_holds h
    rw [hread]
    split_ifs
    · exact Or.inl rfl
    · exact Or.inr rfl
  clean f count post cs c h hfits := by
    obtain ⟨hdr, hhdr, hread⟩ := readDelta_holds h
    have hcount : (cs ++ [c]).length = cs.length + 1 := by rw [List.length_append]; rfl
    have hlen : ((f.length : ℤ) - headerBytes) =
        (cs ++ [c]).length * (cuvsDeltaRecordBytes dim.toNat : ℤ) := by
      have hbytes := congrArg List.length h.bytes
      rw [List.append_nil, List.length_append, h.header.size, deltaLog_size,
        Layout.length_flatten_width h.width, List.length_map] at hbytes
      have hbody : (deltaLog dim).width = cuvsDeltaRecordBytes dim.toNat := rfl
      rw [hbytes, hbody, Int.natCast_add, Int.natCast_mul, headerBytes]
      omega
    have hdim : dim ≠ 0 := by
      rintro rfl
      exact c.vec_ne_nil (List.length_eq_zero_iff.mp c.vec_length)
    have hvalid : hdr.validate (f.length - headerBytes) = true := by
      have hmax := hfits.count
      simp only [CuvsDeltaHeader.validate, Bool.and_eq_true, beq_iff_eq, bne_iff_ne,
        decide_eq_true_eq, hhdr.magic, hhdr.version, hhdr.reserved, hhdr.hasDim, hhdr.nRows, hlen,
        true_and, and_true]
      refine ⟨⟨⟨hdim, by omega⟩, by omega⟩, ?_⟩
      exact Int.mul_nonneg (Int.natCast_nonneg _) (Int.natCast_nonneg _)
    rw [hread, if_neg (by simp [hvalid])]
  ready c f cs h hfits := by
    rcases h with ⟨rfl, hcs⟩ | ⟨count, post, tail, hholds⟩
    · obtain rfl := List.map_eq_nil_iff.mp hcs
      obtain ⟨crc, hcrc⟩ := Option.isSome_iff_exists.mp (hfits.base rfl)
      have hfor : deltaHeaderFor c [] = some (CuvsDeltaHeader.init dim c.metric crc) := by
        rw [deltaHeaderFor, if_pos rfl, hcrc, Option.map_some]
      have hcap := hfits.cap
      rw [@deltaAppendOps_eq dim c [] _ 0 hfor rfl rfl,
        if_neg (by rw [List.length_nil] at hcap; omega)]
      rfl
    · obtain ⟨hdr, hhdr, hfor⟩ := @deltaHeaderFor_holds dim c _ _ _ _ _ hholds
      have hcap := hfits.cap
      rw [deltaAppendOps_eq hfor hhdr.nRows hhdr.nRows_succ,
        if_neg (by rw [List.length_map]; omega)]
      rfl

end Delta

section Tombstone

def TombstoneInsert.bytes (c : TombstoneInsert) : List UInt8 :=
  u64Bytes c.tid ++ u64Bytes c.deleteXid

def TombstoneInsert.row (c : TombstoneInsert) : TombstoneRecord :=
  ⟨c.tid.toNat, c.deleteXid.toNat⟩

def tombstoneLog : Layout where
  magic := u32Bytes (UInt32.ofNat tombstoneMagic) ++ u32Bytes (UInt32.ofNat tombstoneVersion)
  rest := 16
  accepts _ := true
  sane := ReservedAt 4
  sane_torn k _ h := h.torn k
  width := tombstoneRecordBytes
  limit := 2 ^ 31 - 1

theorem tombstoneLog_size : tombstoneLog.size = 32 := rfl

theorem tombstoneLog_limit : tombstoneLog.limit < 2 ^ 31 := by
  change 2 ^ 31 - 1 < 2 ^ 31
  decide

structure TombstoneHeaderOf (f post : List UInt8) (n : ℕ) (hdr : CuvsTombstoneHeader) : Prop where
  magic : hdr.magic = UInt32.ofNat tombstoneMagic
  version : hdr.version = UInt32.ofNat tombstoneVersion
  reserved : hdr.reserved = 0
  read : readTombstoneHeader f = some (hdr, f.drop 32)
  nEntries : hdr.nEntries.toInt = n
  nEntries_succ : (hdr.nEntries + 1).toInt = n + 1
  next : tombstoneLog.IsHeader (i64Bytes (hdr.nEntries + 1)) post (n + 1)
  bytes : { hdr with nEntries := hdr.nEntries + 1 }.bytes =
    tombstoneLog.magic ++ (i64Bytes (hdr.nEntries + 1) ++ post)

theorem tombstoneHeaderOf_holds {f count post tail : List UInt8} {records : List (List UInt8)}
    (h : tombstoneLog.Holds f count post tail records) :
    ∃ hdr, TombstoneHeaderOf f post records.length hdr := by
  obtain ⟨hdr, hread⟩ := takes_tombstoneHeader f h.readable.length
  have hbytes := canonical_tombstoneHeader _ _ _ hread
  have hlen : hdr.bytes.length = 32 := by simp [CuvsTombstoneHeader.bytes]
  have hsame : hdr.bytes = tombstoneLog.magic ++ (count ++ post) := by
    refine (List.append_inj (hbytes.symm.trans h.bytes) ?_).1
    rw [hlen, h.header.size, tombstoneLog_size]
  obtain ⟨hmagic, hversion, hcount, hpost⟩ := header_inj hsame
    ((i64Bytes_length _).trans h.header.count_length.symm)
  obtain ⟨before, after, hbefore, hreserved⟩ := h.header.sane
  have hzero : hdr.reserved = 0 := by
    rw [← hpost] at hreserved
    obtain ⟨-, hrest⟩ := List.append_inj hreserved (by rw [hbefore, u32Bytes_length])
    exact u32Bytes_injective (List.append_inj hrest (by rw [u32Bytes_length, u32Bytes_length])).1
  have hsmall : records.length < 2 ^ 31 := Nat.lt_of_le_of_lt h.limit tombstoneLog_limit
  obtain ⟨hn, hsucc, hnext⟩ := toInt_of_leNat (hcount ▸ h.header.count) hsmall
  refine ⟨hdr, hmagic, hversion, hzero, hread, hn, hsucc, ?_, ?_⟩
  · exact ⟨i64Bytes_length _, hnext, h.header.post_length, rfl, h.header.sane⟩
  · have hfields : u32Bytes hdr.baseTidsCrc32 ++ (u32Bytes hdr.reserved ++ u64Bytes hdr.pad0) =
        post := hpost
    rw [CuvsTombstoneHeader.bytes, hmagic, hversion, hfields, tombstoneLog, List.append_assoc]

theorem tombstoneAppendOps_eq {c : TombstoneInsert} {f : List UInt8} {hdr : CuvsTombstoneHeader}
    {n : ℕ} (hhdr : tombstoneHeaderFor c f = some hdr) (hn : hdr.nEntries.toInt = n)
    (hsucc : (hdr.nEntries + 1).toInt = n + 1) :
    tombstoneAppendOps c f = if c.maxDeltaRows.toInt ≤ n then none
      else some (tombstoneLog.plan n { hdr with nEntries := hdr.nEntries + 1 }.bytes c.bytes) := by
  rw [tombstoneAppendOps, hhdr]
  dsimp only
  have hoff : (headerBytes : ℤ) + n * (tombstoneRecordBytes : ℤ) =
      (tombstoneLog.size + n * tombstoneLog.width : ℕ) := by
    rw [Int.natCast_add, Int.natCast_mul]
    rfl
  have hend : (headerBytes : ℤ) + (n + 1) * (tombstoneRecordBytes : ℤ) =
      (tombstoneLog.size + (n + 1) * tombstoneLog.width : ℕ) := by
    rw [Int.natCast_add, Int.natCast_mul, Int.natCast_add]
    rfl
  rw [hn, hsucc, hoff, hend, Int.toNat_natCast, Int.toNat_natCast,
    if_neg (Int.not_lt.mpr (Int.natCast_nonneg _)), Layout.plan, TombstoneInsert.bytes]

theorem tombstoneHeaderFor_holds {c : TombstoneInsert} {f count post tail : List UInt8}
    {records : List (List UInt8)} (h : tombstoneLog.Holds f count post tail records) :
    ∃ hdr, TombstoneHeaderOf f post records.length hdr ∧ tombstoneHeaderFor c f = some hdr := by
  obtain ⟨hdr, hhdr⟩ := tombstoneHeaderOf_holds h
  refine ⟨hdr, hhdr, ?_⟩
  have hne : f ≠ [] := by
    rintro rfl
    exact absurd h.readable.length (by rw [tombstoneLog_size]; exact Nat.not_succ_le_zero _)
  rw [tombstoneHeaderFor, if_neg hne, hhdr.read]
  exact if_neg fun hbad => hbad.elim (· hhdr.magic) (· hhdr.version)

theorem tombstoneLog_readable {f rest : List UInt8} {hdr : CuvsTombstoneHeader}
    (hread : readTombstoneHeader f = some (hdr, rest))
    (hmagic : hdr.magic = UInt32.ofNat tombstoneMagic)
    (hversion : hdr.version = UInt32.ofNat tombstoneVersion) : tombstoneLog.Readable f := by
  have hbytes := canonical_tombstoneHeader _ _ _ hread
  set post := u32Bytes hdr.baseTidsCrc32 ++ (u32Bytes hdr.reserved ++ u64Bytes hdr.pad0)
  have hsplit : f = tombstoneLog.magic ++ (i64Bytes hdr.nEntries ++ (post ++ rest)) := by
    rw [hbytes, CuvsTombstoneHeader.bytes, hmagic, hversion, tombstoneLog]
    simp only [List.append_assoc, post]
  have hpost : post.length = tombstoneLog.rest := by simp [post, tombstoneLog]
  refine ⟨?_, ?_, rfl⟩
  · rw [hsplit, List.length_append, List.length_append, List.length_append, i64Bytes_length, hpost,
      Layout.size]
    omega
  · rw [hsplit, List.take_left]

theorem tombstoneAppends :
    Appends tombstoneLog tombstoneAppendOps TombstoneInsert.bytes where
  width_pos := by decide
  record_length c := by
    rw [TombstoneInsert.bytes, List.length_append, u64Bytes_length, u64Bytes_length]
    rfl
  start c os h := by
    obtain ⟨hdr, hhdr⟩ : ∃ hdr, tombstoneHeaderFor c [] = some hdr := by
      cases hhdr : tombstoneHeaderFor c [] with
      | none =>
        rw [tombstoneAppendOps, hhdr] at h
        nomatch h
      | some hdr => exact ⟨hdr, rfl⟩
    have hinit : ∃ crc, hdr = CuvsTombstoneHeader.init crc := by
      rw [tombstoneHeaderFor, if_pos rfl, Option.map_eq_some_iff] at hhdr
      obtain ⟨crc, -, hcrc⟩ := hhdr
      exact ⟨crc, hcrc.symm⟩
    obtain ⟨crc, rfl⟩ := hinit
    rw [@tombstoneAppendOps_eq c [] _ 0 hhdr rfl rfl] at h
    split_ifs at h with hcap
    obtain rfl := Option.some.inj h
    exact ⟨by change 1 ≤ 2 ^ 31 - 1; decide, i64Bytes 1, u32Bytes crc ++ (u32Bytes 0 ++ u64Bytes 0),
      ⟨rfl, rfl, rfl, rfl, u32Bytes crc, u64Bytes 0, rfl, rfl⟩, rfl⟩
  next c os f count post tail records hholds h := by
    obtain ⟨hdr, hhdr, hfor⟩ := @tombstoneHeaderFor_holds c _ _ _ _ _ hholds
    rw [tombstoneAppendOps_eq hfor hhdr.nEntries hhdr.nEntries_succ] at h
    split_ifs at h with hcap
    obtain rfl := Option.some.inj h
    have hmax := maxRows_le c.maxDeltaRows
    refine ⟨?_, i64Bytes (hdr.nEntries + 1), hhdr.next, by rw [hhdr.bytes]⟩
    change records.length + 1 ≤ 2 ^ 31 - 1
    omega
  refuse c f h := by
    have hnone : tombstoneHeaderFor c f = none := by
      rw [tombstoneHeaderFor, if_neg h.ne_nil]
      cases hread : readTombstoneHeader f with
      | none => rfl
      | some p =>
        obtain ⟨hdr, rest⟩ := p
        refine if_pos ?_
        by_contra hgood
        simp only [not_or, not_not] at hgood
        exact h.unreadable (tombstoneLog_readable hread hgood.1 hgood.2)
    rw [tombstoneAppendOps, hnone]

structure TombstoneInsert.Fits (c : TombstoneInsert) (n : ℕ) : Prop where
  cap : (n : ℤ) < c.maxDeltaRows.toInt
  count : n < tidsMaxVecs
  base : n = 0 → c.baseTidsCrc32.isSome

theorem reads_tombstoneRecord (c : TombstoneInsert) :
    Records.Reads readTombstoneRecord c.bytes c.row := by
  have htid : Records.Reads (nat 8) (u64Bytes c.tid) c.tid.toNat :=
    Reads.nat (leBytes_length 8 _) (leNat_leBytes c.tid.toNat_lt)
  have hxid : Records.Reads (nat 8) (u64Bytes c.deleteXid) c.deleteXid.toNat :=
    Reads.nat (leBytes_length 8 _) (leNat_leBytes c.deleteXid.toNat_lt)
  exact htid.bind hxid.map

theorem reads_tombstoneRecords (cs : List TombstoneInsert) (tail : List UInt8) :
    (many readTombstoneRecord cs.length ((cs.map TombstoneInsert.bytes).flatten ++ tail)).map
      Prod.fst = some (cs.map TombstoneInsert.row) := by
  rw [← List.flatMap_def]
  exact (Reads.many TombstoneInsert.bytes TombstoneInsert.row cs
    fun c _ => reads_tombstoneRecord c).run tail

theorem readTombstones_holds {f count post tail : List UInt8} {cs : List TombstoneInsert}
    (h : tombstoneLog.Holds f count post tail (cs.map TombstoneInsert.bytes)) :
    ∃ hdr, TombstoneHeaderOf f post cs.length hdr ∧ ∀ accepts, readTombstones accepts (some f) =
      if hdr.validate (f.length - headerBytes) = false ∨ accepts hdr = false then none
      else some (cs.map TombstoneInsert.row) := by
  obtain ⟨hdr, hhdr⟩ := tombstoneHeaderOf_holds h
  rw [List.length_map] at hhdr
  refine ⟨hdr, hhdr, fun accepts => ?_⟩
  have hbody : f.drop 32 = (cs.map TombstoneInsert.bytes).flatten ++ tail := by
    have hsize := h.header.size
    rw [tombstoneLog_size] at hsize
    rw [h.bytes, ← hsize, List.drop_left]
  rw [readTombstones, hhdr.read]
  dsimp only
  rw [hhdr.nEntries, Int.toNat_natCast, hbody, reads_tombstoneRecords cs tail]

theorem tombstoneReads :
    ReadsLog tombstoneLog tombstoneAppendOps TombstoneInsert.bytes TombstoneInsert.row
      readTombstones TombstoneInsert.Fits where
  absent _ := rfl
  empty _ := rfl
  damaged accepts f h := by
    rw [readTombstones]
    cases hread : readTombstoneHeader f with
    | none => rfl
    | some p =>
      obtain ⟨hdr, rest⟩ := p
      refine if_pos ?_
      by_contra hgood
      simp only [not_or, Bool.not_eq_false] at hgood
      obtain ⟨hvalid, -⟩ := hgood
      simp only [CuvsTombstoneHeader.validate, Bool.and_eq_true, beq_iff_eq] at hvalid
      exact h.unreadable (tombstoneLog_readable hread hvalid.1.1.1.1.1.1 hvalid.1.1.1.1.1.2)
  holds accepts f count post tail cs h := by
    obtain ⟨hdr, -, hread⟩ := readTombstones_holds h
    rw [hread]
    split_ifs
    · exact Or.inl rfl
    · exact Or.inr rfl
  clean f count post cs c h hfits := by
    obtain ⟨hdr, hhdr, hread⟩ := readTombstones_holds h
    have hcount : (cs ++ [c]).length = cs.length + 1 := by rw [List.length_append]; rfl
    have hlen : ((f.length : ℤ) - headerBytes) =
        (cs ++ [c]).length * (tombstoneRecordBytes : ℤ) := by
      have hbytes := congrArg List.length h.bytes
      rw [List.append_nil, List.length_append, h.header.size, tombstoneLog_size,
        Layout.length_flatten_width h.width, List.length_map] at hbytes
      have hbody : tombstoneLog.width = tombstoneRecordBytes := rfl
      rw [hbytes, hbody, Int.natCast_add, Int.natCast_mul, headerBytes]
      omega
    have hvalid : hdr.validate (f.length - headerBytes) = true := by
      have hmax := hfits.count
      simp only [CuvsTombstoneHeader.validate, Bool.and_eq_true, beq_iff_eq, decide_eq_true_eq,
        hhdr.magic, hhdr.version, hhdr.reserved, hhdr.nEntries, hlen, true_and, and_true]
      refine ⟨⟨by omega, by omega⟩, ?_⟩
      exact Int.mul_nonneg (Int.natCast_nonneg _) (Int.natCast_nonneg _)
    rw [hread, if_neg (by simp [hvalid])]
  ready c f cs h hfits := by
    rcases h with ⟨rfl, hcs⟩ | ⟨count, post, tail, hholds⟩
    · obtain rfl := List.map_eq_nil_iff.mp hcs
      obtain ⟨crc, hcrc⟩ := Option.isSome_iff_exists.mp (hfits.base rfl)
      have hfor : tombstoneHeaderFor c [] = some (CuvsTombstoneHeader.init crc) := by
        rw [tombstoneHeaderFor, if_pos rfl, hcrc, Option.map_some]
      have hcap := hfits.cap
      rw [@tombstoneAppendOps_eq c [] _ 0 hfor rfl rfl,
        if_neg (by rw [List.length_nil] at hcap; omega)]
      rfl
    · obtain ⟨hdr, hhdr, hfor⟩ := @tombstoneHeaderFor_holds c _ _ _ _ _ hholds
      have hcap := hfits.cap
      rw [tombstoneAppendOps_eq hfor hhdr.nEntries hhdr.nEntries_succ,
        if_neg (by rw [List.length_map]; omega)]
      rfl

end Tombstone

def sampleDeltaInsert (tid : UInt64) : DeltaInsert 1 where
  tid := tid
  vec := [0]
  metric := 0
  baseTidsCrc32 := some 7
  maxDeltaRows := 10
  vec_length := rfl
  vec_ne_nil := by decide

/-- Appends to either sidecar, each of which a crash may cut short, unless it
does so in the count while that rolls over. -/
theorem cuvsAppends_crashSafe :
    (∀ (dim : UInt32) (calls : List (DeltaInsert dim × Option Crash)),
      Along (@deltaAppendOps dim) (NoCountCut (deltaLog dim)) calls none → ∃ kept,
        CrashSafe (deltaLog dim) (@deltaAppendOps dim) DeltaInsert.row (readDelta dim)
          DeltaInsert.Fits calls kept) ∧
      ∀ calls : List (TombstoneInsert × Option Crash),
        Along tombstoneAppendOps (NoCountCut tombstoneLog) calls none → ∃ kept,
          CrashSafe tombstoneLog tombstoneAppendOps TombstoneInsert.row readTombstones
            TombstoneInsert.Fits calls kept :=
  ⟨fun dim _ hcut => (deltaReads dim).crashSafe (deltaAppends dim) hcut,
    fun _ hcut => tombstoneReads.crashSafe tombstoneAppends hcut⟩

theorem cuvsAppends_crashSafe_torn : ∃ kept, CrashSafe (deltaLog 1) (@deltaAppendOps 1)
    DeltaInsert.row (readDelta 1) DeltaInsert.Fits
      [(sampleDeltaInsert 5, none), (sampleDeltaInsert 6, some (.after 9))] kept := by
  refine cuvsAppends_crashSafe.1 1 _ ⟨fun m h => (nomatch h), fun m h => ?_, trivial⟩
  obtain rfl : 9 = m := Crash.after.inj (Option.some.inj h)
  rintro ⟨j, -, -, hj, -⟩
  change 9 = 12 + 8 + j at hj
  omega

/-- Where a crash leaves part of the first record and no header, no append returns
any more: the file is not new, and it has no magic. -/
theorem deltaAppend_cutBeforeHeader {dim : UInt32} {c : DeltaInsert dim} {m : ℕ}
    (hops : (deltaAppendOps c []).isSome) (hm : 0 < m) (hcut : m ≤ (deltaLog dim).width)
    (calls : List (DeltaInsert dim × Option Crash)) :
    Survives (appends deltaAppendOps calls
      (append deltaAppendOps c (some (.after m)) none).1).2 [] := by
  obtain ⟨os, hos⟩ := Option.isSome_iff_exists.mp hops
  obtain ⟨-, next, post, hheader, rfl⟩ := (deltaAppends dim).start c os hos
  have hbytes := Layout.crash_start hheader.size c.bytes_length (deltaAppends dim).width_pos hm
  rw [Nat.sub_eq_zero_of_le hcut, torn_zero] at hbytes
  have hhead : zeros (deltaLog dim).size = zeros 8 ++ zeros 24 := rfl
  have hafter : append deltaAppendOps c (some (.after m)) none = _ := append_after hos
  rw [hafter]
  refine ((deltaAppends dim).damaged_run calls ⟨?_, fun hread => ?_⟩).2
  · intro hempty
    have hlen := congrArg List.length (hbytes.symm.trans hempty)
    rw [hhead] at hlen
    simp [zeros] at hlen
  · have hmagic := hread.magic
    change (CrashPrefix.crash Op.apply m _ []).take 8 = _ at hmagic
    rw [hbytes, hhead, List.append_assoc] at hmagic
    have hzeros : zeros 8 = u32Bytes (UInt32.ofNat deltaMagic) ++
        u32Bytes (UInt32.ofNat deltaVersion) := hmagic
    exact absurd hzeros (by decide)

section AsClaimed

variable {κ : Type}

/-- All that returned, and of those that were interrupted at most the last. -/
def LastSurvives (outcomes : List (κ × Outcome)) (kept : List κ) : Prop :=
  let returned (outcomes : List (κ × Outcome)) :=
    (outcomes.filter fun p => p.2 = .returned).map Prod.fst
  kept = returned outcomes ∨ ∃ before c after, outcomes = before ++ (c, .interrupted) :: after ∧
    (∀ p ∈ after, p.2 ≠ .interrupted) ∧ kept = returned before ++ c :: returned after

/-- Two appends that crash between the header and the end each: a reader finds both rows. -/
theorem cuvsDeltaAppend_bothSurvive :
    let run := appends deltaAppendOps
      [(sampleDeltaInsert 5, some (.after 44)), (sampleDeltaInsert 6, some (.after 44))] none
    run.2.map Prod.snd = [.interrupted, .interrupted] ∧
      deltaRowsInFile 1 10 (some 7) run.1 = some [⟨5, [0]⟩, ⟨6, [0]⟩] ∧
      ¬∃ kept, LastSurvives run.2 kept ∧ (deltaRowsInFile 1 10 (some 7) run.1 = none ∨
        deltaRowsInFile 1 10 (some 7) run.1 = some (kept.map DeltaInsert.row)) := by
  intro run
  have houtcomes : run.2 = [(sampleDeltaInsert 5, .interrupted), (sampleDeltaInsert 6, .interrupted)] := by
    decide +kernel
  have hrows : deltaRowsInFile 1 10 (some 7) run.1 = some [⟨5, [0]⟩, ⟨6, [0]⟩] := by decide +kernel
  refine ⟨by rw [houtcomes]; rfl, hrows, ?_⟩
  rintro ⟨kept, hlast, hsees⟩
  rw [hrows] at hsees
  have htwo : kept.length = 2 := by
    have hkept := Option.some.inj (hsees.resolve_left (fun h => nomatch h))
    rw [← List.length_map DeltaInsert.row, ← hkept]
    rfl
  rw [houtcomes] at hlast
  rcases hlast with rfl | ⟨before, c, after, hsplit, hafter, rfl⟩
  · nomatch htwo
  · match before, hsplit with
    | [], hsplit =>
      obtain ⟨-, rfl⟩ := List.cons.inj hsplit
      exact hafter _ List.mem_cons_self rfl
    | [p], hsplit =>
      obtain ⟨rfl, hrest⟩ := List.cons.inj hsplit
      obtain ⟨-, hnil⟩ := List.cons.inj (hrest.trans (List.nil_append _))
      subst hnil
      nomatch htwo
    | _ :: _ :: before, hsplit =>
      have hlen := congrArg List.length hsplit
      simp at hlen

end AsClaimed

end PgCuvs
