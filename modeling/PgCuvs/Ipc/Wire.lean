import PgCuvs.Codec

/-! The frames on the daemon's socket: the command, the reply header and a result, byte for
byte, and the readers that take them apart. -/

namespace PgCuvs

open Records

def cuvsProtoMagic : UInt32 := 0x50435556

def cuvsProtoVersion : UInt32 := 4

/-- `CUVS_STATUS_OK` and the statuses that the two ends of the socket make up themselves. -/
def cuvsStatusOk : UInt32 := 0
def cuvsStatusError : UInt32 := 1
def cuvsStatusCanceled : UInt32 := 11
def cuvsStatusProtoMismatch : UInt32 := 12

structure CharBuffer (size : ℕ) where
  bytes : List UInt8
  length_eq : bytes.length = size
deriving DecidableEq

def raw (size : ℕ) : Reader (CharBuffer size) := fun bytes =>
  if h : size ≤ bytes.length then
    some (⟨bytes.take size, List.length_take_of_le h⟩, bytes.drop size)
  else none

theorem reads_raw {size : ℕ} (b : CharBuffer size) : Reads (raw size) b.bytes b := by
  intro rest
  have hle : size ≤ (b.bytes ++ rest).length := by
    rw [List.length_append, b.length_eq]
    exact Nat.le_add_right _ _
  have htake : (b.bytes ++ rest).take size = b.bytes := List.take_left' b.length_eq
  have hdrop : (b.bytes ++ rest).drop size = rest := List.drop_left' b.length_eq
  rw [raw, dif_pos hle, hdrop]
  congr 2
  cases b
  simp only [CharBuffer.mk.injEq]
  exact htake

theorem takes_raw (size : ℕ) : Takes (raw size) size := fun _ hle => ⟨_, dif_pos hle⟩

structure CuvsCmdFrame where
  protoMagic : UInt32
  protoVersion : UInt32
  op : UInt32
  dbOid : UInt32
  indexOid : UInt32
  k : UInt32
  metric : UInt32
  dim : UInt32
  nVecs : Int64
  shmKey : CharBuffer 64
  tableOid : UInt32
  relfilenode : UInt32
  shardCount : UInt32
  shardOverfetch : UInt32
  parallelFanout : UInt32
  useCpuHnsw : UInt32
  searchMode : UInt32
  bfPrecision : UInt32
  bfBatchWaitUs : UInt32
  nPartials : UInt32
  graphDegree : UInt32
  intermediateGraphDegree : UInt32
  buildAlgo : UInt32
  nFilterTids : UInt32
  filterShmKey : CharBuffer 64
  usePrefilter : UInt32
  nLists : UInt32
  pqBits : UInt32
  pqDim : UInt32
  nProbes : UInt32
  maxChunkSize : UInt32
  cagraBatchWaitUs : UInt32
  itopkSize : UInt32
  searchWidth : UInt32
  /-- What aligns the structure to eight bytes. -/
  padding : UInt32
deriving DecidableEq

/-- The fields that the daemon reads first. -/
def CuvsCmdFrame.prologue (f : CuvsCmdFrame) : List UInt8 :=
  u32Bytes f.protoMagic ++ u32Bytes f.protoVersion

def CuvsCmdFrame.body (f : CuvsCmdFrame) : List UInt8 :=
  u32Bytes f.op ++ (u32Bytes f.dbOid ++ (u32Bytes f.indexOid ++ (u32Bytes f.k ++
    (u32Bytes f.metric ++ (u32Bytes f.dim ++ (i64Bytes f.nVecs ++ (f.shmKey.bytes ++
      (u32Bytes f.tableOid ++ (u32Bytes f.relfilenode ++ (u32Bytes f.shardCount ++
        (u32Bytes f.shardOverfetch ++ (u32Bytes f.parallelFanout ++ (u32Bytes f.useCpuHnsw ++
          (u32Bytes f.searchMode ++ (u32Bytes f.bfPrecision ++ (u32Bytes f.bfBatchWaitUs ++
            (u32Bytes f.nPartials ++ (u32Bytes f.graphDegree ++
              (u32Bytes f.intermediateGraphDegree ++ (u32Bytes f.buildAlgo ++
                (u32Bytes f.nFilterTids ++ (f.filterShmKey.bytes ++ (u32Bytes f.usePrefilter ++
                  (u32Bytes f.nLists ++ (u32Bytes f.pqBits ++ (u32Bytes f.pqDim ++
                    (u32Bytes f.nProbes ++ (u32Bytes f.maxChunkSize ++
                      (u32Bytes f.cagraBatchWaitUs ++ (u32Bytes f.itopkSize ++
                        (u32Bytes f.searchWidth ++
                          u32Bytes f.padding)))))))))))))))))))))))))))))))

def CuvsCmdFrame.bytes (f : CuvsCmdFrame) : List UInt8 := f.prologue ++ f.body

def readPrologue : Reader (UInt32 × UInt32) := do
  let protoMagic ← readU32
  let protoVersion ← readU32
  pure (protoMagic, protoVersion)

def readBody (protoMagic protoVersion : UInt32) : Reader CuvsCmdFrame := do
  let op ← readU32
  let dbOid ← readU32
  let indexOid ← readU32
  let k ← readU32
  let metric ← readU32
  let dim ← readU32
  let nVecs ← readI64
  let shmKey ← raw 64
  let tableOid ← readU32
  let relfilenode ← readU32
  let shardCount ← readU32
  let shardOverfetch ← readU32
  let parallelFanout ← readU32
  let useCpuHnsw ← readU32
  let searchMode ← readU32
  let bfPrecision ← readU32
  let bfBatchWaitUs ← readU32
  let nPartials ← readU32
  let graphDegree ← readU32
  let intermediateGraphDegree ← readU32
  let buildAlgo ← readU32
  let nFilterTids ← readU32
  let filterShmKey ← raw 64
  let usePrefilter ← readU32
  let nLists ← readU32
  let pqBits ← readU32
  let pqDim ← readU32
  let nProbes ← readU32
  let maxChunkSize ← readU32
  let cagraBatchWaitUs ← readU32
  let itopkSize ← readU32
  let searchWidth ← readU32
  let padding ← readU32
  pure { protoMagic, protoVersion, op, dbOid, indexOid, k, metric, dim, nVecs, shmKey, tableOid,
         relfilenode, shardCount, shardOverfetch, parallelFanout, useCpuHnsw, searchMode,
         bfPrecision, bfBatchWaitUs, nPartials, graphDegree, intermediateGraphDegree, buildAlgo,
         nFilterTids, filterShmKey, usePrefilter, nLists, pqBits, pqDim, nProbes, maxChunkSize,
         cagraBatchWaitUs, itopkSize, searchWidth, padding }

/-- `offsetof(CuvsCmdFrame, op)` -/
def prologueBytes : ℕ := 8

def cmdFrameBytes : ℕ := 264

theorem reads_prologue (f : CuvsCmdFrame) :
    Reads readPrologue f.prologue (f.protoMagic, f.protoVersion) :=
  (reads_u32 f.protoMagic).bind (reads_u32 f.protoVersion).map

theorem reads_body (f : CuvsCmdFrame) : Reads (readBody f.protoMagic f.protoVersion) f.body f := by
  rw [readBody, CuvsCmdFrame.body]
  iterate 6 refine (reads_u32 _).bind ?_
  refine (reads_i64 _).bind ((reads_raw _).bind ?_)
  iterate 14 refine (reads_u32 _).bind ?_
  refine (reads_raw _).bind ?_
  iterate 9 refine (reads_u32 _).bind ?_
  exact (reads_u32 f.padding).map

theorem takes_prologue : Takes readPrologue prologueBytes :=
  takes_u32.bind fun _ => takes_u32.bind fun _ => Takes.pure _

theorem takes_body (protoMagic protoVersion : UInt32) :
    Takes (readBody protoMagic protoVersion) (cmdFrameBytes - prologueBytes) := by
  show Takes (readBody protoMagic protoVersion) 256
  rw [readBody]
  iterate 6 refine takes_u32.bind fun _ => ?_
  refine takes_i64.bind fun _ => (takes_raw 64).bind fun _ => ?_
  iterate 14 refine takes_u32.bind fun _ => ?_
  refine (takes_raw 64).bind fun _ => ?_
  iterate 10 refine takes_u32.bind fun _ => ?_
  exact Takes.pure _

theorem CuvsCmdFrame.prologue_length (f : CuvsCmdFrame) : f.prologue.length = prologueBytes := by
  rw [prologue, List.length_append]
  rfl

theorem CuvsCmdFrame.bytes_length (f : CuvsCmdFrame) : f.bytes.length = cmdFrameBytes := by
  have hu : ∀ x : UInt32, (u32Bytes x).length = 4 := fun x => leBytes_length 4 _
  have hi : ∀ x : Int64, (i64Bytes x).length = 8 := fun x => leBytes_length 8 _
  simp only [bytes, prologue, body, List.length_append, hu, hi, CharBuffer.length_eq]
  rfl

structure CuvsReplyHeader where
  status : UInt32
  nResults : UInt32
  latencyUs : UInt32
  deltaMerged : UInt32
  error : CharBuffer 128
deriving DecidableEq

def CuvsReplyHeader.bytes (h : CuvsReplyHeader) : List UInt8 :=
  u32Bytes h.status ++ (u32Bytes h.nResults ++ (u32Bytes h.latencyUs ++
    (u32Bytes h.deltaMerged ++ h.error.bytes)))

def readReplyHeader : Reader CuvsReplyHeader := do
  let status ← readU32
  let nResults ← readU32
  let latencyUs ← readU32
  let deltaMerged ← readU32
  let error ← raw 128
  pure { status, nResults, latencyUs, deltaMerged, error }

def replyHeaderBytes : ℕ := 144

theorem reads_replyHeader (h : CuvsReplyHeader) : Reads readReplyHeader h.bytes h := by
  rw [readReplyHeader, CuvsReplyHeader.bytes]
  iterate 4 refine (reads_u32 _).bind ?_
  exact (reads_raw h.error).map

theorem CuvsReplyHeader.bytes_length (h : CuvsReplyHeader) : h.bytes.length = replyHeaderBytes := by
  have hu : ∀ x : UInt32, (u32Bytes x).length = 4 := fun x => leBytes_length 4 _
  simp only [bytes, List.length_append, hu, CharBuffer.length_eq]
  rfl

structure RowCodec (ρ : Type) where
  width : ℕ
  bytes : ρ → List UInt8
  read : Reader ρ
  width_pos : 0 < width
  bytes_length : ∀ x, (bytes x).length = width
  reads : ∀ x, Reads read (bytes x) x

/-- `CuvsResult`, with the distance by its bits. -/
structure WireResult where
  tid : UInt64
  distance : UInt32
  padding : UInt32
deriving DecidableEq

def WireResult.bytes (r : WireResult) : List UInt8 :=
  u64Bytes r.tid ++ (u32Bytes r.distance ++ u32Bytes r.padding)

def readResult : Reader WireResult := do
  let tid ← readU64
  let distance ← readU32
  let padding ← readU32
  pure { tid, distance, padding }

def resultCodec : RowCodec WireResult where
  width := 16
  bytes := WireResult.bytes
  read := readResult
  width_pos := Nat.succ_pos 15
  bytes_length x := by
    simp only [WireResult.bytes, List.length_append]
    rfl
  reads x := (reads_u64 x.tid).bind ((reads_u32 x.distance).bind (reads_u32 x.padding).map)

end PgCuvs
