import Mathlib.Algebra.Order.Ring.Int
import Mathlib.Data.List.Sort

/-! Vocabulary of the socket protocol shared by the extension and the daemon. -/

namespace PgCuvs

abbrev Oid := ℕ

/-- A heap TID as the wire carries it: `block << 16 | offset`. -/
abbrev Tid := ℕ

/-- A row vector as its `float32` bit patterns. -/
abbrev Vec := List UInt32

/-- Directory holding artifacts: `g_index_dir`, a `reloption`, a build target. -/
abbrev Dir := String

structure Key where
  dbOid : Oid
  indexOid : Oid
deriving DecidableEq, Repr

/-- `CUVS_METRIC_*`; any other code orders like squared L2. -/
inductive Metric where
  | l2
  | cosine
  | ip
  | other (code : ℕ)
deriving DecidableEq, Repr

inductive Status where
  | ok
  | error
  | oomFallback
  | notFound
  | unavailable
  | buildFailed
  | persistFailed
  | dimMismatch
  | metricMismatch
  | stale
  | noVectors
  | canceled
  | protoMismatch
deriving DecidableEq, Repr

/-- What a search kernel writes: a row number of the artifact and a distance. -/
structure SearchResult (D : Type) where
  itemId : ℤ
  distance : D
deriving DecidableEq, Repr

structure CuvsResult (D : Type) where
  tid : Tid
  distance : D
deriving DecidableEq, Repr

structure SearchReply (D : Type) where
  status : Status
  results : List (CuvsResult D)
  latencyUs : ℕ
  deltaMerged : Bool
  error : String
deriving DecidableEq, Repr

def SearchReply.failure {D : Type} (status : Status) (error : String) : SearchReply D where
  status := status
  results := []
  latencyUs := 0
  deltaMerged := false
  error := error

def cuvsTidEncode (block offset : ℕ) : Tid := block * 2 ^ 16 + offset

def cuvsTidDecode (tid : Tid) : ℕ × ℕ := (tid / 2 ^ 16 % 2 ^ 32, tid % 2 ^ 16)

theorem cuvsTidDecode_encode {block offset : ℕ} (hb : block < 2 ^ 32) (ho : offset < 2 ^ 16) :
    cuvsTidDecode (cuvsTidEncode block offset) = (block, offset) := by
  simp only [cuvsTidDecode, cuvsTidEncode, Prod.mk.injEq]
  constructor
  · omega
  · omega

section Order

variable {D : Type}

/-- `a` is at least as near as `b`: a larger inner product is nearer, a smaller
distance is nearer for every other metric. -/
def Metric.Nearer [LE D] (m : Metric) (a b : D) : Prop :=
  match m with
  | .ip => b ≤ a
  | _ => a ≤ b

variable [LinearOrder D]

instance (m : Metric) : DecidableRel (m.Nearer (D := D)) := fun a b =>
  match m with
  | .ip => inferInstanceAs (Decidable (b ≤ a))
  | .l2 | .cosine | .other _ => inferInstanceAs (Decidable (a ≤ b))

instance (m : Metric) : Std.Total (m.Nearer (D := D)) :=
  ⟨fun a b => by cases m <;> simp only [Metric.Nearer] <;> exact le_total _ _⟩

instance (m : Metric) : IsTrans D m.Nearer :=
  ⟨fun a b c hab hbc => by
    cases m <;> simp only [Metric.Nearer] at * <;> first | exact hab.trans hbc | exact hbc.trans hab⟩

instance (m : Metric) : Std.Antisymm (m.Nearer (D := D)) :=
  ⟨fun a b hab hba => by
    cases m <;> simp only [Metric.Nearer] at * <;> exact le_antisymm ‹_› ‹_›⟩

end Order

end PgCuvs
