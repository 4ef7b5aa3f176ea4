import Mathlib.Algebra.Order.Ring.Int
import Mathlib.Data.Int.Notation
import Mathlib.Data.Nat.Notation
import PgCuvs.Library.Ledger

/-! Descriptors that come with a message: what the receiver keeps, what it
closes, and what its caller does with the one it hands over. -/

namespace PgCuvs

def solSocket : ℤ := 1
def scmRights : ℤ := 1

def cmsgAlign (n : ℕ) : ℕ := (n + 7) / 8 * 8
def cmsgLen (n : ℕ) : ℕ := cmsgAlign 16 + n
def cmsgSpace (n : ℕ) : ℕ := cmsgAlign n + cmsgAlign 16

def cbufBytes : ℕ := cmsgSpace 4

structure ControlHeader where
  level : ℤ
  type : ℤ
  cmsgLen : ℕ
  data : List ℕ
  len_eq : cmsgLen = PgCuvs.cmsgLen (4 * data.length)
deriving Repr, DecidableEq

def ControlHeader.IsRights (h : ControlHeader) : Prop := h.level = solSocket ∧ h.type = scmRights

instance (h : ControlHeader) : Decidable h.IsRights := inferInstanceAs (Decidable (_ ∧ _))

/-- What `recvmsg` delivers: some of the payload, with the control headers that fit the buffer. -/
structure Message where
  bytes : ℕ
  headers : List ControlHeader
  /-- `MSG_CTRUNC` -/
  truncated : Bool
  bytes_pos : 0 < bytes
  fits : ∀ h ∈ headers, h.cmsgLen ≤ cbufBytes
deriving Repr

def Message.installed (m : Message) : List ℕ :=
  m.headers.flatMap fun h => if h.IsRights then h.data else []

inductive Recv where
  | interrupted
  | failed
  | endOfStream
  | message (m : Message)
deriving Repr

/-- What `read` returns. It installs no descriptor, whatever was sent along. -/
inductive Read where
  | interrupted
  | failed
  /-- 0 bytes at the end of the stream -/
  | bytes (n : ℕ)
deriving Repr, DecidableEq

structure Incoming where
  recvs : List Recv
  reads : List Read
deriving Repr

/-- `recvmsg` is called again when it was interrupted. -/
def recvMsg : List Recv → Recv
  | [] => .endOfStream
  | .interrupted :: rest => recvMsg rest
  | r :: _ => r

/-- One descriptor of a header: `keep`, and what was opened and closed. -/
def takeFd (s : ℤ × Ledger ℕ) (fd : ℕ) : ℤ × Ledger ℕ :=
  if s.1 < 0 then (fd, s.2) else (s.1, s.2.release fd)

def ControlHeader.nfd (h : ControlHeader) : ℤ :=
  (Int32.ofNat ((h.cmsgLen - PgCuvs.cmsgLen 0) / 4)).toInt

def takeHeader (s : ℤ × Ledger ℕ) (h : ControlHeader) : ℤ × Ledger ℕ :=
  if h.level ≠ solSocket ∨ h.type ≠ scmRights then s
  else (h.data.take h.nfd.toNat).foldl takeFd s

def readPayload (len got : ℕ) : List Read → Bool
  | [] => decide (len ≤ got)
  | r :: reads =>
    if len ≤ got then true
    else
      match r with
      | .interrupted => readPayload len got reads
      | .failed => false
      | .bytes n => if n = 0 then false else readPayload len (got + n) reads

structure FdRecv where
  ret : ℤ
  outFd : ℤ
  fds : Ledger ℕ
deriving Repr, DecidableEq

def closeFd (fd : ℤ) (fds : Ledger ℕ) : Ledger ℕ := if 0 ≤ fd then fds.release fd.toNat else fds

def cuvsFdRecv (len : ℕ) (sock : Incoming) (fds : Ledger ℕ) : FdRecv :=
  match recvMsg sock.recvs with
  | .message m =>
    let (keep, fds) := m.headers.foldl takeHeader (-1, fds.acquire m.installed)
    if m.truncated then ⟨-1, -1, closeFd keep fds⟩
    else if readPayload len m.bytes sock.reads then ⟨0, keep, fds⟩
    else ⟨-1, -1, closeFd keep fds⟩
  | _ => ⟨-1, -1, fds⟩

/-! The caller of a search that brings its corpus: what it does with descriptors. -/

structure TransientFrame where
  nVecs : Int64
  dim : UInt32
deriving Repr, DecidableEq

structure ShmCalls where
  /-- the descriptor of `shm_open` -/
  fd : Option ℕ
  peerOwns : Bool
  maps : Bool
deriving Repr, DecidableEq

def mapShm (what : String) (calls : ShmCalls) (fds : Ledger ℕ) : Except String Unit × Ledger ℕ :=
  match calls.fd with
  | none => (.error (what ++ " shm_open failed"), fds)
  | some fd =>
    let fds := (fds.acquire [fd]).release fd
    if !calls.peerOwns then (.error (what ++ " shm owner mismatch"), fds)
    else if !calls.maps then (.error (what ++ " mmap failed"), fds)
    else (.ok (), fds)

/-- The memory that was passed along, or else the segment the frame names. -/
def mapTransientCorpus (passedFd : ℤ) (calls : ShmCalls) (fds : Ledger ℕ) : Except String Unit × Ledger ℕ :=
  if 0 ≤ passedFd then
    (if calls.maps then .ok () else .error "corpus mmap failed", closeFd passedFd fds)
  else mapShm "corpus" calls fds

/-- `handle_search_bf_transient` up to the search, which has both mappings and no descriptor. -/
def handleSearchBfTransient (cmd : TransientFrame) (sock : Incoming) (corpus query : ShmCalls) :
    Except String Unit × Ledger ℕ :=
  let r := cuvsFdRecv 256 sock .empty
  if r.ret < 0 then (.error "recv corpus frame failed", r.fds)
  else if cmd.nVecs.toInt < 1 ∨ cmd.dim = 0 then
    (.error "transient BF needs >= 1 vector", closeFd r.outFd r.fds)
  else if (2 ^ 64 - 1) / (cmd.dim.toNat * 4 + 8) < cmd.nVecs.toInt.toNat then
    (.error "transient BF payload overflow", closeFd r.outFd r.fds)
  else
    match mapTransientCorpus r.outFd corpus r.fds with
    | (.error text, fds) => (.error text, fds)
    | (.ok (), fds) => mapShm "query" query fds

/-! The control headers. -/

section Control

theorem ControlHeader.take_nfd {h : ControlHeader} (hfits : h.cmsgLen ≤ cbufBytes) :
    h.data.take h.nfd.toNat = h.data := by
  have hbuf : cbufBytes = 24 := rfl
  have hzero : PgCuvs.cmsgLen 0 = 16 := rfl
  have hlen : h.cmsgLen = 16 + 4 * h.data.length := h.len_eq
  have hcount : (h.cmsgLen - PgCuvs.cmsgLen 0) / 4 = h.data.length := by omega
  have hsmall : h.data.length < 2 ^ 31 := by omega
  apply List.take_of_length_le
  rw [nfd, hcount, Int32.toInt_ofNat_of_lt hsmall]
  exact Nat.le_refl _

theorem foldl_takeFd_kept (fds : List ℕ) (keep : ℕ) (t : Ledger ℕ) :
    fds.foldl takeFd ((keep : ℤ), t) = ((keep : ℤ), { t with released := t.released ++ fds }) := by
  induction fds generalizing t with
  | nil => rw [List.foldl_nil, List.append_nil]
  | cons fd fds ih =>
    have hkeep : ¬(keep : ℤ) < 0 := by omega
    rw [List.foldl_cons, takeFd, if_neg hkeep, ih, Ledger.release, List.append_assoc,
      List.singleton_append]

theorem foldl_takeHeader {headers : List ControlHeader}
    (hfits : ∀ h ∈ headers, h.cmsgLen ≤ cbufBytes) (s : ℤ × Ledger ℕ) :
    headers.foldl takeHeader s
      = (headers.flatMap fun h => if h.IsRights then h.data else []).foldl takeFd s := by
  induction headers generalizing s with
  | nil => rfl
  | cons h headers ih =>
    obtain ⟨hfit, hrest⟩ := List.forall_mem_cons.mp hfits
    rw [List.foldl_cons, ih hrest, List.flatMap_cons, List.foldl_append]
    congr 1
    by_cases hrights : h.IsRights
    · have hnot : ¬(h.level ≠ solSocket ∨ h.type ≠ scmRights) := fun hor =>
        hor.elim (fun hne => hne hrights.1) fun hne => hne hrights.2
      rw [takeHeader, if_neg hnot, if_pos hrights, h.take_nfd hfit]
    · have hor : h.level ≠ solSocket ∨ h.type ≠ scmRights := not_and_or.mp hrights
      rw [takeHeader, if_pos hor, if_neg hrights]
      rfl

/-- The first descriptor of a message is kept, the others are closed. -/
theorem keepFirst (m : Message) (t : Ledger ℕ) :
    m.headers.foldl takeHeader (-1, t) =
      match m.installed with
      | [] => (-1, t)
      | fd :: rest => ((fd : ℤ), { t with released := t.released ++ rest }) := by
  rw [foldl_takeHeader m.fits]
  change m.installed.foldl takeFd (-1, t) = _
  cases m.installed with
  | nil => rfl
  | cons fd rest =>
    rw [List.foldl_cons]
    exact foldl_takeFd_kept rest fd t

end Control

section Accounts

def Incoming.installed (sock : Incoming) : List ℕ :=
  match recvMsg sock.recvs with
  | .message m => m.installed
  | _ => []

def held (fd : ℤ) : List ℕ := if 0 ≤ fd then [fd.toNat] else []

theorem held_natCast (fd : ℕ) : held (fd : ℤ) = [fd] := by
  rw [held, if_pos (Int.natCast_nonneg fd), Int.toNat_natCast]

variable {t : Ledger ℕ}

theorem closeFd_holds {fd : ℤ} (h : t.Holds (held fd)) : (closeFd fd t).Holds [] := by
  rw [closeFd]
  rw [held] at h
  split_ifs at h ⊢ with hfd
  · exact h.release
  · exact h

theorem keepFirst_holds (m : Message) (h : t.Holds []) :
    (m.headers.foldl takeHeader (-1, t.acquire m.installed)).2.Holds
      (held (m.headers.foldl takeHeader (-1, t.acquire m.installed)).1) := by
  have hall := h.acquire m.installed
  rw [List.nil_append] at hall
  rw [keepFirst]
  cases hfds : m.installed with
  | nil =>
    rw [hfds] at hall
    exact hall
  | cons fd rest =>
    rw [hfds] at hall
    rw [held_natCast]
    have hmove : (t.released ++ rest ++ [fd]).Perm (t.released ++ fd :: rest) := by
      rw [List.append_assoc]
      exact (List.perm_append_singleton fd rest).append_left t.released
    exact hmove.trans hall

theorem cuvsFdRecv_holds (len : ℕ) (sock : Incoming) (h : t.Holds []) :
    (cuvsFdRecv len sock t).fds.Holds (held (cuvsFdRecv len sock t).outFd) := by
  rw [cuvsFdRecv]
  cases hrecv : recvMsg sock.recvs with
  | message m =>
    have hkeep := keepFirst_holds m h
    simp only
    split_ifs
    · exact closeFd_holds hkeep
    · exact hkeep
    · exact closeFd_holds hkeep
  | interrupted => exact h
  | failed => exact h
  | endOfStream => exact h

theorem acquired_closeFd (fd : ℤ) (t : Ledger ℕ) : (closeFd fd t).acquired = t.acquired := by
  rw [closeFd]
  split_ifs
  · rfl
  · rfl

theorem cuvsFdRecv_acquired (len : ℕ) (sock : Incoming) (t : Ledger ℕ) :
    (cuvsFdRecv len sock t).fds.acquired = t.acquired ++ sock.installed := by
  rw [cuvsFdRecv, Incoming.installed]
  cases hrecv : recvMsg sock.recvs with
  | message m =>
    have hloop : (m.headers.foldl takeHeader (-1, t.acquire m.installed)).2.acquired
        = t.acquired ++ m.installed := by
      rw [keepFirst]
      cases m.installed with
      | nil => rfl
      | cons fd rest => rfl
    simp only
    split_ifs
    · exact (acquired_closeFd _ _).trans hloop
    · exact hloop
    · exact (acquired_closeFd _ _).trans hloop
  | interrupted => exact (List.append_nil _).symm
  | failed => exact (List.append_nil _).symm
  | endOfStream => exact (List.append_nil _).symm

theorem cuvsFdRecv_ret (len : ℕ) (sock : Incoming) (t : Ledger ℕ) :
    ((cuvsFdRecv len sock t).ret = 0 ∧
      (cuvsFdRecv len sock t).outFd = sock.installed.head?.elim (-1) Nat.cast ∧
      (cuvsFdRecv len sock t).fds.released = t.released ++ sock.installed.tail) ∨
    ((cuvsFdRecv len sock t).ret = -1 ∧ (cuvsFdRecv len sock t).outFd = -1) := by
  rw [cuvsFdRecv, Incoming.installed]
  cases hrecv : recvMsg sock.recvs with
  | message m =>
    simp only
    split_ifs
    · exact Or.inr ⟨rfl, rfl⟩
    · refine Or.inl ⟨rfl, ?_⟩
      rw [keepFirst]
      cases m.installed with
      | nil => exact ⟨rfl, (List.append_nil _).symm⟩
      | cons fd rest => exact ⟨rfl, rfl⟩
    · exact Or.inr ⟨rfl, rfl⟩
  | interrupted => exact Or.inr ⟨rfl, rfl⟩
  | failed => exact Or.inr ⟨rfl, rfl⟩
  | endOfStream => exact Or.inr ⟨rfl, rfl⟩

theorem mapShm_holds (what : String) (calls : ShmCalls) (h : t.Holds []) :
    (mapShm what calls t).2.Holds [] := by
  rw [mapShm]
  cases calls.fd with
  | none => exact h
  | some fd =>
    have hopen : ((t.acquire [fd]).release fd).Holds [] := (h.acquire [fd]).release
    simp only
    split_ifs
    · exact hopen
    · exact hopen
    · exact hopen

theorem mapTransientCorpus_holds {passedFd : ℤ} (calls : ShmCalls) (h : t.Holds (held passedFd)) :
    (mapTransientCorpus passedFd calls t).2.Holds [] := by
  rw [mapTransientCorpus]
  by_cases hfd : 0 ≤ passedFd
  · rw [if_pos hfd]
    exact closeFd_holds h
  · rw [held, if_neg hfd] at h
    rw [if_neg hfd]
    exact mapShm_holds "corpus" calls h

theorem handleSearchBfTransient_holds (cmd : TransientFrame) (sock : Incoming)
    (corpus query : ShmCalls) : (handleSearchBfTransient cmd sock corpus query).2.Holds [] := by
  have hrecv := cuvsFdRecv_holds 256 sock Ledger.holds_empty
  have hret := cuvsFdRecv_ret 256 sock Ledger.empty
  rw [handleSearchBfTransient]
  split_ifs with hfail
  · rcases hret with ⟨hok, -⟩ | ⟨-, hfd⟩
    · rw [hok] at hfail
      exact absurd hfail (by decide)
    · rw [hfd] at hrecv
      exact hrecv
  · exact closeFd_holds hrecv
  · exact closeFd_holds hrecv
  · have hcorpus := mapTransientCorpus_holds corpus hrecv
    rcases hmap : mapTransientCorpus (cuvsFdRecv 256 sock .empty).outFd corpus
      (cuvsFdRecv 256 sock .empty).fds with ⟨result, fds⟩
    rw [hmap] at hcorpus
    cases result with
    | error text => exact hcorpus
    | ok u => exact mapShm_holds "query" query hcorpus

end Accounts

/-- Whatever arrives, each descriptor the kernel installed is closed once or is
the first and handed over, and on failure none is; the caller closes what it gets. -/
theorem cuvsFdRecv_accounts :
    (∀ (len : ℕ) (sock : Incoming),
      let r := cuvsFdRecv len sock .empty
      r.fds.acquired = sock.installed ∧
      (r.ret = 0 ∨ r.ret = -1) ∧
      (r.ret = 0 → r.outFd = sock.installed.head?.elim (-1) Nat.cast ∧
        r.fds.released = sock.installed.tail) ∧
      (r.ret = -1 → r.outFd = -1 ∧ r.fds.released.Perm sock.installed)) ∧
    ∀ (cmd : TransientFrame) (sock : Incoming) (corpus query : ShmCalls),
      let fds := (handleSearchBfTransient cmd sock corpus query).2
      fds.released.Perm fds.acquired := by
  refine ⟨fun len sock => ?_, fun cmd sock corpus query =>
    (handleSearchBfTransient_holds cmd sock corpus query).settled⟩
  have hacquired := cuvsFdRecv_acquired len sock .empty
  have hholds := cuvsFdRecv_holds len sock Ledger.holds_empty
  refine ⟨hacquired, ?_⟩
  rcases cuvsFdRecv_ret len sock .empty with ⟨hok, hfirst, hrest⟩ | ⟨hfail, hnone⟩
  · refine ⟨Or.inl hok, fun _ => ⟨hfirst, hrest⟩, fun hfail => ?_⟩
    rw [hok] at hfail
    exact absurd hfail (by decide)
  · refine ⟨Or.inr hfail, fun hok => ?_, fun _ => ⟨hnone, ?_⟩⟩
    · rw [hfail] at hok
      exact absurd hok (by decide)
    · rw [hnone] at hholds
      rw [← List.nil_append sock.installed]
      exact hholds.settled.trans (List.Perm.of_eq hacquired)

def sampleIncoming (truncated : Bool) (reads : List Read) : Incoming where
  recvs := [.interrupted, .message
    { bytes := 100
      headers := [⟨1, 1, 24, [7, 9], rfl⟩]
      truncated
      bytes_pos := by decide
      fits := by decide }]
  reads

theorem cuvsFdRecv_accounts_sample :
    (cuvsFdRecv 256 (sampleIncoming false [.bytes 100, .interrupted, .bytes 56]) .empty).outFd = 7 ∧
      (cuvsFdRecv 256 (sampleIncoming false [.bytes 100, .failed]) .empty).fds.released.Perm [7, 9] ∧
      (cuvsFdRecv 256 (sampleIncoming true []) .empty).outFd = -1 := by
  obtain ⟨haccounts, -⟩ := cuvsFdRecv_accounts
  refine ⟨?_, ?_, ?_⟩
  · exact ((haccounts 256 (sampleIncoming false [.bytes 100, .interrupted, .bytes 56])).2.2.1
      (by decide)).1
  · exact ((haccounts 256 (sampleIncoming false [.bytes 100, .failed])).2.2.2 (by decide)).2
  · exact ((haccounts 256 (sampleIncoming true [])).2.2.2 (by decide)).1

end PgCuvs
