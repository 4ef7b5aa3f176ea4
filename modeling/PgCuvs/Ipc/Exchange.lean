import PgCuvs.Ipc.Wire
import PgCuvs.Library.Numerals
import PgCuvs.Library.Pipe
import PgCuvs.Library.Run

/-! One command and its reply on the daemon's socket: both ends with every partial write and
read, interrupted calls, cancellation and either end going away. -/

namespace PgCuvs

open Records Numerals

structure WireReply (ρ : Type) where
  hdr : CuvsReplyHeader
  rows : List ρ
  nResults_eq : hdr.nResults.toNat = rows.length

structure ClientResult (ρ : Type) where
  rc : UInt32
  rows : List ρ
  latencyUs : UInt32
  deltaMerged : Bool

/-- A call that gives up; after the header its output parameters are set. -/
def ClientResult.failure {ρ : Type} (rc : UInt32) (hdr : Option CuvsReplyHeader) :
    ClientResult ρ where
  rc := rc
  rows := []
  latencyUs := (hdr.map CuvsReplyHeader.latencyUs).getD 0
  deltaMerged := (hdr.map fun h => decide (h.deltaMerged ≠ 0)).getD false

/-- The arguments of a call that matter on the wire: the room for rows, and whether a cancel
can end the wait for the header. -/
structure ClientCall (ρ : Type) where
  codec : RowCodec ρ
  k : ℕ
  interruptible : Bool

inductive ClientAt (ρ : Type)
  | sending
  | header
  | rows (hdr : CuvsReplyHeader)
  | done (r : ClientResult ρ)

inductive ServerAt
  | prologue
  | body
  | handling (f : CuvsCmdFrame)
  /-- the header is being sent, and then these bytes -/
  | header (rows : List UInt8)
  | rows
  | closed

structure Exchange (ρ : Type) where
  request : Pipe UInt8
  reply : Pipe UInt8
  client : ClientAt ρ
  server : ServerAt
  /-- the commands that were carried out, and what came of them -/
  log : List (CuvsCmdFrame × WireReply ρ)

/-- A connection on which `message` is to be sent. -/
def Exchange.start {ρ : Type} (message : List UInt8) : Exchange ρ :=
  ⟨.load message, .load [], .sending, .prologue, []⟩

inductive IoEvent (ρ : Type)
  /-- a call moves `n + 1` bytes at most -/
  | clientWrite (n : ℕ)
  | clientRead (n : ℕ)
  /-- an error other than `EINTR`, a time-out included -/
  | clientFails
  | cancel
  | serverRead (n : ℕ)
  | serverWrite (n : ℕ)
  /-- any error, `EINTR` included -/
  | serverFails
  | handle (reply : WireReply ρ)

def IoEvent.isServerFails {ρ : Type} : IoEvent ρ → Bool
  | .serverFails => true
  | _ => false

def errorText (text : List Char) : CharBuffer 128 where
  bytes := ((text.take 127).map fun c => UInt8.ofNat c.toNat) ++
    List.replicate (128 - (text.take 127).length) 0
  length_eq := by
    rw [List.length_append, List.length_map, List.length_replicate, List.length_take]
    omega

def hexWord (x : UInt32) : List Char :=
  "0x".toList ++ List.replicate (8 - (Nat.toDigits 16 x.toNat).length) '0' ++
    Nat.toDigits 16 x.toNat

/-- The refusal of a peer with another magic or version. -/
def mismatchHeader (magic version : UInt32) : CuvsReplyHeader where
  status := cuvsStatusProtoMismatch
  nResults := 0
  latencyUs := 0
  deltaMerged := 0
  error := errorText <|
    "IPC protocol mismatch: daemon speaks magic ".toList ++ hexWord cuvsProtoMagic ++
      " v".toList ++ decimal cuvsProtoVersion.toNat ++ ", client sent ".toList ++ hexWord magic ++
      " v".toList ++ decimal version.toNat ++ "; co-deploy extension and daemon".toList

def messagePrologue (message : List UInt8) : Option (UInt32 × UInt32) :=
  (readPrologue (message.take prologueBytes)).map Prod.fst

/-- The command in a message, behind a prologue of this daemon's. -/
def messageCommand (message : List UInt8) : Option CuvsCmdFrame :=
  (readBody cuvsProtoMagic cuvsProtoVersion
    ((message.take cmdFrameBytes).drop prologueBytes)).map Prod.fst

namespace Exchange

variable {ρ : Type} (call : ClientCall ρ) (s : Exchange ρ)

def clientDone : Bool :=
  match s.client with
  | .done _ => true
  | _ => false

def serverClosed : Bool :=
  match s.server with
  | .closed => true
  | _ => false

def finish (r : ClientResult ρ) : Exchange ρ := { s with client := .done r }

def afterHeader (hdr : CuvsReplyHeader) : Exchange ρ :=
  if hdr.status = cuvsStatusOk ∧ 0 < hdr.nResults then
    -- `n * sizeof(CuvsResult)` of a negative `n` cannot be allocated
    if 2 ^ 31 ≤ hdr.nResults.toNat then s.finish (.failure cuvsStatusError (some hdr))
    else { s with client := .rows hdr }
  else
    s.finish
      { rc := hdr.status
        rows := []
        latencyUs := hdr.latencyUs
        deltaMerged := decide (hdr.deltaMerged ≠ 0) }

def afterRows (hdr : CuvsReplyHeader) : Exchange ρ :=
  match (many call.codec.read hdr.nResults.toNat) (s.reply.received.drop replyHeaderBytes) with
  | some (rows, _) =>
    s.finish
      { rc := hdr.status
        rows := rows.take call.k
        latencyUs := hdr.latencyUs
        deltaMerged := decide (hdr.deltaMerged ≠ 0) }
  | none => s

/-- A read of the client towards `total` bytes of reply: it waits for bytes, or finds the end
of the stream. -/
def clientPull (total n : ℕ) (hdr : Option CuvsReplyHeader) : Exchange ρ :=
  if s.reply.inFlight = [] then
    if s.serverClosed then s.finish (.failure cuvsStatusError hdr) else s
  else { s with reply := s.reply.pull (min (n + 1) (total - s.reply.received.length)) }

def clientRead (n : ℕ) : Exchange ρ :=
  match s.client with
  | .header =>
    let s' := s.clientPull replyHeaderBytes n none
    if s'.clientDone = false ∧ s'.reply.received.length = replyHeaderBytes then
      match readReplyHeader s'.reply.received with
      | some (hdr, _) => s'.afterHeader hdr
      | none => s'
    else s'
  | .rows hdr =>
    let total := replyHeaderBytes + hdr.nResults.toNat * call.codec.width
    let s' := s.clientPull total n (some hdr)
    if s'.clientDone = false ∧ s'.reply.received.length = total then s'.afterRows call hdr else s'
  | _ => s

def close : Exchange ρ := { s with server := .closed, reply := s.reply.abandon }

/-- A read of the daemon towards `total` bytes of the command. -/
def serverPull (total n : ℕ) : Exchange ρ :=
  if s.request.inFlight = [] then if s.clientDone then s.close else s
  else { s with request := s.request.pull (min (n + 1) (total - s.request.received.length)) }

def serverRead (n : ℕ) : Exchange ρ :=
  match s.server with
  | .prologue =>
    let s' := s.serverPull prologueBytes n
    if s'.serverClosed = false ∧ s'.request.received.length = prologueBytes then
      match messagePrologue s'.request.received with
      | some (magic, version) =>
        if magic = cuvsProtoMagic ∧ version = cuvsProtoVersion then { s' with server := .body }
        else
          { s' with
            server := .header []
            reply := s'.reply.extend (mismatchHeader magic version).bytes }
      | none => s'
    else s'
  | .body =>
    let s' := s.serverPull cmdFrameBytes n
    if s'.serverClosed = false ∧ s'.request.received.length = cmdFrameBytes then
      match messageCommand s'.request.received with
      | some f => { s' with server := .handling f }
      | none => s'
    else s'
  | _ => s

/-- The header is out: the rows, if there are any, or the end. -/
def sendRows (rows : List UInt8) : Exchange ρ :=
  if rows = [] then s.close else { s with server := .rows, reply := s.reply.extend rows }

def serverWrite (n : ℕ) : Exchange ρ :=
  match s.server with
  | .header rows =>
    if s.clientDone then s.close
    else
      let s' := { s with reply := s.reply.push (n + 1) }
      if s'.reply.toSend = [] then s'.sendRows rows else s'
  | .rows =>
    if s.clientDone then s.close
    else
      let s' := { s with reply := s.reply.push (n + 1) }
      if s'.reply.toSend = [] then s'.close else s'
  | _ => s

/-- The result of a failed `send_all` of the header is not looked at. -/
def serverFails : Exchange ρ :=
  match s.server with
  | .prologue | .body | .rows => s.close
  | .header rows =>
    if s.clientDone then s.close else { s with reply := s.reply.abandon }.sendRows rows
  | _ => s

def step : IoEvent ρ → Exchange ρ
  | .clientWrite n =>
    match s.client with
    | .sending =>
      if s.serverClosed then s.finish (.failure cuvsStatusError none)
      else
        let request := s.request.push (n + 1)
        { s with request, client := if request.toSend = [] then .header else .sending }
    | _ => s
  | .clientRead n => s.clientRead call n
  | .clientFails =>
    match s.client with
    | .sending | .header => s.finish (.failure cuvsStatusError none)
    | .rows hdr => s.finish (.failure cuvsStatusError (some hdr))
    | .done _ => s
  | .cancel =>
    match s.client with
    -- only the wait for the header looks for an interrupt
    | .header => if call.interruptible then s.finish (.failure cuvsStatusCanceled none) else s
    | _ => s
  | .serverRead n => s.serverRead n
  | .serverWrite n => s.serverWrite n
  | .serverFails => s.serverFails
  | .handle reply =>
    match s.server with
    | .handling f =>
      { s with
        log := s.log ++ [(f, reply)]
        reply := s.reply.extend reply.hdr.bytes
        server := .header (reply.rows.flatMap call.codec.bytes) }
    | _ => s

end Exchange

end PgCuvs
