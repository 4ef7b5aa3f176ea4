import PgCuvs.Ipc.Exchange

/-! What a client returns is what a handler has answered to exactly its command, or an error,
whatever the calls on either end of the socket move at a time. -/

namespace PgCuvs

open Records

/-- The message starts with this daemon's magic and version. -/
def Speaks (message : List UInt8) : Prop :=
  messagePrologue message = some (cuvsProtoMagic, cuvsProtoVersion)

section Messages

variable {message received : List UInt8}

theorem take_eq_of_prefix (h : received <+: message) :
    message.take received.length = received := List.prefix_iff_eq_take.mp h |>.symm

theorem messagePrologue_of_prefix (h : received <+: message)
    (hlen : received.length = prologueBytes) :
    messagePrologue received = messagePrologue message := by
  have htake : message.take prologueBytes = received := hlen ▸ take_eq_of_prefix h
  rw [messagePrologue, messagePrologue, htake, ← hlen, List.take_length]

theorem messageCommand_of_prefix (h : received <+: message)
    (hlen : received.length = cmdFrameBytes) :
    messageCommand received = messageCommand message := by
  have htake : message.take cmdFrameBytes = received := hlen ▸ take_eq_of_prefix h
  rw [messageCommand, messageCommand, htake, ← hlen, List.take_length]

theorem messageCommand_bytes {f : CuvsCmdFrame} (hmagic : f.protoMagic = cuvsProtoMagic)
    (hversion : f.protoVersion = cuvsProtoVersion) : messageCommand f.bytes = some f := by
  have htake : f.bytes.take cmdFrameBytes = f.bytes :=
    List.take_of_length_le (Nat.le_of_eq f.bytes_length)
  have hdrop : f.bytes.drop prologueBytes = f.body :=
    List.drop_left' f.prologue_length
  have hread := (reads_body f).run []
  rw [messageCommand, htake, hdrop, ← hmagic, ← hversion]
  rwa [List.append_nil] at hread

theorem messagePrologue_bytes (f : CuvsCmdFrame) :
    messagePrologue f.bytes = some (f.protoMagic, f.protoVersion) := by
  have htake : f.bytes.take prologueBytes = f.prologue := List.take_left' f.prologue_length
  have hread := (reads_prologue f).run []
  rw [messagePrologue, htake]
  rwa [List.append_nil] at hread

theorem exists_messagePrologue (h : prologueBytes ≤ message.length) :
    ∃ magic version, messagePrologue message = some (magic, version) := by
  have hlen : prologueBytes ≤ (message.take prologueBytes).length :=
    (List.length_take_of_le h).ge
  obtain ⟨pair, hpair⟩ := takes_prologue _ hlen
  refine ⟨pair.1, pair.2, ?_⟩
  rw [messagePrologue, hpair]
  rfl

theorem exists_messageCommand (h : cmdFrameBytes ≤ message.length) :
    ∃ f, messageCommand message = some f := by
  have hlen : cmdFrameBytes - prologueBytes ≤
      ((message.take cmdFrameBytes).drop prologueBytes).length := by
    rw [List.length_drop, List.length_take_of_le h]
  obtain ⟨f, hf⟩ := takes_body cuvsProtoMagic cuvsProtoVersion _ hlen
  refine ⟨f, ?_⟩
  rw [messageCommand, hf]
  rfl

end Messages

def WireReply.delivered {ρ : Type} (reply : WireReply ρ) (k : ℕ) : ClientResult ρ where
  rc := reply.hdr.status
  rows := if reply.hdr.status = cuvsStatusOk then reply.rows.take k else []
  latencyUs := reply.hdr.latencyUs
  deltaMerged := decide (reply.hdr.deltaMerged ≠ 0)

def mismatchReply {ρ : Type} (magic version : UInt32) : WireReply ρ where
  hdr := mismatchHeader magic version
  rows := []
  nResults_eq := rfl

section Invariant

variable {ρ : Type} {call : ClientCall ρ} {message : List UInt8}

/-- What the daemon answers to a message, by what it has carried out. -/
inductive Answer (message : List UInt8) :
    List (CuvsCmdFrame × WireReply ρ) → WireReply ρ → Prop
  | refused {magic version : UInt32} (h : messagePrologue message = some (magic, version))
      (hskew : ¬(magic = cuvsProtoMagic ∧ version = cuvsProtoVersion)) :
      Answer message [] (mismatchReply magic version)
  | carriedOut {f : CuvsCmdFrame} {reply : WireReply ρ} (hspeaks : Speaks message)
      (h : messageCommand message = some f) : Answer message [(f, reply)] reply

/-- A result is an error without rows, or it is the answer. -/
def Justified (call : ClientCall ρ) (message : List UInt8)
    (log : List (CuvsCmdFrame × WireReply ρ)) (r : ClientResult ρ) : Prop :=
  (r.rows = [] ∧ (r.rc = cuvsStatusError ∨ r.rc = cuvsStatusCanceled)) ∨
    ∃ reply, Answer message log reply ∧ r = reply.delivered call.k

def rowBytes (call : ClientCall ρ) (reply : WireReply ρ) : List UInt8 :=
  reply.rows.flatMap call.codec.bytes

def ServerOk (call : ClientCall ρ) (message : List UInt8) (server : ServerAt) (got : ℕ)
    (log : List (CuvsCmdFrame × WireReply ρ)) (stream : List UInt8) : Prop :=
  match server with
  | .prologue => got < prologueBytes ∧ log = [] ∧ stream = []
  | .body => (Speaks message ∧ got < cmdFrameBytes) ∧ log = [] ∧ stream = []
  | .handling f => (Speaks message ∧ messageCommand message = some f) ∧ log = [] ∧ stream = []
  | .header rows => ∃ reply, Answer message log reply ∧ stream = reply.hdr.bytes ∧
      rows = rowBytes call reply
  | .rows => ∃ reply, Answer message log reply ∧ stream = reply.hdr.bytes ++ rowBytes call reply
  | .closed => (log = [] ∧ stream = []) ∨
      ∃ reply, Answer message log reply ∧ stream <+: reply.hdr.bytes ++ rowBytes call reply

def ClientOk (call : ClientCall ρ) (message : List UInt8) (client : ClientAt ρ)
    (received : List UInt8) (log : List (CuvsCmdFrame × WireReply ρ)) : Prop :=
  match client with
  | .sending => received = []
  | .header => received.length < replyHeaderBytes
  | .rows hdr => hdr.status = cuvsStatusOk ∧ hdr.bytes <+: received ∧
      received.length < replyHeaderBytes + hdr.nResults.toNat * call.codec.width
  | .done r => Justified call message log r

structure Exchange.Served (call : ClientCall ρ) (message : List UInt8)
    (s : Exchange ρ) : Prop where
  request : s.request.whole = message
  server : ServerOk call message s.server s.request.received.length s.log s.reply.whole

structure Exchange.Consistent (call : ClientCall ρ) (message : List UInt8)
    (s : Exchange ρ) : Prop extends s.Served call message where
  client : ClientOk call message s.client s.reply.received s.log

theorem justified_failure {log : List (CuvsCmdFrame × WireReply ρ)} {rc : UInt32}
    (hrc : rc = cuvsStatusError ∨ rc = cuvsStatusCanceled) (hdr : Option CuvsReplyHeader) :
    Justified call message log (.failure rc hdr) := Or.inl ⟨rfl, hrc⟩

theorem replyHeader_bytes_inj {a b : CuvsReplyHeader} (h : a.bytes = b.bytes) : a = b := by
  have ha := (reads_replyHeader a).run []
  have hb := (reads_replyHeader b).run []
  rw [h, hb] at ha
  exact (Option.some.inj ha).symm

theorem ServerOk.answer {server : ServerAt} {got : ℕ} {log : List (CuvsCmdFrame × WireReply ρ)}
    {stream received : List UInt8} (h : ServerOk call message server got log stream)
    (hpre : received <+: stream) (hne : received ≠ []) :
    ∃ reply, Answer message log reply ∧ received <+: reply.hdr.bytes ++ rowBytes call reply := by
  have hnil : stream ≠ [] := by
    rintro rfl
    exact hne (List.prefix_nil.mp hpre)
  cases server with
  | prologue => exact absurd h.2.2 hnil
  | body => exact absurd h.2.2 hnil
  | handling f => exact absurd h.2.2 hnil
  | header rows =>
    obtain ⟨reply, hans, hstream, -⟩ := h
    exact ⟨reply, hans, (hstream ▸ hpre).trans (List.prefix_append _ _)⟩
  | rows =>
    obtain ⟨reply, hans, hstream⟩ := h
    exact ⟨reply, hans, hstream ▸ hpre⟩
  | closed =>
    rcases h with ⟨-, hstream⟩ | ⟨reply, hans, hstream⟩
    · exact absurd hstream hnil
    · exact ⟨reply, hans, hpre.trans hstream⟩

theorem Answer.mismatch_or {log : List (CuvsCmdFrame × WireReply ρ)} {reply : WireReply ρ}
    (h : Answer message log reply) :
    ¬Speaks message ∨ ∃ f, log = [(f, reply)] ∧ messageCommand message = some f := by
  cases h with
  | refused hm hskew =>
    refine Or.inl fun hspeaks => hskew ?_
    have hpair := Option.some.inj (hm.symm.trans hspeaks)
    exact Prod.mk.inj hpair
  | carriedOut hspeaks hf => exact Or.inr ⟨_, rfl, hf⟩

theorem not_answer_nil {reply : WireReply ρ} (hspeaks : Speaks message) :
    ¬Answer message [] reply := by
  intro h
  rcases h.mismatch_or with hnot | ⟨f, hlog, -⟩
  · exact hnot hspeaks
  · cases hlog

/-- Whatever the daemon was at, what it has sent is the start of an answer. -/
theorem ServerOk.stop {server : ServerAt} {got : ℕ} {log : List (CuvsCmdFrame × WireReply ρ)}
    {stream sent : List UInt8} (h : ServerOk call message server got log stream)
    (hsent : sent <+: stream) : ServerOk call message .closed got log sent := by
  have hnone : log = [] ∧ stream = [] → log = [] ∧ sent = [] := by
    intro hnil
    refine ⟨hnil.1, ?_⟩
    rwa [hnil.2, List.prefix_nil] at hsent
  cases server with
  | prologue => exact Or.inl (hnone h.2)
  | body => exact Or.inl (hnone h.2)
  | handling f => exact Or.inl (hnone h.2)
  | header rows =>
    obtain ⟨reply, hans, hstream, -⟩ := h
    exact Or.inr ⟨reply, hans, (hstream ▸ hsent).trans (List.prefix_append _ _)⟩
  | rows =>
    obtain ⟨reply, hans, hstream⟩ := h
    exact Or.inr ⟨reply, hans, hstream ▸ hsent⟩
  | closed =>
    rcases h with hnil | ⟨reply, hans, hstream⟩
    · exact Or.inl (hnone hnil)
    · exact Or.inr ⟨reply, hans, hsent.trans hstream⟩

/-! The two ends, step by step. -/

variable {s : Exchange ρ}

namespace Exchange

theorem Served.fail (h : s.Served call message) {rc : UInt32}
    (hrc : rc = cuvsStatusError ∨ rc = cuvsStatusCanceled) (hdr : Option CuvsReplyHeader) :
    (s.finish (.failure rc hdr)).Consistent call message :=
  ⟨⟨h.request, h.server⟩, justified_failure hrc hdr⟩

theorem clientPull_cases (s : Exchange ρ) (total n : ℕ) (hdr : Option CuvsReplyHeader) :
    s.clientPull total n hdr = s ∨
    s.clientPull total n hdr = s.finish (.failure cuvsStatusError hdr) ∨
    ∃ m ≤ total - s.reply.received.length,
      s.clientPull total n hdr = { s with reply := s.reply.pull m } := by
  rw [clientPull]
  split_ifs with hempty hclosed
  · exact Or.inr (Or.inl rfl)
  · exact Or.inl rfl
  · exact Or.inr (Or.inr ⟨_, min_le_right _ _, rfl⟩)

theorem Served.header_eq (h : s.Served call message)
    (hlen : s.reply.received.length = replyHeaderBytes) :
    ∃ reply, Answer message s.log reply ∧ s.reply.received = reply.hdr.bytes := by
  have hne : s.reply.received ≠ [] := by
    intro hnil
    rw [hnil] at hlen
    cases hlen
  obtain ⟨reply, hans, hpre⟩ := h.server.answer s.reply.received_front hne
  have hsame : s.reply.received.length = reply.hdr.bytes.length :=
    hlen.trans reply.hdr.bytes_length.symm
  refine ⟨reply, hans, ?_⟩
  exact (List.prefix_of_prefix_length_le hpre (List.prefix_append _ _)
    (Nat.le_of_eq hsame)).eq_of_length hsame

theorem Served.afterHeader (h : s.Served call message) {reply : WireReply ρ}
    (hans : Answer message s.log reply) (hbytes : s.reply.received = reply.hdr.bytes) :
    (s.afterHeader reply.hdr).Consistent call message := by
  rw [Exchange.afterHeader]
  split_ifs with hrows hbig
  · exact h.fail (Or.inl rfl) _
  · refine ⟨⟨h.request, h.server⟩, hrows.1, ?_, ?_⟩
    · exact ⟨[], by rw [List.append_nil, hbytes]⟩
    · rw [hbytes, reply.hdr.bytes_length]
      exact Nat.lt_add_of_pos_right (Nat.mul_pos hrows.2 call.codec.width_pos)
  · refine ⟨⟨h.request, h.server⟩, Or.inr ⟨reply, hans, ?_⟩⟩
    have hempty : (if reply.hdr.status = cuvsStatusOk then reply.rows.take call.k else []) = [] := by
      split_ifs with hok
      · have hzero : ¬0 < reply.hdr.nResults := fun hpos => hrows ⟨hok, hpos⟩
        have hlength : reply.rows.length = 0 := by
          rw [← reply.nResults_eq]
          exact Nat.le_zero.mp (Nat.not_lt.mp hzero)
        rw [List.length_eq_zero_iff.mp hlength, List.take_nil]
      · rfl
    rw [WireReply.delivered, hempty]

theorem Served.afterRows (h : s.Served call message) {hdr : CuvsReplyHeader}
    (hlen : s.reply.received.length = replyHeaderBytes + hdr.nResults.toNat * call.codec.width)
    (hok : hdr.status = cuvsStatusOk) (hhdr : hdr.bytes <+: s.reply.received) :
    (s.afterRows call hdr).Consistent call message := by
  have hne : s.reply.received ≠ [] := by
    intro hnil
    rw [hnil, List.length_nil] at hlen
    exact absurd hlen (Nat.ne_of_lt (Nat.lt_of_lt_of_le (by decide) (Nat.le_add_right _ _)))
  obtain ⟨reply, hans, hpre⟩ := h.server.answer s.reply.received_front hne
  have hsame : hdr = reply.hdr := by
    apply replyHeader_bytes_inj
    exact (List.prefix_of_prefix_length_le (hhdr.trans hpre) (List.prefix_append _ _)
      (Nat.le_of_eq (hdr.bytes_length.trans reply.hdr.bytes_length.symm))).eq_of_length
      (hdr.bytes_length.trans reply.hdr.bytes_length.symm)
  subst hsame
  have hrowslen : (rowBytes call reply).length = reply.hdr.nResults.toNat * call.codec.width := by
    rw [rowBytes, length_flatMap_width fun x _ => call.codec.bytes_length x, reply.nResults_eq]
  have hreceived : s.reply.received = reply.hdr.bytes ++ rowBytes call reply := by
    apply hpre.eq_of_length
    rw [hlen, List.length_append, reply.hdr.bytes_length, hrowslen]
  have hdrop : s.reply.received.drop replyHeaderBytes = rowBytes call reply := by
    rw [hreceived, List.drop_left' reply.hdr.bytes_length]
  have hread := Reads.many call.codec.bytes id reply.rows
    (fun x _ => call.codec.reads x) []
  rw [List.append_nil, List.map_id, ← reply.nResults_eq] at hread
  rw [Exchange.afterRows, hdrop, rowBytes, hread]
  refine ⟨⟨h.request, h.server⟩, Or.inr ⟨reply, hans, ?_⟩⟩
  rw [WireReply.delivered, if_pos hok]

theorem Served.pull (h : s.Served call message) (m : ℕ) :
    ({ s with reply := s.reply.pull m } : Exchange ρ).Served call message := by
  refine ⟨h.request, ?_⟩
  have hserver := h.server
  rwa [← s.reply.whole_pull m] at hserver

theorem Consistent.clientRead (h : s.Consistent call message) (n : ℕ) :
    (s.clientRead call n).Consistent call message := by
  have hclient := h.client
  rw [Exchange.clientRead]
  cases hat : s.client with
  | sending => exact h
  | done r => exact h
  | header =>
    rw [hat] at hclient
    have hshort : s.reply.received.length < replyHeaderBytes := hclient
    dsimp only
    rcases s.clientPull_cases replyHeaderBytes n none with heq | heq | ⟨m, hm, heq⟩
    · rw [heq, if_neg fun hfull => absurd hfull.2 (Nat.ne_of_lt hshort)]
      exact h
    · rw [heq, if_neg fun hfull => by cases hfull.1]
      exact h.fail (Or.inl rfl) _
    · rw [heq]
      have hle : (s.reply.pull m).received.length ≤ replyHeaderBytes :=
        s.reply.pull_length_le (by omega)
      split_ifs with hfull
      · obtain ⟨reply, hans, hbytes⟩ := (h.toServed.pull m).header_eq hfull.2
        have hread := (reads_replyHeader reply.hdr) []
        rw [List.append_nil, ← hbytes] at hread
        rw [hread]
        exact (h.toServed.pull m).afterHeader hans hbytes
      · refine ⟨h.toServed.pull m, ?_⟩
        rw [hat]
        refine lt_of_le_of_ne hle fun hlen => hfull ⟨?_, hlen⟩
        rw [clientDone, hat]
  | rows hdr =>
    rw [hat] at hclient
    obtain ⟨hok, hhdr, hshort⟩ := hclient
    dsimp only
    rcases s.clientPull_cases (replyHeaderBytes + hdr.nResults.toNat * call.codec.width) n (some hdr)
      with heq | heq | ⟨m, hm, heq⟩
    · rw [heq, if_neg fun hfull => absurd hfull.2 (Nat.ne_of_lt hshort)]
      exact h
    · rw [heq, if_neg fun hfull => by cases hfull.1]
      exact h.fail (Or.inl rfl) _
    · rw [heq]
      have hle : (s.reply.pull m).received.length ≤
          replyHeaderBytes + hdr.nResults.toNat * call.codec.width :=
        s.reply.pull_length_le (by omega)
      have hhdr' : hdr.bytes <+: (s.reply.pull m).received :=
        hhdr.trans (s.reply.received_pull_prefix m)
      split_ifs with hfull
      · exact (h.toServed.pull m).afterRows hfull.2 hok hhdr'
      · refine ⟨h.toServed.pull m, ?_⟩
        rw [hat]
        refine ⟨hok, hhdr', lt_of_le_of_ne hle fun hlen => hfull ⟨?_, hlen⟩⟩
        rw [clientDone, hat]

theorem Consistent.clientWrite (h : s.Consistent call message) (n : ℕ) :
    (s.step call (.clientWrite n)).Consistent call message := by
  have hclient := h.client
  rw [Exchange.step]
  cases hat : s.client with
  | header => exact h
  | rows hdr => exact h
  | done r => exact h
  | sending =>
    rw [hat] at hclient
    have hnone : s.reply.received = [] := hclient
    dsimp only
    split_ifs with hclosed
    · exact h.fail (Or.inl rfl) none
    · refine ⟨⟨(s.request.whole_push _).trans h.request, h.server⟩, ?_⟩
      show s.reply.received.length < replyHeaderBytes
      rw [hnone]
      exact Nat.succ_pos 143
    · exact ⟨⟨(s.request.whole_push _).trans h.request, h.server⟩, hnone⟩

theorem Consistent.clientFails (h : s.Consistent call message) :
    (s.step call .clientFails).Consistent call message := by
  rw [Exchange.step]
  cases s.client with
  | sending => exact h.fail (Or.inl rfl) none
  | header => exact h.fail (Or.inl rfl) none
  | rows hdr => exact h.fail (Or.inl rfl) (some hdr)
  | done r => exact h

theorem Consistent.cancel (h : s.Consistent call message) :
    (s.step call .cancel).Consistent call message := by
  rw [Exchange.step]
  cases s.client with
  | sending => exact h
  | rows hdr => exact h
  | done r => exact h
  | header =>
    dsimp only
    split_ifs
    · exact h.fail (Or.inr rfl) none
    · exact h

theorem Consistent.close (h : s.Consistent call message) : s.close.Consistent call message :=
  ⟨⟨h.request, h.server.stop s.reply.whole_abandon_prefix⟩, h.client⟩

theorem serverPull_cases (s : Exchange ρ) (total n : ℕ) :
    s.serverPull total n = s ∨ s.serverPull total n = s.close ∨
    ∃ m ≤ total - s.request.received.length,
      s.serverPull total n = { s with request := s.request.pull m } := by
  rw [serverPull]
  split_ifs
  · exact Or.inr (Or.inl rfl)
  · exact Or.inl rfl
  · exact Or.inr (Or.inr ⟨_, min_le_right _ _, rfl⟩)

theorem Consistent.serverRead (h : s.Consistent call message) (n : ℕ) :
    (s.serverRead n).Consistent call message := by
  have hserver := h.server
  have hclient := h.client
  have hprefix : ∀ m, (s.request.pull m).whole = message ∧
      (s.request.pull m).received <+: message := by
    intro m
    have hwhole : (s.request.pull m).whole = message := (s.request.whole_pull m).trans h.request
    exact ⟨hwhole, hwhole ▸ (s.request.pull m).received_front⟩
  rw [Exchange.serverRead]
  cases hat : s.server with
  | handling f => exact h
  | header rows => exact h
  | rows => exact h
  | closed => exact h
  -- each read finds no bytes, the end of the stream, or some bytes of what is still missing
  | prologue =>
    rw [hat] at hserver
    obtain ⟨hshort, hlog, hstream⟩ := hserver
    dsimp only
    rcases s.serverPull_cases prologueBytes n with heq | heq | ⟨m, hm, heq⟩
    · rw [heq, if_neg fun hfull => absurd hfull.2 (Nat.ne_of_lt hshort)]
      exact h
    · rw [heq, if_neg fun hfull => by cases hfull.1]
      exact h.close
    · rw [heq]
      have hle : (s.request.pull m).received.length ≤ prologueBytes :=
        s.request.pull_length_le (by omega)
      obtain ⟨hwhole, hpre⟩ := hprefix m
      dsimp only
      by_cases hfull : (s.request.pull m).received.length = prologueBytes
      · have hopen : ({ s with request := s.request.pull m } : Exchange ρ).serverClosed = false := by
          rw [serverClosed, hat]
        rw [if_pos ⟨hopen, hfull⟩]
        obtain ⟨magic, version, hprologue⟩ := exists_messagePrologue hfull.ge
        have hmessage : messagePrologue message = some (magic, version) := by
          rw [← messagePrologue_of_prefix hpre hfull, hprologue]
        rw [hprologue]
        dsimp only
        -- a prologue of another version is answered at once, before the command is read
        split_ifs with hsame
        · have hspeaks : Speaks message := by rw [Speaks, hmessage, hsame.1, hsame.2]
          refine ⟨⟨hwhole, ⟨hspeaks, ?_⟩, hlog, hstream⟩, hclient⟩
          show (s.request.pull m).received.length < cmdFrameBytes
          rw [hfull]
          exact Nat.lt_add_of_pos_right (Nat.succ_pos 255)
        · refine ⟨⟨hwhole, mismatchReply magic version, ?_, ?_, rfl⟩, hclient⟩
          · show Answer message s.log _
            rw [hlog]
            exact .refused hmessage hsame
          · show (s.reply.extend _).whole = _
            rw [s.reply.whole_extend, hstream]
            rfl
      · rw [if_neg fun hif => hfull hif.2]
        refine ⟨⟨hwhole, ?_⟩, hclient⟩
        rw [hat]
        exact ⟨lt_of_le_of_ne hle hfull, hlog, hstream⟩
  | body =>
    rw [hat] at hserver
    obtain ⟨⟨hspeaks, hshort⟩, hlog, hstream⟩ := hserver
    dsimp only
    rcases s.serverPull_cases cmdFrameBytes n with heq | heq | ⟨m, hm, heq⟩
    · rw [heq, if_neg fun hfull => absurd hfull.2 (Nat.ne_of_lt hshort)]
      exact h
    · rw [heq, if_neg fun hfull => by cases hfull.1]
      exact h.close
    · rw [heq]
      have hle : (s.request.pull m).received.length ≤ cmdFrameBytes :=
        s.request.pull_length_le (by omega)
      obtain ⟨hwhole, hpre⟩ := hprefix m
      dsimp only
      by_cases hfull : (s.request.pull m).received.length = cmdFrameBytes
      · have hopen : ({ s with request := s.request.pull m } : Exchange ρ).serverClosed = false := by
          rw [serverClosed, hat]
        rw [if_pos ⟨hopen, hfull⟩]
        obtain ⟨f, hcommand⟩ := exists_messageCommand hfull.ge
        have hmessage : messageCommand message = some f := by
          rw [← messageCommand_of_prefix hpre hfull, hcommand]
        rw [hcommand]
        exact ⟨⟨hwhole, ⟨hspeaks, hmessage⟩, hlog, hstream⟩, hclient⟩
      · rw [if_neg fun hif => hfull hif.2]
        refine ⟨⟨hwhole, ?_⟩, hclient⟩
        rw [hat]
        exact ⟨⟨hspeaks, lt_of_le_of_ne hle hfull⟩, hlog, hstream⟩

theorem Consistent.sendRows (h : s.Consistent call message) {reply : WireReply ρ}
    (hans : Answer message s.log reply) (hstream : s.reply.whole = reply.hdr.bytes) :
    (s.sendRows (rowBytes call reply)).Consistent call message := by
  rw [Exchange.sendRows]
  split_ifs with hnone
  · exact h.close
  · refine ⟨⟨h.request, reply, hans, ?_⟩, h.client⟩
    show (s.reply.extend _).whole = _
    rw [s.reply.whole_extend, hstream]

theorem Consistent.push (h : s.Consistent call message) (n : ℕ) :
    ({ s with reply := s.reply.push n } : Exchange ρ).Consistent call message := by
  have hserver := h.server
  rw [← s.reply.whole_push n] at hserver
  exact ⟨⟨h.request, hserver⟩, h.client⟩

theorem Consistent.serverWrite (h : s.Consistent call message) (n : ℕ) :
    (s.serverWrite n).Consistent call message := by
  have hserver := h.server
  rw [Exchange.serverWrite]
  cases hat : s.server with
  | prologue => exact h
  | body => exact h
  | handling f => exact h
  | closed => exact h
  | header rows =>
    rw [hat] at hserver
    obtain ⟨reply, hans, hstream, hrows⟩ := hserver
    dsimp only
    have hpush := h.push (n + 1)
    split_ifs with hgone hout
    · exact h.close
    · rw [hrows]
      exact hpush.sendRows hans ((s.reply.whole_push _).trans hstream)
    · rwa [hat] at hpush
  | rows =>
    dsimp only
    have hpush := h.push (n + 1)
    split_ifs with hgone hout
    · exact h.close
    · rw [hat] at hpush
      exact hpush.close
    · rwa [hat] at hpush

/-- The bytes of a header that cannot be sent are not waited for: the client must be gone. -/
def HeaderWhole (s : Exchange ρ) (ev : IoEvent ρ) : Prop :=
  ∀ rows, ev = .serverFails → s.server = .header rows → s.clientDone = true

theorem along_headerWhole {events : List (IoEvent ρ)}
    (h : ∀ ev ∈ events, ev.isServerFails = false) :
    Run.Along (step call) HeaderWhole s events := by
  refine (Run.along_of_forall h s).mono fun s ev hev rows heq => ?_
  rw [heq] at hev
  cases hev

theorem Consistent.serverFails (h : s.Consistent call message)
    (hwhole : s.HeaderWhole .serverFails) : s.serverFails.Consistent call message := by
  rw [Exchange.serverFails]
  cases hat : s.server with
  | prologue => exact h.close
  | body => exact h.close
  | rows => exact h.close
  | handling f => exact h
  | closed => exact h
  | header rows =>
    dsimp only
    rw [if_pos (hwhole rows rfl hat)]
    exact h.close

theorem Consistent.handle (h : s.Consistent call message) (reply : WireReply ρ) :
    (s.step call (.handle reply)).Consistent call message := by
  have hserver := h.server
  have hclient := h.client
  rw [Exchange.step]
  cases hat : s.server with
  | prologue => exact h
  | body => exact h
  | header rows => exact h
  | rows => exact h
  | closed => exact h
  | handling f =>
    rw [hat] at hserver
    obtain ⟨⟨hspeaks, hcommand⟩, hlog, hstream⟩ := hserver
    refine ⟨⟨h.request, reply, ?_, ?_, rfl⟩, ?_⟩
    · show Answer message (s.log ++ [(f, reply)]) reply
      rw [hlog]
      exact .carriedOut hspeaks hcommand
    · show (s.reply.extend _).whole = _
      rw [s.reply.whole_extend, hstream]
      rfl
    · show ClientOk call message s.client s.reply.received (s.log ++ [(f, reply)])
      cases hc : s.client with
      | sending =>
        rw [hc] at hclient
        exact hclient
      | header =>
        rw [hc] at hclient
        exact hclient
      | rows hdr =>
        rw [hc] at hclient
        exact hclient
      | done r =>
        rw [hc] at hclient
        rcases hclient with herror | ⟨other, hans, -⟩
        · exact Or.inl herror
        · rw [hlog] at hans
          exact absurd hans (not_answer_nil hspeaks)

theorem Consistent.step (h : s.Consistent call message) (ev : IoEvent ρ)
    (hwhole : s.HeaderWhole ev) : (s.step call ev).Consistent call message := by
  cases ev with
  | clientWrite n => exact h.clientWrite n
  | clientRead n => exact h.clientRead n
  | clientFails => exact h.clientFails
  | cancel => exact h.cancel
  | serverRead n => exact h.serverRead n
  | serverWrite n => exact h.serverWrite n
  | serverFails => exact h.serverFails hwhole
  | handle reply => exact h.handle reply

theorem start_consistent : (Exchange.start message : Exchange ρ).Consistent call message :=
  ⟨⟨rfl, Nat.succ_pos 7, rfl, rfl⟩, rfl⟩

/-- No more than the one command of the message is carried out. -/
theorem Consistent.log_eq (h : s.Consistent call message) :
    s.log = [] ∨ ∃ f reply, s.log = [(f, reply)] ∧ Speaks message ∧
      messageCommand message = some f := by
  have hanswer : ∀ {reply}, Answer message s.log reply → s.log = [] ∨ ∃ f reply,
      s.log = [(f, reply)] ∧ Speaks message ∧ messageCommand message = some f := by
    intro reply hans
    generalize s.log = log at hans
    cases hans with
    | refused hm hskew => exact Or.inl rfl
    | carriedOut hspeaks hf => exact Or.inr ⟨_, _, rfl, hspeaks, hf⟩
  have hserver := h.server
  cases hat : s.server with
  | prologue =>
    rw [hat] at hserver
    exact Or.inl hserver.2.1
  | body =>
    rw [hat] at hserver
    exact Or.inl hserver.2.1
  | handling f =>
    rw [hat] at hserver
    exact Or.inl hserver.2.1
  | header rows =>
    rw [hat] at hserver
    obtain ⟨reply, hans, -⟩ := hserver
    exact hanswer hans
  | rows =>
    rw [hat] at hserver
    obtain ⟨reply, hans, -⟩ := hserver
    exact hanswer hans
  | closed =>
    rw [hat] at hserver
    rcases hserver with hnil | ⟨reply, hans, -⟩
    · exact Or.inl hnil.1
    · exact hanswer hans

theorem run_consistent {events : List (IoEvent ρ)}
    (hwhole : Run.Along (step call) HeaderWhole (start message) events) :
    (Run.run (step call) (start message) events).Consistent call message :=
  Run.run_invariant (Exchange.Consistent call message) (fun _ ev h hev => h.step ev hev)
    start_consistent hwhole

end Exchange

end Invariant

/-! A whole call. -/

section Calls

variable {ρ : Type} (call : ClientCall ρ) (frame : CuvsCmdFrame)

def CuvsCmdFrame.Speaks : Prop :=
  frame.protoMagic = cuvsProtoMagic ∧ frame.protoVersion = cuvsProtoVersion

/-- The command is carried out once at most and as it was given, and the client returns an
error without rows, the refusal, or what the handler has made of it. -/
structure Exchange.Faithful (s : Exchange ρ) : Prop where
  once : s.log = [] ∨ frame.Speaks ∧ ∃ reply, s.log = [(frame, reply)]
  result : ∀ r, s.client = .done r →
    (r.rows = [] ∧ (r.rc = cuvsStatusError ∨ r.rc = cuvsStatusCanceled)) ∨
    (¬frame.Speaks ∧ s.log = [] ∧
      r = (mismatchReply frame.protoMagic frame.protoVersion).delivered call.k) ∨
    ∃ reply, s.log = [(frame, reply)] ∧ r = reply.delivered call.k

namespace Exchange

variable {call frame} {s : Exchange ρ}

theorem speaks_bytes : PgCuvs.Speaks frame.bytes ↔ frame.Speaks := by
  rw [PgCuvs.Speaks, messagePrologue_bytes, CuvsCmdFrame.Speaks, Option.some.injEq,
    Prod.mk.injEq]

theorem Consistent.faithful (h : s.Consistent call frame.bytes) : s.Faithful call frame := by
  have hsame : ∀ {f}, PgCuvs.Speaks frame.bytes → messageCommand frame.bytes = some f →
      f = frame := by
    intro f hspeaks hf
    obtain ⟨hmagic, hversion⟩ := speaks_bytes.mp hspeaks
    rw [messageCommand_bytes hmagic hversion] at hf
    exact (Option.some.inj hf).symm
  refine ⟨?_, fun r hr => ?_⟩
  · rcases h.log_eq with hnil | ⟨f, reply, hlog, hspeaks, hf⟩
    · exact Or.inl hnil
    · rw [hsame hspeaks hf] at hlog
      exact Or.inr ⟨speaks_bytes.mp hspeaks, reply, hlog⟩
  · have hclient := h.client
    rw [hr] at hclient
    rcases hclient with herror | ⟨reply, hans, hdelivered⟩
    · exact Or.inl herror
    · right
      generalize hlog : s.log = log at hans
      cases hans with
      | refused hm hskew =>
        rw [messagePrologue_bytes] at hm
        obtain ⟨rfl, rfl⟩ := Prod.mk.inj (Option.some.inj hm)
        exact Or.inl ⟨hskew, rfl, hdelivered⟩
      | carriedOut hspeaks hf =>
        refine Or.inr ⟨reply, ?_, hdelivered⟩
        rw [hsame hspeaks hf]

/-- Whatever the two ends' calls move at a time, in whatever order, and wherever either end
gives up. -/
theorem run_faithful (call : ClientCall ρ) (frame : CuvsCmdFrame) (events : List (IoEvent ρ))
    (hwhole : Run.Along (step call) HeaderWhole (start frame.bytes) events) :
    (Run.run (step call) (start frame.bytes) events).Faithful call frame :=
  (run_consistent hwhole).faithful

def sampleFrame : CuvsCmdFrame where
  protoMagic := cuvsProtoMagic
  protoVersion := cuvsProtoVersion
  op := 1
  dbOid := 5
  indexOid := 16400
  k := 10
  metric := 0
  dim := 4
  nVecs := 1
  shmKey := ⟨List.replicate 64 0, List.length_replicate⟩
  tableOid := 16390
  relfilenode := 16400
  shardCount := 0
  shardOverfetch := 0
  parallelFanout := 0
  useCpuHnsw := 0
  searchMode := 0
  bfPrecision := 0
  bfBatchWaitUs := 0
  nPartials := 0
  graphDegree := 0
  intermediateGraphDegree := 0
  buildAlgo := 0
  nFilterTids := 0
  filterShmKey := ⟨List.replicate 64 0, List.length_replicate⟩
  usePrefilter := 0
  nLists := 0
  pqBits := 0
  pqDim := 0
  nProbes := 0
  maxChunkSize := 0
  cagraBatchWaitUs := 0
  itopkSize := 0
  searchWidth := 0
  padding := 0

def sampleCall : ClientCall WireResult := ⟨resultCodec, 10, true⟩

def sampleReply : WireReply WireResult where
  hdr := ⟨cuvsStatusOk, 1, 42, 0, errorText []⟩
  rows := [⟨65538, 0x3f800000, 0⟩]
  nResults_eq := rfl

def sampleIo : List (IoEvent WireResult) :=
  [.clientWrite 99, .serverRead 3, .clientWrite 199, .serverRead 9, .serverRead 299,
    .handle sampleReply, .serverWrite 149, .clientRead 99, .serverWrite 9, .clientRead 99,
    .serverWrite 9, .clientRead 9, .clientRead 9]

theorem sampleIo_faithful :
    (Run.run (step sampleCall) (start sampleFrame.bytes) sampleIo).clientDone = true ∧
    (Run.run (step sampleCall) (start sampleFrame.bytes) sampleIo).Faithful sampleCall
      sampleFrame := by
  refine ⟨by decide +kernel, run_faithful sampleCall sampleFrame sampleIo ?_⟩
  exact along_headerWhole (by decide)

end Exchange

end Calls

end PgCuvs
