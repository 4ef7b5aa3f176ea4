import PgCuvs.Ipc.Delivery

/-! No exchange hangs: as long as the client waits, one of the two ends has something to do that
needs no error and no cancel. -/

namespace PgCuvs

section Progress

variable {ρ : Type} {call : ClientCall ρ} {message : List UInt8} {s : Exchange ρ}

/-- The calls that do what they are there for. -/
inductive IoEvent.Regular : IoEvent ρ → Prop
  | clientWrite (n : ℕ) : Regular (.clientWrite n)
  | clientRead (n : ℕ) : Regular (.clientRead n)
  | serverRead (n : ℕ) : Regular (.serverRead n)
  | serverWrite (n : ℕ) : Regular (.serverWrite n)
  | handle (reply : WireReply ρ) : Regular (.handle reply)

def ClientPending (toSend : List UInt8) : ClientAt ρ → Prop
  | .sending => toSend ≠ []
  | .header | .rows _ => toSend = []
  | .done _ => True

def ServerPending (toSend : List UInt8) : ServerAt → Prop
  | .header _ | .rows => toSend ≠ []
  | _ => True

structure Exchange.Pending (s : Exchange ρ) : Prop where
  client : ClientPending s.request.toSend s.client
  server : ServerPending s.reply.toSend s.server

namespace Exchange

theorem replyHeader_ne_nil (hdr : CuvsReplyHeader) : hdr.bytes ≠ [] := by
  intro h
  have hlen := hdr.bytes_length
  rw [h] at hlen
  cases hlen

theorem Pending.clientRead (h : s.Pending) (n : ℕ) : (s.clientRead call n).Pending := by
  obtain ⟨hclient, hserver⟩ := h
  unfold Exchange.clientRead Exchange.clientPull Exchange.afterHeader Exchange.afterRows
    Exchange.finish Pipe.pull
  grind [ClientPending, Pending]

theorem Pending.clientWrite (h : s.Pending) (n : ℕ) :
    (s.step call (.clientWrite n)).Pending := by
  obtain ⟨hclient, hserver⟩ := h
  unfold Exchange.step Exchange.finish
  grind [ClientPending, Pending]

theorem Pending.finish (h : s.Pending) (r : ClientResult ρ) : (s.finish r).Pending :=
  ⟨trivial, h.server⟩

theorem Pending.close (h : s.Pending) : s.close.Pending := ⟨h.client, trivial⟩

theorem Pending.serverPull (h : s.Pending) (total n : ℕ) : (s.serverPull total n).Pending := by
  rcases s.serverPull_cases total n with heq | heq | ⟨m, -, heq⟩
  · rwa [heq]
  · rw [heq]
    exact h.close
  · rw [heq]
    exact ⟨h.client, h.server⟩

theorem Pending.serverRead (h : s.Pending) (n : ℕ) : (s.serverRead n).Pending := by
  rw [Exchange.serverRead]
  cases s.server with
  | handling f => exact h
  | header rows => exact h
  | rows => exact h
  | closed => exact h
  | prologue =>
    have hpull := h.serverPull prologueBytes n
    dsimp only
    split_ifs
    · split
      · split_ifs
        · exact ⟨hpull.client, trivial⟩
        · refine ⟨hpull.client, fun hnil => ?_⟩
          exact replyHeader_ne_nil _ (List.append_eq_nil_iff.mp hnil).2
      · exact hpull
    · exact hpull
  | body =>
    have hpull := h.serverPull cmdFrameBytes n
    dsimp only
    split_ifs
    · split
      · exact ⟨hpull.client, trivial⟩
      · exact hpull
    · exact hpull

theorem pending_sendRows (s : Exchange ρ) (hclient : ClientPending s.request.toSend s.client)
    (rows : List UInt8) : (s.sendRows rows).Pending := by
  rw [Exchange.sendRows]
  split_ifs with hnone
  · exact ⟨hclient, trivial⟩
  · refine ⟨hclient, ?_⟩
    show s.reply.toSend ++ rows ≠ []
    exact fun hnil => hnone (List.append_eq_nil_iff.mp hnil).2

theorem Pending.serverWrite (h : s.Pending) (n : ℕ) : (s.serverWrite n).Pending := by
  rw [Exchange.serverWrite]
  cases hat : s.server with
  | prologue => exact h
  | body => exact h
  | handling f => exact h
  | closed => exact h
  | header rows =>
    dsimp only
    split_ifs with hgone hout
    · exact h.close
    · apply pending_sendRows
      exact h.client
    · exact ⟨h.client, hout⟩
  | rows =>
    dsimp only
    split_ifs with hgone hout
    · exact h.close
    · exact ⟨h.client, trivial⟩
    · exact ⟨h.client, hout⟩

theorem Pending.serverFails (h : s.Pending) : s.serverFails.Pending := by
  rw [Exchange.serverFails]
  cases hat : s.server with
  | prologue => exact h.close
  | body => exact h.close
  | rows => exact h.close
  | handling f => exact h
  | closed => exact h
  | header rows =>
    dsimp only
    split_ifs
    · exact h.close
    · apply pending_sendRows
      exact h.client

theorem Pending.handle (h : s.Pending) (reply : WireReply ρ) :
    (s.step call (.handle reply)).Pending := by
  rw [Exchange.step]
  cases s.server with
  | handling f =>
    refine ⟨h.client, ?_⟩
    show s.reply.toSend ++ reply.hdr.bytes ≠ []
    exact fun hnil => replyHeader_ne_nil _ (List.append_eq_nil_iff.mp hnil).2
  | prologue => exact h
  | body => exact h
  | header rows => exact h
  | rows => exact h
  | closed => exact h

theorem Pending.step (h : s.Pending) (ev : IoEvent ρ) : (s.step call ev).Pending := by
  cases ev with
  | clientWrite n => exact h.clientWrite n
  | clientRead n => exact h.clientRead n
  | serverRead n => exact h.serverRead n
  | serverWrite n => exact h.serverWrite n
  | serverFails => exact h.serverFails
  | handle reply => exact h.handle reply
  | clientFails =>
    rw [Exchange.step]
    cases hat : s.client with
    | sending => exact h.finish _
    | header => exact h.finish _
    | rows hdr => exact h.finish _
    | done r => exact h
  | cancel =>
    rw [Exchange.step]
    cases hat : s.client with
    | sending => exact h
    | rows hdr => exact h
    | done r => exact h
    | header =>
      dsimp only
      split_ifs
      · exact h.finish _
      · exact h

/-! What each end does next. -/

theorem pull_ne {p : Pipe UInt8} {m : ℕ} (hm : 0 < m) (hflight : p.inFlight ≠ []) :
    p.pull m ≠ p := by
  intro heq
  have hlen : (p.inFlight.drop m).length = p.inFlight.length :=
    congrArg (fun q => q.inFlight.length) heq
  have hpos := List.length_pos_iff.mpr hflight
  rw [List.length_drop] at hlen
  omega

theorem push_ne {p : Pipe UInt8} {n : ℕ} (hsend : p.toSend ≠ []) : p.push (n + 1) ≠ p := by
  intro heq
  have hlen : (p.toSend.drop (n + 1)).length = p.toSend.length :=
    congrArg (fun q => q.toSend.length) heq
  have hpos := List.length_pos_iff.mpr hsend
  rw [List.length_drop] at hlen
  omega

@[simp] theorem afterHeader_reply (s : Exchange ρ) (hdr : CuvsReplyHeader) :
    (s.afterHeader hdr).reply = s.reply := by
  rw [Exchange.afterHeader]
  split_ifs <;> rfl

@[simp] theorem afterRows_reply (s : Exchange ρ) (hdr : CuvsReplyHeader) :
    (s.afterRows call hdr).reply = s.reply := by
  rw [Exchange.afterRows]
  split <;> rfl

def expected (call : ClientCall ρ) : ClientAt ρ → ℕ
  | .header => replyHeaderBytes
  | .rows hdr => replyHeaderBytes + hdr.nResults.toNat * call.codec.width
  | .sending | .done _ => 0

theorem clientPull_reply {total n : ℕ} {hdr : Option CuvsReplyHeader}
    (hflight : s.reply.inFlight ≠ []) : (s.clientPull total n hdr).reply =
      s.reply.pull (min (n + 1) (total - s.reply.received.length)) := by
  rw [clientPull, if_neg hflight]

theorem clientPull_closed {total n : ℕ} {hdr : Option CuvsReplyHeader}
    (hflight : s.reply.inFlight = []) (hclosed : s.serverClosed = true) :
    (s.clientPull total n hdr) = s.finish (.failure cuvsStatusError hdr) := by
  rw [clientPull, if_pos hflight, if_pos hclosed]

theorem clientRead_ne (hready : s.serverClosed = true ∨ s.reply.inFlight ≠ []) (n : ℕ)
    (hshort : s.reply.received.length < expected call s.client) : s.clientRead call n ≠ s := by
  by_cases hflight : s.reply.inFlight = []
  · have hclosed : s.serverClosed = true := hready.resolve_right (not_not.mpr hflight)
    intro heq
    have hdone : (s.clientRead call n).clientDone = true := by
      rw [Exchange.clientRead]
      cases hat : s.client with
      | sending => exact absurd (hat ▸ hshort) (Nat.not_lt_zero _)
      | done r => exact absurd (hat ▸ hshort) (Nat.not_lt_zero _)
      | header =>
        dsimp only
        rw [clientPull_closed hflight hclosed, if_neg fun hfull => by cases hfull.1]
        rfl
      | rows hdr =>
        dsimp only
        rw [clientPull_closed hflight hclosed, if_neg fun hfull => by cases hfull.1]
        rfl
    rw [heq, clientDone] at hdone
    cases hat : s.client with
    | done r => exact absurd (hat ▸ hshort) (Nat.not_lt_zero _)
    | sending => simp only [hat, Bool.false_eq_true] at hdone
    | header => simp only [hat, Bool.false_eq_true] at hdone
    | rows hdr => simp only [hat, Bool.false_eq_true] at hdone
  · have hpull : (s.clientRead call n).reply =
        s.reply.pull (min (n + 1) (expected call s.client - s.reply.received.length)) := by
      rw [Exchange.clientRead]
      cases hat : s.client with
      | sending => exact absurd (hat ▸ hshort) (Nat.not_lt_zero _)
      | done r => exact absurd (hat ▸ hshort) (Nat.not_lt_zero _)
      | header =>
        rw [expected, ← clientPull_reply hflight]
        dsimp only
        split_ifs
        · split
          · exact afterHeader_reply _ _
          · rfl
        · rfl
      | rows hdr =>
        rw [expected, ← @clientPull_reply _ _ _ _ (some hdr) hflight]
        dsimp only
        split_ifs
        · exact afterRows_reply _ _
        · rfl
    intro heq
    rw [heq] at hpull
    exact pull_ne (by omega) hflight hpull.symm

def wanted : ServerAt → ℕ
  | .prologue => prologueBytes
  | .body => cmdFrameBytes
  | _ => 0

theorem serverRead_ne (hflight : s.request.inFlight ≠ []) (n : ℕ)
    (hshort : s.request.received.length < wanted s.server) : s.serverRead n ≠ s := by
  have hpull : (s.serverRead n).request =
      s.request.pull (min (n + 1) (wanted s.server - s.request.received.length)) := by
    rw [Exchange.serverRead]
    cases hat : s.server with
    | handling f => exact absurd (hat ▸ hshort) (Nat.not_lt_zero _)
    | header rows => exact absurd (hat ▸ hshort) (Nat.not_lt_zero _)
    | rows => exact absurd (hat ▸ hshort) (Nat.not_lt_zero _)
    | closed => exact absurd (hat ▸ hshort) (Nat.not_lt_zero _)
    | prologue =>
      dsimp only
      rw [serverPull, if_neg hflight]
      split_ifs
      · split
        · split_ifs <;> rfl
        · rfl
      · rfl
    | body =>
      dsimp only
      rw [serverPull, if_neg hflight]
      split_ifs
      · split <;> rfl
      · rfl
  intro heq
  rw [heq] at hpull
  exact pull_ne (by omega) hflight hpull.symm

theorem serverWrite_ne (hsend : s.reply.toSend ≠ []) (n : ℕ) (hwaits : s.clientDone = false)
    (hat : (∃ rows, s.server = .header rows) ∨ s.server = .rows) : s.serverWrite n ≠ s := by
  have hflight : (s.serverWrite n).reply.inFlight =
      s.reply.inFlight ++ s.reply.toSend.take (n + 1) := by
    rcases hat with ⟨rows, hat⟩ | hat
    · rw [Exchange.serverWrite, hat]
      dsimp only
      rw [if_neg (by rw [hwaits]; exact Bool.false_ne_true)]
      split_ifs
      · rw [Exchange.sendRows]
        split_ifs <;> rfl
      · rfl
    · rw [Exchange.serverWrite, hat]
      dsimp only
      rw [if_neg (by rw [hwaits]; exact Bool.false_ne_true)]
      split_ifs <;> rfl
  intro heq
  rw [heq] at hflight
  have hnil : s.reply.toSend.take (n + 1) = [] := List.self_eq_append_right.mp hflight
  rcases List.take_eq_nil_iff.mp hnil with hzero | hempty
  · cases hzero
  · exact hsend hempty

theorem Consistent.serverActs (h : s.Consistent call message) (hp : s.Pending)
    (hlong : cmdFrameBytes ≤ message.length) (hsent : s.request.toSend = [])
    (hwaits : s.clientDone = false) (hshort : s.reply.received.length < expected call s.client) :
    ∃ ev, ev.Regular ∧ s.step call ev ≠ s := by
  have hserver := h.server
  have hpending := hp.server
  -- all of the message is there to be read
  have hflight : s.request.received.length < cmdFrameBytes → s.request.inFlight ≠ [] := by
    intro hless hnil
    have hall : s.request.received = message := by
      have hwhole := h.request
      rwa [Pipe.whole, hnil, hsent, List.append_nil, List.append_nil] at hwhole
    rw [hall] at hless
    exact absurd hlong (Nat.not_le.mpr hless)
  cases hat : s.server with
  | closed =>
    have hclosed : s.serverClosed = true := by rw [serverClosed, hat]
    exact ⟨.clientRead 0, .clientRead 0, clientRead_ne (Or.inl hclosed) 0 hshort⟩
  | prologue =>
    rw [hat] at hserver
    have hless : s.request.received.length < prologueBytes := hserver.1
    refine ⟨.serverRead 0, .serverRead 0, serverRead_ne (hflight ?_) 0 ?_⟩
    · exact Nat.lt_trans hless (Nat.lt_add_of_pos_right (Nat.succ_pos 255))
    · rwa [hat]
  | body =>
    rw [hat] at hserver
    have hless : s.request.received.length < cmdFrameBytes := hserver.1.2
    refine ⟨.serverRead 0, .serverRead 0, serverRead_ne (hflight hless) 0 ?_⟩
    rwa [hat]
  | handling f =>
    refine ⟨.handle (mismatchReply 0 0), .handle _, fun heq => ?_⟩
    have hlog : s.log ++ [(f, mismatchReply 0 0)] = s.log := by
      have hlog := congrArg Exchange.log heq
      rw [Exchange.step] at hlog
      simp only [hat] at hlog
      exact hlog
    exact absurd (List.append_right_eq_self.mp hlog) (List.cons_ne_nil _ _)
  | header rows =>
    rw [hat] at hpending
    exact ⟨.serverWrite 0, .serverWrite 0, serverWrite_ne hpending 0 hwaits (Or.inl ⟨rows, hat⟩)⟩
  | rows =>
    rw [hat] at hpending
    exact ⟨.serverWrite 0, .serverWrite 0, serverWrite_ne hpending 0 hwaits (Or.inr hat)⟩

/-- As long as the client waits, someone has something to do. -/
theorem Consistent.progress (h : s.Consistent call message) (hp : s.Pending)
    (hlong : cmdFrameBytes ≤ message.length) (hwaits : s.clientDone = false) :
    ∃ ev, ev.Regular ∧ s.step call ev ≠ s := by
  have hclient := h.client
  have hpending := hp.client
  cases hat : s.client with
  | done r => simp only [clientDone, hat, Bool.true_eq_false] at hwaits
  | header =>
    rw [hat] at hclient hpending
    refine h.serverActs hp hlong hpending hwaits ?_
    rwa [hat]
  | rows hdr =>
    rw [hat] at hclient hpending
    refine h.serverActs hp hlong hpending hwaits ?_
    rw [hat]
    exact hclient.2.2
  | sending =>
    rw [hat] at hpending
    refine ⟨.clientWrite 0, .clientWrite 0, fun heq => ?_⟩
    rw [Exchange.step, hat] at heq
    dsimp only at heq
    split_ifs at heq with hclosed
    · have hdone := congrArg Exchange.client heq
      rw [hat] at hdone
      cases hdone
    · exact push_ne hpending (congrArg Exchange.request heq)
    · exact push_ne hpending (congrArg Exchange.request heq)

/-- No exchange hangs. -/
theorem run_progress (call : ClientCall ρ) (frame : CuvsCmdFrame) (events : List (IoEvent ρ))
    (hwhole : Run.Along (step call) HeaderWhole (start frame.bytes) events)
    (hwaits : (Run.run (step call) (start frame.bytes) events).clientDone = false) :
    ∃ ev, ev.Regular ∧ (Run.run (step call) (start frame.bytes) events).step call ev ≠
      Run.run (step call) (start frame.bytes) events := by
  have hstart : (start frame.bytes : Exchange ρ).Pending := by
    refine ⟨fun hnil => ?_, trivial⟩
    have hlen := frame.bytes_length
    rw [show frame.bytes = [] from hnil] at hlen
    cases hlen
  have hpending : (Run.run (step call) (start frame.bytes) events).Pending :=
    Run.run_invariant (C := fun _ _ => True) Exchange.Pending (fun _ ev h _ => h.step ev) hstart
      (Run.along_of_forall (P := fun _ => True) (fun _ _ => trivial) _)
  exact (run_consistent hwhole).progress hpending frame.bytes_length.ge hwaits

/-- The sample exchange before its last read. -/
theorem sampleIo_progress :
    ∃ ev, ev.Regular ∧ (Run.run (step sampleCall) (start sampleFrame.bytes)
      (sampleIo.take 12)).step sampleCall ev ≠
      Run.run (step sampleCall) (start sampleFrame.bytes) (sampleIo.take 12) := by
  refine run_progress sampleCall sampleFrame (sampleIo.take 12) ?_ (by decide +kernel)
  exact along_headerWhole (by decide)

end Exchange

end Progress

end PgCuvs
