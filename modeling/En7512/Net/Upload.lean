/-
# What the client of an upload may believe

The acknowledgements of the server are all the client gets to know. An old request that
arrives late makes the server begin again, and it answers a block it does not expect with
the number it waits for. But what it has stored once stays in memory, for it is only ever
overwritten with the same bytes. So every acknowledgement is right about the memory, and
when the client has the last one, the whole file is there.
-/

import En7512.Net.Tftp

namespace En7512.Net

open En7512.Nand

/-- The first `n` blocks of the file are in memory. -/
def Stored (file : List UInt8) (buf : Bytes) (n : ℕ) : Prop :=
  ∀ i < file.length, i < segSize * n → buf i = file.getD i 0

section Store

variable {address : Peer} {dramSize : ℕ} {file : List UInt8} {s : Server} {buf : Bytes} {n k : ℕ}

theorem Stored.mono (stored : Stored file buf n) (le : k ≤ n) : Stored file buf k :=
  fun i inside small => stored i inside (lt_of_lt_of_le small (Nat.mul_le_mul_left _ le))

theorem stored_zero (file : List UInt8) (buf : Bytes) : Stored file buf 0 :=
  fun _ _ small => absurd small (Nat.not_lt_zero _)

/-- A block at its place disturbs nothing, and is there afterwards. -/
theorem stored_overlay (file : List UInt8) (buf : Bytes) (n : ℕ) :
    let buf' := overlay buf (segSize * (n - 1)) (fun i => (fileBlock file n).getD i 0)
      (fileBlock file n).length
    (∀ k, Stored file buf k → Stored file buf' k) ∧
      (Stored file buf (n - 1) → Stored file buf' n) := by
  intro buf'
  have outside (i : ℕ) (out : ¬ (segSize * (n - 1) ≤ i ∧
      i < segSize * (n - 1) + (fileBlock file n).length)) : buf' i = buf i :=
    overlay_of_not_mem out
  have inside (i : ℕ) (within : segSize * (n - 1) ≤ i ∧
      i < segSize * (n - 1) + (fileBlock file n).length) : buf' i = file.getD i 0 := by
    rw [show buf' i = (fileBlock file n).getD (i - segSize * (n - 1)) 0 from overlay_of_mem within,
      getD_fileBlock (by omega), Nat.add_sub_cancel' within.1]
  constructor
  · intro k stored i short small
    by_cases within : segSize * (n - 1) ≤ i ∧ i < segSize * (n - 1) + (fileBlock file n).length
    · exact inside i within
    · rw [outside i within]
      exact stored i short small
  · intro stored i short small
    by_cases before : i < segSize * (n - 1)
    · rw [outside i (by omega)]
      exact stored i short before
    · apply inside i
      rw [length_fileBlock]
      simp only [segSize] at small before ⊢
      omega

/-- `tftp_put` leaves the client and the transfer as they are. -/
theorem tftpPut_keeps (dat : List UInt8) (s : Server) :
    (tftpPut dat s).2.client = s.client ∧ (tftpPut dat s).2.putBegin = s.putBegin := by
  rw [tftpPut]
  split
  · exact ⟨rfl, rfl⟩
  · split
    · exact ⟨rfl, rfl⟩
    · exact ⟨rfl, rfl⟩

/-- A block that has been stored before is acknowledged again. -/
theorem tftpRcvData_before (client : s.client = address) (before : n < s.clientBlock) :
    tftpRcvData address n (fileBlock file n) s = ⟨s, some ⟨address, n⟩, false⟩ := by
  rw [tftpRcvData, if_neg (not_not.mpr client), if_neg (by omega), if_pos before, tftpSendAck,
    client]

/-- A block that comes too early is answered with the number the server waits for. -/
theorem tftpRcvData_behind (client : s.client = address) (behind : s.clientBlock < n) :
    tftpRcvData address n (fileBlock file n) s = ⟨s, some ⟨address, s.clientBlock⟩, false⟩ := by
  rw [tftpRcvData, if_neg (not_not.mpr client), if_neg (by omega), if_neg (by omega), tftpSendAck,
    client]

/-- What becomes of the block the server waits for, if there is room for it. -/
theorem tftpRcvData_room {dat : List UInt8} (client : s.client = address)
    (begun : s.putBegin = true) (room : ¬ s.limitSize < (s.dataLen + dat.length) % 2 ^ 32) :
    let handled := tftpRcvData address s.clientBlock dat s
    handled.server.buf = overlay s.buf s.dataLen (fun i => dat.getD i 0) dat.length ∧
      handled.server.clientBlock = (s.clientBlock + 1) % 2 ^ 16 ∧
      handled.reply = some ⟨s.client, s.clientBlock⟩ := by
  have put : tftpPut dat s = (true, { s with
      buf := overlay s.buf s.dataLen (fun i => dat.getD i 0) dat.length
      dataLen := s.dataLen + dat.length }) := by
    rw [tftpPut, begun, if_neg (by simp), if_neg room]
  rw [tftpRcvData, if_neg (not_not.mpr client), if_pos rfl, put, begun]
  dsimp only
  rw [if_neg (by simp)]
  by_cases short : dat.length < segSize
  · rw [if_pos short]
    exact ⟨rfl, rfl, rfl⟩
  · rw [if_neg short]
    exact ⟨rfl, rfl, rfl⟩

/-- A block of the client: what is in memory stays there, and the answer is right. -/
theorem stored_tftpRcvData (serving : Serving address dramSize file s)
    (few : blockCount file ≤ 65534) (here : Stored file s.buf (s.clientBlock - 1))
    (sent : Stored file s.buf (n - 1)) :
    let handled := tftpRcvData address n (fileBlock file n) s
    (∀ k, Stored file s.buf k → Stored file handled.server.buf k) ∧
      Stored file handled.server.buf (handled.server.clientBlock - 1) ∧
      ∀ a ∈ handled.reply, Stored file handled.server.buf a.block := by
  have pos := serving.block_pos
  by_cases expected : s.clientBlock = n
  · subst expected
    by_cases taken : s.putBegin = true ∧
        ¬ s.limitSize < (s.dataLen + (fileBlock file s.clientBlock).length) % 2 ^ 32
    · obtain ⟨begun, room⟩ := taken
      obtain ⟨within, len, -⟩ := serving.opened begun
      obtain ⟨stores, counts, replies⟩ := tftpRcvData_room serving.client begun room
      obtain ⟨keeps, adds⟩ := stored_overlay file s.buf s.clientBlock
      rw [len] at stores
      have next : (s.clientBlock + 1) % 2 ^ 16 - 1 = s.clientBlock := by omega
      dsimp only
      rw [stores, counts, replies, next]
      refine ⟨keeps, adds here, ?_⟩
      rintro _ ⟨⟩
      exact adds here
    · have refused : ∃ broken, tftpPut (fileBlock file s.clientBlock) s =
          (false, { s with tftpBreak := broken }) := by
        rw [tftpPut]
        by_cases begun : s.putBegin = true
        · have full := not_not.mp fun room => taken ⟨begun, room⟩
          rw [begun, if_neg (by simp), if_pos full]
          exact ⟨true, rfl⟩
        · rw [if_pos (by simp [begun])]
          exact ⟨s.tftpBreak, rfl⟩
      obtain ⟨broken, put⟩ := refused
      rw [tftpRcvData, if_neg (not_not.mpr serving.client), if_pos rfl, put]
      exact ⟨fun k stored => stored, here, fun a none => absurd none (Option.not_mem_none a)⟩
  · rcases lt_or_gt_of_ne expected with behind | before
    · rw [tftpRcvData_behind serving.client behind]
      refine ⟨fun k stored => stored, here, ?_⟩
      rintro _ ⟨⟩
      exact sent.mono (show s.clientBlock ≤ n - 1 by omega)
    · rw [tftpRcvData_before serving.client before]
      refine ⟨fun k stored => stored, here, ?_⟩
      rintro _ ⟨⟩
      exact here.mono (show n ≤ s.clientBlock - 1 by omega)

end Store

/-! ## The client -/

section Client

variable {address : Peer} {file : List UInt8} {client : Client} {n block : ℕ}

/-- The packets of the client come from its address. -/
theorem Client.source_of_packet {p : Packet} (current : client.packet address file = some p) :
    p.source = address := by
  obtain rfl | ⟨n, rfl⟩ := fromClient_packet current
  · rfl
  · rfl

/-- A block on its way is the one the client is at. -/
theorem Client.sending_of_packet
    (current : client.packet address file = some ⟨address, .data n (fileBlock file n)⟩) :
    client = .sending n := by
  cases client with
  | requesting => cases congrArg Packet.body (Option.some.inj current)
  | sending m =>
      obtain ⟨rfl, -⟩ := TftpBody.data.inj (congrArg Packet.body (Option.some.inj current))
      rfl
  | done => cases current

/-- How a client has come to a block. -/
theorem Client.acknowledged_sending (after : client.acknowledged file block = .sending n) :
    client = .requesting ∧ block = 0 ∧ n = 1 ∨ client = .sending n ∨
      ∃ m, client = .sending m ∧ block = m ∧ m < blockCount file ∧ n = m + 1 := by
  cases client with
  | requesting =>
      rw [acknowledged] at after
      split at after
      · next zero => exact .inl ⟨rfl, zero, (Client.sending.inj after).symm⟩
      · cases after
  | sending m =>
      rw [acknowledged] at after
      split at after
      · next here =>
        split at after
        · next more => exact .inr (.inr ⟨m, rfl, here, more, (Client.sending.inj after).symm⟩)
        · cases after
      · exact .inr (.inl after)
  | done => cases after

/-- A client that has not begun has not begun before. -/
theorem Client.acknowledged_requesting (after : client.acknowledged file block = .requesting) :
    client = .requesting := by
  cases client with
  | requesting => rfl
  | sending m =>
      rw [acknowledged] at after
      split at after
      · split at after
        · cases after
        · cases after
      · cases after
  | done => cases after

/-- How a client has come to its end. -/
theorem Client.acknowledged_done (after : client.acknowledged file block = .done) :
    client = .done ∨ ∃ m, client = .sending m ∧ block = m ∧ blockCount file ≤ m := by
  cases client with
  | requesting =>
      rw [acknowledged] at after
      split at after
      · cases after
      · cases after
  | sending m =>
      rw [acknowledged] at after
      split at after
      · next here =>
        split at after
        · cases after
        · next last => exact .inr ⟨m, rfl, here, not_lt.mp last⟩
      · cases after
  | done => exact .inl rfl

end Client

/-! ## The run -/

section Run

variable {address : Peer} {dramSize : ℕ} {file : List UInt8} {server : Server} {w w' : Upload}

/-- What the acknowledgements and the state of the client say about the memory. -/
structure Upload.Confirmed (address : Peer) (dramSize : ℕ) (file : List UInt8) (w : Upload) :
    Prop where
  uploading : Uploading address dramSize file w
  server : Stored file w.server.buf (w.server.clientBlock - 1) ∨
    w.toClient = ∅ ∧ w.client = .requesting ∧ ∀ p ∈ w.toServer, p = ⟨address, .wrq⟩
  sent : ∀ n, ⟨address, .data n (fileBlock file n)⟩ ∈ w.toServer →
    Stored file w.server.buf (n - 1)
  acks : ∀ a ∈ w.toClient, Stored file w.server.buf a.block
  sending : ∀ n, w.client = .sending n → n ≤ blockCount file ∧ Stored file w.server.buf (n - 1)
  done : w.client = .done → Stored file w.server.buf (blockCount file)

theorem confirmed_start (server : Server) :
    (Upload.start server).Confirmed address dramSize file where
  uploading := uploading_start server
  server := .inr ⟨rfl, rfl, fun p hp => absurd hp (Set.notMem_empty p)⟩
  sent _ none := absurd none (Set.notMem_empty _)
  acks _ none := absurd none (Set.notMem_empty _)
  sending _ other := nomatch other
  done other := nomatch other

/-- A block has been sent, and so not only requests. -/
theorem not_requests_of_data {n : ℕ} {dat : List UInt8}
    (sent : ⟨address, .data n dat⟩ ∈ w.toServer) :
    ¬ ∀ p ∈ w.toServer, p = (⟨address, .wrq⟩ : Packet) := by
  intro requests
  cases congrArg Packet.body (requests _ sent)

/-- What arrives at the server leaves in memory what is there, and is answered rightly. -/
theorem Upload.Confirmed.receive (h : w.Confirmed address dramSize file)
    (few : blockCount file ≤ 65534) {p : Packet} (arrives : p ∈ w.toServer) :
    let handled := tftpRcvPacket dramSize p w.server
    (∀ k, Stored file w.server.buf k → Stored file handled.server.buf k) ∧
      Stored file handled.server.buf (handled.server.clientBlock - 1) ∧
      ∀ a ∈ handled.reply, Stored file handled.server.buf a.block := by
  obtain rfl | ⟨n, rfl⟩ := h.uploading.sent p arrives
  · refine ⟨fun k stored => stored, stored_zero file _, ?_⟩
    rintro _ ⟨⟩
    exact stored_zero file _
  · have noRequests := not_requests_of_data arrives
    have serving := h.uploading.serving.resolve_right fun idle => noRequests idle.2.2
    have here := h.server.resolve_right fun idle => noRequests idle.2.2
    exact stored_tftpRcvData serving few here (h.sent n arrives)

/-- One step. -/
theorem Upload.Confirmed.step (h : w.Confirmed address dramSize file)
    (few : blockCount file ≤ 65534) (fits : file.length ≤ halfDramSize dramSize)
    (step : Upload.Step address dramSize file w w') : w'.Confirmed address dramSize file := by
  have uploading := h.uploading.step few fits step
  cases step with
  | @send p current =>
      refine ⟨uploading, ?_, ?_, h.acks, h.sending, h.done⟩
      · apply h.server.imp_right
        rintro ⟨none, requesting, requests⟩
        refine ⟨none, requesting, ?_⟩
        rintro q (rfl | before)
        · rw [requesting] at current
          exact (Option.some.inj current).symm
        · exact requests q before
      · rintro n (now | before)
        · rw [← now] at current
          exact (h.sending n (Client.sending_of_packet current)).2
        · exact h.sent n before
  | @receive p arrives =>
      obtain ⟨keeps, here, answers⟩ := h.receive few arrives
      refine ⟨uploading, .inl here, ?_, ?_, ?_, ?_⟩
      · exact fun n sent => keeps _ (h.sent n sent)
      · rintro a (before | new)
        · exact keeps _ (h.acks a before)
        · exact answers a new
      · exact fun n client => ⟨(h.sending n client).1, keeps _ (h.sending n client).2⟩
      · exact fun done => keeps _ (h.done done)
  | @acknowledge a sent dest =>
      have right := h.acks a sent
      have server := h.server.resolve_right fun idle => by
        rw [idle.1] at sent
        exact Set.notMem_empty _ sent
      refine ⟨uploading, .inl server, h.sent, h.acks, ?_, ?_⟩
      · intro n client
        rcases Client.acknowledged_sending client with
          ⟨-, -, rfl⟩ | same | ⟨m, before, here, more, rfl⟩
        · exact ⟨Nat.le_add_left 1 _, stored_zero file _⟩
        · exact h.sending n same
        · rw [here] at right
          exact ⟨more, right⟩
      · intro client
        rcases Client.acknowledged_done client with done | ⟨m, before, here, last⟩
        · exact h.done done
        · rw [here] at right
          rw [le_antisymm last (h.sending m before).1]
          exact right

/-- Every state of an upload. -/
theorem confirmed_of_reaches (few : blockCount file ≤ 65534)
    (fits : file.length ≤ halfDramSize dramSize)
    (run : Upload.Reaches address dramSize file server w) : w.Confirmed address dramSize file := by
  induction run with
  | refl => exact confirmed_start server
  | tail _ step ih => exact ih.step few fits step

/-- The blocks are the file. -/
theorem Stored.whole {buf : Bytes} (stored : Stored file buf (blockCount file)) :
    ∀ i < file.length, buf i = file.getD i 0 := by
  intro i inside
  apply stored i inside
  simp only [blockCount, segSize]
  omega

end Run

end En7512.Net
