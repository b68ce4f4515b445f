/-
# How an upload comes to its end

The client sends again what is not acknowledged, but only the packet it is at. So when the
network has settled, the upload goes on in exchanges: the packet of the client arrives, and
then its answer. With every exchange the client gets one block further, if the server is not
behind it. A server that an old request has set back waits for a block that the client no
longer sends, and every exchange leaves both as they are.
-/

import En7512.Net.Upload

namespace En7512.Net

/-- The packet of the client arrives, and then the answer. -/
def Upload.exchange (address : Peer) (dramSize : ℕ) (file : List UInt8) (w : Upload) : Upload :=
  match w.client.packet address file with
  | none => w
  | some p =>
      let handled := tftpRcvPacket dramSize p w.server
      { server := handled.server
        client := (handled.reply.map fun a => w.client.acknowledged file a.block).getD w.client
        toServer := insert p w.toServer
        toClient := w.toClient ∪ {a | handled.reply = some a} }

/-- The server is not behind the client. -/
def Upload.InStep (w : Upload) : Prop := ∀ n, w.client = .sending n → n ≤ w.server.clientBlock

/-- How many exchanges are left. -/
def Client.left (file : List UInt8) : Client → ℕ
  | .requesting => blockCount file + 1
  | .sending n => blockCount file + 1 - n
  | .done => 0

/-- A transfer is closed by its last block only. -/
def Server.ClosedByLast (file : List UInt8) (s : Server) : Prop :=
  s.putBegin = false → s.clientBlock = blockCount file + 1

/-! ## The server -/

section Server

variable {address : Peer} {dramSize : ℕ} {file : List UInt8} {s : Server} {n : ℕ}

/-- The block the server waits for, while the transfer is open. -/
theorem tftpRcvData_current (serving : Serving address dramSize file s)
    (isOpen : s.putBegin = true) (few : blockCount file ≤ 65534)
    (fits : file.length ≤ halfDramSize dramSize) :
    let handled := tftpRcvData address s.clientBlock (fileBlock file s.clientBlock) s
    handled.server.clientBlock = s.clientBlock + 1 ∧
      handled.reply = some ⟨address, s.clientBlock⟩ ∧ handled.server.ClosedByLast file := by
  obtain ⟨within, -, -⟩ := serving.opened isOpen
  obtain ⟨buf, put, -⟩ := tftpPut_block serving isOpen fits
  have pos := serving.block_pos
  have next : (s.clientBlock + 1) % 2 ^ 16 = s.clientBlock + 1 := Nat.mod_eq_of_lt (by omega)
  rw [tftpRcvData, if_neg (not_not.mpr serving.client), if_pos rfl, put, ← serving.client]
  dsimp only
  rw [if_neg (by simp), next]
  by_cases short : (fileBlock file s.clientBlock).length < segSize
  · rw [if_pos short, tftpPutEnd, isOpen]
    refine ⟨rfl, rfl, fun _ => ?_⟩
    show s.clientBlock + 1 = blockCount file + 1
    rw [(length_fileBlock_lt_iff pos within).mp short]
  · rw [if_neg short]
    refine ⟨rfl, rfl, fun closed => ?_⟩
    rw [show s.putBegin = false from closed] at isOpen
    cases isOpen

theorem tftpRcvData_closed (client : s.client = address) (closed : s.putBegin = false) :
    tftpRcvData address s.clientBlock (fileBlock file s.clientBlock) s = ⟨s, none, false⟩ := by
  have put : tftpPut (fileBlock file s.clientBlock) s = (false, s) := by
    rw [tftpPut, if_pos (by simp [closed])]
  rw [tftpRcvData, if_neg (not_not.mpr client), if_pos rfl, put]
  rfl

/-- Every block keeps it so. -/
theorem Server.ClosedByLast.tftpRcvData (closed : s.ClosedByLast file)
    (serving : Serving address dramSize file s) (few : blockCount file ≤ 65534)
    (fits : file.length ≤ halfDramSize dramSize) (n : ℕ) :
    (tftpRcvData address n (fileBlock file n) s).server.ClosedByLast file := by
  rcases Nat.lt_trichotomy n s.clientBlock with before | rfl | behind
  · rw [tftpRcvData_before serving.client before]
    exact closed
  · cases isOpen : s.putBegin with
    | true => exact (tftpRcvData_current serving isOpen few fits).2.2
    | false =>
        rw [tftpRcvData_closed serving.client isOpen]
        exact closed
  · rw [tftpRcvData_behind serving.client behind]
    exact closed

/-- The server answers the one who has asked. -/
theorem dest_of_reply {p : Packet} {a : AckPacket}
    (reply : (tftpRcvPacket dramSize p s).reply = some a) : a.dest = p.source := by
  rw [tftpRcvPacket] at reply
  cases body : p.body with
  | rrq =>
      rw [body] at reply
      cases reply
  | wrq =>
      rw [body] at reply
      rw [← Option.some.inj reply]
  | ack block =>
      rw [body] at reply
      cases reply
  | error =>
      rw [body] at reply
      cases reply
  | data block dat =>
      rw [body] at reply
      dsimp only at reply
      rw [tftpRcvData] at reply
      by_cases other : s.client ≠ p.source
      · rw [if_pos other] at reply
        cases reply
      rw [if_neg other] at reply
      have client : s.client = p.source := not_not.mp other
      split at reply
      · have kept := (tftpPut_keeps dat s).1
        generalize tftpPut dat s = put at reply kept
        obtain ⟨stored, s'⟩ := put
        dsimp only at reply kept
        split at reply
        · cases reply
        · split at reply
          · rw [← Option.some.inj reply, ← client, ← kept]
          · rw [← Option.some.inj reply, ← client, ← kept]
      · split at reply
        · rw [← Option.some.inj reply, ← client]
        · rw [← Option.some.inj reply, ← client]

end Server

/-! ## The run -/

section Run

variable {address : Peer} {dramSize : ℕ} {file : List UInt8} {server : Server} {w w' : Upload}
  {n : ℕ}

/-- No request has been answered yet. -/
def Upload.Idle (address : Peer) (w : Upload) : Prop :=
  w.toClient = ∅ ∧ w.client = .requesting ∧ ∀ p ∈ w.toServer, p = ⟨address, .wrq⟩

/-- What the server is like in the states of an upload. -/
structure Upload.Orderly (address : Peer) (dramSize : ℕ) (file : List UInt8) (w : Upload) :
    Prop where
  uploading : Uploading address dramSize file w
  closed : w.server.ClosedByLast file ∨ w.Idle address
  sending : ∀ n, w.client = .sending n → n ≤ blockCount file

theorem Upload.Orderly.step (h : w.Orderly address dramSize file) (few : blockCount file ≤ 65534)
    (fits : file.length ≤ halfDramSize dramSize)
    (step : Upload.Step address dramSize file w w') : w'.Orderly address dramSize file := by
  have uploading := h.uploading.step few fits step
  cases step with
  | @send p current =>
      refine ⟨uploading, h.closed.imp_right ?_, h.sending⟩
      rintro ⟨none, requesting, requests⟩
      refine ⟨none, requesting, ?_⟩
      rintro q (rfl | before)
      · rw [requesting] at current
        exact (Option.some.inj current).symm
      · exact requests q before
  | @receive p arrives =>
      refine ⟨uploading, .inl ?_, h.sending⟩
      obtain rfl | ⟨n, rfl⟩ := h.uploading.sent p arrives
      · intro closed
        cases closed
      · have noRequests := not_requests_of_data arrives
        have serving := h.uploading.serving.resolve_right fun idle => noRequests idle.2.2
        have closed := h.closed.resolve_right fun idle => noRequests idle.2.2
        exact closed.tftpRcvData serving few fits n
  | @acknowledge a sent dest =>
      have closed := h.closed.resolve_right fun idle => by
        rw [idle.1] at sent
        exact Set.notMem_empty _ sent
      refine ⟨uploading, .inl closed, fun n client => ?_⟩
      rcases Client.acknowledged_sending client with ⟨-, -, rfl⟩ | same | ⟨m, -, -, more, rfl⟩
      · exact Nat.le_add_left 1 _
      · exact h.sending n same
      · exact more

theorem orderly_start (server : Server) : (Upload.start server).Orderly address dramSize file where
  uploading := uploading_start server
  closed := .inr ⟨rfl, rfl, fun p none => absurd none (Set.notMem_empty p)⟩
  sending _ other := nomatch other

/-- The later states of an upload. -/
theorem Upload.Orderly.reaches (h : w.Orderly address dramSize file)
    (few : blockCount file ≤ 65534) (fits : file.length ≤ halfDramSize dramSize)
    (run : Relation.ReflTransGen (Upload.Step address dramSize file) w w') :
    w'.Orderly address dramSize file := by
  induction run with
  | refl => exact h
  | tail _ step ih => exact ih.step few fits step

/-! ## The exchanges -/

/-- The steps of an exchange. -/
theorem exchange_reaches (w : Upload) :
    Relation.ReflTransGen (Upload.Step address dramSize file) w
      (w.exchange address dramSize file) := by
  rw [Upload.exchange]
  cases current : w.client.packet address file with
  | none => exact .refl
  | some p =>
      have source := Client.source_of_packet current
      have sent : Upload.Step address dramSize file w _ := .send current
      have arrived := (Relation.ReflTransGen.single sent).tail (.receive (Set.mem_insert p _))
      dsimp only at arrived ⊢
      cases reply : (tftpRcvPacket dramSize p w.server).reply with
      | none =>
          rw [reply] at arrived
          exact arrived
      | some a =>
          rw [reply] at arrived
          refine arrived.tail (.acknowledge (a := a) (.inr rfl) ?_)
          rw [dest_of_reply reply, source]

/-- What has been sent stays on the network. -/
theorem mem_toServer_exchange {p : Packet} (sent : p ∈ w.toServer) :
    p ∈ (w.exchange address dramSize file).toServer := by
  rw [Upload.exchange]
  cases w.client.packet address file with
  | none => exact sent
  | some q => exact .inr sent

/-- The acknowledgement of the request. -/
theorem exchange_requesting (address : Peer) (dramSize : ℕ) (file : List UInt8)
    (requesting : w.client = .requesting) :
    (w.exchange address dramSize file).client = .sending 1 ∧
      (w.exchange address dramSize file).server.clientBlock = 1 := by
  rw [Upload.exchange, requesting]
  exact ⟨rfl, rfl⟩

theorem exchange_done (done : w.client = .done) : w.exchange address dramSize file = w := by
  rw [Upload.exchange, done]
  rfl

/-- A block, with what the server makes of it. -/
theorem exchange_sending (dramSize : ℕ) (sending : w.client = .sending n) {handled : Handled}
    {k : ℕ}
    (received : tftpRcvData address n (fileBlock file n) w.server = handled)
    (reply : handled.reply = some ⟨address, k⟩) :
    (w.exchange address dramSize file).client = (Client.sending n).acknowledged file k ∧
      (w.exchange address dramSize file).server = handled.server := by
  have packet : tftpRcvPacket dramSize ⟨address, .data n (fileBlock file n)⟩ w.server = handled :=
    received
  rw [Upload.exchange, sending]
  dsimp only [Client.packet]
  rw [packet, reply]
  exact ⟨rfl, rfl⟩

/-- An exchange gets the client one block further if the server is not behind it. -/
theorem Upload.Orderly.exchange (h : w.Orderly address dramSize file) (inStep : w.InStep)
    (few : blockCount file ≤ 65534) (fits : file.length ≤ halfDramSize dramSize) :
    (w.exchange address dramSize file).InStep ∧
      (w.exchange address dramSize file).client.left file = w.client.left file - 1 := by
  cases client : w.client with
  | requesting =>
      obtain ⟨sending, waits⟩ := exchange_requesting address dramSize file client
      rw [InStep, sending, waits]
      refine ⟨fun n one => ?_, rfl⟩
      exact (Client.sending.inj one).ge
  | sending n =>
      have serving := h.uploading.serving.resolve_right fun idle => by
        rw [idle.2.1] at client
        cases client
      have closed := h.closed.resolve_right fun idle => by
        rw [idle.2.1] at client
        cases client
      have within := h.sending n client
      have further : ∃ handled : Handled,
          tftpRcvData address n (fileBlock file n) w.server = handled ∧
            handled.reply = some ⟨address, n⟩ ∧ n + 1 ≤ handled.server.clientBlock := by
        rcases Nat.lt_or_eq_of_le (inStep n client) with before | rfl
        · exact ⟨_, tftpRcvData_before serving.client before, rfl, before⟩
        · have isOpen : w.server.putBegin = true := by
            by_contra ended
            have last := closed (by simpa using ended)
            omega
          obtain ⟨counts, replies, -⟩ := tftpRcvData_current serving isOpen few fits
          exact ⟨_, rfl, replies, counts.ge⟩
      obtain ⟨handled, received, reply, counts⟩ := further
      obtain ⟨acknowledged, server⟩ := exchange_sending dramSize client received reply
      rw [InStep, acknowledged, server, Client.acknowledged, if_pos rfl]
      by_cases more : n < blockCount file
      · rw [if_pos more]
        constructor
        · intro k same
          rw [← Client.sending.inj same]
          exact counts
        · show blockCount file + 1 - (n + 1) = blockCount file + 1 - n - 1
          omega
      · rw [if_neg more]
        constructor
        · intro k other
          cases other
        · show 0 = blockCount file + 1 - n - 1
          omega
  | done =>
      rw [exchange_done client, client]
      exact ⟨inStep, rfl⟩

/-- Several exchanges. -/
theorem Upload.Orderly.exchanges (h : w.Orderly address dramSize file) (inStep : w.InStep)
    (few : blockCount file ≤ 65534) (fits : file.length ≤ halfDramSize dramSize) (k : ℕ) :
    ((Upload.exchange address dramSize file)^[k] w).client.left file = w.client.left file - k := by
  induction k generalizing w with
  | zero => rfl
  | succ k ih =>
      have reached := h.reaches few fits (exchange_reaches w)
      obtain ⟨inStep', left⟩ := h.exchange inStep few fits
      rw [Function.iterate_succ_apply, ih reached inStep', left]
      omega

/-- A client that has nothing left is done. -/
theorem Upload.Orderly.done_of_left (h : w.Orderly address dramSize file)
    (none : w.client.left file = 0) : w.client = .done := by
  cases client : w.client with
  | requesting =>
      rw [client] at none
      cases none
  | sending n =>
      have within := h.sending n client
      rw [client, Client.left] at none
      omega
  | done => rfl

/-- A server that is behind the client stays so. -/
theorem exchange_behind (h : w.Orderly address dramSize file) (sending : w.client = .sending n)
    (behind : w.server.clientBlock < n) :
    (w.exchange address dramSize file).client = w.client ∧
      (w.exchange address dramSize file).server = w.server := by
  have serving := h.uploading.serving.resolve_right fun idle => by
    rw [idle.2.1] at sending
    cases sending
  obtain ⟨acknowledged, server⟩ :=
    exchange_sending dramSize sending (tftpRcvData_behind serving.client behind) rfl
  rw [acknowledged, server, sending, Client.acknowledged, if_neg (by omega)]
  exact ⟨rfl, rfl⟩

theorem exchanges_reach (w : Upload) (k : ℕ) :
    Relation.ReflTransGen (Upload.Step address dramSize file) w
      ((Upload.exchange address dramSize file)^[k] w) := by
  induction k generalizing w with
  | zero => exact .refl
  | succ k ih =>
      rw [Function.iterate_succ_apply]
      exact (exchange_reaches w).trans (ih _)

end Run

section Complete

variable {address : Peer} {dramSize : ℕ} {file : List UInt8} {server : Server} {w : Upload}

/-- If the server is not behind the client, exchanges bring the upload to its end. -/
theorem completes_of_inStep (few : blockCount file ≤ 65534)
    (fits : file.length ≤ halfDramSize dramSize)
    (run : Upload.Reaches address dramSize file server w) (inStep : w.InStep) :
    let w' := (Upload.exchange address dramSize file)^[blockCount file + 1] w
    w'.client = .done ∧ ∀ i < file.length, w'.server.buf i = file.getD i 0 := by
  intro w'
  have orderly := (orderly_start server).reaches few fits run
  have more : Relation.ReflTransGen (Upload.Step address dramSize file) w w' :=
    exchanges_reach w _
  have none : w'.client.left file = 0 := by
    rw [orderly.exchanges inStep few fits]
    cases client : w.client with
    | requesting => exact Nat.sub_self _
    | sending n =>
        show blockCount file + 1 - n - (blockCount file + 1) = 0
        omega
    | done => exact Nat.zero_sub _
  have done := (orderly.reaches few fits more).done_of_left none
  exact ⟨done, ((confirmed_of_reaches few fits (run.trans more)).done done).whole⟩

/-- If the server is behind, they change nothing. -/
theorem stalls_of_not_inStep (few : blockCount file ≤ 65534)
    (fits : file.length ≤ halfDramSize dramSize)
    (run : Upload.Reaches address dramSize file server w) (notInStep : ¬ w.InStep) (k : ℕ) :
    let w' := (Upload.exchange address dramSize file)^[k] w
    w'.client = w.client ∧ w'.server = w.server := by
  simp only [Upload.InStep, not_forall, not_le] at notInStep
  obtain ⟨n, sending, behind⟩ := notInStep
  induction k with
  | zero => exact ⟨rfl, rfl⟩
  | succ k ih =>
      obtain ⟨client, same⟩ := ih
      have still := ((orderly_start server).reaches few fits run).reaches few fits
        (exchanges_reach w k)
      rw [Function.iterate_succ_apply']
      obtain ⟨client', same'⟩ := exchange_behind still (client.trans sending) (by rwa [same])
      exact ⟨client'.trans client, same'.trans same⟩

end Complete

/-- From every state of an upload: if the server is not behind the client, as many exchanges as
the file has blocks, and one for the request, bring the whole file into memory, and the client
is done. If the server is behind, no number of exchanges changes anything on either side. -/
theorem upload_completes_or_stalls (address : Peer) (dramSize : ℕ) (file : List UInt8)
    (server : Server) (few : blockCount file ≤ 65534)
    (fits : file.length ≤ halfDramSize dramSize) {w : Upload}
    (run : Upload.Reaches address dramSize file server w) :
    (w.InStep →
      let w' := (Upload.exchange address dramSize file)^[blockCount file + 1] w
      w'.client = .done ∧ ∀ i < file.length, w'.server.buf i = file.getD i 0) ∧
    (¬ w.InStep → ∀ k,
      let w' := (Upload.exchange address dramSize file)^[k] w
      w'.client = w.client ∧ w'.server = w.server) :=
  ⟨completes_of_inStep few fits run, stalls_of_not_inStep few fits run⟩

/-- A file of two blocks, the first of which has been acknowledged: the upload can be completed,
but not when the request arrives once more. -/
theorem upload_completes_or_stalls_old_request :
    let address : Peer := ⟨3232235778, 1024⟩
    let idle : Server := ⟨⟨0, 0⟩, 0, fun _ => 0, 0, false, 0, false⟩
    let file := List.replicate 512 7
    ∃ w w', Upload.Reaches address 64 file idle w ∧ Upload.Step address 64 file w w' ∧
      ((Upload.exchange address 64 file)^[3] w).client = .done ∧
      ∀ k, ((Upload.exchange address 64 file)^[k] w').client = .sending 2 := by
  intro address idle file
  have run : Upload.Reaches address 64 file idle _ := exchanges_reach (.start idle) 2
  have client : ((Upload.exchange address 64 file)^[2] (.start idle)).client = .sending 2 := by
    decide +kernel
  have waits : ((Upload.exchange address 64 file)^[2] (.start idle)).server.clientBlock = 2 := by
    decide +kernel
  have sent : (⟨address, .wrq⟩ : Packet) ∈
      ((Upload.exchange address 64 file)^[2] (.start idle)).toServer := by
    rw [Function.iterate_succ_apply']
    exact mem_toServer_exchange (Set.mem_insert _ _)
  generalize (Upload.exchange address 64 file)^[2] (.start idle) = w at run client waits sent
  have few : blockCount file ≤ 65534 := by decide +kernel
  have fits : file.length ≤ halfDramSize 64 := by decide +kernel
  have blocks : blockCount file = 2 := by decide +kernel
  have late : Upload.Step address 64 file w _ := .receive sent
  obtain ⟨completes, -⟩ := upload_completes_or_stalls address 64 file idle few fits run
  obtain ⟨-, stalls⟩ := upload_completes_or_stalls address 64 file idle few fits (run.tail late)
  have inStep : w.InStep := by
    intro n sending
    obtain rfl := Client.sending.inj (client.symm.trans sending)
    exact waits.ge
  obtain ⟨done, -⟩ := completes inStep
  rw [blocks] at done
  refine ⟨w, _, run, late, done, fun k => ?_⟩
  rw [(stalls (fun inStep' => ?_) k).1]
  · exact client
  · have waits' : 2 ≤ 1 := inStep' 2 client
    exact absurd waits' (by decide)

/-! ## Without old requests -/

/-- The steps of an upload in which no request arrives once one has been acknowledged. -/
inductive Upload.FreshStep (address : Peer) (dramSize : ℕ) (file : List UInt8) :
    Upload → Upload → Prop
  | send {w : Upload} {p : Packet} (current : w.client.packet address file = some p) :
      FreshStep address dramSize file w { w with toServer := insert p w.toServer }
  | receive {w : Upload} {p : Packet} (sent : p ∈ w.toServer)
      (fresh : p.body = .wrq → w.client = .requesting) :
      FreshStep address dramSize file w { w with
        server := (tftpRcvPacket dramSize p w.server).server
        toClient := w.toClient ∪ {a | (tftpRcvPacket dramSize p w.server).reply = some a} }
  | acknowledge {w : Upload} {a : AckPacket} (sent : a ∈ w.toClient) (dest : a.dest = address) :
      FreshStep address dramSize file w { w with client := w.client.acknowledged file a.block }

section Fresh

variable {address : Peer} {dramSize : ℕ} {file : List UInt8} {w w' : Upload}

theorem Upload.FreshStep.step (step : Upload.FreshStep address dramSize file w w') :
    Upload.Step address dramSize file w w' := by
  cases step with
  | send current => exact .send current
  | receive sent _ => exact .receive sent
  | acknowledge sent dest => exact .acknowledge sent dest

/-- The server is ahead of everything that has been sent. -/
structure Upload.Ahead (address : Peer) (file : List UInt8) (w : Upload) : Prop where
  inStep : w.InStep
  requests : w.client = .requesting →
    (∀ p ∈ w.toServer, p = ⟨address, .wrq⟩) ∧ ∀ a ∈ w.toClient, a.block = 0
  packets : ∀ n, ⟨address, .data n (fileBlock file n)⟩ ∈ w.toServer → n ≤ w.server.clientBlock
  acks : ∀ a ∈ w.toClient, a.block < w.server.clientBlock

/-- A block that is not ahead of the server. -/
theorem ahead_tftpRcvData {s : Server} {n : ℕ} (serving : Serving address dramSize file s)
    (few : blockCount file ≤ 65534) (fits : file.length ≤ halfDramSize dramSize)
    (sent : n ≤ s.clientBlock) :
    let handled := tftpRcvData address n (fileBlock file n) s
    s.clientBlock ≤ handled.server.clientBlock ∧
      ∀ a ∈ handled.reply, a.block < handled.server.clientBlock := by
  rcases Nat.lt_or_eq_of_le sent with before | rfl
  · rw [tftpRcvData_before serving.client before]
    use le_rfl
    rintro _ ⟨⟩
    exact before
  · cases isOpen : s.putBegin with
    | true =>
        obtain ⟨counts, replies, -⟩ := tftpRcvData_current serving isOpen few fits
        dsimp only
        rw [counts, replies]
        use Nat.le_succ _
        rintro _ ⟨⟩
        exact Nat.lt_succ_self _
    | false =>
        rw [tftpRcvData_closed serving.client isOpen]
        exact ⟨le_rfl, fun a none => absurd none (Option.not_mem_none a)⟩

theorem Upload.Ahead.step (h : w.Ahead address file) (orderly : w.Orderly address dramSize file)
    (few : blockCount file ≤ 65534) (fits : file.length ≤ halfDramSize dramSize)
    (step : Upload.FreshStep address dramSize file w w') : w'.Ahead address file := by
  cases step with
  | @send p current =>
      refine ⟨h.inStep, fun requesting => ?_, ?_, h.acks⟩
      · obtain ⟨requests, zero⟩ := h.requests requesting
        refine ⟨?_, zero⟩
        rintro q (rfl | before)
        · rw [show w.client = .requesting from requesting] at current
          exact (Option.some.inj current).symm
        · exact requests q before
      · rintro n (now | before)
        · rw [← now] at current
          exact h.inStep n (Client.sending_of_packet current)
        · exact h.packets n before
  | @receive p arrives fresh =>
      obtain rfl | ⟨n, rfl⟩ := orderly.uploading.sent p arrives
      · have requesting := fresh rfl
        obtain ⟨requests, zero⟩ := h.requests requesting
        have answered : ∀ a ∈ w.toClient ∪ {a | (tftpRcvPacket dramSize ⟨address, .wrq⟩
            w.server).reply = some a}, a.block = 0 := by
          rintro a (before | ⟨⟨⟩⟩)
          · exact zero a before
          · rfl
        refine ⟨?_, fun _ => ⟨requests, answered⟩, ?_, ?_⟩
        · intro n sending
          rw [show w.client = .sending n from sending] at requesting
          cases requesting
        · intro n data
          cases congrArg Packet.body (requests _ data)
        · intro a sent
          rw [answered a sent]
          exact Nat.one_pos
      · have noRequests := not_requests_of_data arrives
        have serving := orderly.uploading.serving.resolve_right fun idle => noRequests idle.2.2
        obtain ⟨counts, answers⟩ :=
          ahead_tftpRcvData serving few fits (h.packets n arrives)
        refine ⟨?_, ?_, ?_, ?_⟩
        · exact fun m sending => (h.inStep m sending).trans counts
        · exact fun requesting => absurd (h.requests requesting).1 noRequests
        · exact fun m data => (h.packets m data).trans counts
        · rintro a (before | new)
          · exact lt_of_lt_of_le (h.acks a before) counts
          · exact answers a new
  | @acknowledge a sent dest =>
      have ahead := h.acks a sent
      refine ⟨?_, ?_, h.packets, h.acks⟩
      · intro n client
        rcases Client.acknowledged_sending client with ⟨-, -, rfl⟩ | same | ⟨m, -, here, -, rfl⟩
        · exact Nat.one_le_of_lt ahead
        · exact h.inStep n same
        · rw [here] at ahead
          exact ahead
      · exact fun requesting => h.requests (Client.acknowledged_requesting requesting)

theorem ahead_start (server : Server) : (Upload.start server).Ahead address file where
  inStep _ other := nomatch other
  requests _ :=
    ⟨fun p none => absurd none (Set.notMem_empty p), fun a none => absurd none (Set.notMem_empty a)⟩
  packets _ none := absurd none (Set.notMem_empty _)
  acks _ none := absurd none (Set.notMem_empty _)

/-- Every state of an upload without old requests. -/
theorem ahead_of_reaches {server : Server} (few : blockCount file ≤ 65534)
    (fits : file.length ≤ halfDramSize dramSize)
    (run : Relation.ReflTransGen (Upload.FreshStep address dramSize file) (.start server) w) :
    Upload.Reaches address dramSize file server w ∧ w.Ahead address file := by
  induction run with
  | refl => exact ⟨.refl, ahead_start server⟩
  | tail _ step ih =>
      obtain ⟨reached, ahead⟩ := ih
      have orderly := (orderly_start server).reaches few fits reached
      exact ⟨reached.tail step.step, ahead.step orderly few fits step⟩

end Fresh

/-- When no request arrives once one has been acknowledged, the upload can be completed at any
time: whatever else the network loses, repeats and reorders until then, the exchanges bring the
whole file into memory, and the client is done. -/
theorem fresh_upload_completes (address : Peer) (dramSize : ℕ) (file : List UInt8)
    (server : Server) (few : blockCount file ≤ 65534)
    (fits : file.length ≤ halfDramSize dramSize) {w : Upload}
    (run : Relation.ReflTransGen (Upload.FreshStep address dramSize file) (.start server) w) :
    let w' := (Upload.exchange address dramSize file)^[blockCount file + 1] w
    w'.client = .done ∧ ∀ i < file.length, w'.server.buf i = file.getD i 0 := by
  obtain ⟨reached, ahead⟩ := ahead_of_reaches few fits run
  exact completes_of_inStep few fits reached ahead.inStep

/-- The request has been sent twice, and arrives twice before it is acknowledged. -/
theorem fresh_upload_completes_request_twice :
    let address : Peer := ⟨3232235778, 1024⟩
    let idle : Server := ⟨⟨0, 0⟩, 0, fun _ => 0, 0, false, 0, false⟩
    ∃ w, Relation.ReflTransGen (Upload.FreshStep address 64 [7, 8, 9]) (.start idle) w ∧
      w.client = .sending 1 ∧
      ((Upload.exchange address 64 [7, 8, 9])^[2] w).client = .done ∧
      ((Upload.exchange address 64 [7, 8, 9])^[2] w).server.buf 2 = 9 := by
  intro address idle
  have request : Upload.FreshStep address 64 [7, 8, 9] (.start idle) _ :=
      .send (p := ⟨address, .wrq⟩) rfl
  have begun := (Relation.ReflTransGen.single request).tail
    (.receive (Set.mem_insert _ _) fun _ => rfl)
  have again := begun.tail (.receive (Set.mem_insert _ _) fun _ => rfl)
  have accepted := again.tail (.acknowledge (a := ⟨address, 0⟩) (Set.mem_union_right _ rfl) rfl)
  obtain ⟨done, stored⟩ := fresh_upload_completes address 64 [7, 8, 9] idle (by decide) (by decide)
    accepted
  exact ⟨_, accepted, rfl, done, stored 2 (by decide)⟩

end En7512.Net
