/-
# The acknowledgements of the TFTP server

The server is to acknowledge what it has stored, and nothing else. It compares the number
of a data packet with the one it waits for. A smaller one has been stored before, it
assumes, and acknowledges it; and a larger one it answers with the number it waits for
itself.

A transfer keeps beside the variables the numbers of the blocks that `tftp_put` has
accepted since the last request. They follow each other and wrap with the 16 bits of the
counter, so it is a matter of arithmetic which acknowledgements are sound.
-/

import En7512.Net.TftpFrame

namespace En7512.Net

open En7512.Logic En7512.Nand

/-- The variables, with the blocks that have been accepted since the last request. -/
structure Transfer where
  receiver : Receiver
  accepted : List ℕ

/-- A packet arrives. -/
def Transfer.receive (dramSize : ℕ) (skb : SkBuff) (w : Transfer) : Transfer where
  receiver := (tftpRcvPacketSkb dramSize skb w.receiver).receiver
  accepted :=
    if skb.opcode = opcodeWrq then []
    else if (tftpRcvPacketSkb dramSize skb w.receiver).copied.isSome then
      w.accepted ++ [skb.block]
    else w.accepted

/-- An acknowledgement is the answer to a request, or its block has been accepted. -/
def AckSound (dramSize : ℕ) (skb : SkBuff) (w : Transfer) : Prop :=
  ∀ ack ∈ (tftpRcvPacketSkb dramSize skb w.receiver).reply,
    skb.opcode = opcodeWrq ∧ ack.block = 0 ∨
      skb.opcode = opcodeData ∧ ack.block ∈ (w.receive dramSize skb).accepted

/-- A data packet of the client has the number the server waits for, or a smaller one other
than 0; or so many blocks have been accepted that every number is among them. -/
def NumberSound (skb : SkBuff) (w : Transfer) : Prop :=
  skb.opcode = opcodeData → w.receiver.client = skb.source →
    skb.block = w.receiver.clientBlock ∨
      1 ≤ skb.block ∧ skb.block < w.receiver.clientBlock ∨ 2 ^ 16 ≤ w.accepted.length

/-- The blocks that have been accepted are the first ones of the transfer, and the server
waits for the next. Before the first request it waits for block 0 and accepts none. -/
structure InOrder (w : Transfer) : Prop where
  accepted : w.accepted = (List.range w.accepted.length).map fun k => (k + 1) % 2 ^ 16
  next : w.receiver.clientBlock = (w.accepted.length + 1) % 2 ^ 16 ∨
    w.receiver.clientBlock = 0 ∧ w.receiver.putBegin = false ∧ w.accepted = []

/-- What a data packet leads to. -/
inductive DataHandled (skb : SkBuff) (s : Receiver) : FrameHandled → Prop
  | stranger (other : s.client ≠ skb.source) : DataHandled skb s ⟨s, none, none⟩
  | stored {out : FrameHandled} (client : s.client = skb.source) (block : s.clientBlock = skb.block)
      (begun : s.putBegin = true) (copied : out.copied.isSome = true)
      (reply : out.reply = some ⟨s.client, skb.block⟩)
      (next : out.receiver.clientBlock = (s.clientBlock + 1) % 2 ^ 16) : DataHandled skb s out
  | refused {broken : Bool} (client : s.client = skb.source) (block : s.clientBlock = skb.block) :
      DataHandled skb s ⟨{ s with tftpBreak := broken }, none, none⟩
  | before (client : s.client = skb.source) (lt : skb.block < s.clientBlock) :
      DataHandled skb s ⟨s, some ⟨s.client, skb.block⟩, none⟩
  | behind (client : s.client = skb.source) (lt : s.clientBlock < skb.block) :
      DataHandled skb s ⟨s, some ⟨s.client, s.clientBlock⟩, none⟩

theorem tftpRcvDataSkb_handled (skb : SkBuff) (s : Receiver) :
    DataHandled skb s (tftpRcvDataSkb skb s) := by
  rw [tftpRcvDataSkb]
  by_cases client : s.client = skb.source
  case neg =>
    rw [if_pos client]
    exact .stranger client
  rw [if_neg (not_not.mpr client)]
  rcases Nat.lt_trichotomy skb.block s.clientBlock with before | block | behind
  · rw [if_neg (by omega), if_pos before]
    exact .before client before
  · rw [if_pos block.symm]
    rcases tftpPutData_cases skb (skb.data + tftphdrSize) skb.dataLength s with
      ⟨begun, -, buf, put⟩ | ⟨-, broken, put⟩
    · rw [put]
      dsimp only
      apply DataHandled.stored client block.symm begun
      · split <;> rfl
      · rw [block]
        split <;> rfl
      · rw [begun]
        split <;> rfl
    · rw [put]
      exact .refused client block.symm
  · rw [if_neg (by omega), if_neg (by omega)]
    exact .behind client behind

section Order

variable {dramSize : ℕ} {skb : SkBuff} {w : Transfer}

/-- The numbers among the first ones of a transfer. -/
theorem InOrder.mem_accepted (order : InOrder w) {block : ℕ} (lt : block < 2 ^ 16) :
    block ∈ w.accepted ↔
      1 ≤ block ∧ block ≤ w.accepted.length ∨ 2 ^ 16 ≤ w.accepted.length := by
  generalize count : w.accepted.length = n
  rw [order.accepted, count, List.mem_map]
  constructor
  · rintro ⟨k, mem, rfl⟩
    have bound := List.mem_range.mp mem
    omega
  · intro h
    by_cases pos : 1 ≤ block
    · use block - 1, List.mem_range.mpr (by omega)
      omega
    · use 2 ^ 16 - 1, List.mem_range.mpr (by omega)
      omega

/-- A request begins a transfer of no blocks. -/
theorem receive_wrq (wrq : skb.opcode = opcodeWrq) :
    w.receive dramSize skb =
      ⟨(tftpRcvWrqSkb dramSize skb w.receiver).receiver, []⟩ := by
  rw [Transfer.receive, if_pos wrq, tftpRcvPacketSkb, if_pos wrq]

/-- A data packet adds its block if it has been copied. -/
theorem receive_data (data : skb.opcode = opcodeData) :
    w.receive dramSize skb =
      ⟨(tftpRcvDataSkb skb w.receiver).receiver,
        if (tftpRcvDataSkb skb w.receiver).copied.isSome then w.accepted ++ [skb.block]
        else w.accepted⟩ := by
  have other : skb.opcode ≠ opcodeWrq := by
    rw [data]
    decide
  rw [Transfer.receive, if_neg other, tftpRcvPacketSkb, if_neg other, if_pos data]

theorem receive_other (noWrq : skb.opcode ≠ opcodeWrq) (noData : skb.opcode ≠ opcodeData) :
    w.receive dramSize skb = w := by
  rw [Transfer.receive, if_neg noWrq, tftpRcvPacketSkb, if_neg noWrq, if_neg noData]
  rfl

theorem InOrder.receive (order : InOrder w) : InOrder (w.receive dramSize skb) := by
  by_cases wrq : skb.opcode = opcodeWrq
  · rw [receive_wrq wrq]
    exact ⟨rfl, .inl rfl⟩
  by_cases data : skb.opcode = opcodeData
  case neg =>
    rw [receive_other wrq data]
    exact order
  rw [receive_data data]
  generalize handled : tftpRcvDataSkb skb w.receiver = out
  cases handled ▸ tftpRcvDataSkb_handled skb w.receiver with
  | stranger other => exact order
  | stored client block begun copied reply next =>
      rw [if_pos copied]
      have waits : w.receiver.clientBlock = (w.accepted.length + 1) % 2 ^ 16 := by
        apply order.next.resolve_right
        rintro ⟨-, closed, -⟩
        rw [begun] at closed
        cases closed
      constructor
      · dsimp only
        rw [List.length_append, List.length_singleton, List.range_succ, List.map_append,
          ← order.accepted, ← block, waits]
        rfl
      · left
        dsimp only
        rw [next, waits, List.length_append, List.length_singleton]
        omega
  | refused client block => exact ⟨order.accepted, order.next⟩
  | before client lt => exact order
  | behind client lt => exact order

/-- The answer to a data packet is sound if and only if its number has been accepted. -/
theorem answer_sound_iff {accepted : List ℕ} {ack : AckPacket} (noWrq : skb.opcode ≠ opcodeWrq)
    (data : skb.opcode = opcodeData) :
    (∀ a ∈ some ack, skb.opcode = opcodeWrq ∧ a.block = 0 ∨
      skb.opcode = opcodeData ∧ a.block ∈ accepted) ↔ ack.block ∈ accepted := by
  constructor
  · intro h
    rcases h ack rfl with ⟨wrq, -⟩ | ⟨-, mem⟩
    · exact absurd wrq noWrq
    · exact mem
  · rintro mem _ ⟨⟩
    exact .inr ⟨data, mem⟩

/-- The number the server waits for, and how many blocks it has accepted. -/
theorem InOrder.waits (order : InOrder w) :
    w.receiver.clientBlock = (w.accepted.length + 1) % 2 ^ 16 ∨
      w.receiver.clientBlock = 0 ∧ w.accepted.length = 0 := by
  apply order.next.imp_right
  rintro ⟨zero, -, none⟩
  exact ⟨zero, List.length_eq_zero_iff.mpr none⟩

/-- One packet: its acknowledgement is sound if and only if its number is. -/
theorem ackSound_iff (order : InOrder w) : AckSound dramSize skb w ↔ NumberSound skb w := by
  rw [AckSound, NumberSound]
  by_cases wrq : skb.opcode = opcodeWrq
  · have other : skb.opcode ≠ opcodeData := by
      rw [wrq]
      decide
    rw [tftpRcvPacketSkb, if_pos wrq]
    apply iff_of_true
    · rintro _ ⟨⟩
      exact .inl ⟨wrq, rfl⟩
    · exact fun data => absurd data other
  by_cases data : skb.opcode = opcodeData
  case neg =>
    rw [tftpRcvPacketSkb, if_neg wrq, if_neg data]
    exact iff_of_true (fun _ mem => absurd mem (Option.not_mem_none _)) fun h => absurd h data
  rw [receive_data data, tftpRcvPacketSkb, if_neg wrq, if_pos data]
  have small : skb.block < 2 ^ 16 := u16At_lt _ _
  generalize handled : tftpRcvDataSkb skb w.receiver = out
  cases handled ▸ tftpRcvDataSkb_handled skb w.receiver with
  | stranger other =>
      exact iff_of_true (fun _ mem => absurd mem (Option.not_mem_none _)) fun _ client =>
        absurd client other
  | stored client block begun copied reply next =>
      rw [if_pos copied, reply]
      apply iff_of_true
      · rintro _ ⟨⟩
        exact .inr ⟨data, List.mem_concat_self⟩
      · exact fun _ _ => .inl block.symm
  | refused client block =>
      exact iff_of_true (fun _ mem => absurd mem (Option.not_mem_none _)) fun _ _ => .inl block.symm
  | before client lt =>
      have waits := order.waits
      apply (answer_sound_iff wrq data).trans
      apply (order.mem_accepted small).trans
      constructor
      · exact fun stored _ _ => by omega
      · intro h
        have number := h data client
        omega
  | behind client lt =>
      have waits := order.waits
      apply (answer_sound_iff wrq data).trans
      apply (order.mem_accepted (lt.trans small)).trans
      constructor
      · exact fun stored _ _ => by omega
      · intro h
        have number := h data client
        omega

end Order

/-- In every run from the start, all acknowledgements are sound if and only if all numbers
are. -/
theorem tftp_ackSound_iff (dramSize : ℕ) (mem : Bytes) (skbs : List SkBuff) :
    EveryStep (Transfer.receive dramSize) (AckSound dramSize) ⟨.initial mem, []⟩ skbs ↔
      EveryStep (Transfer.receive dramSize) NumberSound ⟨.initial mem, []⟩ skbs := by
  apply everyStep_congr InOrder
  · exact fun _ _ order => order.receive
  · exact fun _ _ order => ackSound_iff order
  · exact ⟨rfl, .inr ⟨rfl, rfl, rfl⟩⟩

/-- A request, and block 2 before block 1: it is answered with an acknowledgement of block 1,
which has not come. -/
theorem tftp_acknowledges_missing :
    ¬ EveryStep (Transfer.receive 64) (AckSound 64) ⟨.initial allOnes, []⟩
      [(tftpFrame 46 26 2 0).tftp, (tftpFrame 35 15 3 2).tftp] := by
  rintro ⟨-, sound, -⟩
  have begun : Transfer.receive 64 (tftpFrame 46 26 2 0).tftp ⟨.initial allOnes, []⟩ =
      ⟨requested, []⟩ := by
    rw [receive_wrq (by decide +kernel)]
    rfl
  rw [begun] at sound
  have reply : (tftpRcvPacketSkb 64 (tftpFrame 35 15 3 2).tftp requested).reply =
      some ⟨⟨3232235778, 1024⟩, 1⟩ := by decide +kernel
  rw [AckSound, reply] at sound
  rcases sound _ rfl with ⟨wrq, -⟩ | ⟨-, stored⟩
  · exact absurd wrq (by decide +kernel)
  · exact absurd stored (by decide +kernel)

end En7512.Net
