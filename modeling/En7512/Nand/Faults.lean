/-
# A device that tells which blocks fail

The bad-block layer goes by the marks it finds. `FaultStep` describes the runs in
which a check answers what is on the flash and a mark takes effect on the page it
is addressed to. Programs and erases may fail at will, and a program may leave
anything on its page. Beside the pages it keeps the list of the blocks in which
an operation has failed: the pattern of failures of the run.
-/

import En7512.Nand.Device

namespace En7512.Nand

open En7512.Logic

/-- The pages, and the blocks in which an operation has failed. -/
structure Faults where
  pages : ℕ → Page
  broken : List ℕ

/-- The ledger of the failures. -/
def noteBroken : (op : NandOp) → NandResp op → List ℕ → List ℕ
  | .eraseBlock block, ok, broken => if ok then broken else block :: broken
  | .writePage page _ _ _ _ _, ok, broken => if ok then broken else page / pagePerBlock :: broken
  | _, _, broken => broken

/-- Nothing is struck off the ledger. -/
theorem mem_noteBroken {b : ℕ} {broken : List ℕ} (op : NandOp) (answer : NandResp op)
    (mem : b ∈ broken) : b ∈ noteBroken op answer broken := by
  cases op with
  | eraseBlock block => cases answer <;> simp [noteBroken, mem]
  | writePage page dataOffset dat dataLen oob oobLen => cases answer <;> simp [noteBroken, mem]
  | readPage page => exact mem
  | checkBlockBad offset kind => exact mem
  | markBadblock offset kind => exact mem
  | clearCache => exact mem

/-- What each operation may answer and leave behind. -/
def FaultStep (L : OobLayout) : Rules NandOp NandResp Faults
  | .readPage _, w, _, w' => w' = w
  | .checkBlockBad offset kind, w, answer, w' =>
      w' = w ∧ (answer = true ↔ (w.pages (foldReserved offset / pageSize)).Marked L kind)
  | .markBadblock offset kind, w, _, w' =>
      ∃ page : Page, page.Marked L kind ∧
        w' = ⟨Function.update w.pages (offset / pageSize) page, w.broken⟩
  | .eraseBlock block, w, ok, w' =>
      ∃ left : ℕ → Page, (ok = true → left = fun _ => .erased) ∧
        w' = ⟨fun p => if p / pagePerBlock = block then left p else w.pages p,
          noteBroken (.eraseBlock block) ok w.broken⟩
  | .writePage page dataOffset dat dataLen oob oobLen, w, ok, w' =>
      ∃ new : Page, w' = ⟨Function.update w.pages page new,
        noteBroken (.writePage page dataOffset dat dataLen oob oobLen) ok w.broken⟩
  | .clearCache, w, _, w' => w' = w

variable (env : Env)

/-- A check answers what is on the flash, and a mark takes effect on the page it is
addressed to. -/
def Candid (op : NandOp) (s : Spi) : Prop :=
  match op with
  | .checkBlockBad offset kind => ((nandMachine env (.checkBlockBad offset kind) s).1 = true ↔
      (s.chip.pages (foldReserved offset / pageSize)).Marked env.layout kind)
  | .markBadblock offset kind =>
      ((nandMachine env (.markBadblock offset kind) s).2.chip.pages (offset / pageSize)).Marked
        env.layout kind
  | _ => True

instance decidableCandid : (op : NandOp) → (s : Spi) → Decidable (Candid env op s)
  | .checkBlockBad _ _, _ => inferInstanceAs (Decidable (_ ↔ _))
  | .markBadblock _ _, _ => inferInstanceAs (Decidable (Page.Marked _ _ _))
  | .readPage _, _ => .isTrue trivial
  | .eraseBlock _, _ => .isTrue trivial
  | .writePage _ _ _ _ _ _, _ => .isTrue trivial
  | .clearCache, _ => .isTrue trivial

/-- The page layer with the ledger of the failures. -/
def faultMachine : Machine NandOp NandResp (Spi × List ℕ) :=
  Program.withLedger (nandMachine env) noteBroken

/-- The blocks in which an erase or a program of the run fails. -/
def brokenBlocks {ρ α : Type} (m : Routine NandOp NandResp ρ α) (r : ρ) (s : Spi) : List ℕ :=
  ((Routine.exec (faultMachine env) m r (s, [])).map fun out => out.2.2.2).getD []

variable {env}

/-- The page layer follows `FaultStep` in candid calls. -/
theorem candid_faultStep (op : NandOp) (s : Spi) (broken : List ℕ) (candid : Candid env op s) :
    FaultStep env.layout op ⟨s.chip.pages, broken⟩ (nandMachine env op s).1
      ⟨(nandMachine env op s).2.chip.pages, noteBroken op (nandMachine env op s).1 broken⟩ := by
  cases op with
  | readPage page =>
      simp only [nandMachine, en7512NandExecReadPage, spiNandReadPage_chip]
      exact rfl
  | checkBlockBad offset kind =>
      refine ⟨?_, candid⟩
      simp only [nandMachine, en7512NandCheckBlockBad, spiNandReadPage_chip]
      rfl
  | markBadblock offset kind =>
      have change := @spiNandWritePage_pages env (offset / pageSize) 0 allOnes 0 kind.mark 8 s
      refine ⟨_, candid, ?_⟩
      simp only [nandMachine, en7512NandMarkBadblock, noteBroken, Faults.mk.injEq, and_true]
      exact change
  | eraseBlock block =>
      simp only [nandMachine, spiNandEraseBlock]
      rcases Chip.eraseBlock_cases env block s.chip with ⟨ok, pages⟩ | ⟨ok, left, pages⟩
      · exact ⟨fun _ => .erased, fun _ => rfl, by simp [ok, pages]⟩
      · exact ⟨left, by simp [ok], by simp [ok, pages]⟩
  | writePage page dataOffset dat dataLen oob oobLen =>
      have change := @spiNandWritePage_pages env page dataOffset dat dataLen oob oobLen s
      refine ⟨(spiNandWritePage env page dataOffset dat dataLen oob oobLen s).2.chip.pages page, ?_⟩
      simp only [nandMachine, Faults.mk.injEq, and_true]
      exact change
  | clearCache => rfl

section Runs

variable {ρ α : Type} {m : Routine NandOp NandResp ρ α} {r r' : ρ} {a : α} {s s' : Spi}

/-- A run with the ledger. -/
theorem exec_faultMachine (run : Routine.exec (nandMachine env) m r s = some (a, r', s')) :
    Routine.exec (faultMachine env) m r (s, []) = some (a, r', s', brokenBlocks env m r s) := by
  obtain ⟨broken, ran⟩ := Routine.exists_exec_withLedger noteBroken run []
  have broke : brokenBlocks env m r s = broken := by
    rw [brokenBlocks, faultMachine, ran]
    rfl
  rw [broke]
  exact ran

theorem follows_faultStep (op : NandOp) (w : Spi × List ℕ) (f : Faults)
    (rel : f = ⟨w.1.chip.pages, w.2⟩) (candid : Candid env op w.1) :
    ∃ f', FaultStep env.layout op f (faultMachine env op w).1 f' ∧
      f' = ⟨(faultMachine env op w).2.1.chip.pages, (faultMachine env op w).2.2⟩ := by
  subst rel
  exact ⟨_, candid_faultStep op w.1 w.2 candid, rfl⟩

/-- What is proved of a routine over `FaultStep` holds of its candid runs on the page
layer, with the blocks that fail in the run. -/
theorem fault_exec {post : α → ρ → Faults → Prop}
    (h : Routine.wp (FaultStep env.layout) m post r ⟨s.chip.pages, []⟩)
    (candid : Routine.Keeps (nandMachine env) (Candid env) m r s)
    (run : Routine.exec (nandMachine env) m r s = some (a, r', s')) :
    post a r' ⟨s'.chip.pages, brokenBlocks env m r s⟩ := by
  have keeps : Routine.Keeps (faultMachine env) (fun op w => Candid env op w.1) m r (s, []) :=
    Program.keeps_withLedger (nandMachine env) noteBroken (Candid env) _ s [] candid
  obtain ⟨_, rfl, told⟩ := Routine.exec_of_simulation
    (fun (w : Spi × List ℕ) f => f = (⟨w.1.chip.pages, w.2⟩ : Faults)) follows_faultStep rfl h keeps
    (exec_faultMachine run)
  exact told

/-- The ledger alone: any operation may answer anything. -/
def LedgerStep : Rules NandOp NandResp (List ℕ) :=
  fun op broken answer broken' => broken' = noteBroken op answer broken

theorem ledger_grows (m : Routine NandOp NandResp ρ α) {b : ℕ} {broken : List ℕ}
    (mem : b ∈ broken) : Routine.wp LedgerStep m (fun _ _ broken' => b ∈ broken') r broken :=
  Routine.wp_kept (fun op _ answer _ step mem => step ▸ mem_noteBroken op answer mem) m mem

/-- What is proved of a routine over `LedgerStep` holds of all its runs on the page layer. -/
theorem ledger_exec {post : α → ρ → List ℕ → Prop} (h : Routine.wp LedgerStep m post r [])
    (run : Routine.exec (nandMachine env) m r s = some (a, r', s')) :
    post a r' (brokenBlocks env m r s) := by
  have follows (op : NandOp) (w : Spi × List ℕ) (broken : List ℕ) (rel : broken = w.2)
      (_ : True) : ∃ broken', LedgerStep op broken (faultMachine env op w).1 broken' ∧
        broken' = (faultMachine env op w).2.2 := by
    subst rel
    exact ⟨_, rfl, rfl⟩
  obtain ⟨_, rfl, told⟩ := Routine.exec_of_simulation
    (fun (w : Spi × List ℕ) broken => broken = w.2) follows rfl h
    (Program.keeps_of_forall (fun _ _ => trivial) _ _) (exec_faultMachine run)
  exact told

end Runs

end En7512.Nand
