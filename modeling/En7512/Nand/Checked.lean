/-
# Checking that a run is careful

Whether the calls of a run are careful can be seen by making them: the page in
memory is followed with `Held.track`, and the blocks that have failed are kept
in a list. A run that passes the check meets the hypotheses of `FlashStep`.
-/

import En7512.Nand.Device

namespace En7512.Nand

open En7512.Logic

/-- The page layer with what is known about the page in memory and the blocks that have
failed. -/
structure Watch where
  spi : Spi
  held : Held
  failed : List ℕ

/-- `noteFailed` on lists. -/
def listFailed : (op : NandOp) → NandResp op → List ℕ → List ℕ
  | .markBadblock offset _, _, failed =>
      if offset / pageSize % pagePerBlock = 0 then failed.filter (· ≠ offset / eraseSize)
      else failed
  | .eraseBlock block, ok, failed => if ok then failed else block :: failed
  | .writePage page _ _ _ _ _, ok, failed =>
      if ok then failed else page / pagePerBlock :: failed
  | _, _, failed => failed

variable (env : Env)

/-- The page layer, watched. -/
def checkMachine : Machine NandOp NandResp Watch := fun op w =>
  ((nandMachine env op w.spi).1, ⟨(nandMachine env op w.spi).2,
    w.held.track (env.outcome w.spi.chip.ticks) op,
    listFailed op (nandMachine env op w.spi).1 w.failed⟩)

/-- `Held.Serves`, computed. -/
def Held.serves (held : Held) (op : NandOp) : Bool :=
  match op.access, held with
  | some (page, false), some (p, level) => p ≠ page || level = .clean
  | some (page, true), some (p, level) => p ≠ page || level ≠ .broken
  | _, _ => true

/-- The operation succeeds, or is one that may fail. -/
def toleratesFailure (mayFail : NandOp → Bool) : (op : NandOp) → NandResp op → Bool
  | .eraseBlock block, ok => ok || mayFail (.eraseBlock block)
  | .writePage page dataOffset dat dataLen oob oobLen, ok =>
      ok || mayFail (.writePage page dataOffset dat dataLen oob oobLen)
  | _, _ => true

/-- The check of one call. -/
def passes (mayFail : NandOp → Bool) (op : NandOp) (w : Watch) : Bool :=
  w.held.serves op && toleratesFailure mayFail op (nandMachine env op w.spi).1 &&
    match op with
    | .markBadblock offset kind =>
        decide (((nandMachine env op w.spi).2.chip.pages (offset / pageSize)).Marked
          env.layout kind)
    | .writePage page _ _ _ _ _ => decide (page / pagePerBlock ∉ w.failed)
    | _ => true

variable {env}

theorem Held.serves_sound {held : Held} {op : NandOp} (h : held.serves op = true) :
    held.Serves op := by
  unfold Held.serves at h
  unfold Held.Serves
  cases access : op.access with
  | none => trivial
  | some call =>
      obtain ⟨page, written⟩ := call
      rw [access] at h
      cases held with
      | none => cases written <;> trivial
      | some copy =>
          obtain ⟨p, level⟩ := copy
          cases written with
          | false =>
              have now : (p ≠ page || level = .clean : Bool) = true := h
              intro eq
              simpa [eq] using now
          | true =>
              have now : (p ≠ page || level ≠ .broken : Bool) = true := h
              intro eq
              simpa [eq] using now

theorem listFailed_spec (op : NandOp) (answer : NandResp op) (failed : List ℕ) :
    {b | b ∈ listFailed op answer failed} = noteFailed op answer {b | b ∈ failed} := by
  cases op with
  | readPage page => rfl
  | checkBlockBad offset kind => rfl
  | clearCache => rfl
  | markBadblock offset kind =>
      simp only [listFailed, noteFailed, afterMark]
      split
      · ext b
        simp
      · rfl
  | eraseBlock block =>
      cases answer with
      | true => rfl
      | false => ext b; simp [listFailed, noteFailed]
  | writePage page dataOffset dat dataLen oob oobLen =>
      cases answer with
      | true => rfl
      | false => ext b; simp [listFailed, noteFailed]

/-- A call that passes is careful. -/
theorem careful_of_passes (readable : ∀ t p, env.uncorrectable t p = false)
    {mayFail : NandOp → Bool} {leftover : Leftover}
    (allows : ∀ op old new, mayFail op = true → leftover op old new) {op : NandOp} {w : Watch}
    (describes : w.held.Describes env w.spi) (h : passes env mayFail op w = true) :
    Careful env leftover op (w.spi, {b | b ∈ w.failed}) := by
  simp only [passes, Bool.and_eq_true] at h
  obtain ⟨⟨serves, tolerated⟩, here⟩ := h
  obtain ⟨answer, same, -, -⟩ := op_agrees readable describes ⟨rfl, fun _ _ => rfl⟩ op
    (Held.serves_sound serves)
  have leaves : ∀ {op' : NandOp} {ok : Bool} {old new : Page},
      (ok || mayFail op') = true → ok = false → leftover op' old new := by
    rintro op' ok old new either rfl
    exact allows _ _ _ (by simpa using either)
  cases op with
  | readPage page => exact ⟨⟨answer, same.chip⟩, trivial, trivial, trivial⟩
  | checkBlockBad offset kind => exact ⟨⟨answer, same.chip⟩, trivial, trivial, trivial⟩
  | clearCache => exact ⟨⟨answer, same.chip⟩, trivial, trivial, trivial⟩
  | markBadblock offset kind =>
      have marks := of_decide_eq_true here
      exact ⟨trivial, marks, trivial, trivial⟩
  | eraseBlock block =>
      exact ⟨⟨answer, same.chip⟩, trivial, trivial, fun failed _ _ => leaves tolerated failed⟩
  | writePage page dataOffset dat dataLen oob oobLen =>
      have spares := of_decide_eq_true here
      exact ⟨⟨answer, same.chip⟩, trivial, spares, fun failed => leaves tolerated failed⟩

/-- A run that passes is careful. -/
theorem keeps_of_passes {ρ α : Type} (readable : ∀ t p, env.uncorrectable t p = false)
    {mayFail : NandOp → Bool} {leftover : Leftover}
    (allows : ∀ op old new, mayFail op = true → leftover op old new)
    {m : Routine NandOp NandResp ρ α} {r : ρ} {w : Watch}
    (describes : w.held.Describes env w.spi)
    (h : Routine.Keeps (checkMachine env) (fun op w => passes env mayFail op w = true) m r w) :
    Routine.Keeps (watchMachine env) (Careful env leftover) m r (w.spi, {b | b ∈ w.failed}) := by
  simp only [Routine.Keeps] at h ⊢
  generalize m.run r = program at h
  induction program generalizing w with
  | pure value => trivial
  | stuck => trivial
  | call op next ih =>
      obtain ⟨now, later⟩ := h
      refine ⟨careful_of_passes readable allows describes now, ?_⟩
      have serves : w.held.Serves op := by
        simp only [passes, Bool.and_eq_true] at now
        exact Held.serves_sound now.1.1
      obtain ⟨-, -, describes', -⟩ := op_agrees readable describes ⟨rfl, fun _ _ => rfl⟩ op serves
      have rest := @ih _ (checkMachine env op w).2 describes' later
      have note := listFailed_spec op (nandMachine env op w.spi).1 w.failed
      simpa only [watchMachine, Program.withLedger, checkMachine, note] using rest

/-- The watched run is the run with the ledger, and its last page in memory is known. -/
theorem exec_of_check {ρ α : Type} (readable : ∀ t p, env.uncorrectable t p = false)
    {mayFail : NandOp → Bool} {m : Routine NandOp NandResp ρ α} {r r' : ρ} {a : α} {w w' : Watch}
    (describes : w.held.Describes env w.spi)
    (h : Routine.Keeps (checkMachine env) (fun op w => passes env mayFail op w = true) m r w)
    (run : Routine.exec (checkMachine env) m r w = some (a, r', w')) :
    Routine.exec (watchMachine env) m r (w.spi, {b | b ∈ w.failed}) =
        some (a, r', w'.spi, {b | b ∈ w'.failed}) ∧ w'.held.Describes env w'.spi := by
  simp only [Routine.Keeps] at h
  simp only [Routine.exec, Option.map_eq_some_iff] at run ⊢
  generalize m.run r = program at h run
  obtain ⟨⟨out, last⟩, run, same⟩ := run
  simp only [Prod.mk.injEq] at same
  obtain ⟨rfl, rfl, rfl⟩ := same
  induction program generalizing w with
  | pure value =>
      cases run
      exact ⟨⟨_, rfl, rfl⟩, describes⟩
  | stuck => cases run
  | call op next ih =>
      obtain ⟨now, later⟩ := h
      have serves : w.held.Serves op := by
        simp only [passes, Bool.and_eq_true] at now
        exact Held.serves_sound now.1.1
      obtain ⟨-, -, describes', -⟩ := op_agrees readable describes ⟨rfl, fun _ _ => rfl⟩ op serves
      have rest := @ih _ (checkMachine env op w).2 describes' later run
      have note := listFailed_spec op (nandMachine env op w.spi).1 w.failed
      simpa only [Program.exec, watchMachine, Program.withLedger, checkMachine, note] using rest

end En7512.Nand
