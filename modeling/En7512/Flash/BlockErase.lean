/-
# Erasing through the tables

`spi_nand_erase_internal` erases the physical block of each logical block of its range.
When that fails it hands the logical address to `update_bmt`, which takes it for a
physical one. So the block is replaced only if the three numbers of the block are the
same: no factory-bad block lies before it, and it has not been replaced before.

That such blocks are missed follows from the ledger of the failures alone, whatever the checks
answer. For the others the flash is `FaultStep`: checks tell the truth and marks take effect,
and any program or erase may fail.
-/

import En7512.Bmt.Footprint
import En7512.Flash.Numbering
import En7512.Flash.PoolSize

namespace En7512.Flash

open En7512.Logic En7512.Nand En7512.Bmt En7512.Logic.Routine

/-- The block is erased: if it is the physical block from before, the erase has not
failed, and else it is a new one. -/
structure ErasedAt (g : Geometry) (r r' : Ram) (w' : Faults) (block : ℕ) : Prop where
  blank : Blank w'.pages (resolve g r' block)
  succeeded : resolve g r' block = resolve g r block → resolve g r block ∉ w'.broken

/-- What erasing `count` blocks from `first` on is to do. -/
structure EraseCorrect (g : Geometry) (r : Ram) (pages : ℕ → Page) (first count : ℕ) (r' : Ram)
    (w' : Faults) : Prop where
  erased : ∀ block, first ≤ block → block < first + count → ErasedAt g r r' w' block
  others : ∀ block < logicalBlocks g r, block < first ∨ first + count ≤ block →
    resolve g r' block = resolve g r block ∧ SameBlock pages w'.pages (resolve g r block)

/-- Every block whose erase fails stands for itself. -/
def FailsInPlace (g : Geometry) (r : Ram) (first count : ℕ) (broken : List ℕ) : Prop :=
  ∀ block, first ≤ block → block < first + count → resolve g r block ∈ broken →
    resolve g r block = block

/-! ## The loop -/

/-- What has become of a block of the range. -/
inductive Handled (g : Geometry) (r : Ram) (block : ℕ) (r' : Ram) (w' : Faults) : Prop
  | erased (same : resolve g r' block = resolve g r block)
      (blank : Blank w'.pages (resolve g r block)) (whole : resolve g r block ∉ w'.broken)
  | moved (self : resolve g r block = block) (other : resolve g r' block ≠ block)
      (blank : Blank w'.pages (resolve g r' block))

/-- The tables in the loop, before `next` is erased. -/
structure Ahead (g : Geometry) (r : Ram) (next : ℕ) (r' : Ram) : Prop where
  tables : DisjointTables g r'
  initBbt : r'.initBbt = r.initBbt
  pBbt : r'.pBbt = r.pBbt
  rest : ∀ block < logicalBlocks g r, next ≤ block → resolve g r' block = resolve g r block

/-- Up to now every block whose erase has failed stood for itself. -/
structure Sound (g : Geometry) (L : OobLayout) (r : Ram) (w : Faults) (first next : ℕ) (r' : Ram)
    (w' : Faults) : Prop where
  clean : Clean g L r' w'.pages
  handled : ∀ block, first ≤ block → block < next → Handled g r block r' w'
  others : ∀ block < logicalBlocks g r, block < first ∨ next ≤ block →
    resolve g r' block = resolve g r block ∧ Undisturbed (resolve g r block) w w'

/-- A block whose erase has failed has not been replaced. -/
def Missed (g : Geometry) (r : Ram) (first next : ℕ) (r' : Ram) (broken : List ℕ) : Prop :=
  ∃ block, first ≤ block ∧ block < next ∧ resolve g r' block = resolve g r block ∧
    resolve g r block ∈ broken ∧ resolve g r block ≠ block

/-- Every block either is one of those before `next` and stands for itself, or has not been
replaced, and nothing has failed in it. -/
def InPlace (g : Geometry) (r : Ram) (first next : ℕ) (r' : Ram) (broken : List ℕ) : Prop :=
  ∀ block < logicalBlocks g r, first ≤ block ∧ block < next ∧ resolve g r block = block ∨
    resolve g r' block = resolve g r block ∧ resolve g r block ∉ broken

section Loop

variable {g : Geometry} {L : OobLayout} {r r₁ r₂ : Ram} {w w₁ w₂ w₃ : Faults} {first next : ℕ}

/-- The result of the loop. -/
theorem Sound.correct {count : ℕ} (sound : Sound g L r w first (first + count) r₁ w₁) :
    EraseCorrect g r w.pages first count r₁ w₁ := by
  constructor
  · intro block low high
    cases sound.handled block low high with
    | erased same blank whole => exact ⟨same ▸ blank, fun _ => whole⟩
    | moved self other blank => exact ⟨blank, fun same => absurd (same.trans self) other⟩
  · intro block inside outside
    obtain ⟨same, kept⟩ := sound.others block inside outside
    exact ⟨same, kept.same⟩

theorem Missed.incorrect {count : ℕ} {pages : ℕ → Page}
    (missed : Missed g r first (first + count) r₁ w₁.broken) :
    ¬ EraseCorrect g r pages first count r₁ w₁ := by
  obtain ⟨block, low, high, same, broken, -⟩ := missed
  exact fun correct => (correct.erased block low high).succeeded same broken

theorem Missed.outOfPlace {count : ℕ} {broken : List ℕ}
    (missed : Missed g r first (first + count) r₁ broken) :
    ¬ FailsInPlace g r first count broken := by
  obtain ⟨block, low, high, -, failed, other⟩ := missed
  exact fun inPlace => other (inPlace block low high failed)

theorem InPlace.failsInPlace {count : ℕ} {broken : List ℕ}
    (inside : first + count ≤ logicalBlocks g r)
    (inPlace : InPlace g r first (first + count) r₁ broken) :
    FailsInPlace g r first count broken := by
  intro block low high failed
  rcases inPlace block (high.trans_le inside) with ⟨-, -, self⟩ | ⟨-, whole⟩
  · exact self
  · exact absurd failed whole

/-! ## One block -/

variable (numbered : Enumerated g r) (ahead : Ahead g r next r₁) (inside : next < logicalBlocks g r)

include numbered ahead in
theorem Ahead.renumbered : Enumerated g r₁ := numbered.congr ahead.initBbt ahead.pBbt

include ahead in
theorem Ahead.logicalBlocks_eq : logicalBlocks g r₁ = logicalBlocks g r := by
  rw [logicalBlocks, logicalBlocks, ahead.initBbt]

include numbered ahead inside in
/-- The other blocks lie elsewhere. -/
theorem Ahead.apart {block : ℕ} (inside' : block < logicalBlocks g r) (other : block ≠ next) :
    resolve g r₁ block ≠ resolve g r next := by
  have count := ahead.logicalBlocks_eq
  rw [← ahead.rest next inside le_rfl]
  intro eq
  exact other (resolve_inj (ahead.renumbered numbered) ahead.tables.toDisjointBmt (count ▸ inside')
    (count ▸ inside) eq)

include numbered ahead in
theorem Ahead.updatable {block : ℕ} (inside' : block < logicalBlocks g r) :
    Updatable g r₁ (resolve g r₁ block) := by
  apply resolve_updatable (ahead.renumbered numbered) ahead.tables.toDisjointBmt
  rwa [ahead.logicalBlocks_eq]

theorem Handled.keep {block : ℕ} (handled : Handled g r block r₁ w₁)
    (same : resolve g r₂ block = resolve g r₁ block)
    (kept : Undisturbed (resolve g r₁ block) w₁ w₂) : Handled g r block r₂ w₂ := by
  cases handled with
  | erased eq blank whole =>
      rw [eq] at kept
      apply Handled.erased (same.trans eq) (kept.same.blank blank)
      exact fun broken => whole (kept.broken.mp broken)
  | moved self other blank => exact .moved self (same ▸ other) (same ▸ kept.same.blank blank)

include inside in
/-- The step, when no other block is disturbed. -/
theorem Sound.step (sound : Sound g L r w first next r₁ w₁) (low : first ≤ next)
    (clean : Clean g L r₂ w₂.pages) (now : Handled g r next r₂ w₂)
    (same : ∀ block < logicalBlocks g r, block ≠ next → resolve g r₂ block = resolve g r₁ block)
    (kept : ∀ block < logicalBlocks g r, block ≠ next →
      Undisturbed (resolve g r₁ block) w₁ w₂) : Sound g L r w first (next + 1) r₂ w₂ := by
  refine ⟨clean, fun block low' high => ?_, fun block here outside => ?_⟩
  · rcases Nat.lt_succ_iff_lt_or_eq.mp high with before | rfl
    · have here := before.trans inside
      apply (sound.handled block low' before).keep (same block here before.ne)
      exact kept block here before.ne
    · exact now
  · have other : block ≠ next := by omega
    obtain ⟨before, still⟩ := sound.others block here (by omega)
    have later := kept block here other
    rw [before] at later
    exact ⟨(same block here other).trans before, still.trans later⟩

theorem Missed.step {broken broken' : List ℕ} (missed : Missed g r first next r₁ broken)
    (same : ∀ block < logicalBlocks g r, block < next →
      resolve g r₂ block = resolve g r₁ block)
    (grows : ∀ b ∈ broken, b ∈ broken') (inside : next < logicalBlocks g r) :
    Missed g r first (next + 1) r₂ broken' := by
  obtain ⟨block, low, high, eq, failed, other⟩ := missed
  have here := same block (high.trans inside) high
  exact ⟨block, low, Nat.lt_succ_of_lt high, here.trans eq, grows _ failed, other⟩

/-- Work on a block that carries data leaves the free blocks clean. -/
theorem clean_of_used {b : ℕ} {ok : Bool} (clean : Clean g L r₁ w₁.pages) (used : Updatable g r₁ b)
    (attempt : Attempt b w₁ ok w₂) : Clean g L r₁ w₂.pages := by
  apply (clean.attempt attempt).tables
  · exact fun erased => erased
  · intro c hc unused
    refine ⟨unused, fun mem => ?_⟩
    rcases mem with rfl | mem
    · exact updatable_used used unused
    · exact hc mem

/-- The invariant of the loop. -/
def Invariant (g : Geometry) (L : OobLayout) (r : Ram) (w : Faults) (first next : ℕ) (r' : Ram)
    (w' : Faults) : Prop :=
  Ahead g r next r' ∧ (Sound g L r w first next r' w' ∨ Missed g r first next r' w'.broken)

include numbered inside in
/-- The erase succeeds. -/
theorem Invariant.erased (inv : Invariant g L r w first next r₁ w₁) (fresh : w.broken = [])
    (low : first ≤ next) (attempt : Attempt (resolve g r₁ next) w₁ true w₂)
    (blank : Blank w₂.pages (resolve g r₁ next)) :
    Invariant g L r w first (next + 1) r₁ w₂ := by
  obtain ⟨ahead, sound | missed⟩ := inv
  · have target := ahead.rest next inside le_rfl
    have used := ahead.updatable numbered inside
    rw [target] at attempt blank used
    refine ⟨⟨ahead.tables, ahead.initBbt, ahead.pBbt, fun block here after =>
      ahead.rest block here (Nat.le_of_succ_le after)⟩, .inl ?_⟩
    apply sound.step inside low
    · exact clean_of_used sound.clean used attempt
    · refine .erased target blank fun broken => ?_
      rw [attempt.notMem, (sound.others next inside (.inr le_rfl)).2.broken, fresh] at broken
      exact List.not_mem_nil broken
    · exact fun _ _ _ => rfl
    · exact fun block here other => attempt.undisturbed (ahead.apart numbered inside here other)
  · refine ⟨⟨ahead.tables, ahead.initBbt, ahead.pBbt, fun block here after =>
      ahead.rest block here (Nat.le_of_succ_le after)⟩, .inr ?_⟩
    exact missed.step (fun _ _ _ => rfl) (fun b broken => attempt.notMem.mpr broken) inside

/-- The table after an update has put an unused block into it. -/
def Remapped (g : Geometry) (r₁ : Ram) (block : ℕ) (r₂ : Ram) : Prop :=
  ∃ m, Unused g r₁ m ∧ r₂.bmt = r₁.bmt.remap g block m ∧ r₂.initBbt = r₁.initBbt ∧
    r₂.pBbt = r₁.pBbt

/-- What is known of an update that has succeeded. -/
structure Updated (g : Geometry) (L : OobLayout) (r₁ : Ram) (w₂ : Faults) (block : ℕ) (r₂ : Ram)
    (w₃ : Faults) : Prop where
  tables : DisjointTables g r₂
  renewed : Clean g L r₁ w₂.pages → ∃ m, Renewed g r₁ block r₂ w₃.pages m
  remapped : Remapped g r₁ block r₂
  clean : Clean g L r₁ w₂.pages → Clean g L r₂ w₃.pages
  kept : ∀ b, Updatable g r₁ b → b ≠ block → Undisturbed b w₂ w₃
  grows : ∀ b ∈ w₂.broken, b ∈ w₃.broken

include numbered inside in
/-- What the update for `next` changes in the table: a block that stands for itself is replaced,
and no other; any other block is missed. -/
theorem Ahead.remapped (ahead : Ahead g r next r₁) (small : g.bmtBlockCount ≤ 255)
    (tables : DisjointTables g r₂) (remapped : Remapped g r₁ next r₂) :
    Ahead g r (next + 1) r₂ ∧
      (resolve g r next = next → ∀ block < logicalBlocks g r, block ≠ next →
        resolve g r₂ block = resolve g r₁ block) ∧
      (resolve g r next ≠ next → resolve g r₂ next = resolve g r next) := by
  obtain ⟨m, unused, bmt, initBbt, pBbt⟩ := remapped
  have disjoint := ahead.tables.toDisjointBmt
  have numbered₁ := ahead.renumbered numbered
  have count := ahead.logicalBlocks_eq
  have inside₁ : next < logicalBlocks g r₁ := count ▸ inside
  have system : next < g.systemBlockCount := (numbered₁.le inside₁).trans_lt (numbered₁.lt inside₁)
  have room : r₁.bmt.mappedCount < 255 := hasRoom_of_unused disjoint small unused system
  have target := ahead.rest next inside le_rfl
  refine ⟨⟨tables, initBbt.trans ahead.initBbt, pBbt.trans ahead.pBbt, ?_⟩, ?_, ?_⟩
  · -- the table skips forward, so that no later block is counted as `next`
    intro block here after
    have here₁ : block < logicalBlocks g r₁ := count ▸ here
    rw [← ahead.rest block here (Nat.le_of_succ_le after)]
    apply resolve_remap_of_ne system room bmt initBbt pBbt here₁
    intro eq
    exact absurd (numbered₁.le here₁) (not_le.mpr (eq.trans_lt after))
  · intro self block here other
    obtain ⟨number, -⟩ := pBbt_of_resolve_self numbered₁ disjoint inside₁ (target.trans self)
    apply resolve_remap_of_ne system room bmt initBbt pBbt (count ▸ here)
    intro eq
    exact absurd (numbered₁.inj (count ▸ here) inside₁ (eq.trans number.symm)) other
  · intro other
    rw [← target]
    apply resolve_remap_of_ne system room bmt initBbt pBbt inside₁
    exact fun _ eq => other (target.symm.trans eq)

include numbered inside in
/-- The erase fails, and the update succeeds. -/
theorem Invariant.updated (inv : Invariant g L r w first next r₁ w₁)
    (small : g.bmtBlockCount ≤ 255) (low : first ≤ next)
    (attempt : Attempt (resolve g r₁ next) w₁ false w₂)
    (updated : Updated g L r₁ w₂ next r₂ w₃) : Invariant g L r w first (next + 1) r₂ w₃ := by
  obtain ⟨ahead, state⟩ := inv
  obtain ⟨ahead₂, same, unchanged⟩ :=
    ahead.remapped numbered inside small updated.tables updated.remapped
  have target := ahead.rest next inside le_rfl
  refine ⟨ahead₂, ?_⟩
  by_cases self : resolve g r next = next
  · have self₁ : resolve g r₁ next = next := target.trans self
    rcases state with sound | missed
    · left
      have numbered₁ := ahead.renumbered numbered
      have inside₁ : next < logicalBlocks g r₁ := ahead.logicalBlocks_eq ▸ inside
      have system : next < g.systemBlockCount :=
        (numbered₁.le inside₁).trans_lt (numbered₁.lt inside₁)
      have disjoint := ahead.tables.toDisjointBmt
      have clean := clean_of_used sound.clean (ahead.updatable numbered inside) attempt
      obtain ⟨m, renewed⟩ := updated.renewed clean
      have room := hasRoom_of_unused disjoint small renewed.unused system
      have moved := resolve_remap_self numbered₁ disjoint room renewed.bmt renewed.initBbt
        renewed.pBbt inside₁ self₁
      have now : Handled g r next r₂ w₃ := by
        apply Handled.moved self
        · rw [moved]
          rintro rfl
          exact absurd renewed.unused.pool.1 (not_le.mpr system)
        · exact moved ▸ renewed.blank
      apply sound.step inside low (updated.clean clean) now (same self)
      intro block here other
      have apart := ahead.apart numbered inside here other
      rw [self] at apart
      apply (attempt.undisturbed _).trans (updated.kept _ (ahead.updatable numbered here) apart)
      rw [self₁]
      exact apart
    · right
      apply missed.step (fun block here before => same self block here before.ne) _ inside
      exact fun b broken => updated.grows b ((attempt.broken b).mpr (.inl broken))
  · refine .inr ⟨next, low, Nat.lt_succ_self next, unchanged self, ?_, self⟩
    rw [← target]
    exact updated.grows _ ((attempt.broken _).mpr (.inr ⟨rfl, rfl⟩))

/-! ## Whatever the checks answer -/

/-- The invariant of the loop in any run. -/
def Standing (g : Geometry) (r : Ram) (first next : ℕ) (r' : Ram) (broken : List ℕ) : Prop :=
  Ahead g r next r' ∧ (InPlace g r first next r' broken ∨ Missed g r first next r' broken)

variable {broken broken' : List ℕ}

include inside in
/-- The erase succeeds. -/
theorem Standing.erased (standing : Standing g r first next r₁ broken) :
    Standing g r first (next + 1) r₁ broken := by
  obtain ⟨ahead, state⟩ := standing
  refine ⟨⟨ahead.tables, ahead.initBbt, ahead.pBbt, fun block here after =>
    ahead.rest block here (Nat.le_of_succ_le after)⟩, ?_⟩
  rcases state with inPlace | missed
  · left
    intro block here
    apply (inPlace block here).imp_left
    exact fun ⟨low, before, self⟩ => ⟨low, Nat.lt_succ_of_lt before, self⟩
  · exact .inr (missed.step (fun _ _ _ => rfl) (fun _ failed => failed) inside)

include numbered inside in
/-- The erase fails, and the update succeeds. -/
theorem Standing.updated (standing : Standing g r first next r₁ broken)
    (small : g.bmtBlockCount ≤ 255) (low : first ≤ next) (tables : DisjointTables g r₂)
    (remapped : Remapped g r₁ next r₂)
    (kept : ∀ b, Updatable g r₁ b → b ≠ next →
      (b ∈ broken' ↔ b ∈ resolve g r₁ next :: broken))
    (grows : ∀ b ∈ resolve g r₁ next :: broken, b ∈ broken') :
    Standing g r first (next + 1) r₂ broken' := by
  obtain ⟨ahead, state⟩ := standing
  obtain ⟨ahead₂, same, unchanged⟩ := ahead.remapped numbered inside small tables remapped
  have target := ahead.rest next inside le_rfl
  refine ⟨ahead₂, ?_⟩
  by_cases self : resolve g r next = next
  · rcases state with inPlace | missed
    · left
      intro block here
      by_cases now : block = next
      · rw [now]
        exact .inl ⟨low, Nat.lt_succ_self next, self⟩
      · apply (inPlace block here).imp
        · exact fun ⟨low, before, self⟩ => ⟨low, Nat.lt_succ_of_lt before, self⟩
        · rintro ⟨eq, whole⟩
          have apart := ahead.apart numbered inside here now
          have still := kept _ (ahead.updatable numbered here) (by rwa [self] at apart)
          rw [eq] at apart still
          refine ⟨(same self block here now).trans eq, fun failed => ?_⟩
          rcases List.mem_cons.mp (still.mp failed) with here | before
          · exact apart (here.trans target)
          · exact whole before
    · right
      apply missed.step (fun block here before => same self block here before.ne) _ inside
      exact fun b failed => grows b (List.mem_cons_of_mem _ failed)
  · refine .inr ⟨next, low, Nat.lt_succ_self next, unchanged self, ?_, self⟩
    rw [← target]
    exact grows _ List.mem_cons_self

end Loop

section Erase

variable {g : Geometry} {L : OobLayout} {r r₁ : Ram} {w w₁ : Faults} {first next count : ℕ}

/-- `update_bmt` for the erase of a system block. -/
theorem updated_of_update (depth : ℕ) (small : g.bmtBlockCount ≤ 255)
    (tables : DisjointTables g r₁) (system : next < g.systemBlockCount) :
    wp (FaultStep L) (updateBmt g depth (next * eraseSize) .eraseFail none none)
      (fun done r₂ w₂ => done = true → Updated g L r₁ w₁ next r₂ w₂) r₁ w₁ := by
  have block : next * eraseSize / eraseSize = next := blockOffset_div_erase next
  have updatable : Updatable g r₁ (next * eraseSize / eraseSize) := .inl (block.symm ▸ system)
  have disjoint := tables.toDisjointBmt
  -- without room for one more entry there is no unused block, and no success
  have clean : wp (FaultStep L) (updateBmt g depth (next * eraseSize) .eraseFail none none)
      (fun _ r₂ w₂ => r₁.bmt.mappedCount < 255 → Clean g L r₁ w₁.pages →
        Clean g L r₂ w₂.pages) r₁ w₁ := by
    apply wp_forall
    intro room
    apply wp_forall
    intro clean
    have outside : ¬ g.InPool (next * eraseSize / eraseSize) := by
      rw [block]
      exact fun pool => absurd pool.1 (not_le.mpr system)
    have keeps : KeepsClean g r₁ (next * eraseSize) :=
      ⟨.system (block.symm ▸ system) room, fun pool => absurd pool outside,
        fun pool => absurd pool outside⟩
    apply wp_mono _ (clean_updateBmt depth keeps clean)
    exact fun _ _ _ later => later fun _ spared => absurd spared.1 outside
  have renewed : wp (FaultStep L) (updateBmt g depth (next * eraseSize) .eraseFail none none)
      (fun done r₂ w₂ => Clean g L r₁ w₁.pages → done = true →
        ∃ m, Renewed g r₁ (next * eraseSize / eraseSize) r₂ w₂.pages m) r₁ w₁ :=
    wp_forall fun clean => renewed_updateBmt depth (by decide) small disjoint updatable clean
  have kept : wp (FaultStep L) (updateBmt g depth (next * eraseSize) .eraseFail none none)
      (fun _ _ w₂ => ∀ b, Updatable g r₁ b → b ≠ next → Undisturbed b w₁ w₂) r₁ w₁ := by
    apply wp_forall
    intro b
    apply wp_forall
    intro used
    apply wp_forall
    intro other
    exact used_updateBmt depth small disjoint updatable used (block.symm ▸ other)
  have grows : wp (FaultStep L) (updateBmt g depth (next * eraseSize) .eraseFail none none)
      (fun _ _ w₂ => ∀ b ∈ w₁.broken, b ∈ w₂.broken) r₁ w₁ :=
    wp_forall fun b => wp_forall fun broken => fault_broken _ broken
  apply wp_mono _ (wp_and (wp_and clean renewed) (wp_and (wp_and kept grows)
    (wp_and (wp_of_ensures (updateBmt_remaps g depth _ _ _ _))
      (wp_of_ensures (updateBmt_disjoint g small tables depth _ _ _ _ updatable)))))
  rintro done r₂ w₂ ⟨⟨clean, renewed⟩, ⟨kept, grows⟩, remaps, tables₂⟩ rfl
  rw [block] at renewed remaps
  have remapped := remaps rfl
  obtain ⟨m, unused, -⟩ := remapped
  have room : r₁.bmt.mappedCount < 255 := hasRoom_of_unused disjoint small unused system
  exact ⟨tables₂, fun before => renewed before rfl, remaps rfl, clean room, kept, grows⟩

theorem fault_eraseOp {block : ℕ} {post : Bool → Ram → Faults → Prop}
    (h : ∀ ok w', Attempt block w ok w' → (ok = true → Blank w'.pages block) → post ok r w') :
    wp (FaultStep L) (Routine.perform (NandOp.eraseBlock block)) post r w := by
  have call : (Routine.perform (NandOp.eraseBlock block) : Drv Bool) =
      nandEraseBmt (blockOffset block) := by
    rw [nandEraseBmt, blockOffset_div_erase]
  rw [call]
  apply fault_eraseBlock
  intro ok w' attempt erased
  apply h ok w' attempt
  rintro rfl
  rw [erased rfl]
  exact fun p hp => if_pos hp

/-- The loop of `spi_nand_erase_internal`, with an invariant that the erase of a block keeps, or
else the update for it. -/
theorem wp_eraseBlocks {σ : Type} {T : Rules NandOp NandResp σ} {inv : ℕ → Ram → σ → Prop}
    {depth : ℕ} (erase : ∀ next r₁ w₁, first ≤ next → next < first + count → inv next r₁ w₁ →
      wp T (Routine.perform (NandOp.eraseBlock (resolve g r₁ next))) (fun ok r₂ w₂ =>
        (ok = true → inv (next + 1) r₂ w₂) ∧
        (ok = false → wp T (updateBmt g depth (next * eraseSize) .eraseFail none none)
          (fun done r₃ w₃ => done = true → inv (next + 1) r₃ w₃) r₂ w₂)) r₁ w₁)
    (rounds : ℕ) {i : ℕ} {w₁ : σ} (enough : count ≤ i + rounds) (le : i ≤ count)
    (now : inv (first + i) r₁ w₁) :
    wp T (eraseBlocks g depth (count * eraseSize) rounds ((first + i) * eraseSize)
      (i * eraseSize)) (fun rtn r' w' => rtn = .noError → inv (first + count) r' w') r₁ w₁ := by
  induction rounds generalizing i r₁ w₁ with
  | zero =>
      obtain rfl : i = count := by omega
      exact fun _ => now
  | succ rounds ih =>
      rw [eraseBlocks]
      split
      · next more =>
        have here : i < count := Nat.lt_of_mul_lt_mul_right more
        have block : (first + i) * eraseSize / eraseSize = first + i := blockOffset_div_erase _
        have addr : (first + i) * eraseSize + eraseSize = (first + (i + 1)) * eraseSize := by
          rw [← Nat.add_assoc, Nat.succ_mul]
        have eraseLen : i * eraseSize + eraseSize = (i + 1) * eraseSize := (Nat.succ_mul _ _).symm
        rw [wp_bind, wp_get, wp_bind, block]
        apply wp_mono _ (erase (first + i) r₁ w₁ (Nat.le_add_right _ _) (by omega) now)
        rintro ok r₂ w₂ ⟨erased, failed⟩
        cases ok with
        | true =>
            rw [if_pos rfl, addr, eraseLen]
            exact ih (by omega) here (erased rfl)
        | false =>
            rw [if_neg (by simp), wp_bind]
            apply wp_mono _ (failed rfl)
            intro done r₃ w₃ updated
            cases done with
            | false => exact fun rtn => Rtn.noConfusion rtn
            | true =>
                rw [if_pos rfl, addr, eraseLen]
                exact ih (by omega) here (updated rfl)
      · next stop =>
        obtain rfl : i = count := by
          by_contra less
          exact stop (Nat.mul_lt_mul_of_pos_right (lt_of_le_of_ne le less) (by decide))
        exact fun _ => now

theorem spiNandBlockAlignedCheck_blocks (first count : ℕ) :
    spiNandBlockAlignedCheck (first * eraseSize) (count * eraseSize) = true := by
  simp [spiNandBlockAlignedCheck, Nat.mul_mod_left]

/-- `spi_nand_erase_internal`, with such an invariant. -/
theorem wp_spiNandEraseInternal {σ : Type} {T : Rules NandOp NandResp σ} {inv : ℕ → Ram → σ → Prop}
    {depth : ℕ} {w : σ}
    (quiet : ∀ answer w', T NandOp.clearCache w answer w' → w' = w)
    (erase : ∀ next r₁ w₁, first ≤ next → next < first + count → inv next r₁ w₁ →
      wp T (Routine.perform (NandOp.eraseBlock (resolve g r₁ next))) (fun ok r₂ w₂ =>
        (ok = true → inv (next + 1) r₂ w₂) ∧
        (ok = false → wp T (updateBmt g depth (next * eraseSize) .eraseFail none none)
          (fun done r₃ w₃ => done = true → inv (next + 1) r₃ w₃) r₂ w₂)) r₁ w₁)
    (start : inv first r w) :
    wp T (spiNandEraseInternal g depth (first * eraseSize) (count * eraseSize))
      (fun rtn r' w' => rtn = .noError → inv (first + count) r' w') r w := by
  rw [spiNandEraseInternal, wp_bind, wp_perform]
  intro answer w' step
  rw [quiet answer w' step, if_pos (spiNandBlockAlignedCheck_blocks first count)]
  have enough : count ≤ 0 + count * eraseSize := by
    rw [Nat.zero_add]
    exact Nat.le_mul_of_pos_right count (by decide)
  have loop := wp_eraseBlocks erase (count * eraseSize) enough (Nat.zero_le count) start
  rw [Nat.add_zero, Nat.zero_mul] at loop
  exact loop

theorem Ahead.start (tables : DisjointTables g r) : Ahead g r first r :=
  ⟨tables, rfl, rfl, fun _ _ _ => rfl⟩

/-- The block that an update takes for the failed one is a system block. -/
theorem Ahead.system (numbered : Enumerated g r) (ahead : Ahead g r next r₁)
    (inside : next < logicalBlocks g r) : next < g.systemBlockCount := by
  have numbered₁ := ahead.renumbered numbered
  have inside₁ : next < logicalBlocks g r₁ := ahead.logicalBlocks_eq ▸ inside
  exact (numbered₁.le inside₁).trans_lt (numbered₁.lt inside₁)

theorem fault_spiNandEraseInternal (depth : ℕ) (numbered : Enumerated g r) (fresh : w.broken = [])
    (small : g.bmtBlockCount ≤ 255) (tables : DisjointTables g r) (clean : Clean g L r w.pages)
    (inside : first + count ≤ logicalBlocks g r) :
    wp (FaultStep L) (spiNandEraseInternal g depth (first * eraseSize) (count * eraseSize))
      (fun rtn r' w' => rtn = .noError → Invariant g L r w first (first + count) r' w') r w := by
  refine wp_spiNandEraseInternal (fun _ _ step => step) ?_ ⟨.start tables, .inl ⟨clean, ?_, ?_⟩⟩
  · intro next r₁ w₁ low high inv
    have inside' := high.trans_le inside
    apply fault_eraseOp
    intro ok w₂ attempt blank
    constructor
    · rintro rfl
      exact inv.erased numbered inside' fresh low attempt (blank rfl)
    · rintro rfl
      apply wp_mono _ (updated_of_update depth small inv.1.tables (inv.1.system numbered inside'))
      exact fun done r₃ w₃ updated ok =>
        inv.updated numbered inside' small low attempt (updated ok)
  · exact fun block low high => absurd high (not_lt.mpr low)
  · exact fun block _ _ => ⟨rfl, .refl _ w⟩

/-- Nothing has failed in the block since. -/
def Unfailed (b : ℕ) (broken broken' : List ℕ) : Prop := b ∈ broken' ↔ b ∈ broken

/-- An operation on another block does not fail in this one. -/
theorem unfailed_step {b : ℕ} (op : NandOp) (broken : List ℕ) (answer : NandResp op)
    (broken' : List ℕ) (elsewhere : Elsewhere b op) (step : LedgerStep op broken answer broken') :
    Unfailed b broken broken' := by
  obtain rfl := step
  cases op with
  | eraseBlock block =>
      cases answer with
      | true => exact Iff.rfl
      | false => exact List.mem_cons.trans (or_iff_right (Ne.symm elsewhere))
  | writePage page dataOffset dat dataLen oob oobLen =>
      cases answer with
      | true => exact Iff.rfl
      | false => exact List.mem_cons.trans (or_iff_right (Ne.symm elsewhere))
  | readPage _ => exact Iff.rfl
  | checkBlockBad _ _ => exact Iff.rfl
  | markBadblock _ _ => exact Iff.rfl
  | clearCache => exact Iff.rfl

/-- In an update for a system block nothing fails in the other blocks that carry data. -/
theorem unfailed_updateBmt (depth : ℕ) {broken : List ℕ} (small : g.bmtBlockCount ≤ 255)
    (disjoint : DisjointBmt g r₁) (system : next < g.systemBlockCount) :
    wp LedgerStep (updateBmt g depth (next * eraseSize) .eraseFail none none)
      (fun _ _ broken' => ∀ b, Updatable g r₁ b → b ≠ next → Unfailed b broken broken')
      r₁ broken := by
  have block : next * eraseSize / eraseSize = next := blockOffset_div_erase next
  have updatable : Updatable g r₁ (next * eraseSize / eraseSize) := .inl (block.symm ▸ system)
  apply wp_forall
  intro b
  apply wp_forall
  intro used
  apply wp_forall
  intro other
  have unfailed : ∀ broken, Unfailed b broken broken := fun _ => Iff.rfl
  apply wp_mono _ (wp_of_asks unfailed (fun _ _ _ h h' => h'.trans h) unfailed_step
    (elsewhere_updateBmt depth small disjoint updatable used (block.symm ▸ other)) broken)
  exact fun _ _ _ told => told.2

theorem ledger_spiNandEraseInternal (depth : ℕ) (numbered : Enumerated g r)
    (small : g.bmtBlockCount ≤ 255) (tables : DisjointTables g r)
    (inside : first + count ≤ logicalBlocks g r) :
    wp LedgerStep (spiNandEraseInternal g depth (first * eraseSize) (count * eraseSize))
      (fun rtn r' broken => rtn = .noError → Standing g r first (first + count) r' broken)
      r [] := by
  refine wp_spiNandEraseInternal (fun _ _ step => step) ?_
    ⟨.start tables, .inl fun _ _ => .inr ⟨rfl, List.not_mem_nil⟩⟩
  intro next r₁ broken low high standing
  have inside' := high.trans_le inside
  rw [wp_perform]
  rintro ok _ rfl
  constructor
  · rintro rfl
    exact standing.erased inside'
  · rintro rfl
    have block : next * eraseSize / eraseSize = next := blockOffset_div_erase next
    have system := standing.1.system numbered inside'
    have updatable : Updatable g r₁ (next * eraseSize / eraseSize) := .inl (block.symm ▸ system)
    have grows : wp LedgerStep (updateBmt g depth (next * eraseSize) .eraseFail none none)
        (fun _ _ broken' => ∀ b ∈ resolve g r₁ next :: broken, b ∈ broken') r₁
        (resolve g r₁ next :: broken) :=
      wp_forall fun b => wp_forall fun failed => ledger_grows _ failed
    apply wp_mono _ (wp_and
      (wp_and (unfailed_updateBmt depth small standing.1.tables.toDisjointBmt system) grows)
      (wp_and (wp_of_ensures (updateBmt_remaps g depth _ _ _ _))
        (wp_of_ensures (updateBmt_disjoint g small standing.1.tables depth _ _ _ _ updatable))))
    rintro done r₂ broken' ⟨⟨kept, grows⟩, remaps, tables₂⟩ rfl
    rw [block] at remaps
    exact standing.updated numbered inside' small low tables₂ (remaps rfl) kept grows

end Erase

/-- The three parts of a successful set-up. -/
theorem spiNandSetup_run {g : Geometry} {env : Env} {depth : ℕ} {r r' : Ram} {s s' : Spi}
    (run : exec (nandMachine env) (spiNandSetup g depth) r s = some (true, r', s')) :
    ∃ r₀ s₀ r₁, exec (nandMachine env) (startTables g) r s = some (true, r₀, s₀) ∧
      exec (nandMachine env) (writeBbtOrBmtToFlash g depth) r₀ s₀ = some (true, r₁, s') ∧
      r' = { r₁ with pBbt := createBadblockTableByBbt g.systemBlockCount r₁.initBbt r₁.pBbt } := by
  rw [spiNandSetup, exec_bind] at run
  obtain ⟨⟨listed, r₀, s₀⟩, start, run⟩ := Option.bind_eq_some_iff.mp run
  cases listed with
  | false => cases run
  | true =>
      simp only [if_true, exec_bind] at run
      obtain ⟨⟨written, r₁, s₁⟩, save, run⟩ := Option.bind_eq_some_iff.mp run
      cases written with
      | false => cases run
      | true =>
          cases run
          exact ⟨r₀, s₀, r₁, start, save, rfl⟩

/-- The driver is set up on an erased chip with the given factory marks. -/
def setUp (marked : List ℕ) : Option (Bool × Ram × Spi) :=
  exec (nandMachine seventhFails) (spiNandSetup eightBlocks 5) Ram.initial (factorySpi marked)

/-- Logical blocks are erased. -/
def eraseBlocksFrom (first count : ℕ) : Drv Rtn :=
  spiNandEraseInternal eightBlocks 5 (first * eraseSize) (count * eraseSize)

/-- The state of the driver when it has been set up on a chip without factory marks. -/
theorem setUp_ready {r : Ram} {s : Spi} (run : setUp [] = some (true, r, s)) :
    Enumerated eightBlocks r ∧ DisjointTables eightBlocks r ∧
      Clean eightBlocks seventhFails.layout r s.chip.pages := by
  have told : (exec (nandMachine seventhFails) (startTables eightBlocks) Ram.initial
      (factorySpi [])).bind (fun out => (exec (nandMachine seventhFails)
        (writeBbtOrBmtToFlash eightBlocks 5) out.2.1 out.2.2).map fun out' =>
          (out.2.1.bbtBlockIndex, decide (Keeps (nandMachine seventhFails) (Candid seventhFails)
            (writeBbtOrBmtToFlash eightBlocks 5) out.2.1 out.2.2), out'.2.1.initBbt.bad)) =
      some (0, true, []) := by decide +kernel
  obtain ⟨r₀, s₀, r₁, start, save, rfl⟩ := spiNandSetup_run run
  simp only [start, Option.bind_some, save, Option.map_some, Option.some.injEq, Prod.mk.injEq,
    decide_eq_true_eq] at told
  obtain ⟨zero, candid, none⟩ := told
  have saved : savedRun seventhFails [] = some (true, r₁, s) := by rw [savedRun, start, ← save]; rfl
  refine ⟨⟨⟨?_, ?_⟩, by decide, _, rfl⟩, ?_, ?_⟩
  · rw [none]
    exact .nil
  · rw [none]
    exact fun b hb => absurd hb List.not_mem_nil
  · have tables := (savedRun_reached (fun _ _ => rfl) saved).disjoint (by decide)
    exact ⟨⟨tables.count_le, tables.mapped_mem, tables.mapped_inj, tables.bad_lt, tables.rest_zero,
      tables.bmt_apart⟩, tables.bbt_apart⟩
  · have begun : Clean eightBlocks seventhFails.layout r₀ s₀.chip.pages := by
      intro erased
      rw [ensures_exec startTables_poolErased start] at erased
      exact Bool.noConfusion erased
    have clean := fault_exec (clean_writeBbtOrBmtToFlash 5 (fun _ => zero) begun) candid save
    apply clean.congr
    · exact fun erased => erased
    · intro b
      apply unused_congr <;> rfl

end En7512.Flash
