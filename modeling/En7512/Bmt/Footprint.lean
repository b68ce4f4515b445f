/-
# What an update leaves alone

`update_bmt` works on free blocks, on the block of the table, and on the block that is
to be replaced. Every other block that carries data stays as it is, and nothing fails
in it.
-/

import En7512.Bmt.Allocation
import En7512.Bmt.Elsewhere

namespace En7512.Bmt

open En7512.Logic En7512.Nand En7512.Logic.Routine

/-- The block is as it was, and nothing has failed in it since. -/
structure Undisturbed (b : ℕ) (w w' : Faults) : Prop where
  same : SameBlock w.pages w'.pages b
  broken : b ∈ w'.broken ↔ b ∈ w.broken

section Undisturbed

variable {b block : ℕ} {w w' w'' : Faults} {ok : Bool}

theorem Undisturbed.refl (b : ℕ) (w : Faults) : Undisturbed b w w := ⟨.refl _ _, Iff.rfl⟩

theorem Undisturbed.trans (h : Undisturbed b w w') (h' : Undisturbed b w' w'') :
    Undisturbed b w w'' :=
  ⟨h.same.trans h'.same, h'.broken.trans h.broken⟩

theorem Attempt.undisturbed (attempt : Attempt block w ok w') (other : b ≠ block) :
    Undisturbed b w w' := by
  refine ⟨attempt.others b other, ?_⟩
  rw [attempt.broken]
  exact or_iff_left fun failed => other failed.2

theorem undisturbed_mark {page : ℕ} (other : page / pagePerBlock ≠ b) (new : Page) :
    Undisturbed b w ⟨Function.update w.pages page new, w.broken⟩ :=
  ⟨sameBlock_update other new, Iff.rfl⟩

end Undisturbed

/-! ## The other blocks -/

/-- An operation on another block does not disturb this one. -/
theorem undisturbed_step {L : OobLayout} {b : ℕ} (op : NandOp) (w : Faults) (answer : NandResp op)
    (w' : Faults) (elsewhere : Elsewhere b op) (step : FaultStep L op w answer w') :
    Undisturbed b w w' := by
  cases op with
  | readPage page =>
      obtain rfl := step
      exact .refl b _
  | checkBlockBad offset kind =>
      obtain ⟨rfl, -⟩ := step
      exact .refl b _
  | markBadblock offset kind =>
      obtain ⟨page, -, rfl⟩ := step
      exact undisturbed_mark (by rw [page_div_block]; exact elsewhere) page
  | eraseBlock block =>
      obtain ⟨left, -, rfl⟩ := step
      refine ⟨fun p here => if_neg fun erased => elsewhere (erased.symm.trans here), ?_⟩
      cases answer with
      | true => exact Iff.rfl
      | false => exact List.mem_cons.trans (or_iff_right (Ne.symm elsewhere))
  | writePage page dataOffset dat dataLen oob oobLen =>
      obtain ⟨new, rfl⟩ := step
      refine ⟨sameBlock_update elsewhere new, ?_⟩
      cases answer with
      | true => exact Iff.rfl
      | false => exact List.mem_cons.trans (or_iff_right (Ne.symm elsewhere))
  | clearCache =>
      obtain rfl := step
      exact .refl b _

/-- A block that carries data stays as it is, and nothing fails in it, if it is not the one
that is replaced. -/
theorem used_updateBmt {g : Geometry} {L : OobLayout} {r : Ram} {w : Faults} {b : ℕ} (depth : ℕ)
    {offset : ℕ} {reason : UpdateReason} {dat oob : Option Bytes}
    (small : g.bmtBlockCount ≤ 255) (disjoint : DisjointBmt g r)
    (updatable : Updatable g r (offset / eraseSize)) (used : Updatable g r b)
    (other : b ≠ offset / eraseSize) :
    wp (FaultStep L) (updateBmt g depth offset reason dat oob)
      (fun _ _ w' => Undisturbed b w w') r w := by
  apply wp_mono _ (wp_of_asks (Undisturbed.refl b) (fun _ _ _ => Undisturbed.trans) undisturbed_step
    (elsewhere_updateBmt depth small disjoint updatable used other) w)
  exact fun _ _ _ told => told.2

/-! ## The new block -/

/-- An update that succeeds has put an unused block into the table. -/
theorem updateBmt_remaps (g : Geometry) {r : Ram} (depth offset : ℕ) (reason : UpdateReason)
    (dat oob : Option Bytes) : Ensures (updateBmt g depth offset reason dat oob) r fun done r' =>
      done = true → ∃ block, Unused g r block ∧ r'.bmt = r.bmt.remap g (offset / eraseSize) block ∧
        r'.initBbt = r.initBbt ∧ r'.pBbt = r.pBbt := by
  rw [updateBmt, ensures_bind]
  apply ensures_mono _ (replacementBlock_ensures g depth offset reason dat oob)
  rintro block r₁ ⟨same, unused⟩
  split
  · exact fun done => Bool.noConfusion done
  next ne =>
  rw [ensures_bind, ensures_modify, ensures_bind, fillBmtBuffers, ensures_modify, ensures_bind,
    ensures_get, ensures_bind]
  apply ensures_mono _ (writeBmtToFlash_ensures g depth _ _)
  intro written r₂ moved
  have bmt : r₂.bmt = r₁.bmt.remap g (offset / eraseSize) block := moved.bmt
  have result : ∃ block, Unused g r block ∧ r₂.bmt = r.bmt.remap g (offset / eraseSize) block ∧
      r₂.initBbt = r.initBbt ∧ r₂.pBbt = r.pBbt :=
    ⟨block, unused ne, same.bmt ▸ bmt, moved.initBbt.trans same.initBbt, moved.pBbt.trans same.pBbt⟩
  cases written with
  | false => exact fun done => Bool.noConfusion done
  | true =>
      rw [if_pos rfl, ensures_bind]
      apply ensures_mono _ (markBlockBadBmt_ensures _ _)
      rintro _ _ rfl _
      exact result

/-- An update that has put a new block, with all pages erased, in the place of the old
one. -/
structure Renewed (g : Geometry) (r : Ram) (badIndex : ℕ) (r' : Ram) (pages' : ℕ → Page)
    (block : ℕ) : Prop where
  unused : Unused g r block
  bmt : r'.bmt = r.bmt.remap g badIndex block
  initBbt : r'.initBbt = r.initBbt
  pBbt : r'.pBbt = r.pBbt
  blank : Blank pages' block

/-- `update_bmt` when no data has to be moved. -/
theorem renewed_updateBmt {g : Geometry} {L : OobLayout} {r : Ram} {w : Faults} (depth : ℕ)
    {offset : ℕ} {reason : UpdateReason} {dat oob : Option Bytes} (erasing : reason ≠ .writeFail)
    (small : g.bmtBlockCount ≤ 255) (disjoint : DisjointBmt g r)
    (updatable : Updatable g r (offset / eraseSize)) (clean : Clean g L r w.pages) :
    wp (FaultStep L) (updateBmt g depth offset reason dat oob) (fun done r' w' =>
      done = true → ∃ block, Renewed g r (offset / eraseSize) r' w'.pages block) r w := by
  rw [updateBmt, wp_bind, replacementBlock, if_neg erasing]
  apply wp_mono _ (wp_and (clean_findAvailableBlock false clean)
    (wp_of_ensures (findAvailableBlock_ensures g false)))
  rintro block r₁ w₁ ⟨found, rfl, unused⟩
  split
  · exact fun done => Bool.noConfusion done
  next ne =>
  have unused := unused ne
  have room : r.bmt.HasRoom g (offset / eraseSize) := hasRoom_of_unused disjoint small unused
  have mapped := remap_mapped disjoint room updatable block
  have blank := found.blank block (found.free ne)
  have apart : block ≠ offset / eraseSize := by
    rintro rfl
    exact updatable_used updatable unused
  rw [wp_bind, wp_modify, wp_bind, fillBmtBuffers, wp_modify, wp_bind, wp_get, wp_bind]
  apply wp_mono _ (wp_of_asks (Undisturbed.refl block) (fun _ _ _ => Undisturbed.trans)
    undisturbed_step (elsewhere_writeBmtToFlash depth _ _ _ _) w₁)
  · rintro written r₂ w₂ ⟨moved, kept⟩
    cases written with
    | false => exact fun done => Bool.noConfusion done
    | true =>
        rw [if_pos rfl, wp_bind, markBlockBadBmt, wp_bind, wp_perform]
        rintro answer w₃ ⟨page, -, rfl⟩ _
        refine ⟨block, unused, moved.bmt, moved.initBbt, moved.pBbt, ?_⟩
        exact (kept.same.trans (sameBlock_mark apart)).blank blank
  · exact fun now => Bool.noConfusion (now.unmapped.symm.trans mapped)
  · exact fun _ => unused.ne_bmt

end En7512.Bmt
