/-
# The table and the back pointers of the pool

A block of the pool that stands in for a system block carries its number in the spare area
of its first page. `Recorded` is that the pool tells the whole table in this way. An update
after a failed write keeps it: the new block is given the number with its first page, and
the block it replaces gives its own number up, because its first page is marked.

That last step is where the code goes wrong. The mark is put on the page that has failed,
so a block of the pool loses its number only if this page is its first one.
-/

import En7512.Bmt.Consistency
import En7512.Bmt.Reconstruction

namespace En7512.Bmt

open En7512.Logic En7512.Nand

/-- The blocks of the pool tell the entries of the table, as far as the blocks of `out`
are not concerned. -/
def Recorded (g : Geometry) (L : OobLayout) (r : Ram) (pages : ℕ → Page) (out : Set ℕ) : Prop :=
  ∀ e : BmtEntry, e.mappedIndex ∉ out →
    (e ∈ backPointers g L pages g.poolBlocks ↔ e ∈ r.bmt.live)

/-- No system block has two entries. -/
def BmtStruct.Keyed (bmt : BmtStruct) : Prop :=
  ∀ e ∈ bmt.live, ∀ e' ∈ bmt.live, e.badIndex = e'.badIndex → e = e'

/-- The block carries the data of system block `k`: it is that block, or has taken its
place. -/
inductive StandsFor (g : Geometry) (r : Ram) (block : ℕ) : ℕ → Prop
  | itself (system : block < g.systemBlockCount) (unkeyed : ∀ e ∈ r.bmt.live, e.badIndex ≠ block) :
      StandsFor g r block block
  | replaced {k : ℕ} (live : ⟨k, block⟩ ∈ r.bmt.live) : StandsFor g r block k

/-- The spare area names the block and carries no mark. -/
structure Names (oob : Bytes) (k : ℕ) : Prop where
  raw : oob 0 = 0xff
  later : oob 1 = 0xff
  index : getBadIndexFromOob oob = k

/-! ## The table -/

section Table

variable {g : Geometry} {r r' : Ram} {block k : ℕ}

/-- A block that an entry names is a block of the pool. -/
theorem live_pool (disjoint : DisjointBmt g r) {e : BmtEntry} (he : e ∈ r.bmt.live) :
    g.InPool e.mappedIndex := by
  obtain ⟨i, hi, rfl⟩ := r.bmt.mem_live.mp he
  exact disjoint.mapped_mem i hi

theorem StandsFor.updatable (disjoint : DisjointBmt g r) (stands : StandsFor g r block k) :
    Updatable g r block := by
  cases stands with
  | itself system _ => exact .inl system
  | replaced live =>
      exact .inr ⟨live_pool disjoint live, r.bmt.isBlockMapped_iff.mpr ⟨_, live, rfl⟩⟩

theorem StandsFor.lt (disjoint : DisjointBmt g r) (stands : StandsFor g r block k) :
    k < g.systemBlockCount := by
  cases stands with
  | itself system _ => exact system
  | replaced live =>
      obtain ⟨i, hi, entry⟩ := r.bmt.mem_live.mp live
      have bound := disjoint.bad_lt i hi
      rwa [entry] at bound

theorem StandsFor.system_or_live (stands : StandsFor g r block k) :
    block < g.systemBlockCount ∨ ⟨k, block⟩ ∈ r.bmt.live := by
  cases stands with
  | itself system _ => exact .inl system
  | replaced live => exact .inr live

/-- A system block stands for itself only. -/
theorem StandsFor.of_system (disjoint : DisjointBmt g r) (stands : StandsFor g r block k)
    (system : block < g.systemBlockCount) :
    k = block ∧ ∀ e ∈ r.bmt.live, e.badIndex ≠ block := by
  cases stands with
  | itself _ unkeyed => exact ⟨rfl, unkeyed⟩
  | replaced live => exact absurd system (not_lt.mpr (live_pool disjoint live).1)

/-- A block of the pool has one entry. -/
theorem mapped_unique (disjoint : DisjointBmt g r) {e e' : BmtEntry} (he : e ∈ r.bmt.live)
    (he' : e' ∈ r.bmt.live) (same : e.mappedIndex = e'.mappedIndex) : e = e' := by
  obtain ⟨i, hi, rfl⟩ := r.bmt.mem_live.mp he
  obtain ⟨j, hj, rfl⟩ := r.bmt.mem_live.mp he'
  rw [disjoint.mapped_inj i hi j hj same]

/-- The entry of a block names what the block stands for. -/
theorem StandsFor.of_live (disjoint : DisjointBmt g r) (stands : StandsFor g r block k)
    {e : BmtEntry} (he : e ∈ r.bmt.live) (named : e.mappedIndex = block) : e.badIndex = k := by
  cases stands with
  | itself system _ =>
      have pool := (live_pool disjoint he).1
      exact absurd (named ▸ pool) (not_le.mpr system)
  | replaced live => exact congrArg BmtEntry.badIndex (mapped_unique disjoint he live named)

/-- The table after a remap: the failed block has lost its entry to the new one. -/
theorem mem_live_remap (disjoint : DisjointBmt g r) (room : r.bmt.HasRoom g block)
    (stands : StandsFor g r block k) (m : ℕ) (e : BmtEntry) :
    e ∈ (r.bmt.remap g block m).live ↔
      e = ⟨k, m⟩ ∨ e ∈ r.bmt.live ∧ e.mappedIndex ≠ block := by
  cases stands with
  | itself system _ =>
      obtain ⟨count, entry⟩ := remap_system r.bmt m system room
      have apart : e ∈ r.bmt.live → e.mappedIndex ≠ block := by
        intro he eq
        have pool := (live_pool disjoint he).1
        exact absurd (eq ▸ pool) (not_le.mpr system)
      rw [and_iff_left_of_imp apart, BmtStruct.mem_live, BmtStruct.mem_live, count]
      simp only [Nat.lt_succ_iff_lt_or_eq, or_and_right, exists_or, exists_eq_left, entry, if_true,
        eq_comm (a := (⟨block, m⟩ : BmtEntry))]
      rw [or_comm]
      apply or_congr_right
      apply exists_congr
      exact fun i => and_congr_right fun hi => by rw [if_neg hi.ne]
  | replaced live =>
      have pool := live_pool disjoint live
      have mapped : r.bmt.isBlockMapped block = true := r.bmt.isBlockMapped_iff.mpr ⟨_, live, rfl⟩
      obtain ⟨inside, found⟩ := indexOfMapped_live disjoint mapped pool
      obtain ⟨count, entry⟩ := remap_pool r.bmt m pool
      have here : r.bmt.table (r.bmt.indexOfMapped g block) = ⟨k, block⟩ :=
        mapped_unique disjoint (r.bmt.mem_live.mpr ⟨_, inside, rfl⟩) live found
      rw [BmtStruct.mem_live, count]
      constructor
      · rintro ⟨i, hi, rfl⟩
        rw [entry]
        split
        · next eq =>
            left
            rw [eq, here]
        · next ne =>
            refine .inr ⟨r.bmt.mem_live.mpr ⟨i, hi, rfl⟩, fun same => ne ?_⟩
            exact disjoint.mapped_inj i hi _ inside (same.trans found.symm)
      · rintro (rfl | ⟨he, other⟩)
        · exact ⟨_, inside, by rw [entry, if_pos rfl, here]⟩
        · obtain ⟨i, hi, rfl⟩ := r.bmt.mem_live.mp he
          refine ⟨i, hi, ?_⟩
          rw [entry, if_neg]
          rintro rfl
          exact other found

/-- The system blocks with an entry are those from before, and the one that is moved. -/
theorem unkeyed_remap (disjoint : DisjointBmt g r) (room : r.bmt.HasRoom g block)
    (stands : StandsFor g r block k) {m b : ℕ}
    (unkeyed : ∀ e ∈ (r.bmt.remap g block m).live, e.badIndex ≠ b) :
    b ≠ k ∧ ∀ e ∈ r.bmt.live, e.badIndex ≠ b := by
  have mem := mem_live_remap disjoint room stands m
  have new : b ≠ k := fun eq => unkeyed ⟨k, m⟩ ((mem _).mpr (.inl rfl)) eq.symm
  refine ⟨new, fun e he key => ?_⟩
  by_cases failed : e.mappedIndex = block
  · exact new (key.symm.trans (stands.of_live disjoint he failed))
  · exact unkeyed e ((mem e).mpr (.inr ⟨he, failed⟩)) key

/-- Every system block still has one entry at most. -/
theorem BmtStruct.Keyed.remap (keyed : r.bmt.Keyed) (disjoint : DisjointBmt g r)
    (room : r.bmt.HasRoom g block) (stands : StandsFor g r block k) (m : ℕ) :
    (r.bmt.remap g block m).Keyed := by
  have unkeyed : ∀ e ∈ r.bmt.live, e.mappedIndex ≠ block → e.badIndex ≠ k := by
    intro e he other same
    cases stands with
    | itself _ unkeyed => exact unkeyed e he same
    | replaced live => exact other (congrArg BmtEntry.mappedIndex (keyed e he _ live same))
  intro e he e' he' same
  rw [mem_live_remap disjoint room stands] at he he'
  rcases he with rfl | ⟨he, other⟩
  · rcases he' with rfl | ⟨he', other'⟩
    · rfl
    · exact absurd same.symm (unkeyed e' he' other')
  · rcases he' with rfl | ⟨he', other'⟩
    · exact absurd same (unkeyed e he other)
    · exact keyed e he e' he' same

end Table

/-! ## The pool -/

section Pool

variable {g : Geometry} {L : OobLayout} {pages pages' : ℕ → Page} {block k : ℕ}

theorem mem_backPointers_congr {e : BmtEntry}
    (same : firstPage pages' e.mappedIndex = firstPage pages e.mappedIndex) :
    e ∈ backPointers g L pages' g.poolBlocks ↔ e ∈ backPointers g L pages g.poolBlocks := by
  rw [mem_backPointers, mem_backPointers, pointsBack_congr same, same]

/-- A page that has been moved points back if its spare area did. -/
theorem Stores.pointsBack {errorBlock : ℕ} {dat oob : Bytes} (system : k < g.systemBlockCount)
    (stored : Stores g L errorBlock dat oob (firstPage pages block))
    (names : Names (migratedOob g errorBlock oob) k) :
    PointsBack g L pages block ∧ Bmt.pageIndex L (firstPage pages block) = k := by
  have index := stored.pageIndex.trans names.index
  refine ⟨⟨?_, index ▸ system⟩, index⟩
  have raw := stored.oob 0 (by norm_num)
  have later := stored.oob 1 (by norm_num)
  rw [names.raw] at raw
  rw [names.later] at later
  rintro (bad | bad)
  · exact bad raw
  · exact bad later

/-- The marks of a page that is moved are those it had; a system block is named. -/
theorem names_migrated {errorBlock : ℕ} {oob : Bytes} (raw : oob 0 = 0xff) (later : oob 1 = 0xff)
    (index : errorBlock < g.systemBlockCount ∧ k = errorBlock ∨
      ¬ errorBlock < g.systemBlockCount ∧ getBadIndexFromOob oob = k) :
    Names (migratedOob g errorBlock oob) k := by
  rcases index with ⟨system, rfl⟩ | ⟨pool, index⟩
  · have kept : migratedOob g k oob = putU16 oob 2 k := if_pos system
    refine ⟨?_, ?_, getBadIndexFromOob_migrated system oob⟩
    · rw [kept]
      exact raw
    · rw [kept]
      exact later
  · have kept : migratedOob g errorBlock oob = oob := if_neg pool
    rw [kept]
    exact ⟨raw, later, index⟩

end Pool

/-! ## An update after a failed write -/

section Update

variable {g : Geometry} {L : OobLayout} {r r' : Ram} {f f' : Flash} {offset k : ℕ} {d o : Bytes}

/-- What is asked of an update after a failed write. The first page of the new block will
name the system block; and the failing page is the first one of its block, or a page of a
system block. -/
structure Tellable (g : Geometry) (L : OobLayout) (r : Ram) (pages : ℕ → Page) (offset k : ℕ)
    (o : Bytes) : Prop where
  stands : StandsFor g r (offset / eraseSize) k
  place : offset / eraseSize < g.systemBlockCount ∨ offset / pageSize % pagePerBlock = 0
  /-- The caller's spare area, where it is what the first page of the new block gets. -/
  caller : offset / pageSize % pagePerBlock = 0 → o 0 = 0xff ∧ o 1 = 0xff ∧
    (g.InPool (offset / eraseSize) → getBadIndexFromOob o = k)
  /-- The first page of the old block, where it is copied. -/
  copied : offset / pageSize % pagePerBlock ≠ 0 → ¬ BlockBad L pages (offset / eraseSize)

/-- The first page of the new block names the system block. -/
theorem Migrated.names {before after : ℕ → Page} {block : ℕ} (fits : 4 ≤ g.mtdOobsize)
    (disjoint : DisjointBmt g r) (tellable : Tellable g L r before offset k o)
    (moved : Migrated g L before after offset d o block) :
    ∃ dat oob, Stores g L (offset / eraseSize) dat oob (firstPage after block) ∧
      Names (migratedOob g (offset / eraseSize) oob) k := by
  by_cases first : offset / pageSize % pagePerBlock = 0
  · obtain ⟨raw, later, index⟩ := tellable.caller first
    have here : ∀ i < 4, overlay allOnes 0 o g.mtdOobsize i = o i := by
      intro i hi
      rw [overlay_of_mem ⟨Nat.zero_le i, by omega⟩, Nat.sub_zero]
    have stored := moved.failing
    rw [first] at stored
    refine ⟨_, _, stored, names_migrated ?_ ?_ ?_⟩
    · rw [here 0 (by norm_num), raw]
    · rw [here 1 (by norm_num), later]
    · rcases tellable.stands.updatable disjoint with system | ⟨pool, -⟩
      · exact .inl ⟨system, (tellable.stands.of_system disjoint system).1⟩
      · refine .inr ⟨not_lt.mpr pool.1, ?_⟩
        rw [← index pool]
        exact u16At_congr (here 2 (by norm_num)) (here (2 + 1) (by norm_num))
  · have system := tellable.place.resolve_right first
    have good := tellable.copied first
    simp only [BlockBad, Page.Marked, not_or, not_not] at good
    have stored := moved.copied 0 (Nat.pos_of_ne_zero first)
    refine ⟨_, _, stored, names_migrated good.1 good.2 ?_⟩
    exact .inl ⟨system, (tellable.stands.of_system disjoint system).1⟩

/-- A block of the pool that has no entry points nowhere. -/
theorem Recorded.not_pointsBack {pages : ℕ → Page} {out : Set ℕ} {b : ℕ}
    (recorded : Recorded g L r pages out) (inside : b ∉ out) (pool : g.InPool b)
    (unmapped : r.bmt.isBlockMapped b = false) : ¬ PointsBack g L pages b := by
  intro points
  have told : (⟨pageIndex L (firstPage pages b), b⟩ : BmtEntry) ∈ r.bmt.live :=
    (recorded _ inside).mp (Bmt.mem_backPointers.mpr ⟨pool, points, rfl⟩)
  have mapped := r.bmt.isBlockMapped_iff.mpr ⟨_, told, rfl⟩
  exact Bool.noConfusion (mapped.symm.trans unmapped)

/-- What has become of the pool: the new block points back, the failed one does not, and
the others do if they did. -/
theorem UpdateResult.mem_backPointers (fits : 4 ≤ g.mtdOobsize) (before : Consistent g L r f)
    (room : r.bmt.HasRoom g (offset / eraseSize)) (tellable : Tellable g L r f.pages offset k o)
    (recorded : Recorded g L r f.pages {offset / eraseSize})
    (h : UpdateResult g L r offset .writeFail (some d) (some o) f true r' f') :
    ∃ m, r'.bmt = r.bmt.remap g (offset / eraseSize) m ∧ ∀ e,
      e ∈ backPointers g L f'.pages g.poolBlocks ↔ e = ⟨k, m⟩ ∨
        e ∈ backPointers g L f.pages g.poolBlocks ∧ e.mappedIndex ≠ offset / eraseSize := by
  have disjoint := before.disjoint
  have updatable := tellable.stands.updatable disjoint
  have untouched := fun b used other => h.same (b := b) before room updatable used other
  cases h with
  | @done m r' f₁ f₂ page ne replaced tables written marked =>
      refine ⟨m, tables.bmt, fun e => ?_⟩
      have free := replaced.free ne
      obtain ⟨-, d', o', hd, ho, moved⟩ := replaced.moved rfl ne
      obtain ⟨rfl, rfl⟩ : d = d' ∧ o = o' := ⟨Option.some.inj hd, Option.some.inj ho⟩
      have unmapped : ∀ e ∈ r.bmt.live, e.mappedIndex ≠ m := fun e he eq => by
        have mapped := r.bmt.isBlockMapped_iff.mpr ⟨e, he, eq⟩
        exact Bool.noConfusion (mapped.symm.trans free.unused.unmapped)
      have apart : m ≠ offset / eraseSize := by
        rintro rfl
        exact updatable_used updatable free.unused
      have marks : ∀ b ≠ offset / eraseSize, SameBlock f₂.pages
          (Function.update f₂.pages (offset / pageSize) page) b :=
        fun b other => sameBlock_mark other
      by_cases new : e.mappedIndex = m
      · -- the new block
        have remapped := remap_disjointBmt disjoint room free.unused updatable
        have mapped : (r.bmt.remap g (offset / eraseSize) m).isBlockMapped m = true := by
          rw [BmtStruct.isBlockMapped_iff]
          exact ⟨⟨k, m⟩, (mem_live_remap disjoint room tellable.stands m _).mpr (.inl rfl), rfl⟩
        have kept := written.change.same m fun now =>
          Bool.noConfusion (mapped.symm.trans now.unused.unmapped)
        have first : firstPage (Function.update f₂.pages (offset / pageSize) page) m =
            firstPage f₁.pages m := (kept.trans (marks m apart)).firstPage
        obtain ⟨dat, oob, stored, names⟩ := moved.names fits disjoint tellable
        rw [← first] at stored
        obtain ⟨points, index⟩ := stored.pointsBack (tellable.stands.lt disjoint) names
        have quiet := recorded.not_pointsBack apart free.unused.pool free.unused.unmapped
        rw [Bmt.mem_backPointers, Bmt.mem_backPointers, new, index]
        simp only [free.unused.pool, points, true_and, quiet, false_and, and_false, or_false]
        constructor
        · rintro rfl
          rw [← new]
        · rintro rfl
          rfl
      by_cases here : e.mappedIndex = offset / eraseSize
      · -- the failed block
        have other : e ≠ ⟨k, m⟩ := fun eq => new (congrArg BmtEntry.mappedIndex eq)
        simp only [other, here, ne_eq, not_true_eq_false, and_false, or_false, iff_false]
        rw [Bmt.mem_backPointers, here]
        rintro ⟨pool, ⟨good, -⟩, -⟩
        have first := tellable.place.resolve_left (not_lt.mpr pool.1)
        rw [page_eq_pageAddr first] at good
        exact good (blockBad_update marked)
      · have other : e ≠ ⟨k, m⟩ := fun eq => new (congrArg BmtEntry.mappedIndex eq)
        simp only [other, here, ne_eq, not_false_eq_true, and_true, false_or]
        by_cases pool : g.InPool e.mappedIndex
        swap
        · rw [Bmt.mem_backPointers, Bmt.mem_backPointers]
          simp only [pool, false_and]
        cases mapped : r.bmt.isBlockMapped e.mappedIndex with
        | true =>
            have same := untouched _ (.inr ⟨pool, mapped⟩) here
            exact mem_backPointers_congr same.firstPage
        | false =>
            have quiet := recorded.not_pointsBack here pool mapped
            have moving := (replaced.change.settled _ new).not_pointsBack quiet
            have writing := written.quiet _ moving
            rw [← pointsBack_congr (marks _ here).firstPage] at writing
            rw [Bmt.mem_backPointers, Bmt.mem_backPointers]
            exact iff_of_false (fun told => writing told.2.1) fun told => quiet told.2.1

/-- After the update the pool tells the whole table. -/
theorem UpdateResult.recorded (fits : 4 ≤ g.mtdOobsize) (before : Consistent g L r f)
    (room : r.bmt.HasRoom g (offset / eraseSize)) (tellable : Tellable g L r f.pages offset k o)
    (recorded : Recorded g L r f.pages {offset / eraseSize}) (keyed : r.bmt.Keyed)
    (h : UpdateResult g L r offset .writeFail (some d) (some o) f true r' f') :
    Recorded g L r' f'.pages ∅ ∧ r'.bmt.Keyed := by
  obtain ⟨m, bmt, told⟩ := h.mem_backPointers fits before room tellable recorded
  rw [bmt]
  refine ⟨fun e _ => ?_, keyed.remap before.disjoint room tellable.stands m⟩
  rw [told, bmt, mem_live_remap before.disjoint room tellable.stands]
  apply or_congr_right
  apply and_congr_left
  exact fun other => recorded e other

end Update

end En7512.Bmt
