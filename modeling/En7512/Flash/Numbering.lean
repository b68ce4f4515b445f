/-
# The three numbers of a block

A block has a logical number, the number that is left when the factory-bad blocks are
counted in, and the number of the physical block that stands for it. The first table
skips forward, the second one sends some blocks to the pool, so that no two logical
blocks share a physical one.
-/

import En7512.Bmt.Boot
import En7512.Bmt.Remapping
import En7512.Flash.Internal

namespace En7512.Flash

open En7512.Logic En7512.Nand En7512.Bmt

/-- The blocks of `nand_logic_size`. -/
def logicalBlocks (g : Geometry) (r : Ram) : ℕ := g.systemBlockCount - r.initBbt.badblockCount

/-- The physical block of a logical one. -/
def resolve (g : Geometry) (r : Ram) (block : ℕ) : ℕ := (getMappingBlockIndex g r block).1

/-- The table of the logical blocks has been made from a list of factory-bad blocks. -/
structure Enumerated (g : Geometry) (r : Ram) : Prop where
  factory : FactoryList g.systemBlockCount r.initBbt
  fits : g.systemBlockCount ≤ 65536
  made : ∃ old, r.pBbt = createBadblockTableByBbt g.systemBlockCount r.initBbt old

section Enumerated

variable {g : Geometry} {r r' : Ram} {i j : ℕ}

theorem Enumerated.congr (h : Enumerated g r) (initBbt : r'.initBbt = r.initBbt)
    (pBbt : r'.pBbt = r.pBbt) : Enumerated g r' := by
  obtain ⟨old, made⟩ := h.made
  refine ⟨initBbt ▸ h.factory, h.fits, old, ?_⟩
  rw [pBbt, initBbt, made]

theorem Enumerated.strictMono (h : Enumerated g r) (less : i < j) (hj : j < logicalBlocks g r) :
    r.pBbt i < r.pBbt j := by
  obtain ⟨old, made⟩ := h.made
  rw [made]
  exact createBadblockTableByBbt_strictMono h.factory h.fits old less hj

theorem Enumerated.lt (h : Enumerated g r) (hi : i < logicalBlocks g r) :
    r.pBbt i < g.systemBlockCount := by
  obtain ⟨old, made⟩ := h.made
  rw [made]
  exact createBadblockTableByBbt_lt r.initBbt old hi

theorem Enumerated.inj (h : Enumerated g r) (hi : i < logicalBlocks g r)
    (hj : j < logicalBlocks g r) (eq : r.pBbt i = r.pBbt j) : i = j := by
  rcases Nat.lt_trichotomy i j with less | same | less
  · exact absurd eq (h.strictMono less hj).ne
  · exact same
  · exact absurd eq (h.strictMono less hi).ne'

/-- The table skips forward. -/
theorem Enumerated.le (h : Enumerated g r) (hi : i < logicalBlocks g r) : i ≤ r.pBbt i := by
  induction i with
  | zero => exact Nat.zero_le _
  | succ i ih =>
      have before := ih (Nat.lt_of_succ_lt hi)
      exact Nat.succ_le_of_lt (before.trans_lt (h.strictMono (Nat.lt_succ_self i) hi))

end Enumerated

/-! ## Resolving a block -/

section Resolve

variable {g : Geometry} {r r' : Ram} {block other k m : ℕ}

theorem resolve_eq (inside : block < logicalBlocks g r) :
    resolve g r block = getMappingBlockIndexByBmt g r.bmt (r.pBbt block) := by
  have here : ¬ g.systemBlockCount - r.initBbt.badblockCount ≤ block := not_le.mpr inside
  simp only [resolve, getMappingBlockIndex, getMappingBlockIndexByBbt, if_neg here]

/-- The block itself, or the one that an entry names for it. -/
theorem getMappingBlockIndexByBmt_cases (bmt : BmtStruct) (system : k < g.systemBlockCount) :
    bmt.lookup k = none ∧ getMappingBlockIndexByBmt g bmt k = k ∨
      ∃ e ∈ bmt.live, bmt.lookup k = some e ∧
        getMappingBlockIndexByBmt g bmt k = e.mappedIndex := by
  rw [getMappingBlockIndexByBmt, if_neg (not_le.mpr system)]
  cases found : bmt.lookup k with
  | none => exact .inl ⟨rfl, rfl⟩
  | some e => exact .inr ⟨e, (bmt.lookup_some found).1, rfl, rfl⟩

/-- A block that carries data is a system block or a mapped block of the pool. -/
theorem resolve_updatable (numbered : Enumerated g r) (disjoint : DisjointBmt g r)
    (inside : block < logicalBlocks g r) : Updatable g r (resolve g r block) := by
  have system := numbered.lt inside
  rw [resolve_eq inside]
  rcases getMappingBlockIndexByBmt_cases r.bmt system with ⟨-, eq⟩ | ⟨e, live, -, eq⟩
  · exact .inl (eq.trans_lt system)
  · obtain ⟨i, hi, rfl⟩ := r.bmt.mem_live.mp live
    refine .inr ⟨?_, ?_⟩
    · exact eq ▸ disjoint.mapped_mem i hi
    · exact r.bmt.isBlockMapped_iff.mpr ⟨_, live, eq.symm⟩

theorem resolve_inj (numbered : Enumerated g r) (disjoint : DisjointBmt g r)
    (inside : block < logicalBlocks g r) (inside' : other < logicalBlocks g r)
    (eq : resolve g r block = resolve g r other) : block = other := by
  rw [resolve_eq inside, resolve_eq inside'] at eq
  apply numbered.inj inside inside'
  exact getMappingBlockIndexByBmt_injOn disjoint (numbered.lt inside) (numbered.lt inside') eq

theorem remap_eq_append (bmt : BmtStruct) (system : k < g.systemBlockCount) (m : ℕ) :
    bmt.remap g k m = bmt.append k m := by
  rw [BmtStruct.remap, if_neg (not_le.mpr system), BmtStruct.append]

/-- The new entry counts for its own block, if there was none before it. -/
theorem lookup_remap (bmt : BmtStruct) (system : k < g.systemBlockCount)
    (room : bmt.mappedCount < 255) (block : ℕ) : (bmt.remap g k m).lookup block =
      (bmt.lookup block).or (if k = block then some ⟨k, m⟩ else none) := by
  rw [remap_eq_append bmt system, BmtStruct.lookup, (live_append bmt room k m).2,
    List.find?_append, BmtStruct.lookup]
  congr 1
  rw [List.find?_singleton]
  simp

/-- What a new entry for system block `k` does to the other blocks, and to blocks that
have been replaced before. -/
theorem resolve_remap_of_ne (system : k < g.systemBlockCount) (room : r.bmt.mappedCount < 255)
    (bmt : r'.bmt = r.bmt.remap g k m) (initBbt : r'.initBbt = r.initBbt) (pBbt : r'.pBbt = r.pBbt)
    (inside : block < logicalBlocks g r) (apart : r.pBbt block = k → resolve g r block ≠ k) :
    resolve g r' block = resolve g r block := by
  have inside' : block < logicalBlocks g r' := by rwa [logicalBlocks, initBbt]
  have same : (r.bmt.remap g k m).lookup (r.pBbt block) = r.bmt.lookup (r.pBbt block) := by
    rw [lookup_remap r.bmt system room]
    by_cases eq : r.pBbt block = k
    · have moved := apart eq
      rw [resolve_eq inside, eq] at moved
      rcases getMappingBlockIndexByBmt_cases r.bmt system with ⟨-, self⟩ | ⟨e, -, found, -⟩
      · exact absurd self moved
      · rw [eq, found, Option.some_or]
    · rw [if_neg (Ne.symm eq), Option.or_none]
  rw [resolve_eq inside', resolve_eq inside, pBbt, bmt]
  simp only [getMappingBlockIndexByBmt, same]

/-- A block that stands for itself is numbered by itself, and has not been replaced. -/
theorem pBbt_of_resolve_self (numbered : Enumerated g r) (disjoint : DisjointBmt g r)
    (inside : block < logicalBlocks g r) (self : resolve g r block = block) :
    r.pBbt block = block ∧ r.bmt.lookup block = none := by
  have system := numbered.lt inside
  rw [resolve_eq inside] at self
  rcases getMappingBlockIndexByBmt_cases r.bmt system with ⟨none, eq⟩ | ⟨e, live, -, eq⟩
  · have same := eq.symm.trans self
    exact ⟨same, same ▸ none⟩
  · obtain ⟨i, hi, rfl⟩ := r.bmt.mem_live.mp live
    have pool := disjoint.mapped_mem i hi
    rw [← eq, self] at pool
    exact absurd pool.1 (not_le.mpr ((numbered.le inside).trans_lt system))

/-- It is sent to the new block. -/
theorem resolve_remap_self (numbered : Enumerated g r) (disjoint : DisjointBmt g r)
    (room : r.bmt.mappedCount < 255) (bmt : r'.bmt = r.bmt.remap g block m)
    (initBbt : r'.initBbt = r.initBbt) (pBbt : r'.pBbt = r.pBbt)
    (inside : block < logicalBlocks g r) (self : resolve g r block = block) :
    resolve g r' block = m := by
  obtain ⟨number, none⟩ := pBbt_of_resolve_self numbered disjoint inside self
  have system : block < g.systemBlockCount := number ▸ numbered.lt inside
  have inside' : block < logicalBlocks g r' := by rwa [logicalBlocks, initBbt]
  have found : (r.bmt.remap g block m).lookup block = some ⟨block, m⟩ := by
    rw [lookup_remap r.bmt system room, none, if_pos rfl, Option.none_or]
  rw [resolve_eq inside', pBbt, number, bmt, getMappingBlockIndexByBmt,
    if_neg (not_le.mpr system), found]

end Resolve

end En7512.Flash
