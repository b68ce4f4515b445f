/-
# Pages that fail their ECC check

A page that cannot be corrected is reported by `spi_nand_read_page`, which then
leaves the arrays with the page they held before. The functions above it that do
not look at the report go on with those arrays: a check of a bad mark, a write,
and a read of a range, which answers `NO_ERROR` besides.

What such a call gives away of the page held before is settled here for two runs
that differ in that page only. It is exactly the bytes of the arrays the call uses
before it reaches a page that can be read.
-/

import En7512.Flash.ByteArray

namespace En7512.Flash

open En7512.Logic En7512.Nand En7512.Bmt

/-! ## One page -/

section OnePage

variable {env : Env} {s : Spi} {page : ℕ}

/-- A page that fails its check leaves everything as it was. -/
theorem spiNandReadPage_of_fails (fails : env.uncorrectable s.chip.ticks page = true) :
    (spiNandReadPage env page s).2 = s := by
  rw [spiNandReadPage, fails, if_pos rfl]
  split_ifs <;> rfl

/-- A page that passes its check is in memory afterwards. -/
theorem spiNandReadPage_of_passes (current : DataCurrent s)
    (passes : env.uncorrectable s.chip.ticks page = false) :
    (spiNandReadPage env page s).2.chip = s.chip ∧
      (spiNandReadPage env page s).2.cache.data = (s.chip.pages page).data ∧
      (spiNandReadPage env page s).2.cache.pageNum = some page := by
  rw [spiNandReadPage]
  by_cases held : s.cache.pageNum = some page
  · rw [if_pos held]
    exact ⟨rfl, current page held, held⟩
  · rw [if_neg held, passes, if_neg Bool.false_ne_true]
    exact ⟨rfl, rfl, rfl⟩

/-- What a write programs: the arrays, as the call leaves them. -/
def programmedContent (env : Env) (page offset : ℕ) (dat : Bytes) (len : ℕ) (oob : Bytes)
    (oobLen : ℕ) (s : Spi) : Page :=
  let cache := (spiNandWritePage env page offset dat len oob oobLen s).2.cache
  ⟨cache.data, cache.oob⟩

/-- The pages have the same data and the same spare area. -/
def SameContent (p q : Page) : Prop :=
  (∀ i < pageSize, p.data i = q.data i) ∧ ∀ j < oobBufferSize, p.oob j = q.oob j

/-- The byte of `ptr_oob` that is put on physical spare byte `j`. -/
def oobMask (L : OobLayout) (oob : Bytes) (oobLen j : ℕ) : UInt8 :=
  if j ∈ L.positions.take oobLen then oob (L.positions.idxOf j) else 0xff

theorem scatter_eq_and_mask (L : OobLayout) (before oob : Bytes) (oobLen j : ℕ) :
    L.scatter before oob oobLen j = before j &&& oobMask L oob oobLen j := by
  rw [OobLayout.scatter, oobMask]
  split_ifs
  · rfl
  · rw [byte_and_ones]

theorem programmedContent_of_fails (fails : env.uncorrectable s.chip.ticks page = true)
    (offset : ℕ) (dat : Bytes) (len : ℕ) (oob : Bytes) (oobLen : ℕ) :
    programmedContent env page offset dat len oob oobLen s =
      ⟨overlay s.cache.data offset dat len, env.layout.scatter s.cache.oob oob oobLen⟩ := by
  simp only [programmedContent, spiNandWritePage, spiNandReadPage_of_fails fails]

end OnePage

/-! ## The pieces of a read -/

/-- A piece of a read: the bytes from `offset` on of `page` go to the buffer from `start`
on. -/
structure Piece where
  page : ℕ
  offset : ℕ
  start : ℕ
  len : ℕ
  deriving DecidableEq, Repr

/-- The pieces of the range, in order. -/
def readPlan (g : Geometry) (r : Ram) (len : ℕ) : ℕ → ℕ → ℕ → List Piece
  | 0, _, _ => []
  | rounds + 1, readAddr, remainLen =>
      if remainLen = 0 then []
      else
        let dataOffset := physicalAddr g r readAddr % pageSize
        let dataLen := readDataLen dataOffset remainLen
        ⟨physicalAddr g r readAddr / pageSize, dataOffset, len - remainLen, dataLen⟩ ::
          readPlan g r len rounds (readAddr + dataLen) (remainLen - dataLen)

/-- Copy one piece. -/
def readPiece (env : Env) (p : Piece) (out : Bytes) (s : Spi) : Bytes × Spi :=
  let s := (spiNandReadPage env p.page s).2
  (overlay out p.start (fun i => s.cache.data (p.offset + i)) p.len, s)

/-- Copy the pieces in order. -/
def copyPieces (env : Env) : List Piece → Bytes → Spi → Bytes × Spi
  | [], out, s => (out, s)
  | p :: ps, out, s => copyPieces env ps (readPiece env p out s).1 (readPiece env p out s).2

/-- For each piece the page it asked for and the page it was copied from. -/
def sources (env : Env) : List Piece → Spi → List (ℕ × Option ℕ)
  | [], _ => []
  | p :: ps, s =>
      let s := (spiNandReadPage env p.page s).2
      (p.page, s.cache.pageNum) :: sources env ps s

/-- The loop copies its pieces. -/
theorem readPieces_eq_copyPieces (env : Env) (g : Geometry) (r : Ram) (len rounds readAddr
    remainLen : ℕ) (out : Bytes) (s : Spi) :
    readPieces env g r len rounds readAddr remainLen out s =
      copyPieces env (readPlan g r len rounds readAddr remainLen) out s := by
  induction rounds generalizing readAddr remainLen out s with
  | zero => rfl
  | succ rounds ih =>
      by_cases none : remainLen = 0
      · rw [readPieces, readPlan, if_pos none, if_pos none, copyPieces]
      · rw [readPieces, readPlan, if_neg none, if_neg none, copyPieces]
        exact ih _ _ _ _

/-- The pieces follow one another in the buffer, and each comes from another page than
the one before. -/
inductive InOrder : List Piece → ℕ → ℕ → Prop
  | nil (start : ℕ) : InOrder [] start start
  | cons {p : Piece} {ps : List Piece} {stop : ℕ} (pos : 0 < p.len)
      (other : ∀ q ∈ ps.head?, q.page ≠ p.page) (rest : InOrder ps (p.start + p.len) stop) :
      InOrder (p :: ps) p.start stop

theorem InOrder.start_le_stop {ps : List Piece} {start stop : ℕ} (h : InOrder ps start stop) :
    start ≤ stop := by
  induction h with
  | nil start => exact le_rfl
  | cons pos other rest ih => omega

/-- The page a plan begins with has the place in its block of the first address. -/
theorem page_of_head_readPlan {g : Geometry} {r : Ram} {len rounds readAddr remainLen : ℕ}
    {q : Piece} (hq : q ∈ (readPlan g r len rounds readAddr remainLen).head?) :
    q.page % pagePerBlock = readAddr / pageSize % pagePerBlock ∧ remainLen ≠ 0 := by
  cases rounds with
  | zero => cases hq
  | succ rounds =>
      by_cases none : remainLen = 0
      · rw [readPlan, if_pos none] at hq
        cases hq
      · rw [readPlan, if_neg none] at hq
        obtain rfl := Option.some.inj hq
        refine ⟨?_, none⟩
        show physicalAddr g r readAddr / pageSize % pagePerBlock = _
        rw [physicalAddr_div, Nat.mul_comm, Nat.mul_add_mod, Nat.mod_mod]

theorem readPlan_inOrder (g : Geometry) (r : Ram) {len rounds readAddr remainLen : ℕ}
    (enough : remainLen ≤ rounds) (within : remainLen ≤ len) :
    InOrder (readPlan g r len rounds readAddr remainLen) (len - remainLen) len := by
  induction rounds generalizing readAddr remainLen with
  | zero =>
      obtain rfl : remainLen = 0 := Nat.le_zero.mp enough
      exact .nil len
  | succ rounds ih =>
      by_cases none : remainLen = 0
      · rw [readPlan, if_pos none, none]
        exact .nil len
      · rw [readPlan, if_neg none]
        have inPage : physicalAddr g r readAddr % pageSize < pageSize := Nat.mod_lt _ (by decide)
        have piece := readDataLen_eq inPage remainLen
        have offset := physicalAddr_mod g r readAddr
        generalize hn : readDataLen (physicalAddr g r readAddr % pageSize) remainLen = n at piece
        have next := @ih (readAddr + n) (remainLen - n) (by omega) (by omega)
        rw [show len - (remainLen - n) = len - remainLen + n by omega] at next
        apply InOrder.cons
        · show 0 < readDataLen (physicalAddr g r readAddr % pageSize) remainLen
          omega
        · intro q hq same
          rw [hn] at hq
          obtain ⟨place, more⟩ := page_of_head_readPlan hq
          rw [same] at place
          change physicalAddr g r readAddr / pageSize % pagePerBlock = _ at place
          rw [physicalAddr_div, Nat.mul_comm, Nat.mul_add_mod, Nat.mod_mod] at place
          simp only [pageSize, pagePerBlock] at place piece inPage offset
          omega
        · rw [hn]
          exact next

/-! ## Two runs that differ in the page held -/

section TwoRuns

variable {env : Env} {ps : List Piece} {start stop : ℕ}

/-- The bytes before the pieces are left alone. -/
theorem InOrder.copyPieces_of_lt (h : InOrder ps start stop) (out : Bytes) (s : Spi) {i : ℕ}
    (hi : i < start) : (copyPieces env ps out s).1 i = out i := by
  induction h generalizing out s with
  | nil start => rfl
  | cons pos other rest ih =>
      rw [copyPieces, ih _ _ (by omega)]
      simp only [readPiece]
      rw [overlay_of_not_mem (by omega)]

/-- A byte of the first piece is the one the arrays hold for it. -/
theorem InOrder.copyPieces_head {p : Piece} (h : InOrder (p :: ps) start stop) (out : Bytes)
    (s : Spi) {i : ℕ} (hi : i < p.len) :
    (copyPieces env (p :: ps) out s).1 (start + i) =
      (spiNandReadPage env p.page s).2.cache.data (p.offset + i) := by
  cases h with
  | cons pos other rest =>
      rw [copyPieces, rest.copyPieces_of_lt _ _ (by omega)]
      simp only [readPiece]
      rw [overlay_of_mem (by omega), Nat.add_sub_cancel_left]

/-- The same array, the same page in memory. -/
structure SameHeld (s₁ s₂ : Spi) : Prop where
  chip : s₁.chip = s₂.chip
  pageNum : s₁.cache.pageNum = s₂.cache.pageNum
  data : s₁.cache.data = s₂.cache.data

theorem SameHeld.readPage {s₁ s₂ : Spi} (h : SameHeld s₁ s₂) (env : Env) (page : ℕ) :
    SameHeld (spiNandReadPage env page s₁).2 (spiNandReadPage env page s₂).2 := by
  rw [spiNandReadPage, spiNandReadPage, h.pageNum, h.chip]
  split_ifs
  · exact h
  · exact h
  · exact ⟨rfl, rfl, rfl⟩

/-- Nothing is given away once the page in memory is the same. -/
theorem InOrder.copyPieces_congr (h : InOrder ps start stop) {s₁ s₂ : Spi}
    (held : SameHeld s₁ s₂) (out₁ out₂ : Bytes) {i : ℕ} (low : start ≤ i) (high : i < stop) :
    (copyPieces env ps out₁ s₁).1 i = (copyPieces env ps out₂ s₂).1 i := by
  induction h generalizing s₁ s₂ out₁ out₂ with
  | nil start => omega
  | @cons p ps stop pos other rest ih =>
      have next := held.readPage env p.page
      by_cases here : i < p.start + p.len
      · obtain ⟨j, rfl⟩ := Nat.exists_eq_add_of_le low
        have whole := InOrder.cons pos other rest
        rw [whole.copyPieces_head out₁ s₁ (by omega), whole.copyPieces_head out₂ s₂ (by omega),
          next.data]
      · exact ih next _ _ (by omega) high

/-- The pieces before the first page that passes its check. -/
def failing (env : Env) (now : ℕ) (ps : List Piece) : List Piece :=
  ps.takeWhile fun p => env.uncorrectable now p.page

/-- Two runs return the same bytes if and only if the arrays agree on those used before a
page passes its check. -/
theorem InOrder.copyPieces_agree_iff (h : InOrder ps start stop) {s₁ s₂ : Spi}
    (chip : s₁.chip = s₂.chip) (current₁ : DataCurrent s₁) (current₂ : DataCurrent s₂)
    (out₁ out₂ : Bytes) :
    (∀ i, start ≤ i → i < stop →
        (copyPieces env ps out₁ s₁).1 i = (copyPieces env ps out₂ s₂).1 i) ↔
      ∀ p ∈ failing env s₁.chip.ticks ps, ∀ i < p.len,
        s₁.cache.data (p.offset + i) = s₂.cache.data (p.offset + i) := by
  induction h generalizing out₁ out₂ with
  | nil start =>
      apply iff_of_true
      · intro i low high
        omega
      · intro p hp
        cases hp
  | @cons p ps stop pos other rest ih =>
      have whole := InOrder.cons pos other rest
      cases passes : env.uncorrectable s₁.chip.ticks p.page with
      | false =>
          obtain ⟨chip₁, data₁, held₁⟩ := spiNandReadPage_of_passes current₁ passes
          have passes₂ : env.uncorrectable s₂.chip.ticks p.page = false := by rwa [← chip]
          obtain ⟨chip₂, data₂, held₂⟩ := spiNandReadPage_of_passes current₂ passes₂
          have held : SameHeld (spiNandReadPage env p.page s₁).2
              (spiNandReadPage env p.page s₂).2 := by
            constructor
            · rw [chip₁, chip₂, chip]
            · rw [held₁, held₂]
            · rw [data₁, data₂, chip]
          apply iff_of_true
          · intro i low high
            by_cases here : i < p.start + p.len
            · obtain ⟨j, rfl⟩ := Nat.exists_eq_add_of_le low
              rw [whole.copyPieces_head out₁ s₁ (by omega),
                whole.copyPieces_head out₂ s₂ (by omega), held.data]
            · exact rest.copyPieces_congr held _ _ (by omega) high
          · intro q hq
            rw [failing, List.takeWhile_cons, passes] at hq
            cases hq
      | true =>
          have kept₁ := spiNandReadPage_of_fails passes
          have fails₂ : env.uncorrectable s₂.chip.ticks p.page = true := by rwa [← chip]
          have kept₂ := spiNandReadPage_of_fails fails₂
          have later := ih (readPiece env p out₁ s₁).1 (readPiece env p out₂ s₂).1
          have cons : failing env s₁.chip.ticks (p :: ps) =
              p :: failing env s₁.chip.ticks ps := by
            rw [failing, List.takeWhile_cons, passes]
            rfl
          rw [cons, List.forall_mem_cons, ← later]
          have rest₁ : copyPieces env (p :: ps) out₁ s₁ =
              copyPieces env ps (readPiece env p out₁ s₁).1 s₁ := by
            rw [copyPieces, readPiece, kept₁]
          have rest₂ : copyPieces env (p :: ps) out₂ s₂ =
              copyPieces env ps (readPiece env p out₂ s₂).1 s₂ := by
            rw [copyPieces, readPiece, kept₂]
          have le_stop := rest.start_le_stop
          constructor
          · intro agree
            constructor
            · intro i hi
              have byte := agree (p.start + i) (by omega) (by omega)
              rwa [whole.copyPieces_head out₁ s₁ hi, whole.copyPieces_head out₂ s₂ hi, kept₁,
                kept₂] at byte
            · intro i low high
              rw [← rest₁, ← rest₂]
              exact agree i (by omega) high
          · rintro ⟨head, tail⟩ i low high
            by_cases here : i < p.start + p.len
            · obtain ⟨j, rfl⟩ := Nat.exists_eq_add_of_le low
              rw [whole.copyPieces_head out₁ s₁ (by omega),
                whole.copyPieces_head out₂ s₂ (by omega), kept₁, kept₂]
              exact head j (by omega)
            · rw [rest₁, rest₂]
              exact tail i (by omega) high

end TwoRuns

/-! ## Where the bytes come from -/

section Sources

variable {env : Env} {s : Spi} {ps : List Piece} {start stop : ℕ}

/-- Every page of the read passes its check; the first may be the page held instead. -/
def OwnPages (env : Env) (s : Spi) : List Piece → Prop
  | [] => True
  | p :: ps =>
      (env.uncorrectable s.chip.ticks p.page = false ∨ s.cache.pageNum = some p.page) ∧
        ∀ q ∈ ps, env.uncorrectable s.chip.ticks q.page = false

/-- A page is in memory after it has been read if and only if it passed its check or was in
memory before. -/
theorem pageNum_spiNandReadPage_iff (env : Env) (page : ℕ) (s : Spi) :
    (spiNandReadPage env page s).2.cache.pageNum = some page ↔
      env.uncorrectable s.chip.ticks page = false ∨ s.cache.pageNum = some page := by
  rw [spiNandReadPage]
  by_cases held : s.cache.pageNum = some page
  · rw [if_pos held]
    exact iff_of_true held (.inr held)
  · rw [if_neg held]
    cases env.uncorrectable s.chip.ticks page with
    | true => exact iff_of_false held (by simp [held])
    | false => exact iff_of_true rfl (.inl rfl)

/-- The page of a piece that is in memory is not that of the next piece. -/
theorem next_not_held {p : Piece} (other : ∀ q ∈ ps.head?, q.page ≠ p.page)
    (own : s.cache.pageNum = some p.page) : ∀ q ∈ ps.head?, s.cache.pageNum ≠ some q.page := by
  intro q hq same
  rw [own] at same
  exact other q hq (Option.some.inj same).symm

/-- Pieces whose first page is not the one held come from their own pages if and only if
all pages pass their checks. -/
theorem InOrder.sources_iff_of_ne (h : InOrder ps start stop)
    (ne : ∀ q ∈ ps.head?, s.cache.pageNum ≠ some q.page) :
    (∀ x ∈ sources env ps s, x.2 = some x.1) ↔
      ∀ q ∈ ps, env.uncorrectable s.chip.ticks q.page = false := by
  induction h generalizing s with
  | nil start => exact iff_of_true (fun x hx => by cases hx) (fun q hq => by cases hq)
  | @cons p ps stop pos other rest ih =>
      have notHeld := ne p rfl
      rw [sources, List.forall_mem_cons, List.forall_mem_cons]
      have first := pageNum_spiNandReadPage_iff env p.page s
      constructor
      · rintro ⟨own, later⟩
        have passes := (first.mp own).resolve_right notHeld
        have all := (ih (next_not_held other own)).mp later
        rw [spiNandReadPage_chip] at all
        exact ⟨passes, all⟩
      · rintro ⟨passes, all⟩
        have own := first.mpr (.inl passes)
        refine ⟨own, (ih (next_not_held other own)).mpr ?_⟩
        rwa [spiNandReadPage_chip]

theorem InOrder.sources_iff (h : InOrder ps start stop) :
    (∀ x ∈ sources env ps s, x.2 = some x.1) ↔ OwnPages env s ps := by
  cases h with
  | nil start => exact iff_of_true (fun x hx => by cases hx) trivial
  | @cons p ps stop pos other rest =>
      rw [sources, List.forall_mem_cons, OwnPages, ← pageNum_spiNandReadPage_iff env p.page s]
      apply and_congr_right
      intro own
      rw [rest.sources_iff_of_ne (next_not_held other own), spiNandReadPage_chip]

end Sources

/-! ## What a failed check gives away -/

/-- The pieces of `spi_nand_read_internal`. -/
def planOf (g : Geometry) (r : Ram) (addr len : ℕ) : List Piece :=
  readPlan g r len len (foldReserved addr) len

theorem planOf_inOrder (g : Geometry) (r : Ram) (addr len : ℕ) :
    InOrder (planOf g r addr len) 0 len := by
  have h : InOrder (planOf g r addr len) (len - len) len := readPlan_inOrder g r le_rfl le_rfl
  rwa [Nat.sub_self] at h

/-- Two runs from the same array with different pages in memory. On a page that fails its
check a check of a mark and a write behave alike, and a read of a range returns the same,
if and only if the arrays agree on the bytes of them that are used; and the bytes of a read,
which always answers `NO_ERROR`, come from the pages asked for if and only if every page
passes its check, save that the first may be the page in memory. -/
theorem ecc_failure_hidden_iff (env : Env) (g : Geometry) (r : Ram) {s₁ s₂ : Spi}
    (chip : s₁.chip = s₂.chip) (current₁ : DataCurrent s₁) (current₂ : DataCurrent s₂) :
    (∀ offset kind, env.uncorrectable s₁.chip.ticks (foldReserved offset / pageSize) = true →
      ((en7512NandCheckBlockBad env offset kind s₁).1 =
          (en7512NandCheckBlockBad env offset kind s₂).1 ↔
        (s₁.cache.oobMapping kind.index = 0xff ↔ s₂.cache.oobMapping kind.index = 0xff))) ∧
    (∀ page offset dat len oob oobLen, env.uncorrectable s₁.chip.ticks page = true →
      (spiNandWritePage env page offset dat len oob oobLen s₁).1 =
          (spiNandWritePage env page offset dat len oob oobLen s₂).1 ∧
        (SameContent (programmedContent env page offset dat len oob oobLen s₁)
            (programmedContent env page offset dat len oob oobLen s₂) ↔
          (∀ i < pageSize, ¬ (offset ≤ i ∧ i < offset + len) →
              s₁.cache.data i = s₂.cache.data i) ∧
            ∀ j < oobBufferSize, s₁.cache.oob j &&& oobMask env.layout oob oobLen j =
              s₂.cache.oob j &&& oobMask env.layout oob oobLen j)) ∧
    (∀ addr len out₁ out₂,
      (spiNandReadInternal env g r addr len out₁ s₁).1 =
          (spiNandReadInternal env g r addr len out₂ s₂).1 ∧
        ((∀ i < len, (spiNandReadInternal env g r addr len out₁ s₁).2.1 i =
            (spiNandReadInternal env g r addr len out₂ s₂).2.1 i) ↔
          ∀ p ∈ failing env s₁.chip.ticks (planOf g r addr len), ∀ i < p.len,
            s₁.cache.data (p.offset + i) = s₂.cache.data (p.offset + i))) ∧
    ∀ addr len out,
      ((spiNandReadInternal env g r addr len out s₁).1 = .noError →
          ∀ x ∈ sources env (planOf g r addr len) s₁, x.2 = some x.1) ↔
        OwnPages env s₁ (planOf g r addr len) := by
  refine ⟨?_, ?_, ?_, ?_⟩
  · intro offset kind fails
    have fails₂ : env.uncorrectable s₂.chip.ticks (foldReserved offset / pageSize) = true := by
      rwa [← chip]
    simp only [en7512NandCheckBlockBad, spiNandReadPage_of_fails fails,
      spiNandReadPage_of_fails fails₂]
    rw [Bool.eq_iff_iff, bne_iff_ne, bne_iff_ne]
    exact not_iff_not
  · intro page offset dat len oob oobLen fails
    have fails₂ : env.uncorrectable s₂.chip.ticks page = true := by rwa [← chip]
    constructor
    · simp only [spiNandWritePage, spiNandReadPage_of_fails fails,
        spiNandReadPage_of_fails fails₂, Chip.program, chip]
      cases env.outcome s₂.chip.ticks <;> rfl
    · rw [programmedContent_of_fails fails, programmedContent_of_fails fails₂]
      apply and_congr
      · apply forall₂_congr
        intro i _
        show overlay _ _ _ _ i = overlay _ _ _ _ i ↔ _
        by_cases written : offset ≤ i ∧ i < offset + len
        · rw [overlay_of_mem written, overlay_of_mem written]
          exact iff_of_true rfl fun other => absurd written other
        · rw [overlay_of_not_mem written, overlay_of_not_mem written]
          exact ⟨fun eq _ => eq, fun eq => eq written⟩
      · apply forall₂_congr
        intro j _
        show env.layout.scatter _ _ _ j = env.layout.scatter _ _ _ j ↔ _
        rw [scatter_eq_and_mask, scatter_eq_and_mask]
  · intro addr len out₁ out₂
    refine ⟨rfl, ?_⟩
    simp only [spiNandReadInternal, readPieces_eq_copyPieces]
    apply Iff.trans _ ((planOf_inOrder g r addr len).copyPieces_agree_iff chip current₁ current₂
      out₁ out₂)
    exact ⟨fun h i _ hi => h i hi, fun h i hi => h i (Nat.zero_le i) hi⟩
  · intro addr len out
    rw [← (planOf_inOrder g r addr len).sources_iff]
    exact forall_prop_of_true rfl

/-- Page 0 fails its check; page 1 holds sevens, page 2 nines. -/
def pageZeroFails : Env := { faultless with uncorrectable := fun _ page => page == 0 }

/-- An array with different pages, and the page in memory. -/
def holding (page : ℕ) (byte : UInt8) : Spi where
  chip := ⟨fun p => ⟨fun _ => if p = 1 then 7 else 9, allOnes⟩, 0⟩
  cache := ⟨some page, fun _ => byte, allOnes, allOnes⟩

theorem dataCurrent_holding_one : DataCurrent (holding 1 7) := by
  intro p hp
  obtain rfl := Option.some.inj hp
  rfl

theorem dataCurrent_holding_two : DataCurrent (holding 2 9) := by
  intro p hp
  obtain rfl := Option.some.inj hp
  rfl

/-- The first byte of page 0 cannot be hidden from these two runs. -/
theorem ecc_failure_not_hidden_zero :
    ¬ ∀ i < 1, (spiNandReadInternal pageZeroFails eightBlocks unmappedRam 0 1 allOnes
        (holding 1 7)).2.1 i =
      (spiNandReadInternal pageZeroFails eightBlocks unmappedRam 0 1 allOnes
        (holding 2 9)).2.1 i := by
  have chip : (holding 1 7).chip = (holding 2 9).chip := rfl
  have hidden := ((ecc_failure_hidden_iff pageZeroFails eightBlocks unmappedRam chip
    dataCurrent_holding_one dataCurrent_holding_two).2.2.1 0 1 allOnes allOnes).2
  rw [hidden]
  intro agree
  have piece : failing pageZeroFails (holding 1 7).chip.ticks (planOf eightBlocks unmappedRam 0 1) =
      [⟨0, 0, 0, 1⟩] := by decide +kernel
  rw [piece, List.forall_mem_singleton] at agree
  have byte : (7 : UInt8) = 9 := agree 0 Nat.one_pos
  exact absurd byte (by decide)

/-- A read of page 0 answers `NO_ERROR` and returns the byte of the page held before. -/
theorem spiNandReadInternal_leaks :
    (spiNandReadInternal pageZeroFails eightBlocks unmappedRam 0 1 allOnes (holding 1 7)).1 =
        .noError ∧
      (spiNandReadInternal pageZeroFails eightBlocks unmappedRam 0 1 allOnes
        (holding 1 7)).2.1 0 = 7 ∧
      (spiNandReadInternal pageZeroFails eightBlocks unmappedRam 0 1 allOnes
        (holding 2 9)).2.1 0 = 9 ∧
      sources pageZeroFails (planOf eightBlocks unmappedRam 0 1) (holding 1 7) =
        [(0, some 1)] := by
  exact ⟨rfl, by decide +kernel, by decide +kernel, by decide +kernel⟩

end En7512.Flash
