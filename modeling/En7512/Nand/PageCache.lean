/-
# The page in memory against a driver without one

The bad-block layer calls five functions. This module compares a run of such
calls with the run of a driver that drops the page in memory before each call
and so reads the chip every time.

The two agree as long as the page in memory is not used after it has gone
stale. Whether that happens can be read off the calls and the outcomes of the
operations alone: `track` follows which page is in memory and what has been
done to it since it was loaded, and `Unshadowed` says that no call needs more of
it than is still good. A mark followed at once by the check of the same block
is the shortest run that does.
-/

import En7512.Nand.SpiNand

namespace En7512.Nand

open En7512.Logic

variable (env : Env)

/-- The five functions the bad-block layer calls. -/
inductive NandCall
  /-- `en7512_nand_exec_read_page`. -/
  | execReadPage (page : ℕ)
  /-- `en7512_nand_exec_write_page`. -/
  | execWritePage (page : ℕ) (dat oob : Bytes)
  /-- `en7512_nand_erase`. -/
  | erase (offset : ℕ)
  /-- `en7512_nand_check_block_bad`. -/
  | checkBlockBad (offset : ℕ) (kind : BadKind)
  /-- `en7512_nand_mark_badblock`. -/
  | markBadblock (offset : ℕ) (kind : BadKind)

/-- The operation of the page layer behind each call. -/
def NandCall.op : NandCall → NandOp
  | .execReadPage page => .readPage page
  | .execWritePage page dat oob => .writePage page 0 dat pageSize oob oobBufferSize
  | .erase offset => .eraseBlock (offset / eraseSize)
  | .checkBlockBad offset kind => .checkBlockBad offset kind
  | .markBadblock offset kind => .markBadblock offset kind

/-- What the caller of one of the functions gets back. -/
inductive Answer
  | page (content : Option (Bytes × Bytes))
  | flag (value : Bool)
  | unit

/-- The answer of an operation, forgetting which operation it was. -/
def answerOf : (op : NandOp) → NandResp op → Answer
  | .readPage _, content => .page content
  | .checkBlockBad _ _, value => .flag value
  | .markBadblock _ _, value => .flag value
  | .eraseBlock _, value => .flag value
  | .writePage _ _ _ _ _ _, value => .flag value
  | .clearCache, _ => .unit

/-- Make the calls in order and collect the answers. -/
def runCalls (M : Machine NandOp NandResp Spi) : List NandCall → Spi → List Answer × Spi
  | [], s => ([], s)
  | call :: calls, s =>
      let out := M call.op s
      let rest := runCalls M calls out.2
      (answerOf call.op out.1 :: rest.1, rest.2)

/-- The driver without a page in memory: each call starts by dropping it. -/
def uncachedMachine : Machine NandOp NandResp Spi :=
  fun op s => nandMachine env op (clearReadCacheData s)

/-! ## What is still good of the page in memory -/

/-- How much of the arrays still describes the page on the chip. -/
inductive Level
  /-- Loaded, and nothing has happened to the page since. -/
  | clean
  /-- Programmed since: data and physical spare area are as programmed, the
  logical spare area is the one from before. -/
  | written
  /-- A program failed, or the block has been erased: nothing is known. -/
  | broken
  deriving DecidableEq, Repr

/-- Which page is in memory, and how good the copy is. -/
abbrev Held : Type := Option (ℕ × Level)

/-- The state after the page has been asked for. -/
def Held.load (page : ℕ) : Held → Held
  | some (p, level) => if p = page then some (p, level) else some (page, .clean)
  | none => some (page, .clean)

/-- The state after the loaded page has been programmed. -/
def Held.program (outcome : Outcome) : Held → Held
  | some (p, level) =>
      match outcome, level with
      | .done, .broken => some (p, .broken)
      | .done, _ => some (p, .written)
      | .fail _, _ => some (p, .broken)
  | none => none

/-- The state after a block has been erased. -/
def Held.erase (block : ℕ) : Held → Held
  | some (p, level) => if p / pagePerBlock = block then some (p, .broken) else some (p, level)
  | none => none

/-- The page a call asks for, and whether it is going to be programmed. -/
def NandOp.access : NandOp → Option (ℕ × Bool)
  | .readPage page => some (page, false)
  | .checkBlockBad offset _ => some (foldReserved offset / pageSize, false)
  | .markBadblock offset _ => some (offset / pageSize, true)
  | .writePage page _ _ _ _ _ => some (page, true)
  | .eraseBlock _ => none
  | .clearCache => none

/-- Operations that the chip counts. -/
def NandOp.ticks : NandOp → ℕ
  | .markBadblock _ _ => 1
  | .writePage _ _ _ _ _ _ => 1
  | .eraseBlock _ => 1
  | _ => 0

/-- Follow one operation; `outcome` is the one the chip gives it, if it is
counted. -/
def Held.track (outcome : Outcome) (op : NandOp) (held : Held) : Held :=
  match op with
  | .readPage page => held.load page
  | .checkBlockBad offset _ => held.load (foldReserved offset / pageSize)
  | .markBadblock offset _ => (held.load (offset / pageSize)).program outcome
  | .writePage page _ _ _ _ _ => (held.load page).program outcome
  | .eraseBlock block => held.erase block
  | .clearCache => none

/-- A read or a check needs a clean copy. A program needs the data and the
physical spare area only, so a copy that has been programmed will do. -/
def Held.Serves (held : Held) (op : NandOp) : Prop :=
  match op.access, held with
  | some (page, false), some (p, level) => p = page → level = .clean
  | some (page, true), some (p, level) => p = page → level ≠ .broken
  | _, _ => True

/-- No call of the run is answered from a copy that is no longer good enough
for it. Only the calls and the outcomes of the operations enter. -/
def Unshadowed (env : Env) : ℕ → Held → List NandCall → Prop
  | _, _, [] => True
  | ticks, held, call :: calls =>
      held.Serves call.op ∧
        Unshadowed env (ticks + call.op.ticks) (held.track (env.outcome ticks) call.op) calls

/-! ## The simulation -/

/-- The copy in memory is as good as the level says. -/
def Held.Describes (held : Held) (s : Spi) : Prop :=
  match held with
  | none => s.cache.pageNum = none
  | some (p, .clean) =>
      s.cache.pageNum = some p ∧ s.cache.data = (s.chip.pages p).data ∧
        s.cache.oob = (s.chip.pages p).oob ∧
        ∀ i < env.layout.oobsize, s.cache.oobMapping i = (s.chip.pages p).oob (env.layout.pos i)
  | some (p, .written) =>
      s.cache.pageNum = some p ∧ s.cache.oob = (s.chip.pages p).oob ∧
        ∀ i, (s.chip.pages p).data i &&& s.cache.data i = (s.chip.pages p).data i
  | some (p, .broken) => s.cache.pageNum = some p

/-- The two drivers see the same array, and the logical spare bytes that no
layout position fills are the same in both. -/
structure SameChip (s u : Spi) : Prop where
  chip : s.chip = u.chip
  tail : ∀ i, env.layout.oobsize ≤ i → s.cache.oobMapping i = u.cache.oobMapping i

section Simulation

variable {env}
variable (readable : ∀ t p, env.uncorrectable t p = false)

theorem spiNandReadPage_of_held {page : ℕ} {s : Spi} (h : s.cache.pageNum = some page) :
    spiNandReadPage env page s = (.noError, s) := if_pos h

/-- What memory holds after the page has been loaded from the chip. -/
def loaded (env : Env) (page : ℕ) (s : Spi) : Spi :=
  ⟨s.chip, ⟨some page, (s.chip.pages page).data, (s.chip.pages page).oob,
    env.layout.gather (s.chip.pages page).oob s.cache.oobMapping⟩⟩

include readable in
theorem spiNandReadPage_of_other {page : ℕ} {s : Spi} (h : s.cache.pageNum ≠ some page) :
    spiNandReadPage env page s = (.noError, loaded env page s) := by
  simp [spiNandReadPage, loaded, h, readable]

include readable in
/-- The uncached driver always loads the page. -/
theorem spiNandReadPage_clear (page : ℕ) (s : Spi) :
    spiNandReadPage env page (clearReadCacheData s) = (.noError, loaded env page s) :=
  spiNandReadPage_of_other readable (by simp [clearReadCacheData])

theorem describes_loaded (page : ℕ) (s : Spi) :
    Held.Describes env (some (page, .clean)) (loaded env page s) :=
  ⟨rfl, rfl, rfl, fun _ hi => env.layout.gather_of_lt hi⟩

/-- A clean copy is what loading the page would give. -/
theorem loaded_eq_of_clean {page : ℕ} {s u : Spi}
    (clean : Held.Describes env (some (page, .clean)) s) (same : SameChip env s u) :
    s = loaded env page u := by
  obtain ⟨pageNum, data, oob, mapping⟩ := clean
  have hmapping : s.cache.oobMapping =
      env.layout.gather (u.chip.pages page).oob u.cache.oobMapping := by
    funext i
    by_cases hi : i < env.layout.oobsize
    · rw [env.layout.gather_of_lt hi, mapping i hi, same.chip]
    · rw [OobLayout.gather, if_neg hi]
      exact same.tail i (by omega)
  rcases s with ⟨chip, ⟨pn, d, o, m⟩⟩
  rcases u with ⟨chip', cache'⟩
  obtain rfl : chip = chip' := same.chip
  simp only at pageNum data oob hmapping
  simp [loaded, pageNum, data, oob, hmapping]

theorem loaded_congr {page : ℕ} {s u : Spi} (same : SameChip env s u) :
    loaded env page s = loaded env page u := by
  have hmapping : env.layout.gather (s.chip.pages page).oob s.cache.oobMapping =
      env.layout.gather (u.chip.pages page).oob u.cache.oobMapping := by
    funext i
    simp only [OobLayout.gather, same.chip]
    split
    · rfl
    · exact same.tail i (by omega)
  simp only [loaded, hmapping]
  simp only [same.chip]

include readable in
/-- Asking for a page of which the copy, if there is one, is clean. -/
theorem read_agrees {held : Held} {page : ℕ} {s u : Spi} (describes : held.Describes env s)
    (same : SameChip env s u)
    (serves : ∀ p level, held = some (p, level) → p = page → level = .clean) :
    spiNandReadPage env page s = (.noError, loaded env page u) ∧
      held.load page = some (page, .clean) := by
  rcases held with _ | ⟨p, level⟩
  · have other : s.cache.pageNum ≠ some page := by
      rw [show s.cache.pageNum = none from describes]
      simp
    exact ⟨by rw [spiNandReadPage_of_other readable other, loaded_congr same], rfl⟩
  · by_cases hp : p = page
    · subst hp
      obtain rfl := serves p level rfl rfl
      refine ⟨?_, by simp [Held.load]⟩
      rw [spiNandReadPage_of_held describes.1]
      rw [← loaded_eq_of_clean describes same]
    · have pageNum : s.cache.pageNum = some p := by
        cases level with
        | clean => exact describes.1
        | written => exact describes.1
        | broken => exact describes
      have other : s.cache.pageNum ≠ some page := by
        rw [pageNum]
        simpa using hp
      exact ⟨by rw [spiNandReadPage_of_other readable other, loaded_congr same],
        by simp [Held.load, hp]⟩

/-- A copy good enough to program the page from. -/
structure Programmable (env : Env) (page : ℕ) (s : Spi) : Prop where
  pageNum : s.cache.pageNum = some page
  oob : s.cache.oob = (s.chip.pages page).oob
  data : ∀ i, (s.chip.pages page).data i &&& s.cache.data i = (s.chip.pages page).data i

theorem programmable_of_clean {page : ℕ} {s : Spi}
    (clean : Held.Describes env (some (page, .clean)) s) : Programmable env page s :=
  ⟨clean.1, clean.2.2.1, fun i => by rw [clean.2.1, UInt8.and_self]⟩

include readable in
/-- Asking for a page in order to program it. -/
theorem read_for_write {held : Held} {page : ℕ} {s u : Spi} (describes : held.Describes env s)
    (same : SameChip env s u)
    (serves : ∀ p level, held = some (p, level) → p = page → level ≠ .broken) :
    Programmable env page (spiNandReadPage env page s).2 ∧
      SameChip env (spiNandReadPage env page s).2 u ∧
      ∃ level, held.load page = some (page, level) ∧ level ≠ .broken := by
  by_cases written : held = some (page, .written)
  · subst written
    rw [spiNandReadPage_of_held describes.1]
    exact ⟨⟨describes.1, describes.2.1, describes.2.2⟩, same, .written,
      by simp [Held.load], by simp⟩
  · have clean : ∀ p level, held = some (p, level) → p = page → level = .clean := by
      rintro p level rfl rfl
      cases level with
      | clean => rfl
      | written => exact absurd rfl written
      | broken => exact absurd rfl (serves _ _ rfl rfl)
    obtain ⟨read, load⟩ := read_agrees readable describes same clean
    rw [read]
    refine ⟨programmable_of_clean (describes_loaded page u), ⟨rfl, fun i hi => ?_⟩, .clean,
      load, by simp⟩
    simp only [loaded, OobLayout.gather, if_neg (not_lt.mpr hi)]

/-- The page the cached driver programs and the one the uncached driver
programs leave the same content on the chip: where they differ, the cached one
only repeats bits that are clear already. -/
theorem and_overlay_eq {old cached : Bytes} (sub : ∀ i, old i &&& cached i = old i)
    (dataOffset : ℕ) (dat : Bytes) (dataLen i : ℕ) :
    old i &&& overlay cached dataOffset dat dataLen i =
      old i &&& overlay old dataOffset dat dataLen i := by
  by_cases hi : dataOffset ≤ i ∧ i < dataOffset + dataLen
  · rw [overlay_of_mem hi, overlay_of_mem hi]
  · rw [overlay_of_not_mem hi, overlay_of_not_mem hi, sub, UInt8.and_self]

include readable in
theorem write_agrees {held : Held} {page : ℕ} {s u : Spi} (describes : held.Describes env s)
    (same : SameChip env s u)
    (serves : ∀ p level, held = some (p, level) → p = page → level ≠ .broken)
    (dataOffset : ℕ) (dat : Bytes) (dataLen : ℕ) (oob : Bytes) (oobLen : ℕ) :
    let out := spiNandWritePage env page dataOffset dat dataLen oob oobLen s
    let ref := spiNandWritePage env page dataOffset dat dataLen oob oobLen (clearReadCacheData u)
    out.1 = ref.1 ∧ SameChip env out.2 ref.2 ∧
      ((held.load page).program (env.outcome s.chip.ticks)).Describes env out.2 := by
  obtain ⟨ready, chipEq, level, load, good⟩ := read_for_write readable describes same serves
  have ticks : (spiNandReadPage env page s).2.chip.ticks = s.chip.ticks := by
    rw [chipEq.chip, same.chip]
  rw [load]
  simp only [spiNandWritePage, spiNandReadPage_clear readable]
  generalize (spiNandReadPage env page s).2 = s₁ at ready chipEq ticks
  have pages : s₁.chip = u.chip := chipEq.chip
  have tail : ∀ i, env.layout.oobsize ≤ i → s₁.cache.oobMapping i =
      env.layout.gather s₁.cache.oob u.cache.oobMapping i := fun i hi => by
    rw [OobLayout.gather, if_neg (not_lt.mpr hi), chipEq.tail i hi]
  simp only [Chip.program, loaded, ← pages, ticks, ← ready.oob]
  cases env.outcome s.chip.ticks with
  | done =>
      dsimp only
      have merged : ∀ i, (s₁.chip.pages page).data i &&&
          overlay s₁.cache.data dataOffset dat dataLen i =
          (s₁.chip.pages page).data i &&&
            overlay (s₁.chip.pages page).data dataOffset dat dataLen i :=
        and_overlay_eq ready.data dataOffset dat dataLen
      have clears : ∀ j, s₁.cache.oob j &&& env.layout.scatter s₁.cache.oob oob oobLen j =
          env.layout.scatter s₁.cache.oob oob oobLen j := fun j => by
        simp only [OobLayout.scatter]
        split
        · rw [byte_and_self_assoc]
        · rw [UInt8.and_self]
      refine ⟨rfl, ⟨?_, tail⟩, ?_⟩
      · simp only [Chip.mk.injEq, and_true]
        funext p
        split
        · next hp =>
            subst hp
            exact Page.ext (funext merged) rfl
        · rfl
      · have described : Held.Describes env (some (page, .written))
            ⟨⟨fun p => if p = page then (s₁.chip.pages p).and
                ⟨overlay s₁.cache.data dataOffset dat dataLen,
                  env.layout.scatter s₁.cache.oob oob oobLen⟩ else s₁.chip.pages p,
                s.chip.ticks + 1⟩,
              { s₁.cache with
                data := overlay s₁.cache.data dataOffset dat dataLen
                oob := env.layout.scatter s₁.cache.oob oob oobLen }⟩ := by
          refine ⟨ready.pageNum, ?_, fun i => ?_⟩
          · funext j
            simp [← ready.oob, clears]
          · simp only [if_true, Page.and_data]
            rw [UInt8.and_assoc, UInt8.and_self]
        cases level with
        | clean => exact described
        | written => exact described
        | broken => exact absurd rfl good
  | fail left =>
      dsimp only
      refine ⟨rfl, ⟨rfl, tail⟩, ?_⟩
      cases level <;> exact ready.pageNum

theorem spiNandReadPage_chip (page : ℕ) (s : Spi) :
    (spiNandReadPage env page s).2.chip = s.chip := by
  simp only [spiNandReadPage]
  split
  · rfl
  · split <;> rfl

theorem Chip.program_ticks (page : ℕ) (new : Page) (c : Chip) :
    (c.program env page new).2.ticks = c.ticks + 1 := by
  simp only [Chip.program]
  split <;> rfl

theorem Chip.eraseBlock_ticks (block : ℕ) (c : Chip) :
    (c.eraseBlock env block).2.ticks = c.ticks + 1 := by
  simp only [Chip.eraseBlock]
  split <;> rfl

theorem spiNandWritePage_ticks (page dataOffset : ℕ) (dat : Bytes) (dataLen : ℕ) (oob : Bytes)
    (oobLen : ℕ) (s : Spi) :
    (spiNandWritePage env page dataOffset dat dataLen oob oobLen s).2.chip.ticks =
      s.chip.ticks + 1 := by
  simp only [spiNandWritePage, Chip.program_ticks, spiNandReadPage_chip]

/-- Erasing does not ask for a page, so the answers agree whatever is in memory. -/
theorem erase_agrees {held : Held} {s u : Spi} (describes : held.Describes env s)
    (same : SameChip env s u) (block : ℕ) :
    let out := spiNandEraseBlock env block s
    let ref := spiNandEraseBlock env block (clearReadCacheData u)
    out.1 = ref.1 ∧ SameChip env out.2 ref.2 ∧ (held.erase block).Describes env out.2 := by
  have chipEq : s.chip = (clearReadCacheData u).chip := same.chip
  simp only [spiNandEraseBlock, ← chipEq]
  refine ⟨trivial, ⟨rfl, same.tail⟩, ?_⟩
  have untouched : ∀ p, p / pagePerBlock ≠ block →
      (s.chip.eraseBlock env block).2.pages p = s.chip.pages p := fun p hp => by
    simp only [Chip.eraseBlock]
    split <;> exact if_neg hp
  rcases held with _ | ⟨p, level⟩
  · exact describes
  · simp only [Held.erase]
    split
    · cases level with
      | clean => exact describes.1
      | written => exact describes.1
      | broken => exact describes
    · next hp =>
        cases level with
        | clean => simpa only [Held.Describes, untouched p hp] using describes
        | written => simpa only [Held.Describes, untouched p hp] using describes
        | broken => exact describes

include readable in
/-- One operation: the same answer, the same array, and a copy as good as `track`
says. -/
theorem op_agrees {held : Held} {s u : Spi} (describes : held.Describes env s)
    (same : SameChip env s u) (op : NandOp) (serves : held.Serves op) :
    let out := nandMachine env op s
    let ref := uncachedMachine env op u
    out.1 = ref.1 ∧ SameChip env out.2 ref.2 ∧
      (held.track (env.outcome s.chip.ticks) op).Describes env out.2 ∧
      out.2.chip.ticks = s.chip.ticks + op.ticks := by
  cases op with
  | readPage page =>
      have clean : ∀ p level, held = some (p, level) → p = page → level = .clean := by
        rintro p level rfl
        exact serves
      obtain ⟨read, load⟩ := read_agrees readable describes same clean
      simp only [nandMachine, uncachedMachine, en7512NandExecReadPage, read,
        spiNandReadPage_clear readable, Held.track, load]
      exact ⟨trivial, ⟨rfl, fun _ _ => rfl⟩, describes_loaded page u, by rw [same.chip]; rfl⟩
  | checkBlockBad offset kind =>
      have clean : ∀ p level, held = some (p, level) →
          p = foldReserved offset / pageSize → level = .clean := by
        rintro p level rfl
        exact serves
      obtain ⟨read, load⟩ := read_agrees readable describes same clean
      simp only [nandMachine, uncachedMachine, en7512NandCheckBlockBad, read,
        spiNandReadPage_clear readable, Held.track, load]
      exact ⟨trivial, ⟨rfl, fun _ _ => rfl⟩, describes_loaded _ u, by rw [same.chip]; rfl⟩
  | writePage page dataOffset dat dataLen oob oobLen =>
      have usable : ∀ p level, held = some (p, level) → p = page → level ≠ .broken := by
        rintro p level rfl
        exact serves
      obtain ⟨rtn, after, good⟩ :=
        write_agrees readable describes same usable dataOffset dat dataLen oob oobLen
      simp only [nandMachine, uncachedMachine, Held.track, rtn]
      exact ⟨trivial, after, good, spiNandWritePage_ticks ..⟩
  | markBadblock offset kind =>
      have usable : ∀ p level, held = some (p, level) →
          p = offset / pageSize → level ≠ .broken := by
        rintro p level rfl
        exact serves
      obtain ⟨rtn, after, good⟩ :=
        write_agrees readable describes same usable 0 allOnes 0 kind.mark 8
      simp only [nandMachine, uncachedMachine, en7512NandMarkBadblock, Held.track, rtn]
      exact ⟨trivial, after, good, spiNandWritePage_ticks ..⟩
  | eraseBlock block =>
      obtain ⟨rtn, after, good⟩ := erase_agrees describes same block
      simp only [nandMachine, uncachedMachine, Held.track, rtn]
      exact ⟨trivial, after, good, Chip.eraseBlock_ticks ..⟩
  | clearCache => exact ⟨rfl, ⟨same.chip, same.tail⟩, rfl, rfl⟩

include readable in
/-- A run of calls. -/
theorem runCalls_agrees (calls : List NandCall) {held : Held} {s u : Spi}
    (describes : held.Describes env s) (same : SameChip env s u)
    (unshadowed : Unshadowed env s.chip.ticks held calls) :
    (runCalls (nandMachine env) calls s).1 = (runCalls (uncachedMachine env) calls u).1 ∧
      (runCalls (nandMachine env) calls s).2.chip =
        (runCalls (uncachedMachine env) calls u).2.chip := by
  induction calls generalizing held s u with
  | nil => exact ⟨rfl, same.chip⟩
  | cons call calls ih =>
      obtain ⟨answer, after, describes', ticks⟩ :=
        op_agrees readable describes same call.op unshadowed.1
      have rest := ih describes' after (by rw [ticks]; exact unshadowed.2)
      simp only [runCalls, answer, rest.1, rest.2, and_self]

end Simulation

/-! ## The check that follows a mark -/

section CheckAfterMark

variable {env}
variable (readable : ∀ t p, env.uncorrectable t p = false)

include readable in
/-- Asking for a page puts it into memory. -/
theorem spiNandReadPage_pageNum (page : ℕ) (s : Spi) :
    (spiNandReadPage env page s).2.cache.pageNum = some page := by
  by_cases held : s.cache.pageNum = some page
  · rw [spiNandReadPage_of_held held]
    exact held
  · rw [spiNandReadPage_of_other readable held]
    rfl

include readable in
/-- The mark does not reach the logical spare area in memory, from which the
next check of the block is answered: it says what it would have said before. -/
theorem check_after_mark {offset : ℕ} (unfolded : foldReserved offset = offset) (kind : BadKind)
    (s : Spi) :
    (en7512NandCheckBlockBad env offset kind (en7512NandMarkBadblock env offset kind s).2).1 =
      (en7512NandCheckBlockBad env offset kind s).1 := by
  have held := spiNandReadPage_pageNum readable (offset / pageSize) s
  simp only [en7512NandCheckBlockBad, en7512NandMarkBadblock, spiNandWritePage, unfolded]
  generalize (spiNandReadPage env (offset / pageSize) s).2 = t at held
  rw [spiNandReadPage_of_held (by exact held)]

include readable in
/-- Without a page in memory, the check sees every mark that succeeded. -/
theorem uncached_check_after_mark {offset : ℕ} (unfolded : foldReserved offset = offset)
    (kind : BadKind) (s : Spi)
    (marked : (uncachedMachine env (.markBadblock offset kind) s).1 = true) :
    (uncachedMachine env (.checkBlockBad offset kind)
      (uncachedMachine env (.markBadblock offset kind) s).2).1 = true := by
  have inside : kind.index < env.layout.oobsize := by
    have room := env.layout.room
    cases kind <;> simp only [BadKind.index] <;> omega
  have short : kind.index < 8 := by cases kind <;> decide
  simp only [uncachedMachine, nandMachine, en7512NandMarkBadblock, spiNandWritePage,
    spiNandReadPage_clear readable, Chip.program] at marked ⊢
  cases hout : env.outcome s.chip.ticks with
  | fail left => simp [loaded, hout] at marked
  | done =>
      simp only [en7512NandCheckBlockBad, unfolded, spiNandReadPage_clear readable, loaded, hout,
        env.layout.gather_of_lt inside, if_true, Page.and_oob, env.layout.scatter_pos _ _ _ inside,
        short]
      simp [BadKind.mark]

end CheckAfterMark

/-- From a cold start, calls that never need more of the page in memory than is
still good get the answers of the driver without one and leave the same array.
The answer of a check right after a mark is the one from before the mark,
whereas the driver without a page in memory answers bad. -/
theorem page_cache_invisible (env : Env) (readable : ∀ t p, env.uncorrectable t p = false) :
    (∀ (s : Spi) (calls : List NandCall), s.cache.pageNum = none →
      Unshadowed env s.chip.ticks none calls →
        (runCalls (nandMachine env) calls s).1 = (runCalls (uncachedMachine env) calls s).1 ∧
        (runCalls (nandMachine env) calls s).2.chip =
          (runCalls (uncachedMachine env) calls s).2.chip) ∧
    ∀ (s : Spi) (offset : ℕ) (kind : BadKind), foldReserved offset = offset →
      (nandMachine env (.checkBlockBad offset kind)
        (nandMachine env (.markBadblock offset kind) s).2).1 =
          (nandMachine env (.checkBlockBad offset kind) s).1 ∧
      ((uncachedMachine env (.markBadblock offset kind) s).1 = true →
        (uncachedMachine env (.checkBlockBad offset kind)
          (uncachedMachine env (.markBadblock offset kind) s).2).1 = true) := by
  constructor
  · intro s calls cold unshadowed
    have describes : Held.Describes env none s := cold
    exact runCalls_agrees readable calls describes ⟨rfl, fun _ _ => rfl⟩ unshadowed
  · intro s offset kind unfolded
    exact ⟨check_after_mark readable unfolded kind s,
      uncached_check_after_mark readable unfolded kind s⟩

/-- A chip on which every operation succeeds. -/
def faultless : Env where
  layout := ooblayoutMxic
  outcome := fun _ => .done
  uncorrectable := fun _ _ => false

/-- The driver just loaded, on an erased array. -/
def blankSpi : Spi := ⟨⟨fun _ => .erased, 0⟩, .initial⟩

/-- Two blocks are checked, one is marked, and after the other has been checked
again the mark is seen. -/
theorem page_cache_invisible_run :
    (runCalls (nandMachine faultless) [.checkBlockBad 0 .raw, .markBadblock 0 .raw,
      .checkBlockBad 131072 .raw, .checkBlockBad 0 .raw] blankSpi).1 =
    (runCalls (uncachedMachine faultless) [.checkBlockBad 0 .raw, .markBadblock 0 .raw,
      .checkBlockBad 131072 .raw, .checkBlockBad 0 .raw] blankSpi).1 := by
  refine ((page_cache_invisible faultless fun _ _ => rfl).1 blankSpi _ rfl ?_).1
  simp [Unshadowed, Held.Serves, Held.track, Held.load, Held.program, NandCall.op, NandOp.access,
    faultless, foldReserved, pageSize]

/-- A block is marked and checked at once. -/
theorem mark_then_check_shadowed :
    (runCalls (nandMachine faultless) [.markBadblock 0 .raw, .checkBlockBad 0 .raw] blankSpi).1 ≠
      (runCalls (uncachedMachine faultless) [.markBadblock 0 .raw, .checkBlockBad 0 .raw]
        blankSpi).1 := by
  have cached : (runCalls (nandMachine faultless)
      [.markBadblock 0 .raw, .checkBlockBad 0 .raw] blankSpi).1 = [.flag true, .flag false] := rfl
  have uncached : (runCalls (uncachedMachine faultless)
      [.markBadblock 0 .raw, .checkBlockBad 0 .raw] blankSpi).1 = [.flag true, .flag true] := rfl
  rw [cached, uncached]
  simp

end En7512.Nand
