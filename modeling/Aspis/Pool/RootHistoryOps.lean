import Aspis.Pool.RootHistoryPage

/-! The operations on a root-history page, made twice: in place on the account
bytes, and on the value model. A third account of them keeps only the list of
retained roots. A page is initialized, extended by the root of the next sequence
number, and read by sequence number; the three accounts agree along every run,
whatever the bytes were to begin with. -/

namespace Aspis.Pool

open Lib Chain Statement

/-- A digest of field elements in their canonical representation. -/
abbrev CanonicalDigest := {d : Digest // DigestIsCanonical d}

/-! ### In place -/

/-- The sum with the filled count, when it fits a word. -/
def expectedSequence (header : RootHistoryPageHeaderV1) : Except PoolV1RootHistoryError ℕ := do
  require (header.firstSequence + header.filled < U64_LIMIT) .sequenceOverflow
  return header.firstSequence + header.filled

def initializeRootHistoryPageBytesV1 (pool : Pubkey) (pageNumber : ℕ) (roots : List Digest) :
    Exec PoolV1RootHistoryError Bytes RootHistoryPageHeaderV1 := do
  Exec.query fun bytes => require (bytes.length = POOL_V1_ROOT_HISTORY_PAGE_ACCOUNT_BYTES) .wrongLength
  Exec.query fun _ => require (roots.length ≤ POOL_V1_ROOT_HISTORY_CAPACITY) .pageFull
  let firstSequence ← Exec.query fun _ => expectedFirstSequence pageNumber
  Exec.update fun bytes => zeros bytes.length
  Exec.update (patch 0 ASPR)
  Exec.update (patch 4 [1])
  Exec.update (patch 5 [8])
  Exec.update (patch 6 [1])
  Exec.update (patch 8 pool.bytes)
  Exec.update (patch 40 (leBytes 8 pageNumber))
  Exec.update (patch 48 (leBytes 8 firstSequence))
  Exec.update (patch 56 (leBytes 2 roots.length))
  Exec.update (writeRoots 0 roots)
  return ⟨pool, pageNumber, firstSequence, roots.length⟩

def appendRootHistoryPageBytesV1 (sequence : ℕ) (root : Digest) :
    Exec PoolV1RootHistoryError Bytes RootHistoryLocationV1 := do
  let header ← Exec.query validateRootHistoryPageBytesV1
  Exec.query fun _ => require (header.filled ≠ POOL_V1_ROOT_HISTORY_CAPACITY) .pageFull
  Exec.query fun _ => require ((rootHistoryLocation sequence).pageNumber = header.pageNumber) .wrongPage
  let expected ← Exec.query fun _ => expectedSequence header
  Exec.query fun _ => require (sequence = expected) .outOfOrder
  Exec.update (patch (64 + 32 * (rootHistoryLocation sequence).slot) (encodeDigestCanonical root))
  Exec.update (patch 56 (leBytes 2 (header.filled + 1)))
  return rootHistoryLocation sequence

def readRootHistoryPageRootV1 (bytes : Bytes) (sequence : ℕ) : Except PoolV1RootHistoryError Digest := do
  let header ← validateRootHistoryPageBytesV1 bytes
  let location := rootHistoryLocation sequence
  require (location.pageNumber = header.pageNumber ∧ location.slot < header.filled) .wrongPage
  okOr (slotRoot bytes location.slot) .nonCanonicalDigest

/-! ### On the value -/

namespace RootHistoryPageV1

def new (pool : Pubkey) (pageNumber : ℕ) : Except PoolV1RootHistoryError RootHistoryPageV1 := do
  let firstSequence ← expectedFirstSequence pageNumber
  return ⟨⟨pool, pageNumber, firstSequence, 0⟩, fun _ => Digest.zero⟩

def isFull (page : RootHistoryPageV1) : Bool := decide (page.filled = POOL_V1_ROOT_HISTORY_CAPACITY)

def nextSequence (page : RootHistoryPageV1) : Except PoolV1RootHistoryError ℕ :=
  expectedSequence page.toRootHistoryPageHeaderV1

theorem slot_lt (sequence : ℕ) : (rootHistoryLocation sequence).slot < 256 := Nat.mod_lt _ (by decide)

def push (page : RootHistoryPageV1) (sequence : ℕ) (root : Digest) :
    Except PoolV1RootHistoryError (RootHistoryLocationV1 × RootHistoryPageV1) := do
  page.validateMetadata
  require (page.isFull = false) .pageFull
  require ((rootHistoryLocation sequence).pageNumber = page.pageNumber) .wrongPage
  let next ← page.nextSequence
  require (sequence = next) .outOfOrder
  return (rootHistoryLocation sequence,
    ⟨{ page.toRootHistoryPageHeaderV1 with filled := page.filled + 1 },
      Function.update page.roots ⟨_, slot_lt sequence⟩ root⟩)

def get (page : RootHistoryPageV1) (sequence : ℕ) : Option Digest :=
  if (rootHistoryLocation sequence).pageNumber ≠ page.pageNumber ∨ (rootHistoryLocation sequence).slot ≥ page.filled then none
  else some (page.roots ⟨_, slot_lt sequence⟩)

/-- The retained roots, oldest first. -/
def retained (page : RootHistoryPageV1) : List Digest := (List.ofFn page.roots).take page.filled

def encodeInto (page : RootHistoryPageV1) (storage : ℕ) : Except PoolV1RootHistoryError Bytes := do
  require (storage = POOL_V1_ROOT_HISTORY_PAGE_ACCOUNT_BYTES) .wrongLength
  page.encode

/-- A new page with roots pushed one after another. -/
def pushAll : ℕ → List Digest → RootHistoryPageV1 → Except PoolV1RootHistoryError RootHistoryPageV1
  | _, [], page => .ok page
  | sequence, root :: roots, page => do
    let (_, page) ← page.push sequence root
    pushAll (sequence + 1) roots page

end RootHistoryPageV1

/-! ### The operations -/

inductive HistoryOp
  | initializePage (pool : Pubkey) (pageNumber : UInt64) (roots : List CanonicalDigest)
  | append (sequence : UInt64) (root : CanonicalDigest)
  | read (sequence : UInt64)

inductive HistoryReply
  | header (header : RootHistoryPageHeaderV1)
  | location (location : RootHistoryLocationV1)
  | root (root : Digest)

namespace HistoryOp

def onBytes : HistoryOp → Exec PoolV1RootHistoryError Bytes HistoryReply
  | initializePage pool pageNumber roots => do
    let header ← initializeRootHistoryPageBytesV1 pool pageNumber.toNat (roots.map Subtype.val)
    return .header header
  | append sequence root => do
    let location ← appendRootHistoryPageBytesV1 sequence.toNat root.1
    return .location location
  | read sequence => do
    let root ← Exec.query fun bytes => readRootHistoryPageRootV1 bytes sequence.toNat
    return .root root

/-- A structured page, or why the bytes held none; the storage has a fixed size. -/
abbrev PageHandle := Except PoolV1RootHistoryError RootHistoryPageV1

def onPage (storage : ℕ) (op : HistoryOp) (handle : PageHandle) : Except PoolV1RootHistoryError (HistoryReply × PageHandle) :=
  match op with
  | initializePage pool pageNumber roots => do
    let page ← RootHistoryPageV1.new pool pageNumber.toNat
    let page ← page.pushAll page.firstSequence (roots.map Subtype.val)
    let _ ← page.encodeInto storage
    return (.header page.toRootHistoryPageHeaderV1, .ok page)
  | append sequence root => do
    let page ← handle
    let (location, page) ← page.push sequence.toNat root.1
    return (.location location, .ok page)
  | read sequence => do
    let page ← handle
    let root ← okOr (page.get sequence.toNat) .wrongPage
    return (.root root, .ok page)

end HistoryOp

/-- What a page retains: the roots of consecutive sequence numbers from the page's first on. -/
structure RootLog where
  pool : Pubkey
  pageNumber : ℕ
  roots : List Digest

namespace RootLog

def ofPage (page : RootHistoryPageV1) : RootLog := ⟨page.pool, page.pageNumber, page.retained⟩

def firstSequence (log : RootLog) : ℕ := log.pageNumber * POOL_V1_ROOT_HISTORY_CAPACITY

def header (log : RootLog) : RootHistoryPageHeaderV1 := ⟨log.pool, log.pageNumber, log.firstSequence, log.roots.length⟩

def push (log : RootLog) (root : Digest) : RootLog := { log with roots := log.roots ++ [root] }

/-- The root retained for a sequence number. -/
def find (log : RootLog) (sequence : ℕ) : Option Digest :=
  if log.firstSequence ≤ sequence then log.roots[sequence - log.firstSequence]? else none

/-- A page can hold these roots. -/
structure Valid (log : RootLog) : Prop where
  number : log.pageNumber * POOL_V1_ROOT_HISTORY_CAPACITY < U64_LIMIT
  length : log.roots.length ≤ POOL_V1_ROOT_HISTORY_CAPACITY
  canonical : ∀ root ∈ log.roots, DigestIsCanonical root

def image (log : RootLog) : Bytes := pageImage log.pool log.pageNumber log.roots

def page (log : RootLog) : RootHistoryPageV1 := ⟨log.header, fun slot => log.roots.getD slot Digest.zero⟩

end RootLog

/-- An operation on the retained roots alone. -/
def HistoryOp.onLog (storage : ℕ) : HistoryOp → Option RootLog → Option (HistoryReply × RootLog)
  | initializePage pool pageNumber roots, _ =>
    if storage = POOL_V1_ROOT_HISTORY_PAGE_ACCOUNT_BYTES ∧ roots.length ≤ POOL_V1_ROOT_HISTORY_CAPACITY ∧
        pageNumber.toNat * POOL_V1_ROOT_HISTORY_CAPACITY < U64_LIMIT then
      let log : RootLog := ⟨pool, pageNumber.toNat, roots.map Subtype.val⟩
      some (.header log.header, log)
    else none
  | append sequence root, some log =>
    if log.roots.length < POOL_V1_ROOT_HISTORY_CAPACITY ∧ sequence.toNat = log.firstSequence + log.roots.length then
      some (.location (rootHistoryLocation sequence.toNat), log.push root.1)
    else none
  | read sequence, some log => (log.find sequence.toNat).map fun root => (.root root, log)
  | _, none => none

/-! ### The page of a list of roots -/

namespace RootLog
variable {log : RootLog}

theorem rootsBytes_padded (hlength : log.roots.length ≤ 256) : rootsBytes (List.ofFn log.page.roots) =
    rootsBytes log.roots ++ zeros (32 * (256 - log.roots.length)) := by
  have hlist : List.ofFn log.page.roots = log.roots ++ List.replicate (256 - log.roots.length) Digest.zero := by
    apply List.ext_getElem
    · rw [List.length_ofFn, List.length_append, List.length_replicate]
      omega
    · intro i h₁ h₂
      have hread : (List.ofFn log.page.roots)[i] = log.roots.getD i Digest.zero := List.getElem_ofFn h₁
      rw [hread, List.getElem_append]
      split_ifs with hi
      · rw [List.getD_eq_getElem?_getD, List.getElem?_eq_getElem hi, Option.getD_some]
      · rw [List.getD_eq_getElem?_getD, List.getElem?_eq_none (by simpa using hi), Option.getD_none,
          List.getElem_replicate]
  have hzero : ∀ n, rootsBytes (List.replicate n Digest.zero) = zeros (32 * n) := by
    intro n
    induction n with
    | zero => rfl
    | succ n ih =>
      have hcons : rootsBytes (List.replicate (n + 1) Digest.zero) =
          encodeDigestCanonical Digest.zero ++ rootsBytes (List.replicate n Digest.zero) := rfl
      have hfirst : encodeDigestCanonical Digest.zero = zeros 32 := by decide
      rw [hcons, ih, hfirst, zeros_append, Nat.mul_succ, Nat.add_comm]
  rw [hlist, rootsBytes_append, hzero]

theorem image_page (h : log.Valid) : log.page.image = log.image := by
  rw [RootHistoryPageV1.image, rootsBytes_padded h.length]
  rfl

theorem canonical_page (h : log.Valid) (slot : Fin 256) : DigestIsCanonical (log.page.roots slot) := by
  change DigestIsCanonical (log.roots.getD slot Digest.zero)
  by_cases hslot : (slot : ℕ) < log.roots.length
  · rw [List.getD_eq_getElem?_getD, List.getElem?_eq_getElem hslot]
    exact h.canonical _ (List.getElem_mem hslot)
  · rw [List.getD_eq_getElem?_getD, List.getElem?_eq_none (by omega)]
    exact (by decide : DigestIsCanonical Digest.zero)

theorem encode_page (h : log.Valid) : log.page.encode = .ok log.image := by
  simp only [RootHistoryPageV1.encode, except_bind_eq_ok, require_eq_ok, except_pure_eq_ok,
    RootHistoryPageV1.validateMetadata_ok]
  refine ⟨(), ⟨h.length, h.number, rfl⟩, (), ?_, image_page h⟩
  intro slot hslot
  change log.roots.getD slot Digest.zero = Digest.zero
  rw [List.getD_eq_getElem?_getD, List.getElem?_eq_none hslot, Option.getD_none]

theorem decode_image (h : log.Valid) : RootHistoryPageV1.decode log.image = .ok log.page :=
  RootHistoryPageV1.decode_of_encode (canonical_page h) (encode_page h)

theorem validate_image (h : log.Valid) : validateRootHistoryPageBytesV1 log.image = .ok log.header := by
  have hdecode := decode_image h
  simp only [RootHistoryPageV1.decode, except_bind_eq_ok, except_pure_eq_ok] at hdecode
  obtain ⟨header, hvalid, -, -, hpage⟩ := hdecode
  have hheader : header = log.header := congrArg RootHistoryPageV1.toRootHistoryPageHeaderV1 hpage
  rw [hvalid, hheader]

/-- Every image that decodes is the image of a list of roots. -/
theorem of_decode {bytes : Bytes} {page : RootHistoryPageV1} (h : RootHistoryPageV1.decode bytes = .ok page) :
    (ofPage page).Valid ∧ bytes = (ofPage page).image ∧ page = (ofPage page).page := by
  obtain ⟨hcanonical, hencode⟩ := RootHistoryPageV1.encode_of_decode h
  have hparts := hencode
  simp only [RootHistoryPageV1.encode, except_bind_eq_ok, require_eq_ok, except_pure_eq_ok,
    RootHistoryPageV1.validateMetadata_ok] at hparts
  obtain ⟨-, ⟨hfilled, hnumber, hfirst⟩, -, hunused, -⟩ := hparts
  have hlength : page.retained.length = page.filled := by
    rw [RootHistoryPageV1.retained, List.length_take, List.length_ofFn]
    simp only [POOL_V1_ROOT_HISTORY_CAPACITY] at hfilled
    omega
  have hvalid : (ofPage page).Valid := by
    refine ⟨hnumber, by rw [ofPage, hlength]; exact hfilled, fun root hroot => ?_⟩
    obtain ⟨slot, rfl⟩ := (List.mem_ofFn' _ _).mp (List.mem_of_mem_take hroot)
    exact hcanonical slot
  have hpage : page = (ofPage page).page := by
    have hroots : page.roots = (ofPage page).page.roots := by
      funext slot
      change page.roots slot = page.retained.getD slot Digest.zero
      rw [List.getD_eq_getElem?_getD, RootHistoryPageV1.retained, List.getElem?_take]
      split_ifs with hslot
      · rw [List.getElem?_ofFn, dif_pos slot.isLt, Option.getD_some]
      · exact hunused slot (by omega)
    have hheader : page.toRootHistoryPageHeaderV1 = (ofPage page).header := by
      rw [header, firstSequence, ofPage, hlength, ← hfirst]
    cases page
    exact congrArg₂ RootHistoryPageV1.mk hheader hroots
  have himage : bytes = (ofPage page).image := by
    rw [hpage, encode_page hvalid] at hencode
    exact (Except.ok.inj hencode).symm
  exact ⟨hvalid, himage, hpage⟩

/-! ### One operation -/

@[simp] theorem firstSequence_push (root : Digest) : (log.push root).firstSequence = log.firstSequence := rfl

theorem push_valid (h : log.Valid) (hroom : log.roots.length < POOL_V1_ROOT_HISTORY_CAPACITY) (root : CanonicalDigest) :
    (log.push root.1).Valid := by
  refine ⟨h.number, ?_, ?_⟩
  · rw [push, List.length_append, List.length_singleton]
    exact hroom
  · intro r hr
    rcases List.mem_append.mp hr with hr | hr
    · exact h.canonical r hr
    · rw [List.mem_singleton.mp hr]
      exact root.2

/-- The next sequence number of a page that is not full is on the page, in its first free slot. -/
theorem location_next {sequence : ℕ} (hroom : log.roots.length < POOL_V1_ROOT_HISTORY_CAPACITY)
    (hnext : sequence = log.firstSequence + log.roots.length) :
    rootHistoryLocation sequence = ⟨log.pageNumber, log.roots.length⟩ := by
  simp only [rootHistoryLocation, hnext, firstSequence, POOL_V1_ROOT_HISTORY_CAPACITY] at hroom ⊢
  rw [RootHistoryLocationV1.mk.injEq]
  omega

theorem expectedSequence_eq_ok (h : log.Valid) (hroom : log.roots.length ≠ POOL_V1_ROOT_HISTORY_CAPACITY) {next : ℕ} :
    expectedSequence log.header = .ok next ↔ log.firstSequence + log.roots.length = next := by
  have hnumber := h.number
  have hlength := h.length
  have hfits : log.header.firstSequence + log.header.filled < U64_LIMIT := by
    change log.pageNumber * POOL_V1_ROOT_HISTORY_CAPACITY + log.roots.length < U64_LIMIT
    simp only [POOL_V1_ROOT_HISTORY_CAPACITY, U64_LIMIT] at hnumber hlength hroom ⊢
    have hpages : log.pageNumber ≤ 72057594037927935 := by omega
    have hslots : log.roots.length ≤ 255 := by omega
    calc log.pageNumber * 256 + log.roots.length
        ≤ 72057594037927935 * 256 + 255 := Nat.add_le_add (Nat.mul_le_mul_right 256 hpages) hslots
      _ < 2 ^ 64 := by norm_num
  rw [expectedSequence, require_of _ hfits, except_ok_bind, except_pure_eq_ok]
  rfl

theorem append_image {sequence : ℕ} {root : Digest} {location : RootHistoryLocationV1} {bytes : Bytes} (h : log.Valid) :
    appendRootHistoryPageBytesV1 sequence root log.image = .ok location bytes ↔
      (log.roots.length < POOL_V1_ROOT_HISTORY_CAPACITY ∧ sequence = log.firstSequence + log.roots.length) ∧
        rootHistoryLocation sequence = location ∧ (log.push root).image = bytes := by
  have hlength := h.length
  simp only [appendRootHistoryPageBytesV1, Exec.bind_ok, Exec.query_ok, Exec.update_ok, Exec.pure_ok, require_eq_ok]
  constructor
  · rintro ⟨header, _, ⟨hheader, rfl⟩, _, _, ⟨hfull, rfl⟩, _, _, ⟨-, rfl⟩, next, _, ⟨hnext, rfl⟩, _, _, ⟨rfl, rfl⟩, _, _,
      rfl, _, _, rfl, rfl, rfl⟩
    rw [validate_image h] at hheader
    obtain rfl := Except.ok.inj hheader
    have hsequence := ((expectedSequence_eq_ok h hfull).mp hnext).symm
    have hroom : log.roots.length < POOL_V1_ROOT_HISTORY_CAPACITY := lt_of_le_of_ne hlength hfull
    refine ⟨⟨hroom, hsequence⟩, rfl, ?_⟩
    rw [location_next hroom hsequence]
    exact (@appendRootsUnchecked_pageImage log.pool log.pageNumber log.roots [root]
      ⟨log.pool, log.pageNumber, log.firstSequence, log.roots.length⟩ rfl hroom).symm
  · rintro ⟨⟨hroom, hsequence⟩, rfl, rfl⟩
    refine ⟨log.header, _, ⟨validate_image h, rfl⟩, (), _, ⟨hroom.ne, rfl⟩, (), _, ⟨?_, rfl⟩, sequence, _,
      ⟨(expectedSequence_eq_ok h hroom.ne).mpr hsequence.symm, rfl⟩, (), _, ⟨rfl, rfl⟩, (), _, rfl, (), _, rfl, rfl, ?_⟩
    · rw [location_next hroom hsequence]
      rfl
    · rw [location_next hroom hsequence]
      exact @appendRootsUnchecked_pageImage log.pool log.pageNumber log.roots [root]
        ⟨log.pool, log.pageNumber, log.firstSequence, log.roots.length⟩ rfl hroom

theorem push_page {sequence : ℕ} {root : Digest} {location : RootHistoryLocationV1} {page : RootHistoryPageV1}
    (h : log.Valid) : log.page.push sequence root = .ok (location, page) ↔
      (log.roots.length < POOL_V1_ROOT_HISTORY_CAPACITY ∧ sequence = log.firstSequence + log.roots.length) ∧
        rootHistoryLocation sequence = location ∧ (log.push root).page = page := by
  have hlength := h.length
  have hpage : ∀ (hroom : log.roots.length < POOL_V1_ROOT_HISTORY_CAPACITY)
      (hsequence : sequence = log.firstSequence + log.roots.length),
      (⟨{ log.page.toRootHistoryPageHeaderV1 with filled := log.page.filled + 1 },
        Function.update log.page.roots ⟨_, RootHistoryPageV1.slot_lt sequence⟩ root⟩ : RootHistoryPageV1) =
        (log.push root).page := by
    intro hroom hsequence
    have hslot : (rootHistoryLocation sequence).slot = log.roots.length := by rw [location_next hroom hsequence]
    refine congrArg₂ RootHistoryPageV1.mk ?_ ?_
    · change (⟨_, _, _, _⟩ : RootHistoryPageHeaderV1) = ⟨_, _, _, _⟩
      rw [push, List.length_append, List.length_singleton]
      rfl
    · funext slot
      change _ = (log.roots ++ [root]).getD slot Digest.zero
      rw [Function.update_apply, List.getD_eq_getElem?_getD]
      split_ifs with heq
      · rw [heq]
        change root = ((log.roots ++ [root])[(rootHistoryLocation sequence).slot]?).getD Digest.zero
        rw [hslot, List.getElem?_concat_length, Option.getD_some]
      · have hne : (slot : ℕ) ≠ log.roots.length := fun hs => heq (Fin.ext (hs.trans hslot.symm))
        change log.roots.getD slot Digest.zero = _
        rw [List.getD_eq_getElem?_getD]
        rcases Nat.lt_or_gt_of_ne hne with hlt | hgt
        · rw [List.getElem?_append_left hlt]
        · rw [List.getElem?_eq_none hgt.le, List.getElem?_eq_none]
          rw [List.length_append, List.length_singleton]
          omega
  simp only [RootHistoryPageV1.push, RootHistoryPageV1.nextSequence, RootHistoryPageV1.isFull, except_bind_eq_ok,
    require_eq_ok, except_pure_eq_ok, RootHistoryPageV1.validateMetadata_ok, decide_eq_false_iff_not, Prod.mk.injEq]
  constructor
  · rintro ⟨-, -, -, hfull, -, -, next, hnext, -, rfl, rfl, rfl⟩
    have hsequence := ((expectedSequence_eq_ok h hfull).mp hnext).symm
    have hroom : log.roots.length < POOL_V1_ROOT_HISTORY_CAPACITY := lt_of_le_of_ne hlength hfull
    exact ⟨⟨hroom, hsequence⟩, rfl, (hpage hroom hsequence).symm⟩
  · rintro ⟨⟨hroom, hsequence⟩, rfl, rfl⟩
    refine ⟨(), ⟨hlength, h.number, rfl⟩, (), hroom.ne, (), ?_, sequence,
      (expectedSequence_eq_ok h hroom.ne).mpr hsequence.symm, (), rfl, rfl, hpage hroom hsequence⟩
    rw [location_next hroom hsequence]
    rfl

/-- A sequence number is found when it is on the page and its slot is filled. -/
theorem find_eq_some {sequence : ℕ} {root : Digest} (h : log.Valid) : log.find sequence = some root ↔
    (rootHistoryLocation sequence).pageNumber = log.pageNumber ∧
      log.roots[(rootHistoryLocation sequence).slot]? = some root := by
  have hlength := h.length
  by_cases hle : log.firstSequence ≤ sequence
  · rw [find, if_pos hle]
    simp only [firstSequence, rootHistoryLocation, POOL_V1_ROOT_HISTORY_CAPACITY] at *
    constructor
    · intro hfind
      obtain ⟨hlt, -⟩ := List.getElem?_eq_some_iff.mp hfind
      have hslot : sequence % 256 = sequence - log.pageNumber * 256 := by omega
      exact ⟨by omega, by rw [hslot, hfind]⟩
    · rintro ⟨hpage, hroot⟩
      have hslot : sequence - log.pageNumber * 256 = sequence % 256 := by omega
      rw [hslot, hroot]
  · rw [find, if_neg hle]
    simp only [firstSequence, rootHistoryLocation, POOL_V1_ROOT_HISTORY_CAPACITY] at *
    constructor
    · intro hfind
      cases hfind
    · rintro ⟨hpage, -⟩
      omega

theorem slotRoot_log_image (h : log.Valid) {slot : ℕ} (hslot : slot < log.roots.length) :
    slotRoot log.image slot = log.roots[slot]? := by
  rw [slotRoot, image, slice_pageImage_root hslot,
    decode_encodeDigestCanonical (h.canonical _ (List.getElem_mem hslot)), List.getElem?_eq_getElem hslot]

theorem read_image {sequence : ℕ} {root : Digest} (h : log.Valid) :
    readRootHistoryPageRootV1 log.image sequence = .ok root ↔ log.find sequence = some root := by
  rw [find_eq_some h]
  simp only [readRootHistoryPageRootV1, except_bind_eq_ok, require_eq_ok, okOr_eq_ok, exists_const]
  constructor
  · rintro ⟨header, hheader, ⟨hpage, hslot⟩, hroot⟩
    rw [validate_image h] at hheader
    obtain rfl := Except.ok.inj hheader
    rw [slotRoot_log_image h hslot] at hroot
    exact ⟨hpage, hroot⟩
  · rintro ⟨hpage, hroot⟩
    obtain ⟨hslot, -⟩ := List.getElem?_eq_some_iff.mp hroot
    exact ⟨log.header, validate_image h, ⟨hpage, hslot⟩, by rw [slotRoot_log_image h hslot, hroot]⟩

theorem get_page {sequence : ℕ} {root : Digest} (h : log.Valid) :
    log.page.get sequence = some root ↔ log.find sequence = some root := by
  rw [find_eq_some h, RootHistoryPageV1.get]
  change (if (rootHistoryLocation sequence).pageNumber ≠ log.pageNumber ∨
    (rootHistoryLocation sequence).slot ≥ log.roots.length then none
    else some (log.roots.getD (rootHistoryLocation sequence).slot Digest.zero)) = some root ↔ _
  constructor
  · intro hget
    split_ifs at hget with hoff
    rw [not_or, not_not, not_le] at hoff
    rw [List.getD_eq_getElem?_getD, List.getElem?_eq_getElem hoff.2, Option.getD_some] at hget
    exact ⟨hoff.1, by rw [List.getElem?_eq_getElem hoff.2, hget]⟩
  · rintro ⟨hpage, hroot⟩
    obtain ⟨hslot, -⟩ := List.getElem?_eq_some_iff.mp hroot
    rw [if_neg (by rw [not_or, not_not, not_le]; exact ⟨hpage, hslot⟩), List.getD_eq_getElem?_getD, hroot,
      Option.getD_some]

theorem patch_zeros {front src : Bytes} {off gap n : ℕ} (hoff : off = front.length + gap) (hgap : gap ≤ n) :
    patch off src (front ++ zeros n) = (front ++ (zeros gap ++ src)) ++ zeros (n - gap - src.length) := by
  have hsplit : zeros n = zeros gap ++ zeros (n - gap) := by rw [zeros_append, Nat.add_sub_cancel' hgap]
  rw [hsplit, ← List.append_assoc, patch_append_at (by simp [hoff]), drop_zeros]
  simp only [List.append_assoc]

/-- The header fields written one by one into zeroed storage. -/
theorem header_writes (pool : Pubkey) (pageNumber firstSequence filled : ℕ) :
    patch 56 (leBytes 2 filled) (patch 48 (leBytes 8 firstSequence) (patch 40 (leBytes 8 pageNumber) (patch 8 pool.bytes
      (patch 6 [1] (patch 5 [8] (patch 4 [1] (patch 0 ASPR (zeros 8256)))))))) =
      pageHeaderBytes pool pageNumber firstSequence filled ++ zeros 8192 := by
  have hmagic : ASPR.length = 4 := by simp [ASPR]
  have hkey := pool.length_eq
  rw [← List.nil_append (zeros 8256), @patch_zeros [] ASPR 0 0 8256 rfl (by omega),
    @patch_zeros _ [1] 4 0 _ (by simp [hmagic]) (by omega), @patch_zeros _ [8] 5 0 _ (by simp [hmagic]) (by omega),
    @patch_zeros _ [1] 6 0 _ (by simp [hmagic]) (by omega),
    @patch_zeros _ pool.bytes 8 1 _ (by simp [hmagic]) (by simp [hmagic]),
    @patch_zeros _ (leBytes 8 pageNumber) 40 0 _ (by simp [hmagic, hkey]) (by omega),
    @patch_zeros _ (leBytes 8 firstSequence) 48 0 _ (by simp [hmagic, hkey]) (by omega),
    @patch_zeros _ (leBytes 2 filled) 56 0 _ (by simp [hmagic, hkey]) (by omega)]
  have htail : zeros 8198 = zeros 6 ++ zeros 8192 := by rw [zeros_append]
  simp only [hmagic, hkey, length_leBytes, List.length_singleton, Nat.sub_zero]
  have hnone : zeros 0 = [] := rfl
  have hone : zeros 1 = [0] := rfl
  rw [htail]
  simp only [pageHeaderBytes, pagePreamble, hnone, hone, List.nil_append, List.append_assoc, List.cons_append]

theorem initialize_bytes {pool : Pubkey} {pageNumber : ℕ} {roots : List Digest} {bytes bytes' : Bytes}
    {header : RootHistoryPageHeaderV1} :
    initializeRootHistoryPageBytesV1 pool pageNumber roots bytes = .ok header bytes' ↔
      (bytes.length = POOL_V1_ROOT_HISTORY_PAGE_ACCOUNT_BYTES ∧ roots.length ≤ POOL_V1_ROOT_HISTORY_CAPACITY ∧
        pageNumber * POOL_V1_ROOT_HISTORY_CAPACITY < U64_LIMIT) ∧
      (⟨pool, pageNumber, roots⟩ : RootLog).header = header ∧ (⟨pool, pageNumber, roots⟩ : RootLog).image = bytes' := by
  have himage : bytes.length = POOL_V1_ROOT_HISTORY_PAGE_ACCOUNT_BYTES →
      roots.length ≤ POOL_V1_ROOT_HISTORY_CAPACITY → writeRoots 0 roots (patch 56 (leBytes 2 roots.length)
        (patch 48 (leBytes 8 (pageNumber * POOL_V1_ROOT_HISTORY_CAPACITY)) (patch 40 (leBytes 8 pageNumber)
          (patch 8 pool.bytes (patch 6 [1] (patch 5 [8] (patch 4 [1] (patch 0 ASPR (zeros bytes.length))))))))) =
        (⟨pool, pageNumber, roots⟩ : RootLog).image := by
    intro hlen hroots
    rw [hlen]
    exact (congrArg (writeRoots 0 roots) (header_writes pool pageNumber _ roots.length)).trans
      (writeNewPageUnchecked_eq hroots)
  simp only [initializeRootHistoryPageBytesV1, expectedFirstSequence, Exec.bind_ok, Exec.query_ok, Exec.update_ok,
    Exec.pure_ok, require_eq_ok, except_bind_eq_ok, except_pure_eq_ok]
  constructor
  · rintro ⟨_, _, ⟨hlen, rfl⟩, _, _, ⟨hroots, rfl⟩, _, _, ⟨⟨_, hnumber, rfl⟩, rfl⟩, _, _, rfl, _, _, rfl, _, _, rfl, _, _,
      rfl, _, _, rfl, _, _, rfl, _, _, rfl, _, _, rfl, _, _, rfl, _, _, rfl, rfl, rfl⟩
    exact ⟨⟨hlen, hroots, hnumber⟩, rfl, (himage hlen hroots).symm⟩
  · rintro ⟨⟨hlen, hroots, hnumber⟩, rfl, rfl⟩
    exact ⟨(), _, ⟨hlen, rfl⟩, (), _, ⟨hroots, rfl⟩, _, _, ⟨⟨(), hnumber, rfl⟩, rfl⟩, (), _, rfl, (), _, rfl, (), _, rfl,
      (), _, rfl, (), _, rfl, (), _, rfl, (), _, rfl, (), _, rfl, (), _, rfl, (), _, rfl, rfl, himage hlen hroots⟩

/-- Pushing roots one after another from the next sequence number on. -/
theorem pushAll_page (roots : List CanonicalDigest) {page : RootHistoryPageV1} (h : log.Valid) :
    log.page.pushAll (log.firstSequence + log.roots.length) (roots.map Subtype.val) = .ok page ↔
      log.roots.length + roots.length ≤ POOL_V1_ROOT_HISTORY_CAPACITY ∧
        ({ log with roots := log.roots ++ roots.map Subtype.val } : RootLog).page = page := by
  induction roots generalizing log with
  | nil =>
    simp only [List.map_nil, RootHistoryPageV1.pushAll, List.append_nil, List.length_nil, Nat.add_zero, Except.ok.injEq]
    exact ⟨fun heq => ⟨h.length, heq⟩, fun hpage => hpage.2⟩
  | cons root roots ih =>
    simp only [List.map_cons, RootHistoryPageV1.pushAll, except_bind_eq_ok, Prod.exists, push_page h]
    have hlength : (log.push root.1).roots.length = log.roots.length + 1 := by
      rw [push, List.length_append, List.length_singleton]
    have happend : (log.push root.1).roots ++ roots.map Subtype.val = log.roots ++ root.1 :: roots.map Subtype.val := by
      rw [push, List.append_assoc, List.singleton_append]
    constructor
    · rintro ⟨_, _, ⟨⟨hroom, -⟩, -, rfl⟩, hrest⟩
      have hnext : log.firstSequence + log.roots.length + 1 =
          (log.push root.1).firstSequence + (log.push root.1).roots.length := by
        rw [hlength, firstSequence_push, Nat.add_assoc]
      rw [hnext, ih (push_valid h hroom root), hlength, happend] at hrest
      rw [List.length_cons]
      exact ⟨by omega, hrest.2⟩
    · rintro ⟨hfit, hpage⟩
      rw [List.length_cons] at hfit
      have hroom : log.roots.length < POOL_V1_ROOT_HISTORY_CAPACITY := by omega
      refine ⟨_, _, ⟨⟨hroom, trivial⟩, rfl, rfl⟩, ?_⟩
      have hrest := (@ih (log.push root.1) (push_valid h hroom root)).mpr
        ⟨by rw [hlength]; omega, by rw [happend]; exact hpage⟩
      rwa [hlength, firstSequence_push, ← Nat.add_assoc] at hrest

theorem initialize_page {pool : Pubkey} {pageNumber : UInt64} {roots : List CanonicalDigest} {storage : ℕ}
    {handle handle' : HistoryOp.PageHandle} {reply : HistoryReply} :
    (HistoryOp.initializePage pool pageNumber roots).onPage storage handle = .ok (reply, handle') ↔
      (storage = POOL_V1_ROOT_HISTORY_PAGE_ACCOUNT_BYTES ∧ roots.length ≤ POOL_V1_ROOT_HISTORY_CAPACITY ∧
        pageNumber.toNat * POOL_V1_ROOT_HISTORY_CAPACITY < U64_LIMIT) ∧
      .header (⟨pool, pageNumber.toNat, roots.map Subtype.val⟩ : RootLog).header = reply ∧
      .ok (⟨pool, pageNumber.toNat, roots.map Subtype.val⟩ : RootLog).page = handle' := by
  simp only [HistoryOp.onPage, RootHistoryPageV1.new, RootHistoryPageV1.encodeInto, expectedFirstSequence,
    except_bind_eq_ok, require_eq_ok, except_pure_eq_ok, exists_const]
  have hpushAll : ∀ (_ : pageNumber.toNat * POOL_V1_ROOT_HISTORY_CAPACITY < U64_LIMIT) (page : RootHistoryPageV1),
      (⟨pool, pageNumber.toNat, []⟩ : RootLog).page.pushAll (pageNumber.toNat * POOL_V1_ROOT_HISTORY_CAPACITY)
        (roots.map Subtype.val) = .ok page ↔ roots.length ≤ POOL_V1_ROOT_HISTORY_CAPACITY ∧
          (⟨pool, pageNumber.toNat, roots.map Subtype.val⟩ : RootLog).page = page := by
    intro hnumber page
    have hpushed := @pushAll_page ⟨pool, pageNumber.toNat, []⟩ roots page
      ⟨hnumber, Nat.zero_le _, fun _ hroot => absurd hroot List.not_mem_nil⟩
    rwa [List.length_nil, Nat.zero_add, Nat.add_zero, List.nil_append] at hpushed
  have hvalid : ∀ (_ : pageNumber.toNat * POOL_V1_ROOT_HISTORY_CAPACITY < U64_LIMIT)
      (_ : roots.length ≤ POOL_V1_ROOT_HISTORY_CAPACITY),
      (⟨pool, pageNumber.toNat, roots.map Subtype.val⟩ : RootLog).Valid := by
    intro hnumber hroots
    refine ⟨hnumber, by rw [List.length_map]; exact hroots, fun root hroot => ?_⟩
    obtain ⟨canonical, -, rfl⟩ := List.mem_map.mp hroot
    exact canonical.2
  constructor
  · rintro ⟨_, ⟨_, ⟨hnumber, rfl⟩, rfl⟩, page, hpush, _, ⟨hstorage, -⟩, heq⟩
    have hpushed := (hpushAll hnumber page).mp hpush
    obtain ⟨hroots, rfl⟩ := hpushed
    obtain ⟨rfl, rfl⟩ := Prod.mk.inj heq
    exact ⟨⟨hstorage, hroots, hnumber⟩, rfl, rfl⟩
  · rintro ⟨⟨hstorage, hroots, hnumber⟩, rfl, rfl⟩
    have hpushed := (hpushAll hnumber _).mpr ⟨hroots, rfl⟩
    exact ⟨_, ⟨_, ⟨hnumber, rfl⟩, rfl⟩, _, hpushed, _, ⟨hstorage, encode_page (hvalid hnumber hroots)⟩, rfl⟩

end RootLog

/-! ### Runs -/

namespace HistoryOp
variable {storage : ℕ} {bytes : Bytes} {handle : PageHandle}

theorem onBytes_clean (op : HistoryOp) : Exec.Clean op.onBytes := by
  intro s e t h
  cases op with
  | initializePage pool pageNumber roots =>
    simp only [onBytes, initializeRootHistoryPageBytesV1, Exec.bind_error, Exec.query_error, Exec.query_ok,
      Exec.update_ne_error, Exec.pure_ne_error, and_false, exists_false, or_false] at h
    rcases h with ⟨-, rfl⟩ | ⟨_, _, ⟨-, rfl⟩, ⟨-, rfl⟩ | ⟨_, _, ⟨-, rfl⟩, -, rfl⟩⟩
    · rfl
    · rfl
    · rfl
  | append sequence root =>
    simp only [onBytes, appendRootHistoryPageBytesV1, Exec.bind_error, Exec.query_error, Exec.query_ok,
      Exec.update_ne_error, Exec.pure_ne_error, and_false, exists_false, or_false] at h
    rcases h with ⟨-, rfl⟩ | ⟨_, _, ⟨-, rfl⟩, ⟨-, rfl⟩ | ⟨_, _, ⟨-, rfl⟩, ⟨-, rfl⟩ | ⟨_, _, ⟨-, rfl⟩, ⟨-, rfl⟩ |
      ⟨_, _, ⟨-, rfl⟩, -, rfl⟩⟩⟩⟩
    · rfl
    · rfl
    · rfl
    · rfl
    · rfl
  | read sequence =>
    simp only [onBytes, Exec.bind_error, Exec.query_error, Exec.query_ok, Exec.pure_ne_error, and_false, exists_false,
      or_false] at h
    exact h.2.symm

/-- The bytes, the structured page and the retained roots describe one page, or the bytes hold none. -/
def Agree (storage : ℕ) (bytes : Bytes) (handle : PageHandle) : Option RootLog → Prop
  | some log => bytes.length = storage ∧ log.Valid ∧ bytes = log.image ∧ handle = .ok log.page
  | none => bytes.length = storage ∧ ∃ e, RootHistoryPageV1.decode bytes = .error e ∧ handle = .error e

theorem decode_of_validate {header : RootHistoryPageHeaderV1} (h : validateRootHistoryPageBytesV1 bytes = .ok header) :
    RootHistoryPageV1.decode bytes = .ok ⟨header, decodeRoots bytes header.filled⟩ := by
  have hparts := h
  simp only [validateRootHistoryPageBytesV1, except_bind_eq_ok, require_eq_ok] at hparts
  obtain ⟨_, -, -, hcanonical, -⟩ := hparts
  simp only [RootHistoryPageV1.decode, except_bind_eq_ok, require_eq_ok, except_pure_eq_ok]
  exact ⟨header, h, (), fun slot _ => hcanonical slot, rfl⟩

theorem Agree.onBytes_ok {log : Option RootLog} (h : Agree storage bytes handle log) (op : HistoryOp) {reply : HistoryReply}
    {bytes' : Bytes} : op.onBytes bytes = .ok reply bytes' ↔
      ∃ log', op.onLog storage log = some (reply, log') ∧ log'.image = bytes' := by
  have hlen : bytes.length = storage := by
    cases log with
    | none => exact h.1
    | some log => exact h.1
  cases op with
  | initializePage pool pageNumber roots =>
    simp only [onBytes, onLog, Exec.bind_ok, Exec.pure_ok, RootLog.initialize_bytes, hlen, List.length_map,
      Option.ite_none_right_eq_some, Option.some.injEq, Prod.mk.injEq]
    constructor
    · rintro ⟨_, _, ⟨hfits, rfl, rfl⟩, rfl, rfl⟩
      exact ⟨_, ⟨hfits, rfl, rfl⟩, rfl⟩
    · rintro ⟨_, ⟨hfits, rfl, rfl⟩, rfl⟩
      exact ⟨_, _, ⟨hfits, rfl, rfl⟩, rfl, rfl⟩
  | append sequence root =>
    cases log with
    | none =>
      obtain ⟨-, e, hdecode, -⟩ := h
      simp only [onBytes, onLog, appendRootHistoryPageBytesV1, Exec.bind_ok, Exec.query_ok, reduceCtorEq, false_and,
        exists_false, iff_false]
      rintro ⟨_, _, ⟨header, _, ⟨hvalid, -⟩, -⟩, -⟩
      rw [decode_of_validate hvalid] at hdecode
      cases hdecode
    | some log =>
      obtain ⟨-, hvalid, rfl, -⟩ := h
      simp only [onBytes, onLog, Exec.bind_ok, Exec.pure_ok, RootLog.append_image hvalid, Option.ite_none_right_eq_some,
        Option.some.injEq, Prod.mk.injEq]
      constructor
      · rintro ⟨_, _, ⟨hfits, rfl, rfl⟩, rfl, rfl⟩
        exact ⟨_, ⟨hfits, rfl, rfl⟩, rfl⟩
      · rintro ⟨_, ⟨hfits, rfl, rfl⟩, rfl⟩
        exact ⟨_, _, ⟨hfits, rfl, rfl⟩, rfl, rfl⟩
  | read sequence =>
    cases log with
    | none =>
      obtain ⟨-, e, hdecode, -⟩ := h
      simp only [onBytes, onLog, readRootHistoryPageRootV1, Exec.bind_ok, Exec.query_ok, except_bind_eq_ok, reduceCtorEq,
        false_and, exists_false, iff_false]
      rintro ⟨_, _, ⟨⟨header, hvalid, -⟩, -⟩, -⟩
      rw [decode_of_validate hvalid] at hdecode
      cases hdecode
    | some log =>
      obtain ⟨-, hvalid, rfl, -⟩ := h
      simp only [onBytes, onLog, Exec.bind_ok, Exec.query_ok, Exec.pure_ok, RootLog.read_image hvalid, Option.map_eq_some_iff,
        Prod.mk.injEq]
      constructor
      · rintro ⟨root, _, ⟨hfind, rfl⟩, rfl, rfl⟩
        exact ⟨log, ⟨root, hfind, rfl, rfl⟩, rfl⟩
      · rintro ⟨_, ⟨root, hfind, rfl, rfl⟩, rfl⟩
        exact ⟨root, _, ⟨hfind, rfl⟩, rfl, rfl⟩

theorem Agree.onPage_ok {log : Option RootLog} (h : Agree storage bytes handle log) (op : HistoryOp) {reply : HistoryReply}
    {handle' : PageHandle} : op.onPage storage handle = .ok (reply, handle') ↔
      ∃ log', op.onLog storage log = some (reply, log') ∧ .ok log'.page = handle' := by
  cases op with
  | initializePage pool pageNumber roots =>
    rw [RootLog.initialize_page]
    simp only [onLog, Option.ite_none_right_eq_some, Option.some.injEq, Prod.mk.injEq]
    constructor
    · rintro ⟨hfits, rfl, rfl⟩
      exact ⟨_, ⟨hfits, rfl, rfl⟩, rfl⟩
    · rintro ⟨_, ⟨hfits, rfl, rfl⟩, rfl⟩
      exact ⟨hfits, rfl, rfl⟩
  | append sequence root =>
    cases log with
    | none =>
      obtain ⟨-, e, -, rfl⟩ := h
      simp only [onPage, onLog, except_bind_eq_ok, reduceCtorEq, false_and, exists_false]
    | some log =>
      obtain ⟨-, hvalid, -, rfl⟩ := h
      simp only [onPage, onLog, except_bind_eq_ok, except_pure_eq_ok, Except.ok.injEq, exists_eq_left', Prod.exists,
        RootLog.push_page hvalid, Option.ite_none_right_eq_some, Option.some.injEq, Prod.mk.injEq]
      constructor
      · rintro ⟨_, _, ⟨hfits, rfl, rfl⟩, rfl, rfl⟩
        exact ⟨_, ⟨hfits, rfl, rfl⟩, rfl⟩
      · rintro ⟨_, ⟨hfits, rfl, rfl⟩, rfl⟩
        exact ⟨_, _, ⟨hfits, rfl, rfl⟩, rfl, rfl⟩
  | read sequence =>
    cases log with
    | none =>
      obtain ⟨-, e, -, rfl⟩ := h
      simp only [onPage, onLog, except_bind_eq_ok, reduceCtorEq, false_and, exists_false]
    | some log =>
      obtain ⟨-, hvalid, -, rfl⟩ := h
      simp only [onPage, onLog, except_bind_eq_ok, except_pure_eq_ok, Except.ok.injEq, exists_eq_left', okOr_eq_ok,
        RootLog.get_page hvalid, Option.map_eq_some_iff, Prod.mk.injEq]
      constructor
      · rintro ⟨root, hfind, rfl, rfl⟩
        exact ⟨log, ⟨root, hfind, rfl, rfl⟩, rfl⟩
      · rintro ⟨_, ⟨root, hfind, rfl, rfl⟩, rfl⟩
        exact ⟨root, hfind, rfl, rfl⟩

theorem Agree.onLog_agree {log : Option RootLog} {log' : RootLog} (h : Agree storage bytes handle log) (op : HistoryOp)
    {reply : HistoryReply} (hlog : op.onLog storage log = some (reply, log')) :
    Agree storage log'.image (.ok log'.page) (some log') := by
  have hvalid : log'.Valid ∧ storage = POOL_V1_ROOT_HISTORY_PAGE_ACCOUNT_BYTES := by
    cases op with
    | initializePage pool pageNumber roots =>
      simp only [onLog, Option.ite_none_right_eq_some, Option.some.injEq, Prod.mk.injEq] at hlog
      obtain ⟨⟨hstorage, hroots, hnumber⟩, -, rfl⟩ := hlog
      refine ⟨⟨hnumber, by rw [List.length_map]; exact hroots, fun root hroot => ?_⟩, hstorage⟩
      obtain ⟨canonical, -, rfl⟩ := List.mem_map.mp hroot
      exact canonical.2
    | append sequence root =>
      cases log with
      | none => cases hlog
      | some log =>
        obtain ⟨hlen, hvalid, rfl, -⟩ := h
        simp only [onLog, Option.ite_none_right_eq_some, Option.some.injEq, Prod.mk.injEq] at hlog
        obtain ⟨⟨hroom, -⟩, -, rfl⟩ := hlog
        exact ⟨RootLog.push_valid hvalid hroom root, by rw [← hlen]; exact length_pageImage hvalid.length⟩
    | read sequence =>
      cases log with
      | none => cases hlog
      | some log =>
        obtain ⟨hlen, hvalid, rfl, -⟩ := h
        simp only [onLog, Option.map_eq_some_iff, Prod.mk.injEq] at hlog
        obtain ⟨_, -, -, rfl⟩ := hlog
        exact ⟨hvalid, by rw [← hlen]; exact length_pageImage hvalid.length⟩
  exact ⟨by rw [hvalid.2]; exact length_pageImage hvalid.1.length, hvalid.1, rfl, rfl⟩

/-! The states after a sequence of operations; one that fails is skipped. -/

def bytesAfter (ops : List HistoryOp) (bytes : Bytes) : Bytes := ops.foldl (fun b op => op.onBytes.final b) bytes

def pageStep (storage : ℕ) (handle : PageHandle) (op : HistoryOp) : PageHandle :=
  match op.onPage storage handle with
  | .ok (_, handle') => handle'
  | .error _ => handle

def pageAfter (storage : ℕ) (ops : List HistoryOp) (handle : PageHandle) : PageHandle :=
  ops.foldl (pageStep storage) handle

def logStep (storage : ℕ) (log : Option RootLog) (op : HistoryOp) : Option RootLog :=
  match op.onLog storage log with
  | some (_, log') => some log'
  | none => log

def logAfter (storage : ℕ) (ops : List HistoryOp) (log : Option RootLog) : Option RootLog :=
  ops.foldl (logStep storage) log

theorem Agree.step {log : Option RootLog} (h : Agree storage bytes handle log) (op : HistoryOp) :
    Agree storage (op.onBytes.final bytes) (pageStep storage handle op) (logStep storage log op) := by
  cases hlog : op.onLog storage log with
  | some result =>
    obtain ⟨reply, log'⟩ := result
    have hbytes := (h.onBytes_ok op).mpr ⟨log', hlog, rfl⟩
    have hpage := (h.onPage_ok op).mpr ⟨log', hlog, rfl⟩
    rw [Exec.final, hbytes, pageStep, hpage, logStep, hlog]
    exact h.onLog_agree op hlog
  | none =>
    have hbytes : op.onBytes.final bytes = bytes := by
      cases hrun : op.onBytes bytes with
      | ok reply bytes' =>
        obtain ⟨log', hsome, -⟩ := (h.onBytes_ok op).mp hrun
        rw [hlog] at hsome
        cases hsome
      | error e bytes' =>
        rw [Exec.final, hrun]
        exact onBytes_clean op bytes e bytes' hrun
    have hpage : pageStep storage handle op = handle := by
      cases hrun : op.onPage storage handle with
      | ok result =>
        obtain ⟨reply, handle'⟩ := result
        obtain ⟨log', hsome, -⟩ := (h.onPage_ok op).mp hrun
        rw [hlog] at hsome
        cases hsome
      | error e => rw [pageStep, hrun]
    rw [hbytes, hpage, logStep, hlog]
    exact h

theorem Agree.run (ops : List HistoryOp) {log : Option RootLog} (h : Agree storage bytes handle log) :
    Agree storage (bytesAfter ops bytes) (pageAfter storage ops handle) (logAfter storage ops log) := by
  induction ops generalizing bytes handle log with
  | nil => exact h
  | cons op ops ih => exact ih (h.step op)

/-- The roots the bytes retain, when they hold a page. -/
def logOf (bytes : Bytes) : Option RootLog := (RootHistoryPageV1.decode bytes).toOption.map RootLog.ofPage

theorem agree_start (bytes : Bytes) : Agree bytes.length bytes (RootHistoryPageV1.decode bytes) (logOf bytes) := by
  cases hdecode : RootHistoryPageV1.decode bytes with
  | error e =>
    rw [logOf, hdecode]
    exact ⟨rfl, e, hdecode, rfl⟩
  | ok page =>
    obtain ⟨hvalid, himage, hpage⟩ := RootLog.of_decode hdecode
    rw [logOf, hdecode]
    exact ⟨rfl, hvalid, himage, congrArg Except.ok hpage⟩

theorem Agree.decode_eq {log : Option RootLog} (h : Agree storage bytes handle log) :
    RootHistoryPageV1.decode bytes = handle := by
  cases log with
  | none =>
    obtain ⟨-, e, hdecode, rfl⟩ := h
    exact hdecode
  | some log =>
    obtain ⟨-, hvalid, rfl, rfl⟩ := h
    exact RootLog.decode_image hvalid

/-- Whatever the bytes were, after any operations on them in place they are the encoding of the page that the same
operations give, the next operation fails on both or on neither, a failed one leaves the bytes, and a sequence number
reads as the root that was retained for it. -/
theorem page_operations_agree (bytes : Bytes) (ops : List HistoryOp) :
    RootHistoryPageV1.decode (bytesAfter ops bytes) = pageAfter bytes.length ops (RootHistoryPageV1.decode bytes) ∧
    (∀ page, pageAfter bytes.length ops (RootHistoryPageV1.decode bytes) = .ok page →
      page.encode = .ok (bytesAfter ops bytes)) ∧
    (∀ (op : HistoryOp) (reply : HistoryReply), (∃ bytes', op.onBytes (bytesAfter ops bytes) = .ok reply bytes') ↔
      ∃ handle', op.onPage bytes.length (pageAfter bytes.length ops (RootHistoryPageV1.decode bytes)) =
        .ok (reply, handle')) ∧
    (∀ (op : HistoryOp) (e : PoolV1RootHistoryError) (bytes' : Bytes), op.onBytes (bytesAfter ops bytes) = .error e bytes' →
      bytes' = bytesAfter ops bytes) ∧
    ∀ sequence root, readRootHistoryPageRootV1 (bytesAfter ops bytes) sequence = .ok root ↔
      ∃ log, logAfter bytes.length ops (logOf bytes) = some log ∧ log.find sequence = some root := by
  have h := (agree_start bytes).run ops
  refine ⟨h.decode_eq, ?_, ?_, fun op e bytes' => onBytes_clean op _ e bytes', ?_⟩
  · intro page hpage
    rw [← h.decode_eq] at hpage
    exact (RootHistoryPageV1.encode_of_decode hpage).2
  · intro op reply
    constructor
    · rintro ⟨_, hrun⟩
      obtain ⟨log', hlog, -⟩ := (h.onBytes_ok op).mp hrun
      exact ⟨_, (h.onPage_ok op).mpr ⟨log', hlog, rfl⟩⟩
    · rintro ⟨_, hrun⟩
      obtain ⟨log', hlog, -⟩ := (h.onPage_ok op).mp hrun
      exact ⟨_, (h.onBytes_ok op).mpr ⟨log', hlog, rfl⟩⟩
  · intro sequence root
    cases hlog : logAfter bytes.length ops (logOf bytes) with
    | none =>
      rw [hlog] at h
      obtain ⟨-, e, hdecode, -⟩ := h
      simp only [readRootHistoryPageRootV1, except_bind_eq_ok, reduceCtorEq, false_and, exists_false, iff_false]
      rintro ⟨header, hvalid, -⟩
      rw [decode_of_validate hvalid] at hdecode
      cases hdecode
    | some log =>
      rw [hlog] at h
      obtain ⟨-, hvalid, himage, -⟩ := h
      rw [himage, RootLog.read_image hvalid]
      constructor
      · intro hfind
        exact ⟨log, rfl, hfind⟩
      · rintro ⟨_, hsome, hfind⟩
        obtain rfl := Option.some.inj hsome
        exact hfind

end HistoryOp

end Aspis.Pool
