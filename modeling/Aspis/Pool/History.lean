import Aspis.Chain.Ledger
import Aspis.Statement.Digest
import Aspis.Statement.IncrementalMerkle

/-! Root-history pages in their account bytes. A page retains 256 consecutive
roots; `pageImage` is the one image of a page with the given roots, and the
writers of the program keep accounts in that form. -/

namespace Aspis.Pool

open Lib Chain Statement

def U64_LIMIT : ℕ := 2 ^ 64

def ASPR : Bytes := [65, 83, 80, 82]

def POOL_V1_ROOT_HISTORY_PAGE_ACCOUNT_BYTES : ℕ := 8256

structure RootPageHeaderV1 where
  pool : Pubkey
  pageNumber : ℕ
  firstSequence : ℕ
  filled : ℕ
  deriving DecidableEq

/-! ### Account checks -/

section Checks
variable (programId : Pubkey) (account : AccountInfo) (l : Ledger)

def requireProgramAccount (writable : Bool) : Except ProgramError Unit :=
  if account.owner l ≠ programId then .error .incorrectProgramId
  else if account.executable l ∨ account.isWritable ≠ writable then .error .invalidAccountData
  else .ok ()

def requireProgramOwned : Except ProgramError Unit :=
  if account.owner l ≠ programId then .error .incorrectProgramId
  else if account.executable l then .error .invalidAccountData
  else .ok ()

end Checks

/-- The first eight bytes of every page: magic, version, capacity log, digest
encoding, zero. -/
def pagePreamble : Bytes := ASPR ++ [1, 8, 1, 0]

def validateRootPageBytes (data : Bytes) (expectedPool : Pubkey) (expectedPageNumber : ℕ) :
    Except ProgramError RootPageHeaderV1 :=
  if data.length ≠ POOL_V1_ROOT_HISTORY_PAGE_ACCOUNT_BYTES ∨ slice 0 8 data ≠ pagePreamble ∨
      slice 58 6 data ≠ zeros 6 then
    .error PoolV1ProgramError.invalidAccountType
  else
    let pool := Bytes32.read 8 data
    let pageNumber := leNat (slice 40 8 data)
    let firstSequence := leNat (slice 48 8 data)
    let filled := leNat (slice 56 2 data)
    if pageNumber * POOL_V1_ROOT_HISTORY_CAPACITY ≥ U64_LIMIT then
      .error PoolV1ProgramError.arithmeticOverflow
    else if pool ≠ expectedPool ∨ pageNumber ≠ expectedPageNumber ∨
        firstSequence ≠ pageNumber * POOL_V1_ROOT_HISTORY_CAPACITY ∨
        filled > POOL_V1_ROOT_HISTORY_CAPACITY then
      .error PoolV1ProgramError.stateHistoryMismatch
    else if ∃ slot < filled, decodeDigestCanonical (slice (64 + 32 * slot) 32 data) = none then
      .error .invalidAccountData
    else if ¬ allZero (data.drop (64 + 32 * filled)) then .error .invalidAccountData
    else .ok ⟨pool, pageNumber, firstSequence, filled⟩

def readRetainedRoot (data : Bytes) (header : RootPageHeaderV1) (sequence : ℕ) :
    Except ProgramError Digest :=
  let location := rootHistoryLocation sequence
  if location.pageNumber ≠ header.pageNumber ∨ location.slot ≥ header.filled then
    .error PoolV1ProgramError.stateHistoryMismatch
  else match decodeDigestCanonical (slice (64 + 32 * location.slot) 32 data) with
    | none => .error .invalidAccountData
    | some root => .ok root

/-- Store roots in consecutive slots. -/
def writeRoots : ℕ → List Digest → Bytes → Bytes
  | _, [], data => data
  | slot, root :: roots, data =>
    writeRoots (slot + 1) roots (patch (64 + 32 * slot) (encodeDigestCanonical root) data)

def pageHeaderBytes (pool : Pubkey) (pageNumber firstSequence filled : ℕ) : Bytes :=
  pagePreamble ++ (pool.bytes ++ (leBytes 8 pageNumber ++ (leBytes 8 firstSequence ++
    (leBytes 2 filled ++ zeros 6))))

/-- The zeroed account gets the header and the given roots. -/
def writeNewPageUnchecked (pool : Pubkey) (pageNumber firstSequence : ℕ) (roots : List Digest) : Bytes :=
  writeRoots 0 roots (pageHeaderBytes pool pageNumber firstSequence roots.length ++ zeros 8192)

def appendRootsUnchecked (data : Bytes) (header : RootPageHeaderV1) (roots : List Digest) : Bytes :=
  patch 56 (leBytes 2 (header.filled + roots.length)) (writeRoots header.filled roots data)

/-! ### The image of a page -/

def rootsBytes (roots : List Digest) : Bytes := roots.flatMap encodeDigestCanonical

/-- The image of page `pageNumber` of a pool when it retains exactly `roots`. -/
def pageImage (pool : Pubkey) (pageNumber : ℕ) (roots : List Digest) : Bytes :=
  pageHeaderBytes pool pageNumber (pageNumber * POOL_V1_ROOT_HISTORY_CAPACITY) roots.length ++
    (rootsBytes roots ++ zeros (32 * (POOL_V1_ROOT_HISTORY_CAPACITY - roots.length)))

@[simp] theorem length_pagePreamble : pagePreamble.length = 8 := by simp [pagePreamble, ASPR]

@[simp] theorem length_pageHeaderBytes (pool : Pubkey) (pageNumber firstSequence filled : ℕ) :
    (pageHeaderBytes pool pageNumber firstSequence filled).length = 64 := by
  simp [pageHeaderBytes]

@[simp] theorem length_rootsBytes (roots : List Digest) : (rootsBytes roots).length = 32 * roots.length := by
  induction roots with
  | nil => rfl
  | cons root roots ih =>
    simp only [rootsBytes, List.flatMap_cons, List.length_append, List.length_cons] at *
    rw [ih, length_encodeDigestCanonical]
    ring

theorem rootsBytes_append (a b : List Digest) : rootsBytes (a ++ b) = rootsBytes a ++ rootsBytes b := by
  simp [rootsBytes]

theorem slice_rootsBytes {roots : List Digest} {slot : ℕ} (h : slot < roots.length) :
    slice (32 * slot) 32 (rootsBytes roots) = encodeDigestCanonical roots[slot] := by
  induction roots generalizing slot with
  | nil => simp at h
  | cons root roots ih =>
    have hcons : rootsBytes (root :: roots) = encodeDigestCanonical root ++ rootsBytes roots := rfl
    rw [hcons]
    cases slot with
    | zero => rw [Nat.mul_zero, slice_append_head (by simp), List.getElem_cons_zero]
    | succ slot =>
      rw [slice_append_right (by simp), length_encodeDigestCanonical,
        show 32 * (slot + 1) - 32 = 32 * slot by omega, List.getElem_cons_succ]
      exact ih (by simpa using h)

theorem length_pageImage {pool : Pubkey} {pageNumber : ℕ} {roots : List Digest}
    (h : roots.length ≤ POOL_V1_ROOT_HISTORY_CAPACITY) :
    (pageImage pool pageNumber roots).length = POOL_V1_ROOT_HISTORY_PAGE_ACCOUNT_BYTES := by
  simp only [pageImage, List.length_append, length_pageHeaderBytes, length_rootsBytes, length_zeros,
    POOL_V1_ROOT_HISTORY_CAPACITY, POOL_V1_ROOT_HISTORY_PAGE_ACCOUNT_BYTES] at *
  omega

theorem slice_pageImage_header {pool : Pubkey} {pageNumber : ℕ} {roots : List Digest} {off len : ℕ}
    (h : off + len ≤ 64) : slice off len (pageImage pool pageNumber roots) =
      slice off len (pageHeaderBytes pool pageNumber (pageNumber * POOL_V1_ROOT_HISTORY_CAPACITY)
        roots.length) := by
  rw [pageImage, slice_append_left (by simpa using h)]

section HeaderFields
variable (pool : Pubkey) (pageNumber firstSequence filled : ℕ)

theorem slice_pageHeader_preamble :
    slice 0 8 (pageHeaderBytes pool pageNumber firstSequence filled) = pagePreamble := by
  rw [pageHeaderBytes, slice_append_head (by simp)]

theorem slice_pageHeader_pool :
    slice 8 32 (pageHeaderBytes pool pageNumber firstSequence filled) = pool.bytes := by
  simp [pageHeaderBytes, slice_append_right, slice_append_head]

theorem slice_pageHeader_number :
    slice 40 8 (pageHeaderBytes pool pageNumber firstSequence filled) = leBytes 8 pageNumber := by
  simp [pageHeaderBytes, slice_append_right, slice_append_head]

theorem slice_pageHeader_first :
    slice 48 8 (pageHeaderBytes pool pageNumber firstSequence filled) = leBytes 8 firstSequence := by
  simp [pageHeaderBytes, slice_append_right, slice_append_head]

theorem slice_pageHeader_filled :
    slice 56 2 (pageHeaderBytes pool pageNumber firstSequence filled) = leBytes 2 filled := by
  simp [pageHeaderBytes, slice_append_right, slice_append_head]

theorem slice_pageHeader_reserved :
    slice 58 6 (pageHeaderBytes pool pageNumber firstSequence filled) = zeros 6 := by
  simp [pageHeaderBytes, slice_append_right, slice_all]

end HeaderFields

/-- The slot of a retained root holds its encoding. -/
theorem slice_pageImage_root {pool : Pubkey} {pageNumber slot : ℕ} {roots : List Digest}
    (h : slot < roots.length) :
    slice (64 + 32 * slot) 32 (pageImage pool pageNumber roots) = encodeDigestCanonical roots[slot] := by
  rw [pageImage, slice_append_right (by simp), length_pageHeaderBytes, Nat.add_sub_cancel_left,
    slice_append_left (by simp; omega), slice_rootsBytes h]

/-- A slot past the retained roots is zero. -/
theorem slice_pageImage_unused {pool : Pubkey} {pageNumber slot : ℕ} {roots : List Digest}
    (h : roots.length ≤ slot) (hslot : slot < POOL_V1_ROOT_HISTORY_CAPACITY) :
    slice (64 + 32 * slot) 32 (pageImage pool pageNumber roots) = zeros 32 := by
  rw [pageImage, slice_append_right (by simp), length_pageHeaderBytes, Nat.add_sub_cancel_left,
    slice_append_right (by simp; omega), slice_zeros (by simp; omega)]

theorem drop_pageImage_unused {pool : Pubkey} {pageNumber : ℕ} {roots : List Digest} :
    (pageImage pool pageNumber roots).drop (64 + 32 * roots.length) =
      zeros (32 * (POOL_V1_ROOT_HISTORY_CAPACITY - roots.length)) := by
  rw [pageImage, ← List.append_assoc, List.drop_left']
  simp

/-- The image of canonical roots is accepted and its header read back. -/
theorem validateRootPageBytes_pageImage {pool : Pubkey} {pageNumber : ℕ} {roots : List Digest}
    (hcap : roots.length ≤ POOL_V1_ROOT_HISTORY_CAPACITY)
    (hnum : pageNumber * POOL_V1_ROOT_HISTORY_CAPACITY < U64_LIMIT)
    (hcanon : ∀ root ∈ roots, DigestIsCanonical root) :
    validateRootPageBytes (pageImage pool pageNumber roots) pool pageNumber =
      .ok ⟨pool, pageNumber, pageNumber * POOL_V1_ROOT_HISTORY_CAPACITY, roots.length⟩ := by
  have hnumber : leNat (slice 40 8 (pageImage pool pageNumber roots)) = pageNumber := by
    rw [slice_pageImage_header (by omega), slice_pageHeader_number, leNat_leBytes_of_lt]
    simp only [POOL_V1_ROOT_HISTORY_CAPACITY, U64_LIMIT] at hnum
    omega
  have hfirst : leNat (slice 48 8 (pageImage pool pageNumber roots)) =
      pageNumber * POOL_V1_ROOT_HISTORY_CAPACITY := by
    rw [slice_pageImage_header (by omega), slice_pageHeader_first, leNat_leBytes_of_lt]
    exact hnum
  have hfilled : leNat (slice 56 2 (pageImage pool pageNumber roots)) = roots.length := by
    rw [slice_pageImage_header (by omega), slice_pageHeader_filled, leNat_leBytes_of_lt]
    simp only [POOL_V1_ROOT_HISTORY_CAPACITY] at hcap
    omega
  have hpool : Bytes32.read 8 (pageImage pool pageNumber roots) = pool := by
    apply Bytes32.read_eq
    rw [slice_pageImage_header (by omega), slice_pageHeader_pool]
  have hroots : ¬ ∃ slot < roots.length,
      decodeDigestCanonical (slice (64 + 32 * slot) 32 (pageImage pool pageNumber roots)) = none := by
    rintro ⟨slot, hslot, hnone⟩
    rw [slice_pageImage_root hslot, decode_encodeDigestCanonical (hcanon _ (List.getElem_mem hslot))] at hnone
    simp at hnone
  have hhead : ¬ ((pageImage pool pageNumber roots).length ≠ POOL_V1_ROOT_HISTORY_PAGE_ACCOUNT_BYTES ∨
      slice 0 8 (pageImage pool pageNumber roots) ≠ pagePreamble ∨
      slice 58 6 (pageImage pool pageNumber roots) ≠ zeros 6) := by
    rw [length_pageImage hcap, slice_pageImage_header (by omega), slice_pageHeader_preamble,
      slice_pageImage_header (by omega), slice_pageHeader_reserved]
    simp
  rw [validateRootPageBytes, if_neg hhead]
  simp only [hnumber, hfirst, hfilled, hpool, drop_pageImage_unused, if_neg hroots]
  rw [if_neg (by omega), if_neg (by simp; omega), if_neg (by simp)]

theorem readRetainedRoot_pageImage {pool : Pubkey} {pageNumber sequence : ℕ} {roots : List Digest}
    {header : RootPageHeaderV1} (hnum : header.pageNumber = pageNumber)
    (hfilled : header.filled = roots.length) (hpage : sequence / POOL_V1_ROOT_HISTORY_CAPACITY = pageNumber)
    (hslot : sequence % POOL_V1_ROOT_HISTORY_CAPACITY < roots.length)
    (hcanon : ∀ root ∈ roots, DigestIsCanonical root) :
    readRetainedRoot (pageImage pool pageNumber roots) header sequence =
      .ok roots[sequence % POOL_V1_ROOT_HISTORY_CAPACITY] := by
  rw [readRetainedRoot, if_neg]
  · simp only [rootHistoryLocation, slice_pageImage_root hslot,
      decode_encodeDigestCanonical (hcanon _ (List.getElem_mem hslot))]
  · simp only [rootHistoryLocation, hnum, hfilled, not_or, not_not]
    omega

/-- Writing roots into the first free slots extends the retained list. -/
theorem writeRoots_rootsBytes (header : Bytes) (hheader : header.length = 64) (new : List Digest) :
    ∀ (roots : List Digest) (free : ℕ), new.length ≤ free →
      writeRoots roots.length new (header ++ (rootsBytes roots ++ zeros (32 * free))) =
        header ++ (rootsBytes (roots ++ new) ++ zeros (32 * (free - new.length))) := by
  induction new with
  | nil => simp [writeRoots]
  | cons root rest ih =>
    intro roots free hfree
    rw [List.length_cons] at hfree
    have hstep : patch (64 + 32 * roots.length) (encodeDigestCanonical root)
        (header ++ (rootsBytes roots ++ zeros (32 * free))) =
        header ++ (rootsBytes (roots ++ [root]) ++ zeros (32 * (free - 1))) := by
      rw [← List.append_assoc, patch_append_at (by simp [hheader]), drop_zeros, length_encodeDigestCanonical,
        rootsBytes_append, show 32 * free - 32 = 32 * (free - 1) by omega]
      simp [rootsBytes]
    have hnext := ih (roots ++ [root]) (free - 1) (by omega)
    rw [List.length_append, List.length_singleton] at hnext
    rw [writeRoots, hstep, hnext, List.append_assoc, List.singleton_append, List.length_cons,
      show free - 1 - rest.length = free - (rest.length + 1) by omega]

theorem writeNewPageUnchecked_eq {pool : Pubkey} {pageNumber : ℕ} {roots : List Digest}
    (h : roots.length ≤ POOL_V1_ROOT_HISTORY_CAPACITY) :
    writeNewPageUnchecked pool pageNumber (pageNumber * POOL_V1_ROOT_HISTORY_CAPACITY) roots =
      pageImage pool pageNumber roots := by
  have hw := writeRoots_rootsBytes (pageHeaderBytes pool pageNumber
    (pageNumber * POOL_V1_ROOT_HISTORY_CAPACITY) roots.length) (by simp) roots [] 256 h
  simpa [writeNewPageUnchecked, pageImage, rootsBytes, POOL_V1_ROOT_HISTORY_CAPACITY] using hw

theorem patch_pageHeader_filled (pool : Pubkey) (pageNumber firstSequence filled filled' : ℕ) :
    patch 56 (leBytes 2 filled') (pageHeaderBytes pool pageNumber firstSequence filled) =
      pageHeaderBytes pool pageNumber firstSequence filled' := by
  have hsplit : ∀ n, pageHeaderBytes pool pageNumber firstSequence n =
      (pagePreamble ++ pool.bytes ++ leBytes 8 pageNumber ++ leBytes 8 firstSequence) ++
        (leBytes 2 n ++ zeros 6) := by
    intro n
    simp [pageHeaderBytes]
  rw [hsplit filled, patch_append_at (by simp), hsplit filled', List.append_assoc,
    List.drop_append_of_le_length (by simp), List.drop_eq_nil_of_le (by simp), List.nil_append]

/-- Appending roots to a page gives the image of the longer list. -/
theorem appendRootsUnchecked_pageImage {pool : Pubkey} {pageNumber : ℕ} {roots new : List Digest}
    {header : RootPageHeaderV1} (hfilled : header.filled = roots.length)
    (hcap : roots.length + new.length ≤ POOL_V1_ROOT_HISTORY_CAPACITY) :
    appendRootsUnchecked (pageImage pool pageNumber roots) header new =
      pageImage pool pageNumber (roots ++ new) := by
  have hw := writeRoots_rootsBytes (pageHeaderBytes pool pageNumber
    (pageNumber * POOL_V1_ROOT_HISTORY_CAPACITY) roots.length) (by simp) new roots
    (POOL_V1_ROOT_HISTORY_CAPACITY - roots.length) (by omega)
  rw [appendRootsUnchecked, hfilled, pageImage, hw, patch_append_left (by simp),
    patch_pageHeader_filled, pageImage, List.length_append, Nat.sub_sub]

end Aspis.Pool
