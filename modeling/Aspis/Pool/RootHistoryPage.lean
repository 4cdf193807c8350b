import Aspis.Pool.StateExact

/-! The value model of a root-history page: the header and all 256 slots, with
zero digests in the slots not yet filled. -/

namespace Aspis.Pool

open Lib Chain Statement

inductive PoolV1RootHistoryError
  | sequenceOverflow
  | pageNumberOverflow
  | wrongPage
  | outOfOrder
  | pageFull
  | wrongLength
  | wrongMagic
  | wrongVersion
  | wrongCapacity
  | nonZeroReserved
  | invalidFilled
  | invalidFirstSequence
  | nonCanonicalDigest
  | nonCanonicalUnusedRoot
  deriving DecidableEq, Repr

structure RootHistoryPageHeaderV1 where
  pool : Pubkey
  pageNumber : ℕ
  firstSequence : ℕ
  filled : ℕ
  deriving DecidableEq

/-- One append-only page of 256 roots. -/
structure RootHistoryPageV1 extends RootHistoryPageHeaderV1 where
  roots : Fin 256 → Digest
  deriving DecidableEq

def validateRootHistoryPagePrefixV1 (bytes : Bytes) : Except PoolV1RootHistoryError RootHistoryPageHeaderV1 := do
  require (bytes.length = POOL_V1_ROOT_HISTORY_PAGE_ACCOUNT_BYTES) .wrongLength
  require (slice 0 4 bytes = ASPR) .wrongMagic
  require (byteAt 4 bytes = 1 ∧ byteAt 6 bytes = 1) .wrongVersion
  require (byteAt 5 bytes = 8) .wrongCapacity
  require (byteAt 7 bytes = 0 ∧ slice 58 6 bytes = zeros 6) .nonZeroReserved
  require (leNat (slice 56 2 bytes) ≤ POOL_V1_ROOT_HISTORY_CAPACITY) .invalidFilled
  return ⟨Bytes32.read 8 bytes, leNat (slice 40 8 bytes), leNat (slice 48 8 bytes), leNat (slice 56 2 bytes)⟩

/-- The root in a slot of a page image. -/
def slotRoot (bytes : Bytes) (slot : ℕ) : Option Digest := decodeDigestCanonical (slice (64 + 32 * slot) 32 bytes)

/-- The product with the page capacity, when it fits a word. -/
def expectedFirstSequence (pageNumber : ℕ) : Except PoolV1RootHistoryError ℕ := do
  require (pageNumber * POOL_V1_ROOT_HISTORY_CAPACITY < U64_LIMIT) .pageNumberOverflow
  return pageNumber * POOL_V1_ROOT_HISTORY_CAPACITY

/-- Every slot is a canonical digest and the slots past the filled ones are zero. -/
def validateRootHistoryPageBytesV1 (bytes : Bytes) : Except PoolV1RootHistoryError RootHistoryPageHeaderV1 := do
  let header ← validateRootHistoryPagePrefixV1 bytes
  require (∀ slot : Fin 256, (slotRoot bytes slot).isSome = true) .nonCanonicalDigest
  let first ← expectedFirstSequence header.pageNumber
  require (header.firstSequence = first) .invalidFirstSequence
  require (∀ slot : Fin 256, header.filled ≤ slot → slotRoot bytes slot = some Digest.zero) .nonCanonicalUnusedRoot
  return header

/-- The filled slots as they are stored, zero elsewhere. -/
def decodeRoots (bytes : Bytes) (filled : ℕ) (slot : Fin 256) : Digest :=
  if (slot : ℕ) < filled then (slotRoot bytes slot).getD Digest.zero else Digest.zero

namespace RootHistoryPageV1

def validateMetadata (page : RootHistoryPageV1) : Except PoolV1RootHistoryError Unit := do
  require (page.filled ≤ POOL_V1_ROOT_HISTORY_CAPACITY) .invalidFilled
  let first ← expectedFirstSequence page.pageNumber
  require (page.firstSequence = first) .invalidFirstSequence

def image (page : RootHistoryPageV1) : Bytes :=
  pageHeaderBytes page.pool page.pageNumber page.firstSequence page.filled ++ rootsBytes (List.ofFn page.roots)

def encode (page : RootHistoryPageV1) : Except PoolV1RootHistoryError Bytes := do
  page.validateMetadata
  require (∀ slot : Fin 256, page.filled ≤ slot → page.roots slot = Digest.zero) .nonCanonicalUnusedRoot
  return page.image

def decode (bytes : Bytes) : Except PoolV1RootHistoryError RootHistoryPageV1 := do
  let header ← validateRootHistoryPageBytesV1 bytes
  require (∀ slot : Fin 256, (slot : ℕ) < header.filled → (slotRoot bytes slot).isSome = true) .nonCanonicalDigest
  return ⟨header, decodeRoots bytes header.filled⟩

/-! ### Exactness -/

@[simp] theorem length_image (page : RootHistoryPageV1) : page.image.length = 8256 := by
  rw [image, List.length_append, length_pageHeaderBytes, length_rootsBytes, List.length_ofFn]

theorem slotRoot_image {page : RootHistoryPageV1} (hcanonical : ∀ slot, DigestIsCanonical (page.roots slot))
    (slot : Fin 256) : slotRoot page.image slot = some (page.roots slot) := by
  have hslice : slice (64 + 32 * slot) 32 page.image = encodeDigestCanonical (page.roots slot) := by
    rw [image, slice_append_right (by simp), length_pageHeaderBytes, Nat.add_sub_cancel_left,
      slice_rootsBytes (by rw [List.length_ofFn]; exact slot.isLt), List.getElem_ofFn]
  rw [slotRoot, hslice, decode_encodeDigestCanonical (hcanonical slot)]

theorem slice_image {page : RootHistoryPageV1} {off len : ℕ} (h : off + len ≤ 64) : slice off len page.image =
    slice off len (pageHeaderBytes page.pool page.pageNumber page.firstSequence page.filled) := by
  rw [image, slice_append_left (by simpa using h)]

/-- The metadata check bounds the numbers of the header. -/
theorem validateMetadata_ok {page : RootHistoryPageV1} {u : Unit} : page.validateMetadata = .ok u ↔
    page.filled ≤ POOL_V1_ROOT_HISTORY_CAPACITY ∧ page.pageNumber * POOL_V1_ROOT_HISTORY_CAPACITY < U64_LIMIT ∧
      page.firstSequence = page.pageNumber * POOL_V1_ROOT_HISTORY_CAPACITY := by
  simp only [validateMetadata, expectedFirstSequence, except_bind_eq_ok, require_eq_ok, except_pure_eq_ok]
  constructor
  · rintro ⟨-, hfilled, _, ⟨-, hlt, rfl⟩, hfirst⟩
    exact ⟨hfilled, hlt, hfirst⟩
  · rintro ⟨hfilled, hlt, hfirst⟩
    exact ⟨(), hfilled, _, ⟨(), hlt, rfl⟩, hfirst⟩

theorem decode_of_encode {page : RootHistoryPageV1} {bytes : Bytes}
    (hcanonical : ∀ slot, DigestIsCanonical (page.roots slot)) (h : page.encode = .ok bytes) :
    decode bytes = .ok page := by
  simp only [encode, except_bind_eq_ok, require_eq_ok, except_pure_eq_ok, validateMetadata_ok] at h
  obtain ⟨-, ⟨hfilled, hlt, hfirst⟩, -, hunused, rfl⟩ := h
  have hnumber : leNat (slice 40 8 page.image) = page.pageNumber := by
    rw [slice_image (by omega), slice_pageHeader_number, leNat_leBytes_of_lt]
    simp only [POOL_V1_ROOT_HISTORY_CAPACITY, U64_LIMIT] at hlt
    omega
  have hfirstRead : leNat (slice 48 8 page.image) = page.firstSequence := by
    rw [slice_image (by omega), slice_pageHeader_first, leNat_leBytes_of_lt]
    rw [hfirst]
    exact hlt
  have hfilledRead : leNat (slice 56 2 page.image) = page.filled := by
    rw [slice_image (by omega), slice_pageHeader_filled, leNat_leBytes_of_lt]
    simp only [POOL_V1_ROOT_HISTORY_CAPACITY] at hfilled
    omega
  have hpool : Bytes32.read 8 page.image = page.pool := Bytes32.read_eq (by
    rw [slice_image (by omega), slice_pageHeader_pool])
  have hreserved : slice 58 6 page.image = zeros 6 := by
    rw [slice_image (by omega), slice_pageHeader_reserved]
  have hroots : decodeRoots page.image page.filled = page.roots := by
    funext slot
    unfold decodeRoots
    split_ifs with hslot
    · rw [slotRoot_image hcanonical, Option.getD_some]
    · exact (hunused slot (by omega)).symm
  simp only [decode, validateRootHistoryPageBytesV1, validateRootHistoryPagePrefixV1, expectedFirstSequence,
    except_bind_eq_ok, require_eq_ok, except_pure_eq_ok, slotRoot_image hcanonical, hnumber, hfirstRead, hfilledRead,
    hpool, hreserved, Option.isSome_some]
  refine ⟨page.toRootHistoryPageHeaderV1, ⟨page.toRootHistoryPageHeaderV1, ⟨(), by simp; rfl, (), rfl, (), ⟨rfl, rfl⟩,
    (), rfl, (), ⟨rfl, trivial⟩, (), hfilled, rfl⟩, (), fun _ => trivial, _, ⟨(), hlt, rfl⟩, (), hfirst, (),
    fun slot hslot => by rw [hunused slot hslot], rfl⟩, (), fun _ _ => trivial, ?_⟩
  rw [hroots]

theorem encode_of_decode {page : RootHistoryPageV1} {bytes : Bytes} (h : decode bytes = .ok page) :
    (∀ slot, DigestIsCanonical (page.roots slot)) ∧ page.encode = .ok bytes := by
  simp only [decode, validateRootHistoryPageBytesV1, validateRootHistoryPagePrefixV1, expectedFirstSequence,
    except_bind_eq_ok, require_eq_ok, except_pure_eq_ok] at h
  obtain ⟨_, ⟨header, ⟨-, hlen, -, hmagic, -, ⟨hversion, hencoding⟩, -, hcapacity, -, ⟨hzero, hreserved⟩, -, hfilled,
    rfl⟩, -, hsome, _, ⟨-, hlt, rfl⟩, -, hfirst, -, hunused, rfl⟩, -, -, rfl⟩ := h
  simp only [POOL_V1_ROOT_HISTORY_PAGE_ACCOUNT_BYTES] at hlen
  -- an unused slot is stored as the zero digest, so the page holds in every slot what the bytes hold
  have hslot : ∀ slot : Fin 256,
      slotRoot bytes slot = some (decodeRoots bytes (leNat (slice 56 2 bytes)) slot) := by
    intro slot
    unfold decodeRoots
    split_ifs with hslot
    · obtain ⟨root, hroot⟩ := Option.isSome_iff_exists.mp (hsome slot)
      rw [hroot, Option.getD_some]
    · exact hunused slot (by simpa using hslot)
  have hpreamble : pagePreamble = slice 0 8 bytes := by
    rw [slice_split 0 4 4, slice_split 4 1 3, slice_split 5 1 2, slice_split 6 1 1, hmagic, slice_one (by omega),
      slice_one (by omega), slice_one (by omega), slice_one (by omega), hversion, hencoding, hcapacity, hzero]
    rfl
  have hroots : rootsBytes (List.ofFn (decodeRoots bytes (leNat (slice 56 2 bytes)))) = slice 64 8192 bytes :=
    rootsBytes_ofFn_slice fun slot =>
      encodeDigestCanonical_slice (by have := slot.isLt; omega) (hslot slot)
  refine ⟨fun slot => decodeDigestCanonical_canonical (hslot slot), ?_⟩
  simp only [encode, except_bind_eq_ok, require_eq_ok, except_pure_eq_ok, validateMetadata_ok]
  refine ⟨(), ⟨hfilled, hlt, hfirst⟩, (), fun slot hle => if_neg (by omega), ?_⟩
  simp only [image, pageHeaderBytes, hpreamble, hroots, ← hreserved]
  simp (disch := omega) only [Bytes32.read_bytes, leBytes_leNat_slice, slice_join]
  exact slice_all hlen

end RootHistoryPageV1

theorem rootHistoryPage_exact : (Format.ofExcept RootHistoryPageV1.decode RootHistoryPageV1.encode
    fun page => ∀ slot, DigestIsCanonical (page.roots slot)).Exact :=
  Format.exact_ofExcept (fun _ _ => RootHistoryPageV1.decode_of_encode) fun _ _ => RootHistoryPageV1.encode_of_decode

end Aspis.Pool
