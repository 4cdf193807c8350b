import Aspis.Core.PackedExact

/-! The body of a one-fold proof: a section of fixed fields, two roots, three work nonces, sixteen
query records and two frontiers. The strict parser validates every packed section; the deferred one
leaves the words to the decoders that consume them. -/

namespace Aspis.Core

open Aspis.Lib

def V6_QUERY_COUNT : ℕ := 16
def V6_FIXED_QM31_VALUES : ℕ := 641
def V6_FIXED_M31_LIMBS : ℕ := 2564
def V6_FIXED_PACKED_FIELD_BYTES : ℕ := 9936
def V6_WORK_NONCE_BYTES : ℕ := 24
def V6_C1_LIMBS_PER_QUERY : ℕ := 104
def V7_COMPACT_C2_LIMBS_PER_QUERY : ℕ := 48
def V7_COMPACT_C1_BYTES_PER_QUERY : ℕ := 403
def V7_COMPACT_C2_BYTES_PER_QUERY : ℕ := 186
def V7_COMPACT_PRIVATE_SALT_BYTES : ℕ := 32
def V7_COMPACT_QUERY_BYTES : ℕ := 621
def V7_COMPACT_QUERY_SECTION_BYTES : ℕ := 9936
def V7_COMPACT_DIGEST_BYTES : ℕ := 26
def V7_COMPACT_FRONTIER_CAP_PER_TREE : ℕ := 203
def V7_COMPACT_BODY_WITHOUT_FRONTIERS : ℕ := 19948
def V7_COMPACT_PRODUCTION_LIMIT_BYTES : ℕ := 30720

/-- The sizes as the source computes them. -/
theorem wire_sizes :
    V6_FIXED_M31_LIMBS = 4 * V6_FIXED_QM31_VALUES ∧
    V6_FIXED_PACKED_FIELD_BYTES = packedBytes V6_FIXED_M31_LIMBS ∧
    V7_COMPACT_C1_BYTES_PER_QUERY = packedBytes V6_C1_LIMBS_PER_QUERY ∧
    V7_COMPACT_C2_BYTES_PER_QUERY = packedBytes V7_COMPACT_C2_LIMBS_PER_QUERY ∧
    V7_COMPACT_QUERY_BYTES = V7_COMPACT_C1_BYTES_PER_QUERY + V7_COMPACT_C2_BYTES_PER_QUERY +
      V7_COMPACT_PRIVATE_SALT_BYTES ∧
    V7_COMPACT_QUERY_SECTION_BYTES = V6_QUERY_COUNT * V7_COMPACT_QUERY_BYTES ∧
    V7_COMPACT_BODY_WITHOUT_FRONTIERS = V6_FIXED_PACKED_FIELD_BYTES + 2 * V7_COMPACT_DIGEST_BYTES +
      V6_WORK_NONCE_BYTES + V7_COMPACT_QUERY_SECTION_BYTES := by decide

structure V7CompactQueryRecord where
  c1Packed : Bytes
  c2Packed : Bytes
  salt : Bytes
  deriving DecidableEq, Repr

structure V7CompactOneFoldWire where
  fixedFieldsPacked : Bytes
  c1Root : Bytes
  c2Root : Bytes
  workNonces : Bytes
  querySection : Bytes
  c1Frontier : Bytes
  c2Frontier : Bytes
  deriving DecidableEq, Repr

namespace V7CompactOneFoldWire

def parseDeferredCanonicality (bytes : Bytes) (frontierNodes : ℕ) : Except V6WireError V7CompactOneFoldWire := do
  require (frontierNodes ≤ V7_COMPACT_FRONTIER_CAP_PER_TREE) .frontierTooLarge
  let frontierBytes ← okOr (usizeMul frontierNodes V7_COMPACT_DIGEST_BYTES) .wrongLength
  let expected ← okOr (usizeAdd V7_COMPACT_BODY_WITHOUT_FRONTIERS (2 * frontierBytes)) .wrongLength
  require (bytes.length = expected ∧ bytes.length ≤ V7_COMPACT_PRODUCTION_LIMIT_BYTES) .wrongLength
  let (fixedFieldsPacked, rest) := bytes.splitAt V6_FIXED_PACKED_FIELD_BYTES
  require (fixedFieldsPacked.getLastD 0 &&& 0xf0 = 0) .nonCanonicalM31
  let (c1Root, rest) := rest.splitAt V7_COMPACT_DIGEST_BYTES
  let (c2Root, rest) := rest.splitAt V7_COMPACT_DIGEST_BYTES
  let (workNonces, rest) := rest.splitAt V6_WORK_NONCE_BYTES
  let (querySection, rest) := rest.splitAt V7_COMPACT_QUERY_SECTION_BYTES
  let (c1Frontier, c2Frontier) := rest.splitAt frontierBytes
  require (c1Root.length = V7_COMPACT_DIGEST_BYTES) .wrongLength
  require (c2Root.length = V7_COMPACT_DIGEST_BYTES) .wrongLength
  require (workNonces.length = V6_WORK_NONCE_BYTES) .wrongLength
  return { fixedFieldsPacked, c1Root, c2Root, workNonces, querySection, c1Frontier, c2Frontier }

def query (self : V7CompactOneFoldWire) (ordinal : ℕ) : Option V7CompactQueryRecord :=
  if V6_QUERY_COUNT ≤ ordinal then none
  else
    let start := ordinal * V7_COMPACT_QUERY_BYTES
    let c1End := start + V7_COMPACT_C1_BYTES_PER_QUERY
    let c2End := c1End + V7_COMPACT_C2_BYTES_PER_QUERY
    some ⟨slice start V7_COMPACT_C1_BYTES_PER_QUERY self.querySection,
      slice c1End V7_COMPACT_C2_BYTES_PER_QUERY self.querySection,
      slice c2End V7_COMPACT_PRIVATE_SALT_BYTES self.querySection⟩

def parse (bytes : Bytes) (frontierNodes : ℕ) : Except V6WireError V7CompactOneFoldWire := do
  let wire ← parseDeferredCanonicality bytes frontierNodes
  validatePackedM31 wire.fixedFieldsPacked V6_FIXED_M31_LIMBS
  (List.range V6_QUERY_COUNT).forM fun ordinal => do
    let query ← okOr (wire.query ordinal) .invalidQuerySchedule
    validatePackedM31 query.c1Packed V6_C1_LIMBS_PER_QUERY
    validatePackedM31 query.c2Packed V7_COMPACT_C2_LIMBS_PER_QUERY
  return wire

end V7CompactOneFoldWire

/-! ### The decoders of a deferred body -/

/-- A decoder fails with an error of the wire, or by reading past the end of its bytes. -/
inductive DecodeFailure
  | wire (error : V6WireError)
  | outOfBounds
  deriving DecidableEq, Repr

structure V6FixedFieldReader where
  packed : PackedM31Reader
  remaining : ℕ
  deriving DecidableEq, Repr

namespace V6FixedFieldReader

def new (bytes : Bytes) : Except V6WireError V6FixedFieldReader := do
  validatePackedPadding bytes V6_FIXED_M31_LIMBS
  return ⟨PackedM31Reader.new bytes, V6_FIXED_QM31_VALUES⟩

def nextQm31 (self : V6FixedFieldReader) : Except DecodeFailure (QM31 × V6FixedFieldReader) := do
  require (self.remaining ≠ 0) (.wire .wrongLength)
  let (value, packed) ← okOr self.packed.qm31 .outOfBounds
  require (value.c0.a.val < P ∧ value.c0.b.val < P ∧ value.c1.a.val < P ∧ value.c1.b.val < P) (.wire .nonCanonicalM31)
  return (value, ⟨packed, self.remaining - 1⟩)

def finish (self : V6FixedFieldReader) : Except V6WireError Unit := require (self.remaining = 0) .wrongLength

/-- The next fields, one after the other. -/
def take (self : V6FixedFieldReader) : ℕ → Except DecodeFailure (List QM31 × V6FixedFieldReader)
  | 0 => .ok ([], self)
  | count + 1 => do
    let (value, self) ← self.nextQm31
    let (rest, self) ← self.take count
    return (value :: rest, self)

end V6FixedFieldReader

/-- The fixed section, read to its end. -/
def decodeFixedFields (bytes : Bytes) : Except DecodeFailure (List QM31) := do
  let reader ← mapErr .wire (V6FixedFieldReader.new bytes)
  let (values, reader) ← reader.take V6_FIXED_QM31_VALUES
  mapErr .wire reader.finish
  return values

/-- The two packed parts of a query record. -/
def decodeQuery (wire : V7CompactOneFoldWire) (ordinal : ℕ) : Except V6WireError (List UInt32 × List UInt32) := do
  let query ← okOr (wire.query ordinal) .invalidQuerySchedule
  let c1 ← decodePackedM31EightAligned V6_C1_LIMBS_PER_QUERY query.c1Packed
  let c2 ← decodePackedM31EightAligned V7_COMPACT_C2_LIMBS_PER_QUERY query.c2Packed
  return (c1, c2)

/-- Every field of a body, decoded by the reader of its section. -/
def decodeEveryField (wire : V7CompactOneFoldWire) :
    Except DecodeFailure (List QM31 × List (List UInt32 × List UInt32)) := do
  let fixed ← decodeFixedFields wire.fixedFieldsPacked
  let queries ← mapErr .wire ((List.range V6_QUERY_COUNT).mapM (decodeQuery wire))
  return (fixed, queries)

/-! ### The fixed section -/

theorem last_mask {x : UInt8} {used : ℕ} (hused : used < 8) :
    x &&& ~~~((1 <<< UInt8.ofNat used) - 1) = 0 ↔ ∀ j, used ≤ j → j < 8 → x.toNat.testBit j = false := by
  have hpow : 2 ^ used < 2 ^ 8 := Nat.pow_lt_pow_right (by decide) hused
  have hpos : 0 < 2 ^ used := by positivity
  have hlow : ((1 <<< UInt8.ofNat used) - 1 : UInt8).toNat = 2 ^ used - 1 := by
    have hshift := toNat_one_shiftLeft hused
    rw [UInt8.toNat_sub_of_le _ _ (by rw [UInt8.le_iff_toNat_le, hshift]; exact hpos), hshift]
    rfl
  have hmask : (~~~((1 <<< UInt8.ofNat used) - 1) : UInt8).toNat = 2 ^ 8 - (2 ^ used - 1 + 1) := by
    rw [UInt8.toNat_not, hlow]
    show 256 - 1 - (2 ^ used - 1) = 2 ^ 8 - (2 ^ used - 1 + 1)
    omega
  have hbits : ∀ j, (2 ^ 8 - (2 ^ used - 1 + 1)).testBit j = (decide (j < 8) && decide (used ≤ j)) := by
    intro j
    rw [Nat.testBit_two_pow_sub_succ (by omega), Nat.testBit_two_pow_sub_one, ← decide_not]
    congr 1
    exact decide_eq_decide.mpr (by omega)
  rw [← UInt8.toNat_inj, UInt8.toNat_and, hmask]
  constructor
  · intro h j hle hlt
    have hbit : (x.toNat &&& (2 ^ 8 - (2 ^ used - 1 + 1))).testBit j = (0 : UInt8).toNat.testBit j := by rw [h]
    rw [Nat.testBit_and, hbits, decide_eq_true hlt, decide_eq_true hle, Bool.and_true, Bool.and_true] at hbit
    rw [hbit]
    exact Nat.zero_testBit j
  · intro h
    apply Nat.eq_of_testBit_eq
    intro j
    rw [Nat.testBit_and, hbits]
    by_cases hj : j < 8 ∧ used ≤ j
    · simp [h j hj.2 hj.1]
    · have hfalse : (decide (j < 8) && decide (used ≤ j)) = false := by
        simpa using hj
      rw [hfalse, Bool.and_false]
      exact (Nat.zero_testBit j).symm

theorem validatePackedPadding_eq_ok {limbs : ℕ} {bytes : Bytes} {u : Unit} :
    validatePackedPadding bytes limbs = .ok u ↔ bytes.length = packedBytes limbs ∧
      ∀ bit, limbs * 31 ≤ bit → bit < bytes.length * 8 → (leNat bytes).testBit bit = false := by
  unfold validatePackedPadding
  simp only [except_bind_eq_ok, require_eq_ok]
  constructor
  · rintro ⟨_, hlen, h⟩
    refine ⟨hlen, fun bit hle hlt => ?_⟩
    rw [packedBytes] at hlen
    have hused : limbs * 31 % 8 ≠ 0 := by omega
    rw [if_pos hused, require_eq_ok, last_mask (by omega)] at h
    have hbyte : bytes.getLastD 0 = byteAt (bit / 8) bytes := by
      have hlast : bit / 8 = bytes.length - 1 := by omega
      rw [byteAt, hlast, List.getD_eq_getElem?_getD, ← List.getLast?_eq_getElem?, List.getLastD_eq_getLast?]
    rw [testBit_leNat, ← hbyte]
    exact h (bit % 8) (by omega) (by omega)
  · rintro ⟨hlen, hpad⟩
    refine ⟨(), hlen, ?_⟩
    split_ifs with hused
    · rw [require_eq_ok, last_mask (by omega)]
      intro j hle hlt
      rw [packedBytes] at hlen
      have hbit := hpad (8 * (bytes.length - 1) + j) (by omega) (by omega)
      have hdiv : (8 * (bytes.length - 1) + j) / 8 = bytes.length - 1 := by omega
      have hmod : (8 * (bytes.length - 1) + j) % 8 = j := by omega
      rw [testBit_leNat, hdiv, hmod] at hbit
      rw [List.getLastD_eq_getLast?, List.getLast?_eq_getElem?, ← List.getD_eq_getElem?_getD]
      exact hbit
    · rfl

/-- The field element at an index of a packed section. -/
def packedField (bytes : Bytes) (index : ℕ) : QM31 :=
  ⟨⟨⟨packedWord bytes (4 * index)⟩, ⟨packedWord bytes (4 * index + 1)⟩⟩,
    ⟨⟨packedWord bytes (4 * index + 2)⟩, ⟨packedWord bytes (4 * index + 3)⟩⟩⟩

theorem ReaderAt.qm31 {bytes : Bytes} {k : ℕ} {reader : PackedM31Reader} (h : ReaderAt bytes (4 * k) reader)
    (hcover : 31 * (4 * k + 4) ≤ 8 * bytes.length) :
    ∃ rest, reader.qm31 = some (packedField bytes k, rest) ∧ ReaderAt bytes (4 * (k + 1)) rest := by
  obtain ⟨r1, h1, hat1⟩ := h.next (by omega)
  obtain ⟨r2, h2, hat2⟩ := hat1.next (by omega)
  obtain ⟨r3, h3, hat3⟩ := hat2.next (by omega)
  obtain ⟨r4, h4, hat4⟩ := hat3.next (by omega)
  refine ⟨r4, ?_, hat4⟩
  rw [PackedM31Reader.qm31, h1, Option.bind_eq_bind, Option.bind_some]
  dsimp only
  rw [h2, Option.bind_some]
  dsimp only
  rw [h3, Option.bind_some]
  dsimp only
  rw [h4]
  rfl

/-- One field: it is returned where its words are below `P`. -/
theorem nextQm31_eq {bytes : Bytes} {k : ℕ} {reader : V6FixedFieldReader} (hat : ReaderAt bytes (4 * k) reader.packed)
    (hremaining : reader.remaining ≠ 0) (hcover : 31 * (4 * k + 4) ≤ 8 * bytes.length) :
    ∃ packed, ReaderAt bytes (4 * (k + 1)) packed ∧ reader.nextQm31 =
      if ∀ index, 4 * k ≤ index → index < 4 * k + 4 → packedWord bytes index < P then
        .ok (packedField bytes k, ⟨packed, reader.remaining - 1⟩)
      else .error (.wire .nonCanonicalM31) := by
  obtain ⟨packed, hqm31, hnext⟩ := hat.qm31 (by omega)
  have hcanonical : ((packedField bytes k).c0.a.val < P ∧ (packedField bytes k).c0.b.val < P ∧
      (packedField bytes k).c1.a.val < P ∧ (packedField bytes k).c1.b.val < P) ↔
      ∀ index, 4 * k ≤ index → index < 4 * k + 4 → packedWord bytes index < P := by
    constructor
    · rintro ⟨h0, h1, h2, h3⟩ index hle hlt
      have hindex : index = 4 * k ∨ index = 4 * k + 1 ∨ index = 4 * k + 2 ∨ index = 4 * k + 3 := by omega
      rcases hindex with rfl | rfl | rfl | rfl
      · exact h0
      · exact h1
      · exact h2
      · exact h3
    · intro h
      exact ⟨h _ (by omega) (by omega), h _ (by omega) (by omega), h _ (by omega) (by omega), h _ (by omega) (by omega)⟩
  refine ⟨packed, hnext, ?_⟩
  rw [V6FixedFieldReader.nextQm31, require_of _ hremaining, except_ok_bind, hqm31]
  simp only [okOr]
  rw [except_ok_bind]
  dsimp only
  by_cases hwords : ∀ index, 4 * k ≤ index → index < 4 * k + 4 → packedWord bytes index < P
  · rw [if_pos hwords, require_of _ (hcanonical.mpr hwords)]
    rfl
  · rw [if_neg hwords, require, if_neg (fun h => hwords (hcanonical.mp h))]
    rfl

/-- The next fields are read where all their words are below `P`, and refused otherwise. -/
theorem take_fields {bytes : Bytes} : ∀ {count k : ℕ} {reader : V6FixedFieldReader}, ReaderAt bytes (4 * k) reader.packed →
    count ≤ reader.remaining → 31 * (4 * (k + count)) ≤ 8 * bytes.length →
    ((∀ index, 4 * k ≤ index → index < 4 * (k + count) → packedWord bytes index < P) →
      ∃ packed, reader.take count =
        .ok ((List.range' k count).map (packedField bytes), ⟨packed, reader.remaining - count⟩)) ∧
    (¬(∀ index, 4 * k ≤ index → index < 4 * (k + count) → packedWord bytes index < P) →
      reader.take count = .error (.wire .nonCanonicalM31)) := by
  intro count
  induction count with
  | zero =>
    intro k reader _ _ _
    refine ⟨fun _ => ⟨reader.packed, rfl⟩, fun h => absurd ?_ h⟩
    intro index hle hlt
    omega
  | succ count ih =>
    intro k reader hat hremaining hcover
    obtain ⟨packed, hnext, hfield⟩ := nextQm31_eq hat (by omega) (by omega)
    obtain ⟨hread, hrefuse⟩ := @ih (k + 1) ⟨packed, reader.remaining - 1⟩ hnext (by show count ≤ reader.remaining - 1; omega)
      (by omega)
    by_cases hfirst : ∀ index, 4 * k ≤ index → index < 4 * k + 4 → packedWord bytes index < P
    · rw [if_pos hfirst] at hfield
      rw [V6FixedFieldReader.take, hfield, except_ok_bind]
      dsimp only
      constructor
      · intro h
        obtain ⟨last, htake⟩ := hread fun index hle hlt => h index (by omega) (by omega)
        refine ⟨last, ?_⟩
        rw [htake, except_ok_bind, List.range'_succ, List.map_cons, Nat.sub_sub, Nat.add_comm 1 count]
        rfl
      · intro h
        rw [hrefuse]
        · rfl
        · intro hrest
          apply h
          intro index hle hlt
          by_cases hin : index < 4 * k + 4
          · exact hfirst index hle hin
          · exact hrest index (by omega) (by omega)
    · rw [if_neg hfirst] at hfield
      rw [V6FixedFieldReader.take, hfield]
      constructor
      · intro h
        exact absurd (fun index hle hlt => h index hle (by omega)) hfirst
      · intro _
        rfl

theorem fixed_size : PackedSize V6_FIXED_M31_LIMBS := by
  unfold PackedSize V6_FIXED_M31_LIMBS
  norm_num

/-- The reader of the fixed section accepts what the validator accepts. -/
theorem decodeFixedFields_accepts {bytes : Bytes} :
    (∃ values, decodeFixedFields bytes = .ok values) ↔ AcceptedPacking V6_FIXED_M31_LIMBS bytes := by
  unfold decodeFixedFields V6FixedFieldReader.new
  simp only [except_bind_eq_ok, mapErr_eq_ok, validatePackedPadding_eq_ok, except_pure_eq_ok]
  have hcount : 4 * (0 + V6_FIXED_QM31_VALUES) = V6_FIXED_M31_LIMBS := rfl
  constructor
  · rintro ⟨values, reader, ⟨u, ⟨hlen, hpad⟩, rfl⟩, ⟨fields, rest⟩, htake, -⟩
    have hcover : 31 * (4 * (0 + V6_FIXED_QM31_VALUES)) ≤ 8 * bytes.length := by
      rw [hlen]
      decide
    have hrun := @take_fields bytes V6_FIXED_QM31_VALUES 0 ⟨PackedM31Reader.new bytes, V6_FIXED_QM31_VALUES⟩
      (ReaderAt.new bytes) le_rfl hcover
    refine ⟨hlen, fun index hindex => ?_, hpad⟩
    by_contra hword
    have herror := hrun.2 fun h => hword (h index (Nat.zero_le _) (by rw [hcount]; exact hindex))
    rw [htake] at herror
    cases herror
  · intro h
    have hcover : 31 * (4 * (0 + V6_FIXED_QM31_VALUES)) ≤ 8 * bytes.length := by
      rw [h.length]
      decide
    have hrun := @take_fields bytes V6_FIXED_QM31_VALUES 0 ⟨PackedM31Reader.new bytes, V6_FIXED_QM31_VALUES⟩
      (ReaderAt.new bytes) le_rfl hcover
    obtain ⟨packed, htake⟩ := hrun.1 fun index _ hlt => h.canonical index (by rwa [hcount] at hlt)
    exact ⟨(List.range' 0 V6_FIXED_QM31_VALUES).map (packedField bytes), _, ⟨(), ⟨h.length, h.padding⟩, rfl⟩, _, htake,
      (), require_of _ (Nat.sub_self _), rfl⟩

/-! ### Whole bodies -/

/-- A list of fallible steps succeeds exactly where each step does. -/
theorem mapM_accepts {α β ε : Type} {f : α → Except ε β} :
    ∀ {l : List α}, (∃ bs, l.mapM f = .ok bs) ↔ ∀ a ∈ l, ∃ b, f a = .ok b
  | [] => by simp
  | a :: l => by
    simp only [List.mapM_cons, except_bind_eq_ok, except_pure_eq_ok, List.forall_mem_cons, ← mapM_accepts (l := l)]
    constructor
    · rintro ⟨bs, b, hb, rest, hrest, -⟩
      exact ⟨⟨b, hb⟩, rest, hrest⟩
    · rintro ⟨⟨b, hb⟩, rest, hrest⟩
      exact ⟨b :: rest, b, hb, rest, hrest, rfl⟩

theorem decodeQuery_accepts {wire : V7CompactOneFoldWire} {ordinal : ℕ} :
    (∃ words, decodeQuery wire ordinal = .ok words) ↔ ∃ query, wire.query ordinal = some query ∧
      AcceptedPacking V6_C1_LIMBS_PER_QUERY query.c1Packed ∧
      AcceptedPacking V7_COMPACT_C2_LIMBS_PER_QUERY query.c2Packed := by
  unfold decodeQuery
  simp only [except_bind_eq_ok, okOr_eq_ok, except_pure_eq_ok,
    @decodePackedM31EightAligned_eq_ok V6_C1_LIMBS_PER_QUERY _ _ (by decide) (by decide),
    @decodePackedM31EightAligned_eq_ok V7_COMPACT_C2_LIMBS_PER_QUERY _ _ (by decide) (by decide)]
  constructor
  · rintro ⟨_, query, hquery, c1, ⟨h1, -⟩, c2, ⟨h2, -⟩, -⟩
    exact ⟨query, hquery, h1, h2⟩
  · rintro ⟨query, hquery, h1, h2⟩
    exact ⟨_, query, hquery, _, ⟨h1, rfl⟩, _, ⟨h2, rfl⟩, rfl⟩

theorem decodeEveryField_accepts {wire : V7CompactOneFoldWire} :
    (∃ fields, decodeEveryField wire = .ok fields) ↔
      AcceptedPacking V6_FIXED_M31_LIMBS wire.fixedFieldsPacked ∧
      ∀ ordinal < V6_QUERY_COUNT, ∃ query, wire.query ordinal = some query ∧
        AcceptedPacking V6_C1_LIMBS_PER_QUERY query.c1Packed ∧
        AcceptedPacking V7_COMPACT_C2_LIMBS_PER_QUERY query.c2Packed := by
  unfold decodeEveryField
  simp only [except_bind_eq_ok, mapErr_eq_ok, except_pure_eq_ok, ← decodeFixedFields_accepts, ← decodeQuery_accepts]
  have hqueries := @mapM_accepts _ _ _ (decodeQuery wire) (List.range V6_QUERY_COUNT)
  simp only [List.mem_range] at hqueries
  rw [← hqueries]
  constructor
  · rintro ⟨_, fixed, hfixed, queries, hq, -⟩
    exact ⟨⟨fixed, hfixed⟩, queries, hq⟩
  · rintro ⟨⟨fixed, hfixed⟩, queries, hq⟩
    exact ⟨_, fixed, hfixed, queries, hq, rfl⟩

theorem parse_eq_ok {bytes : Bytes} {frontierNodes : ℕ} {wire : V7CompactOneFoldWire} :
    V7CompactOneFoldWire.parse bytes frontierNodes = .ok wire ↔
      V7CompactOneFoldWire.parseDeferredCanonicality bytes frontierNodes = .ok wire ∧
      AcceptedPacking V6_FIXED_M31_LIMBS wire.fixedFieldsPacked ∧
      ∀ ordinal < V6_QUERY_COUNT, ∃ query, wire.query ordinal = some query ∧
        AcceptedPacking V6_C1_LIMBS_PER_QUERY query.c1Packed ∧
        AcceptedPacking V7_COMPACT_C2_LIMBS_PER_QUERY query.c2Packed := by
  have hc1 : PackedSize V6_C1_LIMBS_PER_QUERY := by
    unfold PackedSize V6_C1_LIMBS_PER_QUERY
    norm_num
  have hc2 : PackedSize V7_COMPACT_C2_LIMBS_PER_QUERY := by
    unfold PackedSize V7_COMPACT_C2_LIMBS_PER_QUERY
    norm_num
  unfold V7CompactOneFoldWire.parse
  simp only [except_bind_eq_ok, except_pure_eq_ok, validatePackedM31_eq_ok fixed_size, forM_eq_ok, List.mem_range,
    okOr_eq_ok, validatePackedM31_eq_ok hc1, validatePackedM31_eq_ok hc2]
  constructor
  · rintro ⟨_, hparse, _, hfixed, _, hqueries, rfl⟩
    refine ⟨hparse, hfixed, fun ordinal hordinal => ?_⟩
    obtain ⟨query, hquery, _, h1, h2⟩ := hqueries ordinal hordinal
    exact ⟨query, hquery, h1, h2⟩
  · rintro ⟨hparse, hfixed, hqueries⟩
    refine ⟨wire, hparse, (), hfixed, (), fun ordinal hordinal => ?_, rfl⟩
    obtain ⟨query, hquery, h1, h2⟩ := hqueries ordinal hordinal
    exact ⟨query, hquery, (), h1, h2⟩

/-! ### The codec as a whole -/

/-- The packing of sections of a given number of words. -/
structure PackedCodec (limbs : ℕ) : Prop where
  accepted : ∀ bytes, validatePackedM31 bytes limbs = .ok () ↔
    bytes.length = packedBytes limbs ∧
    (∀ bit, limbs * 31 ≤ bit → bit < bytes.length * 8 → (leNat bytes).testBit bit = false) ∧
    ∀ index < limbs, bitField (leNat bytes) (31 * index) 31 < 2 ^ 31 - 1
  unique : ∀ values : List M31, values.length = limbs → (∀ value ∈ values, value.val < P) →
    ∃! bytes, validatePackedM31 bytes limbs = .ok () ∧
      (List.range limbs).map (packedM31At bytes) = values.map fun value => some value.val
  written : ∀ values : List M31, values.length = limbs → (∀ value ∈ values, value.val < P) →
    ∃ bytes, packM31 values = .ok bytes ∧ validatePackedM31 bytes limbs = .ok () ∧
      (List.range limbs).map (packedM31At bytes) = values.map fun value => some value.val
  read : ∀ bytes, validatePackedM31 bytes limbs = .ok () →
    ∃ values : List M31, values.length = limbs ∧ (∀ value ∈ values, value.val < P) ∧
      ((List.range limbs).map (packedM31At bytes) = values.map fun value => some value.val) ∧
      (∃ reader, (PackedM31Reader.new bytes).take limbs = some (values.map M31.val, reader)) ∧
      (limbs ≠ 0 → limbs % 8 = 0 → decodePackedM31EightAligned limbs bytes = .ok (values.map M31.val))

theorem length_packedWords (bytes : Bytes) (limbs : ℕ) : (packedWords bytes limbs).length = limbs := by
  simp [packedWords]

/-- Random access over an accepted section. -/
theorem AcceptedPacking.random {limbs : ℕ} {bytes : Bytes} (h : AcceptedPacking limbs bytes) (hsize : PackedSize limbs) :
    (List.range limbs).map (packedM31At bytes) = (packedWords bytes limbs).map some := by
  rw [packedWords, List.map_map]
  apply List.map_congr_left
  intro index hindex
  exact packedM31At_eq (packedBytes_covers h.length (List.mem_range.mp hindex)) (packedBytes_size hsize h.length)

theorem AcceptedPacking.sequential {limbs : ℕ} {bytes : Bytes} (h : AcceptedPacking limbs bytes) :
    ∃ reader, (PackedM31Reader.new bytes).take limbs = some (packedWords bytes limbs, reader) := by
  have hcover : 31 * (0 + limbs) ≤ 8 * bytes.length := by
    rw [h.length, packedBytes]
    omega
  obtain ⟨reader, htake, -⟩ := (ReaderAt.new bytes).take hcover
  refine ⟨reader, ?_⟩
  rw [htake, packedWords, List.range_eq_range']

theorem packedWords_canonical {limbs : ℕ} {bytes : Bytes} (h : AcceptedPacking limbs bytes) :
    ∀ value ∈ (packedWords bytes limbs).map M31.mk, value.val < P := by
  intro value hvalue
  simp only [packedWords, List.map_map, List.mem_map, List.mem_range, Function.comp_apply] at hvalue
  obtain ⟨index, hindex, rfl⟩ := hvalue
  exact h.canonical index hindex

/-- The codec is a bijection that all its readers compute, and a body parsed with its words unread
and then decoded is a body the strict parser accepts. -/
theorem packed_codec_exact :
    (∀ limbs, PackedSize limbs → PackedCodec limbs) ∧
    ∀ bytes frontierNodes wire, V7CompactOneFoldWire.parse bytes frontierNodes = .ok wire ↔
      V7CompactOneFoldWire.parseDeferredCanonicality bytes frontierNodes = .ok wire ∧
      ∃ fields, decodeEveryField wire = .ok fields := by
  refine ⟨fun limbs hsize => ⟨fun bytes => ?_, fun values hlen hvalues => ?_, fun values hlen hvalues => ?_,
    fun bytes hbytes => ?_⟩, fun bytes frontierNodes wire => ?_⟩
  · rw [validatePackedM31_eq_ok hsize]
    have hword : ∀ index, packedWord bytes index < P ↔ bitField (leNat bytes) (31 * index) 31 < 2 ^ 31 - 1 := by
      intro index
      rw [UInt32.lt_iff_toNat_lt, toNat_packedWord]
      rfl
    constructor
    · intro h
      exact ⟨h.length, h.padding, fun index hindex => (hword index).mp (h.canonical index hindex)⟩
    · rintro ⟨hlen, hpad, hwords⟩
      exact ⟨hlen, fun index hindex => (hword index).mpr (hwords index hindex), hpad⟩
  · obtain rfl := hlen
    obtain ⟨bytes, -, haccepted, hwords⟩ := packM31_eq_ok hvalues hsize
    refine ⟨bytes, ⟨(validatePackedM31_eq_ok hsize).mpr haccepted, ?_⟩, fun other hother => ?_⟩
    · rw [haccepted.random hsize, hwords, List.map_map]
      rfl
    · have hother' := (validatePackedM31_eq_ok hsize).mp hother.1
      have hsame : packedWords other values.length = packedWords bytes values.length := by
        have hmap := (hother'.random hsize).symm.trans hother.2
        rw [hwords]
        apply List.map_injective_iff.mpr (Option.some_injective UInt32)
        rw [hmap, List.map_map]
        rfl
      apply hother'.eq_of_words haccepted
      intro index hindex
      have hget := congrArg (fun l => l[index]?) hsame
      simpa [packedWords, hindex] using hget
  · obtain rfl := hlen
    obtain ⟨bytes, hpack, haccepted, hwords⟩ := packM31_eq_ok hvalues hsize
    refine ⟨bytes, hpack, (validatePackedM31_eq_ok hsize).mpr haccepted, ?_⟩
    rw [haccepted.random hsize, hwords, List.map_map]
    rfl
  · have haccepted := (validatePackedM31_eq_ok hsize).mp hbytes
    have hmap : ((packedWords bytes limbs).map M31.mk).map M31.val = packedWords bytes limbs := by
      rw [List.map_map]
      exact List.map_id _
    refine ⟨(packedWords bytes limbs).map M31.mk, ?_, packedWords_canonical haccepted, ?_, ?_, fun hpos haligned => ?_⟩
    · rw [List.length_map, length_packedWords]
    · rw [haccepted.random hsize, List.map_map]
      rfl
    · rw [hmap]
      exact haccepted.sequential
    · rw [hmap]
      exact (decodePackedM31EightAligned_eq_ok hpos haligned).mpr ⟨haccepted, rfl⟩
  · rw [parse_eq_ok, decodeEveryField_accepts]

theorem packed_codec_exact_sample :
    PackedSize 8 ∧ validatePackedM31 (zeros 31) 8 = .ok () ∧ PackedCodec 8 := by
  have hsize : PackedSize 8 := by
    unfold PackedSize
    norm_num
  exact ⟨hsize, by decide +kernel, packed_codec_exact.1 8 hsize⟩

end Aspis.Core
