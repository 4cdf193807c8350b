import Aspis.Core.PackedCodec
import Aspis.Core.FieldTower
import Aspis.Lib.PackedBits

/-! The packing is a bijection between the canonical words of a section and the bytes its validator
accepts, and all its readers return these words. -/

namespace Aspis.Core

open Aspis.Lib

/-- The word at an index, as a field of bits of the whole string. -/
def packedWord (bytes : Bytes) (index : ℕ) : UInt32 := UInt32.ofNat (bitField (leNat bytes) (31 * index) 31)

theorem toNat_packedWord (bytes : Bytes) (index : ℕ) :
    (packedWord bytes index).toNat = bitField (leNat bytes) (31 * index) 31 := by
  have hlt := bitField_lt (leNat bytes) (31 * index) 31
  exact UInt32.toNat_ofNat_of_lt' (lt_trans hlt (by decide))

/-! ### Random access -/

theorem toNat_loadWindow (bytes : Bytes) (start : ℕ) : ∀ available ≤ 7, start + available ≤ bytes.length →
    (loadWindow bytes start available).toNat = leNat (slice start available bytes)
  | 0, _, _ => by simp [loadWindow, slice, leNat]
  | k + 1, hk, hlen => by
    have ih := toNat_loadWindow bytes start k (by omega) (by omega)
    have hwindow : loadWindow bytes start (k + 1) =
        loadWindow bytes start k ||| ((byteAt (start + k) bytes).toUInt64 <<< UInt64.ofNat (8 * k)) := by
      unfold loadWindow
      rw [List.range_succ, List.foldl_append]
      rfl
    have hbyte : (byteAt (start + k) bytes).toNat < 256 := (byteAt (start + k) bytes).toNat_lt
    have hlow : leNat (slice start k bytes) < 2 ^ (8 * k) := by
      have hlt := leNat_lt (slice start k bytes)
      rw [length_slice_of_le (by omega), pow_256] at hlt
      exact hlt
    have hshift : ((byteAt (start + k) bytes).toUInt64 <<< UInt64.ofNat (8 * k)).toNat =
        (byteAt (start + k) bytes).toNat * 2 ^ (8 * k) := by
      have hamount : (UInt64.ofNat (8 * k)).toNat % 64 = 8 * k := by
        rw [UInt64.toNat_ofNat']
        omega
      have hle : (byteAt (start + k) bytes).toNat * 2 ^ (8 * k) < 2 ^ 64 := by
        calc (byteAt (start + k) bytes).toNat * 2 ^ (8 * k) < 2 ^ 8 * 2 ^ (8 * k) :=
              Nat.mul_lt_mul_of_pos_right hbyte (by positivity)
          _ = 2 ^ (8 + 8 * k) := (pow_add 2 8 (8 * k)).symm
          _ ≤ 2 ^ 64 := Nat.pow_le_pow_right (by decide) (by omega)
      rw [UInt64.toNat_shiftLeft, hamount, UInt8.toNat_toUInt64, Nat.shiftLeft_eq, Nat.mod_eq_of_lt hle]
    rw [hwindow, UInt64.toNat_or, ih, hshift, or_shift_eq_add _ hlow, slice_split start k 1 bytes, leNat_append,
      length_slice_of_le (by omega), slice_one (by omega), pow_256]
    simp [leNat, Nat.mul_comm]

/-- Random access returns the field of bits wherever the string covers it. -/
theorem packedM31At_eq {bytes : Bytes} {index : ℕ} (hcover : index * 31 + 31 ≤ bytes.length * 8)
    (hsize : bytes.length * 8 < 2 ^ 64) : packedM31At bytes index = some (packedWord bytes index) := by
  have hstart : usizeMul index 31 = some (index * 31) := if_pos (by omega)
  have hend : usizeAdd (index * 31) 31 = some (index * 31 + 31) := if_pos (by omega)
  have hbits : usizeMul bytes.length 8 = some (bytes.length * 8) := if_pos (by omega)
  have hwindow := toNat_loadWindow bytes (index * 31 / 8) (min 5 (bytes.length - index * 31 / 8)) (by omega) (by omega)
  unfold packedM31At
  rw [hstart, Option.bind_eq_bind, Option.bind_some, hend, Option.bind_some, hbits, Option.bind_some,
    if_neg (by omega)]
  dsimp only
  congr 1
  apply UInt32.toNat_inj.mp
  have hmask : (0x7fffffff : UInt64).toNat = 2 ^ 31 - 1 := rfl
  have hamount : (UInt64.ofNat (index * 31 % 8)).toNat % 64 = index * 31 % 8 := by
    rw [UInt64.toNat_ofNat']
    omega
  have hfield : bitField (bitField (leNat bytes) (8 * (index * 31 / 8))
      (8 * min 5 (bytes.length - index * 31 / 8))) (index * 31 % 8) 31 = bitField (leNat bytes) (31 * index) 31 := by
    rw [bitField_bitField (by omega)]
    congr 1
    omega
  rw [UInt64.toNat_toUInt32, UInt64.toNat_and, UInt64.toNat_shiftRight, hamount, hmask,
    Nat.and_two_pow_sub_one_eq_mod, Nat.shiftRight_eq_div_pow, hwindow, leNat_slice_bitField, toNat_packedWord,
    ← hfield]
  exact Nat.mod_eq_of_lt (lt_trans (bitField_lt _ _ _) (by decide))

/-! ### The validator -/

/-- What the validator asks of a packed section. -/
structure AcceptedPacking (limbs : ℕ) (bytes : Bytes) : Prop where
  length : bytes.length = packedBytes limbs
  canonical : ∀ index < limbs, packedWord bytes index < P
  padding : ∀ bit, limbs * 31 ≤ bit → bit < bytes.length * 8 → (leNat bytes).testBit bit = false

/-- The bits of a section fit in a machine word: the range in which its length can be computed. -/
def PackedSize (limbs : ℕ) : Prop := limbs * 31 + 7 < 2 ^ 64

theorem forM_eq_ok {α ε : Type} {f : α → Except ε Unit} {u : Unit} :
    ∀ {l : List α}, l.forM f = .ok u ↔ ∀ a ∈ l, f a = .ok ()
  | [] => by simp [List.forM]
  | a :: l => by
    show (f a >>= fun _ => l.forM f) = .ok u ↔ ∀ b ∈ a :: l, f b = .ok ()
    rw [except_bind_eq_ok]
    simp only [forM_eq_ok (l := l), List.forall_mem_cons]
    constructor
    · rintro ⟨_, ha, hl⟩
      exact ⟨ha, hl⟩
    · rintro ⟨ha, hl⟩
      exact ⟨(), ha, hl⟩

theorem padding_bit_eq_zero (bytes : Bytes) (bit : ℕ) :
    (byteAt (bit / 8) bytes >>> UInt8.ofNat (bit % 8)) &&& 1 = 0 ↔ (leNat bytes).testBit bit = false := by
  have hamount : (UInt8.ofNat (bit % 8)).toNat % 8 = bit % 8 := by
    rw [UInt8.toNat_ofNat']
    omega
  rw [← UInt8.toNat_inj, UInt8.toNat_and, UInt8.toNat_shiftRight, hamount, testBit_leNat, Nat.testBit]
  simp [Nat.and_comm]

/-- Under the length check every word is inside the string. -/
theorem packedBytes_covers {limbs index : ℕ} {bytes : Bytes} (hlen : bytes.length = packedBytes limbs)
    (hindex : index < limbs) : index * 31 + 31 ≤ bytes.length * 8 := by
  rw [hlen, packedBytes]
  omega

theorem packedBytes_size {limbs : ℕ} {bytes : Bytes} (hsize : PackedSize limbs)
    (hlen : bytes.length = packedBytes limbs) : bytes.length * 8 < 2 ^ 64 := by
  rw [hlen, packedBytes]
  unfold PackedSize at hsize
  omega

theorem validatePackedM31_eq_ok {limbs : ℕ} {bytes : Bytes} {u : Unit} (hsize : PackedSize limbs) :
    validatePackedM31 bytes limbs = .ok u ↔ AcceptedPacking limbs bytes := by
  unfold validatePackedM31
  simp only [except_bind_eq_ok, require_eq_ok, forM_eq_ok, List.mem_range, okOr_eq_ok, List.mem_range'_1,
    padding_bit_eq_zero]
  constructor
  · rintro ⟨_, hlen, _, hwords, hpad⟩
    refine ⟨hlen, fun index hindex => ?_, fun bit hle hlt => hpad bit ⟨hle, by omega⟩⟩
    obtain ⟨value, hvalue, hlt⟩ := hwords index hindex
    rw [packedM31At_eq (packedBytes_covers hlen hindex) (packedBytes_size hsize hlen)] at hvalue
    cases hvalue
    exact hlt
  · intro h
    refine ⟨(), h.length, (), fun index hindex => ?_, fun bit hbit => h.padding bit hbit.1 (by omega)⟩
    exact ⟨_, packedM31At_eq (packedBytes_covers h.length hindex) (packedBytes_size hsize h.length),
      h.canonical index hindex⟩

namespace AcceptedPacking

variable {limbs : ℕ} {bytes : Bytes}

theorem leNat_lt_two_pow (h : AcceptedPacking limbs bytes) : leNat bytes < 2 ^ (31 * limbs) := by
  apply lt_two_pow_of_bits
  intro j hj
  by_cases hin : j < bytes.length * 8
  · exact h.padding j (by omega) hin
  · apply Nat.testBit_lt_two_pow
    calc leNat bytes < 256 ^ bytes.length := leNat_lt bytes
      _ = 2 ^ (8 * bytes.length) := pow_256 _
      _ ≤ 2 ^ j := Nat.pow_le_pow_right (by decide) (by omega)

/-- An accepted section is determined by its words. -/
theorem eq_of_words {bytes' : Bytes} (h : AcceptedPacking limbs bytes) (h' : AcceptedPacking limbs bytes')
    (hwords : ∀ index < limbs, packedWord bytes index = packedWord bytes' index) : bytes = bytes' := by
  have hnat : leNat bytes = leNat bytes' := by
    refine eq_of_bitFields (by decide : 0 < 31) h.leNat_lt_two_pow h'.leNat_lt_two_pow fun i hi => ?_
    rw [← toNat_packedWord, ← toNat_packedWord, hwords i hi]
  calc bytes = leBytes bytes.length (leNat bytes) := (leBytes_leNat bytes).symm
    _ = leBytes bytes'.length (leNat bytes') := by rw [hnat, h.length, h'.length]
    _ = bytes' := leBytes_leNat bytes'

end AcceptedPacking

/-! ### The sequential reader -/

/-- The reader stands before word `k`: it has buffered the bits from there to the end of a byte. -/
structure ReaderAt (bytes : Bytes) (k : ℕ) (reader : PackedM31Reader) : Prop where
  bytes_eq : reader.bytes = bytes
  position : 8 * reader.byteIndex = 31 * k + reader.bufferedBits
  bound : reader.bufferedBits ≤ 38
  buffer : reader.buffer.toNat = bitField (leNat bytes) (31 * k) reader.bufferedBits

namespace ReaderAt

variable {bytes : Bytes} {k : ℕ} {reader : PackedM31Reader}

theorem new (bytes : Bytes) : ReaderAt bytes 0 (PackedM31Reader.new bytes) where
  bytes_eq := rfl
  position := rfl
  bound := by simp [PackedM31Reader.new]
  buffer := by simp [PackedM31Reader.new, bitField, Nat.mod_one]

/-- Taking up one more byte. -/
theorem push (h : ReaderAt bytes k reader) (hroom : reader.bufferedBits < 31) :
    ReaderAt bytes k ⟨bytes, reader.byteIndex + 1,
      reader.buffer ||| ((byteAt reader.byteIndex bytes).toUInt64 <<< UInt64.ofNat reader.bufferedBits),
      reader.bufferedBits + 8⟩ where
  bytes_eq := rfl
  position := by
    show 8 * (reader.byteIndex + 1) = 31 * k + (reader.bufferedBits + 8)
    have := h.position
    omega
  bound := by
    show reader.bufferedBits + 8 ≤ 38
    omega
  buffer := by
    have hbyte : (byteAt reader.byteIndex bytes).toNat = bitField (leNat bytes) (31 * k + reader.bufferedBits) 8 := by
      rw [toNat_byteAt_bitField, h.position]
    have hlt := bitField_lt (leNat bytes) (31 * k + reader.bufferedBits) 8
    have hamount : (UInt64.ofNat reader.bufferedBits).toNat % 64 = reader.bufferedBits := by
      rw [UInt64.toNat_ofNat']
      omega
    have hfit : bitField (leNat bytes) (31 * k + reader.bufferedBits) 8 * 2 ^ reader.bufferedBits < 2 ^ 64 := by
      calc _ < 2 ^ 8 * 2 ^ reader.bufferedBits := Nat.mul_lt_mul_of_pos_right hlt (by positivity)
        _ = 2 ^ (8 + reader.bufferedBits) := (pow_add 2 8 _).symm
        _ ≤ 2 ^ 64 := Nat.pow_le_pow_right (by decide) (by omega)
    rw [UInt64.toNat_or, UInt64.toNat_shiftLeft, hamount, UInt8.toNat_toUInt64, Nat.shiftLeft_eq, hbyte,
      Nat.mod_eq_of_lt hfit, h.buffer, or_shift_eq_add _ (bitField_lt _ _ _), bitField_add]

/-- Where the string covers the word, the loop buffers it. -/
theorem refill {reader : PackedM31Reader} (h : ReaderAt bytes k reader) (hcover : 31 * k + 31 ≤ 8 * bytes.length) :
    ∃ filled, reader.refill = some filled ∧ ReaderAt bytes k filled ∧ 31 ≤ filled.bufferedBits := by
  by_cases hroom : reader.bufferedBits < 31
  · have hposition := h.position
    have hin : reader.byteIndex < bytes.length := by omega
    have hbyte : reader.bytes[reader.byteIndex]? = some (byteAt reader.byteIndex bytes) := by
      rw [h.bytes_eq, byteAt, List.getD_eq_getElem?_getD, List.getElem?_eq_getElem hin]
      rfl
    obtain ⟨filled, hfill, hat, hfull⟩ := (h.push hroom).refill hcover
    refine ⟨filled, ?_, hat, hfull⟩
    rw [PackedM31Reader.refill, if_pos hroom, hbyte, Option.bind_some, h.bytes_eq]
    exact hfill
  · refine ⟨reader, ?_, h, by omega⟩
    rw [PackedM31Reader.refill, if_neg hroom]
termination_by 31 - reader.bufferedBits

/-- A read returns the word the reader stands before and moves past it. -/
theorem next (h : ReaderAt bytes k reader) (hcover : 31 * k + 31 ≤ 8 * bytes.length) :
    ∃ rest, reader.next = some (packedWord bytes k, rest) ∧ ReaderAt bytes (k + 1) rest := by
  obtain ⟨filled, hfill, hat, hfull⟩ := h.refill hcover
  have hposition := hat.position
  have hbound := hat.bound
  have hword : (filled.buffer &&& 0x7fffffff).toUInt32 = packedWord bytes k := by
    apply UInt32.toNat_inj.mp
    have hmask : (0x7fffffff : UInt64).toNat = 2 ^ 31 - 1 := rfl
    have hfield := @bitField_bitField (leNat bytes) (31 * k) filled.bufferedBits 0 31 (by omega)
    rw [UInt64.toNat_toUInt32, UInt64.toNat_and, hmask, Nat.and_two_pow_sub_one_eq_mod, hat.buffer, toNat_packedWord]
    rw [bitField, pow_zero, Nat.div_one, Nat.add_zero] at hfield
    rw [hfield]
    exact Nat.mod_eq_of_lt (lt_trans (bitField_lt _ _ _) (by decide))
  refine ⟨⟨filled.bytes, filled.byteIndex, filled.buffer >>> 31, filled.bufferedBits - 31⟩, ?_, hat.bytes_eq, ?_, ?_, ?_⟩
  · rw [PackedM31Reader.next, hfill, Option.bind_eq_bind, Option.bind_some, hword]
    rfl
  · show 8 * filled.byteIndex = 31 * (k + 1) + (filled.bufferedBits - 31)
    omega
  · show filled.bufferedBits - 31 ≤ 38
    omega
  · show (filled.buffer >>> 31).toNat = bitField (leNat bytes) (31 * (k + 1)) (filled.bufferedBits - 31)
    have hamount : (31 : UInt64).toNat % 64 = 31 := rfl
    rw [UInt64.toNat_shiftRight, hamount, Nat.shiftRight_eq_div_pow, hat.buffer, bitField_div hfull]
    rfl

/-- A run of reads returns the words in order. -/
theorem take {k : ℕ} {reader : PackedM31Reader} : ∀ {count : ℕ}, ReaderAt bytes k reader →
    31 * (k + count) ≤ 8 * bytes.length →
    ∃ rest, reader.take count = some ((List.range' k count).map (packedWord bytes), rest) ∧
      ReaderAt bytes (k + count) rest := by
  intro count
  induction count generalizing k reader with
  | zero =>
    intro h _
    exact ⟨reader, rfl, h⟩
  | succ count ih =>
    intro h hcover
    obtain ⟨after, hnext, hat⟩ := h.next (by omega)
    obtain ⟨rest, htake, hend⟩ := ih hat (by omega)
    refine ⟨rest, ?_, ?_⟩
    · rw [PackedM31Reader.take, hnext, Option.bind_eq_bind, Option.bind_some]
      dsimp only
      rw [htake, List.range'_succ, List.map_cons]
      rfl
    · rw [show k + (count + 1) = k + 1 + count by omega]
      exact hend

end ReaderAt

/-! ### Blocks of eight words -/

/-- A machine word over the bits of a word of the section, shifted down to it. -/
theorem shifted_load {bytes : Bytes} {start offset shift index : ℕ} (hoffset : offset + 8 ≤ 31) (hshift : shift < 33)
    (hposition : 31 * index = 8 * (start + offset) + shift) :
    ((UInt64.ofNat (leNat (slice offset 8 (slice start 31 bytes))) >>> UInt64.ofNat shift) &&& P.toUInt64).toUInt32 =
      packedWord bytes index := by
  have hload : leNat (slice offset 8 (slice start 31 bytes)) = bitField (leNat bytes) (8 * (start + offset)) 64 := by
    rw [slice_slice bytes hoffset, leNat_slice_bitField]
  have hlt := bitField_lt (leNat bytes) (8 * (start + offset)) 64
  have hmask : P.toUInt64.toNat = 2 ^ 31 - 1 := rfl
  have hamount : (UInt64.ofNat shift).toNat % 64 = shift := by
    rw [UInt64.toNat_ofNat']
    omega
  have hfield := @bitField_bitField (leNat bytes) (8 * (start + offset)) 64 shift 31 (by omega)
  apply UInt32.toNat_inj.mp
  rw [UInt64.toNat_toUInt32, UInt64.toNat_and, hmask, Nat.and_two_pow_sub_one_eq_mod, UInt64.toNat_shiftRight, hamount,
    Nat.shiftRight_eq_div_pow, hload, UInt64.toNat_ofNat_of_lt' hlt, toNat_packedWord, hposition, ← hfield]
  exact Nat.mod_eq_of_lt (lt_trans (bitField_lt _ _ _) (by decide))

/-- The last word of a block is taken from its last four bytes. -/
theorem shifted_load32 {bytes : Bytes} {start index : ℕ} (hposition : 31 * index = 8 * (start + 27) + 1) :
    (UInt32.ofNat (leNat (slice 27 4 (slice start 31 bytes))) >>> 1) &&& P = packedWord bytes index := by
  have hload : leNat (slice 27 4 (slice start 31 bytes)) = bitField (leNat bytes) (8 * (start + 27)) 32 := by
    rw [slice_slice bytes (by decide), leNat_slice_bitField]
  have hlt := bitField_lt (leNat bytes) (8 * (start + 27)) 32
  have hmask : P.toNat = 2 ^ 31 - 1 := rfl
  have hamount : (1 : UInt32).toNat % 32 = 1 := rfl
  have hfield := @bitField_bitField (leNat bytes) (8 * (start + 27)) 32 1 31 (by decide)
  apply UInt32.toNat_inj.mp
  rw [UInt32.toNat_and, hmask, Nat.and_two_pow_sub_one_eq_mod, UInt32.toNat_shiftRight, hamount,
    Nat.shiftRight_eq_div_pow, hload, UInt32.toNat_ofNat_of_lt' hlt, toNat_packedWord, hposition, ← hfield]
  rfl

theorem alignedBlock_eq (bytes : Bytes) (block : ℕ) :
    alignedBlock (slice (block * 31) 31 bytes) = (List.range' (8 * block) 8).map (packedWord bytes) := by
  have hfirst := @shifted_load bytes (block * 31) 0 0 (8 * block) (by decide) (by decide) (by omega)
  rw [show UInt64.ofNat 0 = 0 from rfl, UInt64.shiftRight_zero] at hfirst
  unfold alignedBlock
  dsimp only
  rw [hfirst]
  have h1 := @shifted_load bytes (block * 31) 3 7 (8 * block + 1) (by decide) (by decide) (by omega)
  have h2 := @shifted_load bytes (block * 31) 7 6 (8 * block + 2) (by decide) (by decide) (by omega)
  have h3 := @shifted_load bytes (block * 31) 11 5 (8 * block + 3) (by decide) (by decide) (by omega)
  have h4 := @shifted_load bytes (block * 31) 15 4 (8 * block + 4) (by decide) (by decide) (by omega)
  have h5 := @shifted_load bytes (block * 31) 19 3 (8 * block + 5) (by decide) (by decide) (by omega)
  have h6 := @shifted_load bytes (block * 31) 23 2 (8 * block + 6) (by decide) (by decide) (by omega)
  have h7 := @shifted_load32 bytes (block * 31) (8 * block + 7) (by omega)
  have hwords : (List.range' (8 * block) 8).map (packedWord bytes) =
      [packedWord bytes (8 * block), packedWord bytes (8 * block + 1), packedWord bytes (8 * block + 2),
        packedWord bytes (8 * block + 3), packedWord bytes (8 * block + 4), packedWord bytes (8 * block + 5),
        packedWord bytes (8 * block + 6), packedWord bytes (8 * block + 7)] := rfl
  rw [hwords, ← h1, ← h2, ← h3, ← h4, ← h5, ← h6, ← h7]
  rfl

theorem flatMap_blocks {α : Type} (f : ℕ → α) : ∀ count : ℕ,
    ((List.range count).flatMap fun block => (List.range' (8 * block) 8).map f) = (List.range (8 * count)).map f
  | 0 => rfl
  | count + 1 => by
    have hrange : List.range (8 * (count + 1)) = List.range (8 * count) ++ List.range' (8 * count) 8 := by
      have happend := @List.range'_append_1 0 (8 * count) 8
      rw [Nat.zero_add] at happend
      rw [List.range_eq_range', List.range_eq_range', happend, Nat.mul_succ]
    rw [List.range_succ, List.flatMap_append, flatMap_blocks f count, hrange, List.map_append]
    simp

/-- The words of a section. -/
def packedWords (bytes : Bytes) (limbs : ℕ) : List UInt32 := (List.range limbs).map (packedWord bytes)

theorem packedBytes_aligned {N : ℕ} (haligned : N % 8 = 0) : packedBytes N = N / 8 * 31 := by
  unfold packedBytes
  omega

/-- The block decoder accepts what the validator accepts, and returns the words. -/
theorem decodePackedM31EightAligned_eq_ok {N : ℕ} {bytes : Bytes} {output : List UInt32} (hpos : N ≠ 0)
    (haligned : N % 8 = 0) :
    decodePackedM31EightAligned N bytes = .ok output ↔ AcceptedPacking N bytes ∧ output = packedWords bytes N := by
  have hblocks : ((List.range (N / 8)).flatMap fun block => alignedBlock (slice (block * 31) 31 bytes)) =
      packedWords bytes N := by
    simp only [alignedBlock_eq]
    rw [flatMap_blocks, packedWords, Nat.mul_div_cancel' (Nat.dvd_of_mod_eq_zero haligned)]
  have hany : ((packedWords bytes N).any fun value => decide (P ≤ value)) = true ↔
      ¬ ∀ index < N, packedWord bytes index < P := by
    simp [packedWords]
  unfold decodePackedM31EightAligned
  rw [hblocks]
  dsimp only
  by_cases hlen : bytes.length = N / 8 * 31
  · rw [if_neg (by simp [hpos, haligned, hlen])]
    by_cases hwords : ∀ index < N, packedWord bytes index < P
    · rw [if_neg (fun h => hany.mp h hwords), Except.ok.injEq]
      constructor
      · intro h
        refine ⟨⟨by rw [hlen, packedBytes_aligned haligned], hwords, fun bit hle hlt => ?_⟩, h.symm⟩
        omega
      · intro h
        exact h.2.symm
    · rw [if_pos (hany.mpr hwords)]
      constructor
      · intro h
        cases h
      · intro h
        exact absurd h.1.canonical hwords
  · rw [if_pos (Or.inr (Or.inr hlen))]
    constructor
    · intro h
      cases h
    · intro h
      exact absurd (h.1.length.trans (packedBytes_aligned haligned)) hlen

/-! ### The writer -/

theorem length_setBit (output : Bytes) (bit : ℕ) : (setBit output bit).length = output.length :=
  List.length_modify _ _ _

theorem toNat_one_shiftLeft {k : ℕ} (hk : k < 8) : ((1 : UInt8) <<< UInt8.ofNat k).toNat = 2 ^ k := by
  have hamount : (UInt8.ofNat k).toNat % 8 = k := by
    rw [UInt8.toNat_ofNat']
    omega
  have hlt : 2 ^ k < 2 ^ 8 := Nat.pow_lt_pow_right (by decide) hk
  rw [UInt8.toNat_shiftLeft, hamount, show (1 : UInt8).toNat = 1 from rfl, Nat.shiftLeft_eq, Nat.one_mul,
    Nat.mod_eq_of_lt hlt]

theorem testBit_setBit {output : Bytes} {bit : ℕ} (hbit : bit < output.length * 8) (j : ℕ) :
    (leNat (setBit output bit)).testBit j = ((leNat output).testBit j || decide (j = bit)) := by
  have hin : bit / 8 < output.length := by omega
  rw [testBit_leNat, testBit_leNat]
  by_cases hbyte : j / 8 = bit / 8
  · have hmod : byteAt (j / 8) (setBit output bit) = byteAt (j / 8) output ||| (1 <<< UInt8.ofNat (bit % 8)) := by
      rw [hbyte, byteAt, byteAt, setBit, List.getD_eq_getElem?_getD, List.getElem?_modify_eq,
        List.getD_eq_getElem?_getD, List.getElem?_eq_getElem hin]
      rfl
    have hsame : bit % 8 = j % 8 ↔ j = bit := by omega
    rw [hmod, UInt8.toNat_or, Nat.testBit_or, toNat_one_shiftLeft (by omega), Nat.testBit_two_pow]
    simp [hsame]
  · have hother : byteAt (j / 8) (setBit output bit) = byteAt (j / 8) output := by
      rw [byteAt, byteAt, setBit, List.getD_eq_getElem?_getD, List.getElem?_modify_ne _ _ (Ne.symm hbyte),
        List.getD_eq_getElem?_getD]
    have hne : j ≠ bit := fun h => hbyte (by rw [h])
    rw [hother]
    simp [hne]

/-- The first `count` bits of a value, written from `bitStart` on. -/
def writeBits (value : UInt32) (bitStart count : ℕ) (output : Bytes) : Bytes :=
  (List.range count).foldl
    (fun output bit => if (value >>> UInt32.ofNat bit) &&& 1 ≠ 0 then setBit output (bitStart + bit) else output) output

theorem writeBits_succ (value : UInt32) (bitStart count : ℕ) (output : Bytes) :
    writeBits value bitStart (count + 1) output =
      if (value >>> UInt32.ofNat count) &&& 1 ≠ 0 then setBit (writeBits value bitStart count output) (bitStart + count)
      else writeBits value bitStart count output := by
  unfold writeBits
  rw [List.range_succ, List.foldl_append]
  rfl

theorem value_bit {value : UInt32} {bit : ℕ} (hbit : bit < 32) :
    (value >>> UInt32.ofNat bit) &&& 1 ≠ 0 ↔ value.toNat.testBit bit = true := by
  have hamount : (UInt32.ofNat bit).toNat % 32 = bit := by
    rw [UInt32.toNat_ofNat']
    omega
  rw [Ne, ← UInt32.toNat_inj, UInt32.toNat_and, UInt32.toNat_shiftRight, hamount, Nat.testBit]
  simp [Nat.and_comm]

theorem length_writeBits (value : UInt32) (bitStart : ℕ) (output : Bytes) : ∀ count : ℕ,
    (writeBits value bitStart count output).length = output.length
  | 0 => rfl
  | count + 1 => by
    rw [writeBits_succ]
    split_ifs
    · rw [length_setBit, length_writeBits value bitStart output count]
    · exact length_writeBits value bitStart output count

/-- The loop sets the bits of the value in its place and leaves all others. -/
theorem testBit_writeBits (value : UInt32) (bitStart : ℕ) (output : Bytes) (j : ℕ) : ∀ count ≤ 32,
    bitStart + count ≤ output.length * 8 →
    (leNat (writeBits value bitStart count output)).testBit j = ((leNat output).testBit j ||
      (decide (bitStart ≤ j ∧ j < bitStart + count) && value.toNat.testBit (j - bitStart)))
  | 0, _, _ => by
    have hnone : ¬(bitStart ≤ j ∧ j < bitStart + 0) := by omega
    rw [decide_eq_false hnone, Bool.false_and, Bool.or_false]
    rfl
  | count + 1, hcount, hroom => by
    have ih := testBit_writeBits value bitStart output j count (by omega) (by omega)
    have hplace : bitStart + count < (writeBits value bitStart count output).length * 8 := by
      rw [length_writeBits]
      omega
    rw [writeBits_succ]
    by_cases hlast : j = bitStart + count
    · have hbit : j - bitStart = count := by omega
      have hout : ¬(bitStart ≤ j ∧ j < bitStart + count) := by omega
      have hnow : bitStart ≤ j ∧ j < bitStart + (count + 1) := by omega
      rw [decide_eq_false hout, Bool.false_and, Bool.or_false] at ih
      rw [decide_eq_true hnow, Bool.true_and, hbit]
      by_cases hset : value.toNat.testBit count = true
      · rw [if_pos ((value_bit (by omega)).mpr hset), testBit_setBit hplace, hset, hlast]
        simp
      · rw [if_neg (fun h => hset ((value_bit (by omega)).mp h)), ih, Bool.eq_false_of_not_eq_true hset, Bool.or_false]
    · have hsame : (bitStart ≤ j ∧ j < bitStart + (count + 1)) ↔ (bitStart ≤ j ∧ j < bitStart + count) := by omega
      rw [decide_eq_decide.mpr hsame, ← ih]
      split_ifs
      · rw [testBit_setBit hplace, decide_eq_false hlast, Bool.or_false]
      · rfl

/-- The output after some words: these words are in place, and no bit is set after them. -/
structure Written (done : List M31) (output : Bytes) : Prop where
  words : ∀ i value, done[i]? = some value → packedWord output i = value.val
  rest : ∀ bit, 31 * done.length ≤ bit → (leNat output).testBit bit = false

theorem packedWord_eq_iff {bytes : Bytes} {i : ℕ} {value : UInt32} (hlt : value.toNat < 2 ^ 31) :
    packedWord bytes i = value ↔ ∀ j < 31, (leNat bytes).testBit (31 * i + j) = value.toNat.testBit j := by
  rw [← UInt32.toNat_inj, toNat_packedWord]
  constructor
  · intro h j hj
    rw [← h, testBit_bitField, decide_eq_true hj, Bool.true_and]
  · intro h
    apply Nat.eq_of_testBit_eq
    intro j
    rw [testBit_bitField]
    by_cases hj : j < 31
    · rw [decide_eq_true hj, Bool.true_and, h j hj]
    · have hle : 2 ^ 31 ≤ 2 ^ j := Nat.pow_le_pow_right (by decide) (by omega)
      rw [decide_eq_false hj, Bool.false_and, Nat.testBit_lt_two_pow (lt_of_lt_of_le hlt hle)]

theorem Written.write {done : List M31} {output : Bytes} {value : M31} (h : Written done output)
    (hvalue : value.val < P) (hroom : done.length * 31 + 31 ≤ output.length * 8) (hsize : output.length * 8 < 2 ^ 64) :
    ∃ next, writePackedM31 output done.length value = .ok next ∧ next.length = output.length ∧
      Written (done ++ [value]) next := by
  have hnat : value.val.toNat < 2 ^ 31 := lt_trans (UInt32.lt_iff_toNat_lt.mp hvalue) (by decide)
  have hmul : usizeMul done.length 31 = some (done.length * 31) := if_pos (by omega)
  have hbits := testBit_writeBits value.val (done.length * 31) output
  refine ⟨writeBits value.val (done.length * 31) 31 output, ?_, length_writeBits _ _ _ _, ⟨fun i v hv => ?_, ?_⟩⟩
  · unfold writePackedM31
    rw [require_of _ hvalue, except_ok_bind, hmul]
    simp only [okOr]
    rw [except_ok_bind, require_of _ hroom, except_ok_bind]
    rfl
  · by_cases hi : i < done.length
    · have hold : done[i]? = some v := by
        rw [← hv, List.getElem?_append_left hi]
      have hword := h.words i v hold
      rw [← hword]
      apply UInt32.toNat_inj.mp
      rw [toNat_packedWord, toNat_packedWord]
      apply Nat.eq_of_testBit_eq
      intro j
      have hout : ¬(done.length * 31 ≤ 31 * i + j ∧ 31 * i + j < done.length * 31 + 31) ∨ ¬ j < 31 := by omega
      rw [testBit_bitField, testBit_bitField, hbits _ 31 (by decide) hroom]
      rcases hout with hout | hout
      · rw [decide_eq_false hout, Bool.false_and, Bool.or_false]
      · rw [decide_eq_false hout, Bool.false_and, Bool.false_and]
    · have hlast : i = done.length ∧ v = value := by
        rw [List.getElem?_append_right (by omega)] at hv
        have hzero : i - done.length = 0 := by
          by_contra hne
          rw [List.getElem?_eq_none (by simpa using Nat.one_le_iff_ne_zero.mpr hne)] at hv
          cases hv
        rw [hzero] at hv
        exact ⟨by omega, (Option.some.inj hv).symm⟩
      obtain ⟨rfl, rfl⟩ := hlast
      apply (packedWord_eq_iff hnat).mpr
      intro j hj
      have hin : done.length * 31 ≤ 31 * done.length + j ∧ 31 * done.length + j < done.length * 31 + 31 := by omega
      have hzero := h.rest (31 * done.length + j) (by omega)
      have hoff : 31 * done.length + j - done.length * 31 = j := by omega
      rw [hbits _ 31 (by decide) hroom, hzero, decide_eq_true hin, hoff]
      rfl
  · intro bit hbit
    rw [List.length_append, List.length_singleton] at hbit
    have hout : ¬(done.length * 31 ≤ bit ∧ bit < done.length * 31 + 31) := by omega
    rw [hbits _ 31 (by decide) hroom, h.rest bit (by omega), decide_eq_false hout]
    rfl

/-- The rest of the words are written behind those in place. -/
theorem Written.writeFrom {done : List M31} {output : Bytes} : ∀ {values : List M31}, Written done output →
    (∀ value ∈ values, value.val < P) → (done.length + values.length) * 31 ≤ output.length * 8 →
    output.length * 8 < 2 ^ 64 →
    ∃ bytes, writePackedFrom output done.length values = .ok bytes ∧ bytes.length = output.length ∧
      Written (done ++ values) bytes := by
  intro values
  induction values generalizing done output with
  | nil =>
    intro h _ _ _
    exact ⟨output, rfl, rfl, by rwa [List.append_nil]⟩
  | cons value values ih =>
    intro h hvalues hroom hsize
    rw [List.length_cons] at hroom
    obtain ⟨next, hwrite, hlen, hnext⟩ := h.write (hvalues value List.mem_cons_self) (by omega) hsize
    have hroom' : ((done ++ [value]).length + values.length) * 31 ≤ next.length * 8 := by
      rw [List.length_append, List.length_singleton, hlen]
      omega
    obtain ⟨bytes, hfrom, hbytes, hall⟩ := ih hnext (fun v hv => hvalues v (List.mem_cons_of_mem value hv)) hroom'
      (by rw [hlen]; exact hsize)
    refine ⟨bytes, ?_, hbytes.trans hlen, by rwa [List.append_assoc] at hall⟩
    rw [List.length_append, List.length_singleton] at hfrom
    rw [writePackedFrom, hwrite, except_ok_bind, hfrom]

/-- The packing of canonical words: it is written, it is accepted, and its words are these. -/
theorem packM31_eq_ok {values : List M31} (hvalues : ∀ value ∈ values, value.val < P)
    (hsize : PackedSize values.length) :
    ∃ bytes, packM31 values = .ok bytes ∧ AcceptedPacking values.length bytes ∧
      packedWords bytes values.length = values.map M31.val := by
  have hempty : Written [] (zeros (packedBytes values.length)) := by
    constructor
    · intro i value hi
      cases hi
    · intro bit _
      rw [testBit_leNat, byteAt_zeros]
      exact Nat.zero_testBit _
  have hroom : (([] : List M31).length + values.length) * 31 ≤ (zeros (packedBytes values.length)).length * 8 := by
    rw [length_zeros, List.length_nil, packedBytes]
    omega
  obtain ⟨bytes, hfrom, hlen, hwritten⟩ := hempty.writeFrom hvalues hroom (packedBytes_size hsize (length_zeros _))
  rw [List.nil_append] at hwritten
  have hword : ∀ i (hi : i < values.length), packedWord bytes i = values[i].val := fun i hi =>
    hwritten.words i _ (List.getElem?_eq_getElem hi)
  refine ⟨bytes, hfrom, ⟨by rw [hlen, length_zeros], fun i hi => ?_, fun bit hle _ => ?_⟩, ?_⟩
  · rw [hword i hi]
    exact hvalues _ (List.getElem_mem hi)
  · exact hwritten.rest bit (by omega)
  · apply List.ext_getElem
    · simp [packedWords]
    · intro i hi _
      have hi' : i < values.length := by simpa [packedWords] using hi
      simp only [packedWords, List.getElem_map, List.getElem_range]
      exact hword i hi'

end Aspis.Core
