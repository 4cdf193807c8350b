import Aspis.Lib.Bytes
import Mathlib.Data.Fintype.Pi
import Mathlib.Data.List.FinRange
import Mathlib.Tactic.FinCases

/-! Field limbs and digests as the programs store them. A limb is a raw 32-bit
word; it is canonical below the Mersenne prime `2^31 - 1`. A digest is eight
limbs and is stored as their 32 little-endian bytes. -/

namespace Aspis.Statement

open Lib

/-- The base-field modulus `2^31 - 1`. -/
def P : ℕ := 2147483647

structure M31 where
  raw : UInt32
  deriving DecidableEq

namespace M31

def ZERO : M31 := ⟨0⟩

def Canonical (x : M31) : Prop := x.raw.toNat < P

instance (x : M31) : Decidable x.Canonical := inferInstanceAs (Decidable (_ < _))

def toLeBytes (x : M31) : Bytes := leBytes 4 x.raw.toNat

@[simp] theorem length_toLeBytes (x : M31) : x.toLeBytes.length = 4 := by simp [toLeBytes]

theorem ofNat_leNat_toLeBytes (x : M31) : UInt32.ofNat (leNat x.toLeBytes) = x.raw := by
  have hlt : x.raw.toNat < 256 ^ 4 := x.raw.toNat_lt
  rw [toLeBytes, leNat_leBytes_of_lt hlt, UInt32.ofNat_toNat]

theorem leNat_toLeBytes (x : M31) : leNat x.toLeBytes = x.raw.toNat := by
  have hlt : x.raw.toNat < 256 ^ 4 := x.raw.toNat_lt
  rw [toLeBytes, leNat_leBytes_of_lt hlt]

end M31

abbrev Digest := Fin 8 → M31

namespace Digest

def zero : Digest := fun _ => M31.ZERO

end Digest

/-- Every limb is below the modulus. -/
def DigestIsCanonical (d : Digest) : Prop := ∀ i, (d i).Canonical

instance (d : Digest) : Decidable (DigestIsCanonical d) := inferInstanceAs (Decidable (∀ _, _))

def encodeDigestCanonical (d : Digest) : Bytes := (List.finRange 8).flatMap fun i => (d i).toLeBytes

/-- Read eight limbs; a limb at or above the modulus is refused. -/
def decodeDigestCanonical (bytes : Bytes) : Option Digest :=
  if ∀ i : Fin 8, leNat (slice (4 * i) 4 bytes) < P then
    some fun i => ⟨UInt32.ofNat (leNat (slice (4 * i) 4 bytes))⟩
  else none

theorem encodeDigestCanonical_eq (d : Digest) : encodeDigestCanonical d =
    (d 0).toLeBytes ++ ((d 1).toLeBytes ++ ((d 2).toLeBytes ++ ((d 3).toLeBytes ++
      ((d 4).toLeBytes ++ ((d 5).toLeBytes ++ ((d 6).toLeBytes ++ (d 7).toLeBytes)))))) := by
  simp [encodeDigestCanonical, List.finRange_succ, List.flatMap_cons]

@[simp] theorem length_encodeDigestCanonical (d : Digest) : (encodeDigestCanonical d).length = 32 := by
  simp [encodeDigestCanonical_eq]

theorem slice_encodeDigestCanonical (d : Digest) (i : Fin 8) :
    slice (4 * i) 4 (encodeDigestCanonical d) = (d i).toLeBytes := by
  rw [encodeDigestCanonical_eq]
  fin_cases i <;>
    simp [slice, List.drop_append, List.drop_of_length_le, List.take_of_length_le]

/-- A canonical digest is read back from its own encoding. -/
theorem decode_encodeDigestCanonical {d : Digest} (h : DigestIsCanonical d) :
    decodeDigestCanonical (encodeDigestCanonical d) = some d := by
  have hlt : ∀ i : Fin 8, leNat (slice (4 * i) 4 (encodeDigestCanonical d)) < P := by
    intro i
    rw [slice_encodeDigestCanonical, M31.leNat_toLeBytes]
    exact h i
  rw [decodeDigestCanonical, if_pos hlt]
  congr 1
  funext i
  rw [slice_encodeDigestCanonical, M31.ofNat_leNat_toLeBytes]

theorem decodeDigestCanonical_canonical {bytes : Bytes} {d : Digest}
    (h : decodeDigestCanonical bytes = some d) : DigestIsCanonical d := by
  unfold decodeDigestCanonical at h
  split_ifs at h with hlt
  obtain rfl := Option.some.inj h
  intro i
  have := hlt i
  have hP : P < 2 ^ 32 := by decide
  simp only [M31.Canonical, UInt32.toNat_ofNat']
  omega

/-- Accepted bytes are the encoding of the digest read from them. -/
theorem encode_decodeDigestCanonical {bytes : Bytes} {d : Digest} (hlen : bytes.length = 32)
    (h : decodeDigestCanonical bytes = some d) : encodeDigestCanonical d = bytes := by
  unfold decodeDigestCanonical at h
  split_ifs at h with hlt
  obtain rfl := Option.some.inj h
  have hP : P < 2 ^ 32 := by decide
  have hlimb : ∀ i : Fin 8,
      M31.toLeBytes ⟨UInt32.ofNat (leNat (slice (4 * i) 4 bytes))⟩ = slice (4 * i) 4 bytes := by
    intro i
    have hi := hlt i
    have hl : (slice (4 * i) 4 bytes).length = 4 := length_slice_of_le (by omega)
    have hnat : (UInt32.ofNat (leNat (slice (4 * i) 4 bytes))).toNat = leNat (slice (4 * i) 4 bytes) := by
      rw [UInt32.toNat_ofNat']
      omega
    have := leBytes_leNat (slice (4 * i) 4 bytes)
    rw [hl] at this
    rw [M31.toLeBytes, hnat, this]
  have hsplit : bytes = slice (4 * (0 : Fin 8)) 4 bytes ++ (slice (4 * (1 : Fin 8)) 4 bytes ++
      (slice (4 * (2 : Fin 8)) 4 bytes ++ (slice (4 * (3 : Fin 8)) 4 bytes ++
      (slice (4 * (4 : Fin 8)) 4 bytes ++ (slice (4 * (5 : Fin 8)) 4 bytes ++
      (slice (4 * (6 : Fin 8)) 4 bytes ++ slice (4 * (7 : Fin 8)) 4 bytes)))))) := by
    simp only [show 4 * ((0 : Fin 8) : ℕ) = 0 from rfl, show 4 * ((1 : Fin 8) : ℕ) = 4 from rfl,
      show 4 * ((2 : Fin 8) : ℕ) = 8 from rfl, show 4 * ((3 : Fin 8) : ℕ) = 12 from rfl,
      show 4 * ((4 : Fin 8) : ℕ) = 16 from rfl, show 4 * ((5 : Fin 8) : ℕ) = 20 from rfl,
      show 4 * ((6 : Fin 8) : ℕ) = 24 from rfl, show 4 * ((7 : Fin 8) : ℕ) = 28 from rfl]
    rw [← slice_split 24 4 4, ← slice_split 20 4 8, ← slice_split 16 4 12, ← slice_split 12 4 16,
      ← slice_split 8 4 20, ← slice_split 4 4 24, ← slice_split 0 4 28, slice_all hlen]
  rw [encodeDigestCanonical_eq]
  simp only [hlimb]
  exact hsplit.symm

theorem encodeDigestCanonical_slice {off : ℕ} {bytes : Bytes} {d : Digest} (hlen : off + 32 ≤ bytes.length)
    (h : decodeDigestCanonical (slice off 32 bytes) = some d) : encodeDigestCanonical d = slice off 32 bytes :=
  encode_decodeDigestCanonical (length_slice_of_le hlen) h

theorem encodeDigestCanonical_inj {d e : Digest} (h : encodeDigestCanonical d = encodeDigestCanonical e) :
    d = e := by
  funext i
  have hi := congrArg (fun b => UInt32.ofNat (leNat (slice (4 * i) 4 b))) h
  simp only [slice_encodeDigestCanonical, M31.ofNat_leNat_toLeBytes] at hi
  cases hd : d i
  cases he : e i
  simp_all

/-- The value bound of the spend relation. -/
def VALUE_LIMIT : ℕ := 2 ^ 30

end Aspis.Statement
