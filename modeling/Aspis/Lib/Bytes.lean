import Mathlib.Data.List.Basic
import Mathlib.Data.Set.Finite.List
import Mathlib.Tactic.Ring
import Mathlib.Tactic.NormNum

/-! Fixed-layout byte images. A record is written into a zeroed buffer by
patching its fields at fixed offsets, and read back by slicing the same
offsets. Numbers are little endian. The slice and patch rules below let `simp`
read any field of an image whose offsets are literals. -/

namespace Aspis.Lib

abbrev Bytes := List UInt8

/-! ### Little-endian numbers -/

/-- The `w` low bytes of `n`, least significant first. -/
def leBytes : ℕ → ℕ → Bytes
  | 0, _ => []
  | w + 1, n => UInt8.ofNat n :: leBytes w (n / 256)

def leNat : Bytes → ℕ
  | [] => 0
  | b :: bs => b.toNat + 256 * leNat bs

@[simp] theorem length_leBytes (w n : ℕ) : (leBytes w n).length = w := by
  induction w generalizing n with
  | zero => rfl
  | succ w ih => simp [leBytes, ih]

theorem leNat_leBytes (w n : ℕ) : leNat (leBytes w n) = n % 256 ^ w := by
  induction w generalizing n with
  | zero => simp [leBytes, leNat, Nat.mod_one]
  | succ w ih =>
    have hb : (UInt8.ofNat n).toNat = n % 256 := by simp
    rw [leBytes, leNat, ih, hb, pow_succ', Nat.mod_mul]

theorem leNat_leBytes_of_lt {w n : ℕ} (h : n < 256 ^ w) : leNat (leBytes w n) = n := by
  rw [leNat_leBytes, Nat.mod_eq_of_lt h]

theorem leNat_append (a b : Bytes) : leNat (a ++ b) = leNat a + 256 ^ a.length * leNat b := by
  induction a with
  | nil => simp [leNat]
  | cons x a ih =>
    rw [List.cons_append, leNat, leNat, ih, List.length_cons, pow_succ']
    ring

theorem leNat_lt (d : Bytes) : leNat d < 256 ^ d.length := by
  induction d with
  | nil => simp [leNat]
  | cons b bs ih =>
    have hb : b.toNat < 256 := b.toNat_lt
    rw [leNat, List.length_cons, pow_succ]
    omega

theorem leBytes_leNat (d : Bytes) : leBytes d.length (leNat d) = d := by
  induction d with
  | nil => rfl
  | cons b bs ih =>
    have hb : b.toNat < 256 := b.toNat_lt
    have hdiv : (b.toNat + 256 * leNat bs) / 256 = leNat bs := by omega
    have hmod : UInt8.ofNat (b.toNat + 256 * leNat bs) = b := by
      apply UInt8.toNat.inj
      simp only [UInt8.toNat_ofNat']
      omega
    rw [List.length_cons, leNat, leBytes, hdiv, hmod, ih]

theorem leBytes_inj {w m n : ℕ} (hm : m < 256 ^ w) (hn : n < 256 ^ w)
    (h : leBytes w m = leBytes w n) : m = n := by
  rw [← leNat_leBytes_of_lt hm, ← leNat_leBytes_of_lt hn, h]

/-! ### Slices and patches -/

def zeros (n : ℕ) : Bytes := List.replicate n 0

/-- Every byte of the image is zero. -/
def allZero (d : Bytes) : Bool := d.all (· == 0)

/-- The bytes `off .. off + len`. -/
def slice (off len : ℕ) (d : Bytes) : Bytes := (d.drop off).take len

def byteAt (i : ℕ) (d : Bytes) : UInt8 := d.getD i 0

/-- Overwrite the bytes from `off` on with `src`. -/
def patch (off : ℕ) (src d : Bytes) : Bytes := d.take off ++ src ++ d.drop (off + src.length)

@[simp] theorem length_zeros (n : ℕ) : (zeros n).length = n := by simp [zeros]

@[simp] theorem allZero_zeros (n : ℕ) : allZero (zeros n) = true := by simp [allZero, zeros]

theorem eq_zeros_of_allZero {d : Bytes} (h : allZero d = true) : d = zeros d.length := by
  apply List.eq_replicate_of_mem
  intro b hb
  simpa using List.all_eq_true.mp h b hb

theorem length_slice (off len : ℕ) (d : Bytes) : (slice off len d).length = min len (d.length - off) := by
  simp [slice]

theorem length_slice_of_le {off len : ℕ} {d : Bytes} (h : off + len ≤ d.length) :
    (slice off len d).length = len := by
  rw [length_slice]
  omega

theorem length_patch (off : ℕ) (src d : Bytes) :
    (patch off src d).length = min off d.length + src.length + (d.length - (off + src.length)) := by
  simp [patch]
  omega

theorem length_patch_of_le {off : ℕ} {src d : Bytes} (h : off + src.length ≤ d.length) :
    (patch off src d).length = d.length := by
  rw [length_patch]
  omega

theorem slice_zeros {off len n : ℕ} (h : off + len ≤ n) : slice off len (zeros n) = zeros len := by
  simp only [slice, zeros, List.drop_replicate, List.take_replicate]
  congr 1
  omega

theorem slice_slice {off len off' len' : ℕ} (d : Bytes) (h : off' + len' ≤ len) :
    slice off' len' (slice off len d) = slice (off + off') len' d := by
  simp only [slice, List.drop_take, List.drop_drop, List.take_take]
  congr 1
  omega

theorem slice_patch_before {off o l : ℕ} {src d : Bytes} (h : o + l ≤ off) (hd : off ≤ d.length) :
    slice o l (patch off src d) = slice o l d := by
  have hlen : l ≤ (d.take off).length - o := by simp; omega
  rw [slice, patch, List.append_assoc, List.drop_append_of_le_length (by simp; omega),
    List.take_append_of_le_length (by simp; omega), List.drop_take, List.take_take, slice]
  congr 1
  omega

theorem slice_patch_after {off o l : ℕ} {src d : Bytes} (h : off + src.length ≤ o)
    (hd : off ≤ d.length) : slice o l (patch off src d) = slice o l d := by
  have hlen : (d.take off ++ src).length = off + src.length := by simp; omega
  rw [slice, patch, List.drop_append, hlen, List.drop_eq_nil_of_le (by omega), List.nil_append,
    List.drop_drop, slice]
  congr 2
  omega

theorem slice_patch_inside {off o l : ℕ} {src d : Bytes} (h : off ≤ o)
    (hl : o + l ≤ off + src.length) (hd : off ≤ d.length) :
    slice o l (patch off src d) = slice (o - off) l src := by
  have hlen : (d.take off).length = off := by simp; omega
  rw [slice, patch, List.append_assoc, List.drop_append, hlen, List.drop_eq_nil_of_le (by omega),
    List.nil_append, List.drop_append_of_le_length (by omega),
    List.take_append_of_le_length (by simp; omega), slice]

theorem slice_patch_self {off l : ℕ} {src d : Bytes} (hl : l = src.length) (hd : off ≤ d.length) :
    slice off l (patch off src d) = src := by
  subst hl
  rw [slice_patch_inside le_rfl le_rfl hd, Nat.sub_self]
  simp [slice]

theorem slice_all {n : ℕ} {d : Bytes} (h : d.length = n) : slice 0 n d = d := by
  simp [slice, ← h]

theorem slice_split (off m n : ℕ) (d : Bytes) :
    slice off (m + n) d = slice off m d ++ slice (off + m) n d := by
  rw [slice, slice, slice, List.take_add, List.drop_drop]

/-- Neighbouring slices are one slice. -/
theorem slice_join {off off' m n : ℕ} (d : Bytes) (h : off' = off + m) :
    slice off m d ++ slice off' n d = slice off (m + n) d := by
  rw [h, slice_split]

theorem leBytes_leNat_slice {off n : ℕ} {d : Bytes} (h : off + n ≤ d.length) :
    leBytes n (leNat (slice off n d)) = slice off n d := by
  have hread := leBytes_leNat (slice off n d)
  rwa [length_slice_of_le h] at hread

theorem slice_one {i : ℕ} {d : Bytes} (h : i < d.length) : slice i 1 d = [byteAt i d] := by
  have hb : byteAt i d = d[i] := by
    rw [byteAt, List.getD_eq_getElem?_getD, List.getElem?_eq_getElem h, Option.getD_some]
  rw [slice, hb, List.drop_eq_getElem_cons h]
  rfl

theorem byteAt_of_slice_one {i : ℕ} {d : Bytes} {b : UInt8} (h : slice i 1 d = [b]) :
    byteAt i d = b := by
  have hi : i < d.length := by
    have := congrArg List.length h
    rw [length_slice] at this
    simp at this
    omega
  rw [slice_one hi] at h
  simpa using h

theorem byteAt_zeros (i n : ℕ) : byteAt i (zeros n) = 0 := by
  rw [byteAt, zeros, List.getD_eq_getElem?_getD, List.getElem?_replicate]
  split <;> rfl

theorem patch_patch_same {off : ℕ} {src src' d : Bytes} (h : src.length = src'.length)
    (hd : off ≤ d.length) : patch off src' (patch off src d) = patch off src' d := by
  have hlen : (d.take off).length = off := by simp; omega
  simp only [patch, List.append_assoc]
  rw [List.take_append_of_le_length (by omega), List.take_take, Nat.min_self, List.drop_append,
    hlen, List.drop_eq_nil_of_le (by omega), List.nil_append, List.drop_append,
    List.drop_eq_nil_of_le (by omega), List.nil_append, List.drop_drop]
  congr 3
  omega

/-! ### Images as concatenated fields -/

theorem slice_append_left {off len : ℕ} {a b : Bytes} (h : off + len ≤ a.length) :
    slice off len (a ++ b) = slice off len a := by
  rw [slice, List.drop_append_of_le_length (by omega), List.take_append_of_le_length (by simp; omega),
    slice]

theorem slice_append_right {off len : ℕ} {a b : Bytes} (h : a.length ≤ off) :
    slice off len (a ++ b) = slice (off - a.length) len b := by
  rw [slice, List.drop_append, List.drop_eq_nil_of_le h, List.nil_append, slice]

theorem slice_append_head {len : ℕ} {a b : Bytes} (h : len = a.length) :
    slice 0 len (a ++ b) = a := by
  rw [slice_append_left (by omega), slice_all h.symm]

theorem patch_append_at {off : ℕ} {src a b : Bytes} (h : off = a.length) :
    patch off src (a ++ b) = a ++ src ++ b.drop src.length := by
  subst h
  rw [patch, List.take_left, List.drop_append, List.drop_eq_nil_of_le (by omega), List.nil_append,
    Nat.add_sub_cancel_left]

theorem patch_append_left {off : ℕ} {src a b : Bytes} (h : off + src.length ≤ a.length) :
    patch off src (a ++ b) = patch off src a ++ b := by
  rw [patch, patch, List.take_append_of_le_length (by omega), List.drop_append_of_le_length h]
  simp only [List.append_assoc]

theorem zeros_append (m n : ℕ) : zeros m ++ zeros n = zeros (m + n) := by
  simp [zeros]

theorem drop_zeros (m n : ℕ) : (zeros n).drop m = zeros (n - m) := by simp [zeros]

theorem allZero_slice {d : Bytes} (off len : ℕ) (h : allZero d = true) : allZero (slice off len d) = true := by
  simp only [allZero, slice, List.all_eq_true] at *
  exact fun b hb => h b (List.mem_of_mem_drop (List.mem_of_mem_take hb))

/-! ### Fixed 32-byte words -/

structure Bytes32 where
  bytes : Bytes
  length_eq : bytes.length = 32
  deriving DecidableEq

namespace Bytes32

theorem ext {a b : Bytes32} (h : a.bytes = b.bytes) : a = b := by
  cases a
  cases b
  simpa using h

def zero : Bytes32 := ⟨zeros 32, by simp⟩

/-- The same byte everywhere. -/
def filled (b : UInt8) : Bytes32 := ⟨List.replicate 32 b, List.length_replicate⟩

instance : Inhabited Bytes32 := ⟨zero⟩

instance : Finite Bytes32 := by
  have hbyte : Finite UInt8 := Finite.of_injective (fun b : UInt8 => b.toFin) fun _ _ h => UInt8.toFin_inj.mp h
  have hlists : Finite {d : Bytes | d.length = 32} := (List.finite_length_eq UInt8 32).to_subtype
  exact Finite.of_injective (fun a : Bytes32 => (⟨a.bytes, a.length_eq⟩ : {d : Bytes | d.length = 32}))
    fun _ _ h => ext (congrArg Subtype.val h)

/-- The 32 bytes at an offset; bytes past the end read as zero. -/
def read (off : ℕ) (d : Bytes) : Bytes32 :=
  ⟨(slice off 32 d ++ zeros 32).take 32, by simp⟩

attribute [simp] length_eq

theorem read_bytes {off : ℕ} {d : Bytes} (h : off + 32 ≤ d.length) :
    (read off d).bytes = slice off 32 d := by
  have hlen := length_slice_of_le h
  change (slice off 32 d ++ zeros 32).take 32 = _
  rw [List.take_append_of_le_length (by omega), List.take_of_length_le (by omega)]

theorem read_eq {off : ℕ} {d : Bytes} {a : Bytes32} (h : slice off 32 d = a.bytes) :
    read off d = a := by
  apply ext
  have hlen : (slice off 32 d).length = 32 := by rw [h, a.length_eq]
  change (slice off 32 d ++ zeros 32).take 32 = _
  rw [List.take_append_of_le_length (by omega), List.take_of_length_le (by omega), h]

end Bytes32

end Aspis.Lib
