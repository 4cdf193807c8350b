import Aspis.Lib.Bytes
import Aspis.Lib.Exec

/-! Images made of records. Fixed words are read at an offset, runs of records
are read one after another, each record of one width or of its own width, and a
checksum is taken over the image with its own place blanked. -/

namespace Aspis.Lib

variable {ε α : Type}

/-- Read `n` records of `width` bytes each from `off` on. -/
def decodeRecords (width : ℕ) (decode : Bytes → Except ε α) : ℕ → ℕ → Bytes → Except ε (List α)
  | 0, _, _ => .ok []
  | n + 1, off, d => do
    let a ← decode (slice off width d)
    let rest ← decodeRecords width decode n (off + width) d
    return a :: rest

theorem length_flatMap_const {encode : α → Bytes} {width : ℕ} {l : List α} (h : ∀ a ∈ l, (encode a).length = width) :
    (l.flatMap encode).length = l.length * width := by
  induction l with
  | nil => simp
  | cons a l ih =>
    rw [List.flatMap_cons, List.length_append, h a List.mem_cons_self, ih fun b hb => h b (List.mem_cons_of_mem a hb),
      List.length_cons, Nat.succ_mul, Nat.add_comm]

/-- Records that each read back alone read back as a run, wherever the run stands. -/
theorem decodeRecords_flatMap {width : ℕ} {encode : α → Bytes} {decode : Bytes → Except ε α} {l : List α}
    {before after : Bytes} {off : ℕ} (hoff : before.length = off) (hlen : ∀ a ∈ l, (encode a).length = width)
    (hread : ∀ a ∈ l, decode (encode a) = .ok a) :
    decodeRecords width decode l.length off (before ++ (l.flatMap encode ++ after)) = .ok l := by
  induction l generalizing before off with
  | nil => rfl
  | cons a l ih =>
    have hwidth := hlen a List.mem_cons_self
    have hfirst : slice off width (before ++ ((a :: l).flatMap encode ++ after)) = encode a := by
      rw [slice_append_right hoff.le, hoff, Nat.sub_self, List.flatMap_cons, List.append_assoc,
        slice_append_head hwidth.symm]
    have hrest := @ih (before ++ encode a) (off + width) (by rw [List.length_append, hoff, hwidth])
      (fun b hb => hlen b (List.mem_cons_of_mem a hb)) fun b hb => hread b (List.mem_cons_of_mem a hb)
    have hsplit : before ++ ((a :: l).flatMap encode ++ after) = before ++ encode a ++ (l.flatMap encode ++ after) := by
      rw [List.flatMap_cons, List.append_assoc, List.append_assoc]
    rw [List.length_cons, decodeRecords, hfirst, hread a List.mem_cons_self, except_ok_bind, hsplit, hrest]
    rfl

/-- Read `n` records one after another; each says where the next one starts. -/
def decodeRun (read : ℕ → Bytes → Except ε (α × ℕ)) : ℕ → ℕ → Bytes → Except ε (List α × ℕ)
  | 0, off, _ => .ok ([], off)
  | n + 1, off, d => do
    let (a, next) ← read off d
    let (rest, last) ← decodeRun read n next d
    return (a :: rest, last)

/-- The record reads back wherever it stands, up to its end. -/
def ReadsBack (read : ℕ → Bytes → Except ε (α × ℕ)) (encode : α → Bytes) (a : α) : Prop :=
  ∀ before after : Bytes, read before.length (before ++ (encode a ++ after)) =
    .ok (a, before.length + (encode a).length)

theorem decodeRun_flatMap {read : ℕ → Bytes → Except ε (α × ℕ)} {encode : α → Bytes} {l : List α} {before after : Bytes}
    (h : ∀ a ∈ l, ReadsBack read encode a) : decodeRun read l.length before.length (before ++ (l.flatMap encode ++ after)) =
      .ok (l, before.length + (l.flatMap encode).length) := by
  induction l generalizing before with
  | nil => rfl
  | cons a l ih =>
    have hfirst := h a List.mem_cons_self before (l.flatMap encode ++ after)
    have hrest := @ih (before ++ encode a) fun b hb => h b (List.mem_cons_of_mem a hb)
    rw [List.length_append, List.append_assoc] at hrest
    rw [List.flatMap_cons, List.append_assoc, List.length_cons, decodeRun, hfirst, except_ok_bind]
    dsimp only
    rw [hrest, except_ok_bind, List.length_append, Nat.add_assoc]
    rfl

/-- A record that is read is what its encoding says, from where it starts to where the next one does. -/
def ReadsExactly (read : ℕ → Bytes → Except ε (α × ℕ)) (encode : α → Bytes) : Prop :=
  ∀ off d a next, read off d = .ok (a, next) →
    next = off + (encode a).length ∧ next ≤ d.length ∧ slice off (encode a).length d = encode a

theorem flatMap_of_decodeRun {read : ℕ → Bytes → Except ε (α × ℕ)} {encode : α → Bytes} (hread : ReadsExactly read encode)
    {n off last : ℕ} {d : Bytes} {l : List α} (hoff : off ≤ d.length) (h : decodeRun read n off d = .ok (l, last)) :
    l.length = n ∧ last = off + (l.flatMap encode).length ∧ last ≤ d.length ∧
      slice off (l.flatMap encode).length d = l.flatMap encode := by
  induction n generalizing off l with
  | zero =>
    obtain ⟨rfl, rfl⟩ := Prod.mk.inj (Except.ok.inj h)
    simp [slice, hoff]
  | succ n ih =>
    simp only [decodeRun, except_bind_eq_ok, except_pure_eq_ok] at h
    obtain ⟨⟨a, next⟩, hfirst, ⟨rest, last'⟩, hrest, heq⟩ := h
    obtain ⟨rfl, rfl⟩ := Prod.mk.inj heq
    obtain ⟨rfl, hle, hslice⟩ := hread off d a next hfirst
    obtain ⟨rfl, rfl, hlast, htail⟩ := ih hle hrest
    rw [List.flatMap_cons, List.length_append]
    exact ⟨rfl, Nat.add_assoc _ _ _, hlast, by rw [slice_split, hslice, htail]⟩

/-! ### Fixed words -/

def u8Bytes (x : UInt8) : Bytes := [x]

def u32Bytes (x : UInt32) : Bytes := leBytes 4 x.toNat

def u64Bytes (x : UInt64) : Bytes := leBytes 8 x.toNat

def readU32 (off : ℕ) (d : Bytes) : UInt32 := UInt32.ofNat (leNat (slice off 4 d))

def readU64 (off : ℕ) (d : Bytes) : UInt64 := UInt64.ofNat (leNat (slice off 8 d))

@[simp] theorem length_u8Bytes (x : UInt8) : (u8Bytes x).length = 1 := by simp [u8Bytes]

@[simp] theorem length_u32Bytes (x : UInt32) : (u32Bytes x).length = 4 := length_leBytes 4 _

@[simp] theorem length_u64Bytes (x : UInt64) : (u64Bytes x).length = 8 := length_leBytes 8 _

theorem byteAt_of_slice {off : ℕ} {d : Bytes} {x : UInt8} (h : slice off 1 d = u8Bytes x) : byteAt off d = x :=
  byteAt_of_slice_one h

theorem readU32_of_slice {off : ℕ} {d : Bytes} {x : UInt32} (h : slice off 4 d = u32Bytes x) : readU32 off d = x := by
  have hlt := x.toNat_lt
  rw [readU32, h, u32Bytes, leNat_leBytes_of_lt (by omega), UInt32.ofNat_toNat]

theorem readU64_of_slice {off : ℕ} {d : Bytes} {x : UInt64} (h : slice off 8 d = u64Bytes x) : readU64 off d = x := by
  have hlt := x.toNat_lt
  rw [readU64, h, u64Bytes, leNat_leBytes_of_lt (by omega), UInt64.ofNat_toNat]

theorem u8Bytes_byteAt {off : ℕ} {d : Bytes} (h : off < d.length) : u8Bytes (byteAt off d) = slice off 1 d :=
  (slice_one h).symm

theorem u32Bytes_readU32 {off : ℕ} {d : Bytes} (h : off + 4 ≤ d.length) : u32Bytes (readU32 off d) = slice off 4 d := by
  have hlt := leNat_lt (slice off 4 d)
  rw [length_slice_of_le h] at hlt
  have hnat : (readU32 off d).toNat = leNat (slice off 4 d) := by
    rw [readU32, UInt32.toNat_ofNat']
    exact Nat.mod_eq_of_lt hlt
  rw [u32Bytes, hnat, leBytes_leNat_slice h]

theorem u64Bytes_readU64 {off : ℕ} {d : Bytes} (h : off + 8 ≤ d.length) : u64Bytes (readU64 off d) = slice off 8 d := by
  have hlt := leNat_lt (slice off 8 d)
  rw [length_slice_of_le h] at hlt
  have hnat : (readU64 off d).toNat = leNat (slice off 8 d) := by
    rw [readU64, UInt64.toNat_ofNat']
    exact Nat.mod_eq_of_lt hlt
  rw [u64Bytes, hnat, leBytes_leNat_slice h]

/-- A byte array of one size. -/
abbrev FixedBytes (n : ℕ) := {b : Bytes // b.length = n}

/-- The array at an offset; bytes past the end read as zero. -/
def readFixed (n off : ℕ) (d : Bytes) : FixedBytes n := ⟨(slice off n d ++ zeros n).take n, by simp⟩

theorem readFixed_of_slice {n off : ℕ} {d : Bytes} {x : FixedBytes n} (h : slice off n d = x.1) : readFixed n off d = x := by
  apply Subtype.ext
  have hlen : (slice off n d).length = n := by rw [h, x.2]
  change (slice off n d ++ zeros n).take n = x.1
  rw [List.take_append_of_le_length (by omega), List.take_of_length_le (by omega), h]

theorem readFixed_bytes {n off : ℕ} {d : Bytes} (h : off + n ≤ d.length) : (readFixed n off d).1 = slice off n d := by
  have hlen := length_slice_of_le h
  change (slice off n d ++ zeros n).take n = _
  rw [List.take_append_of_le_length (by omega), List.take_of_length_le (by omega)]

/-- A part of a part, at its place. -/
theorem slice_of_part {off len o l : ℕ} {d part : Bytes} (hpart : slice off len d = part) (h : o + l ≤ len) :
    slice (off + o) l d = slice o l part := by
  rw [← hpart, slice_slice d h]

theorem zeros_of_allZero {off n : ℕ} {d : Bytes} (hlen : off + n ≤ d.length) (h : allZero (slice off n d) = true) :
    zeros n = slice off n d := by
  have hzero := eq_zeros_of_allZero h
  rw [length_slice_of_le hlen] at hzero
  exact hzero.symm

/-! ### Checksums -/

/-- What a checksum at `off` is taken over: the length, and the image with 32 zero bytes in its place. -/
def maskedImage (off : ℕ) (d : Bytes) : Bytes := leBytes 8 d.length ++ (slice 0 off d ++ (zeros 32 ++ d.drop (off + 32)))

theorem maskedImage_congr {off : ℕ} {front rest : Bytes} (c c' : Bytes32) (h : front.length = off) :
    maskedImage off (front ++ (c.bytes ++ rest)) = maskedImage off (front ++ (c'.bytes ++ rest)) := by
  have hdrop : ∀ x : Bytes32, (front ++ (x.bytes ++ rest)).drop (off + 32) = rest := by
    intro x
    rw [← List.append_assoc, List.drop_left' (by rw [List.length_append, h, x.length_eq])]
  have hlength : (front ++ (c.bytes ++ rest)).length = (front ++ (c'.bytes ++ rest)).length := by simp
  rw [maskedImage, maskedImage, hdrop, hdrop, hlength, slice_append_head h.symm, slice_append_head h.symm]

/-- Writing a checksum into its place. -/
theorem patch_checksum {off : ℕ} {front rest : Bytes} (c : Bytes32) (h : front.length = off) :
    patch off c.bytes (front ++ (zeros 32 ++ rest)) = front ++ (c.bytes ++ rest) := by
  rw [patch_append_at h.symm, List.append_assoc, c.length_eq, List.drop_left' (length_zeros 32)]

/-- An image is what stands before its checksum, the checksum and the rest. -/
theorem split_checksum {off : ℕ} {d : Bytes} (h : off + 32 ≤ d.length) :
    slice 0 off d ++ ((Bytes32.read off d).bytes ++ d.drop (off + 32)) = d := by
  have hrest : d.drop (off + 32) = slice (off + 32) (d.length - (off + 32)) d := by
    rw [slice, List.take_of_length_le (by rw [List.length_drop])]
  rw [Bytes32.read_bytes h, hrest, slice_join d rfl, slice_join d (Nat.zero_add off).symm]
  exact slice_all (by omega)

end Aspis.Lib
