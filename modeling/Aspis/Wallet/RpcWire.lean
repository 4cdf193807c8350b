import Aspis.Lib.Exec
import Aspis.Lib.Numerals
import Mathlib.Data.List.TakeWhile

/-! The strict decoders for the binary strings of the RPC. A base58 string is
read by multiplying a little-endian byte string by 58 and adding the next digit,
with the leading ones kept aside as leading zero bytes; a base64 string is read
in chunks of four characters. Both accept one spelling of every byte string
within the bound, as long as the bound on the encoded length fits a word. -/

namespace Aspis.Wallet

open Lib

inductive RpcBinaryDecodeErrorV1
  | lengthOverflow
  | encodedLengthExceeded
  | decodedLengthExceeded
  | wrongDecodedLength
  | invalidBase58Character
  | nonCanonicalBase58
  | invalidBase64Length
  | invalidBase64Character
  | invalidBase64Padding
  | nonCanonicalBase64PadBits
  deriving DecidableEq, Repr

def USIZE_LIMIT : ℕ := 2 ^ 64

/-- The bytes of a string. -/
def asBytes (input : String) : Bytes := input.toByteArray.data.toList

/-! ### Base58 -/

def base58Value (byte : UInt8) : Option ℕ :=
  if 49 ≤ byte ∧ byte ≤ 57 then some (byte.toNat - 49)
  else if 65 ≤ byte ∧ byte ≤ 72 then some (byte.toNat - 65 + 9)
  else if 74 ≤ byte ∧ byte ≤ 78 then some (byte.toNat - 74 + 17)
  else if 80 ≤ byte ∧ byte ≤ 90 then some (byte.toNat - 80 + 22)
  else if 97 ≤ byte ∧ byte ≤ 107 then some (byte.toNat - 97 + 33)
  else if 109 ≤ byte ∧ byte ≤ 122 then some (byte.toNat - 109 + 44)
  else none

/-- Multiply the little-endian digits by 58 in place, with a carry. -/
def expandDigits : Bytes → ℕ → Except RpcBinaryDecodeErrorV1 (Bytes × ℕ)
  | [], carry => .ok ([], carry)
  | digit :: significant, carry => do
    require (digit.toNat * 58 < 2 ^ 32) .lengthOverflow
    require (digit.toNat * 58 + carry < 2 ^ 32) .lengthOverflow
    let expanded := digit.toNat * 58 + carry
    let (significant, carry) ← expandDigits significant (expanded / 256)
    return (UInt8.ofNat expanded :: significant, carry)

/-- Push the bytes of the carry while the decoded length stays within its bound. -/
def pushCarry (leadingZeroes maxDecodedBytes : ℕ) (significant : Bytes) (carry : ℕ) :
    Except RpcBinaryDecodeErrorV1 Bytes :=
  if carry = 0 then .ok significant
  else do
    require (leadingZeroes + significant.length < USIZE_LIMIT ∧ leadingZeroes + significant.length + 1 < USIZE_LIMIT)
      .lengthOverflow
    require (leadingZeroes + significant.length + 1 ≤ maxDecodedBytes) .decodedLengthExceeded
    pushCarry leadingZeroes maxDecodedBytes (significant ++ [UInt8.ofNat carry]) (carry / 256)
termination_by carry

def base58Step (leadingZeroes maxDecodedBytes : ℕ) (significant : Bytes) (byte : UInt8) :
    Except RpcBinaryDecodeErrorV1 Bytes := do
  let value ← okOr (base58Value byte) .invalidBase58Character
  let (significant, carry) ← expandDigits significant value
  pushCarry leadingZeroes maxDecodedBytes significant carry

def base58MaxEncoded (maxDecodedBytes : ℕ) : Except RpcBinaryDecodeErrorV1 ℕ := do
  require (maxDecodedBytes * 138 < USIZE_LIMIT) .lengthOverflow
  require (maxDecodedBytes * 138 / 100 + 2 < USIZE_LIMIT) .lengthOverflow
  return maxDecodedBytes * 138 / 100 + 2

def decodeBase58BoundedV1 (input : String) (maxDecodedBytes : ℕ) : Except RpcBinaryDecodeErrorV1 Bytes := do
  let maxEncodedBytes ← base58MaxEncoded maxDecodedBytes
  let encoded := asBytes input
  require (encoded.length ≤ maxEncodedBytes) .encodedLengthExceeded
  let leadingZeroes := (encoded.takeWhile (· == 49)).length
  require (leadingZeroes ≤ maxDecodedBytes) .decodedLengthExceeded
  let significant ← (encoded.drop leadingZeroes).foldlM (base58Step leadingZeroes maxDecodedBytes) []
  require (significant.getLast? ≠ some 0) .nonCanonicalBase58
  require (leadingZeroes + significant.length < USIZE_LIMIT) .lengthOverflow
  require (leadingZeroes + significant.length ≤ maxDecodedBytes) .decodedLengthExceeded
  return List.replicate leadingZeroes 0 ++ significant.reverse

/-! ### Base64 -/

def base64Value (byte : UInt8) : Option UInt8 :=
  if 65 ≤ byte ∧ byte ≤ 90 then some (byte - 65)
  else if 97 ≤ byte ∧ byte ≤ 122 then some (byte - 97 + 26)
  else if 48 ≤ byte ∧ byte ≤ 57 then some (byte - 48 + 52)
  else if byte = 43 then some 62
  else if byte = 47 then some 63
  else none

/-- How many of the last two characters are padding; one before a character is misplaced. -/
def base64Padding (third fourth : UInt8) : Except RpcBinaryDecodeErrorV1 ℕ :=
  if third = 61 ∧ fourth = 61 then .ok 2
  else if fourth = 61 then .ok 1
  else if third = 61 then .error .invalidBase64Padding
  else .ok 0

/-- A character's value where it is not padding. -/
def base64Digit (present : Prop) [Decidable present] (byte : UInt8) : Except RpcBinaryDecodeErrorV1 UInt8 :=
  if present then okOr (base64Value byte) .invalidBase64Character else .ok 0

structure Chunk where
  first : UInt8
  second : UInt8
  third : UInt8
  fourth : UInt8

/-- The whole chunks of four. -/
def chunksExact : Bytes → List Chunk
  | a :: b :: c :: d :: rest => ⟨a, b, c, d⟩ :: chunksExact rest
  | _ => []

def base64Chunk (maxDecodedBytes : ℕ) (isLast : Bool) (output : Bytes) (chunk : Chunk) :
    Except RpcBinaryDecodeErrorV1 Bytes := do
  let a ← okOr (base64Value chunk.first) .invalidBase64Character
  let b ← okOr (base64Value chunk.second) .invalidBase64Character
  let padding ← base64Padding chunk.third chunk.fourth
  require (padding = 0 ∨ isLast = true) .invalidBase64Padding
  let c ← base64Digit (padding ≠ 2) chunk.third
  let d ← base64Digit (padding = 0) chunk.fourth
  require (¬ (padding = 2 ∧ b &&& 0x0f ≠ 0)) .nonCanonicalBase64PadBits
  require (¬ (padding = 1 ∧ c &&& 0x03 ≠ 0)) .nonCanonicalBase64PadBits
  require (padding ≤ 3) .lengthOverflow
  require (output.length + (3 - padding) < USIZE_LIMIT) .lengthOverflow
  require (output.length + (3 - padding) ≤ maxDecodedBytes) .decodedLengthExceeded
  return output ++ [(a <<< 2) ||| (b >>> 4)] ++ (if padding < 2 then [(b <<< 4) ||| (c >>> 2)] else []) ++
    (if padding = 0 then [(c <<< 6) ||| d] else [])

/-- The chunks from number `index` on; `total` is how many the input has. -/
def base64Chunks (maxDecodedBytes total : ℕ) : ℕ → List Chunk → Bytes → Except RpcBinaryDecodeErrorV1 Bytes
  | _, [], output => .ok output
  | index, chunk :: chunks, output => do
    let output ← base64Chunk maxDecodedBytes (decide (index + 1 = total)) output chunk
    base64Chunks maxDecodedBytes total (index + 1) chunks output

def base64MaxEncoded (maxDecodedBytes : ℕ) : Except RpcBinaryDecodeErrorV1 ℕ := do
  require (maxDecodedBytes + 2 < USIZE_LIMIT) .lengthOverflow
  require ((maxDecodedBytes + 2) / 3 * 4 < USIZE_LIMIT) .lengthOverflow
  return (maxDecodedBytes + 2) / 3 * 4

def decodeBase64StandardBoundedV1 (input : String) (maxDecodedBytes : ℕ) : Except RpcBinaryDecodeErrorV1 Bytes := do
  let encoded := asBytes input
  require (encoded.length % 4 = 0) .invalidBase64Length
  let maxEncodedBytes ← base64MaxEncoded maxDecodedBytes
  require (encoded.length ≤ maxEncodedBytes) .encodedLengthExceeded
  base64Chunks maxDecodedBytes (encoded.length / 4) 0 (chunksExact encoded) []

/-! ### The standard encodings -/

def base58Alphabet : Bytes :=
  [49, 50, 51, 52, 53, 54, 55, 56, 57, 65, 66, 67, 68, 69, 70, 71, 72, 74, 75, 76, 77, 78, 80, 81, 82, 83, 84, 85, 86, 87,
    88, 89, 90, 97, 98, 99, 100, 101, 102, 103, 104, 105, 106, 107, 109, 110, 111, 112, 113, 114, 115, 116, 117, 118, 119,
    120, 121, 122]

def base58Char (d : ℕ) : UInt8 := base58Alphabet.getD d 0

/-- A one for every leading zero byte, then the base-58 digits of the number the bytes write, highest first. -/
def base58Encode (bytes : Bytes) : Bytes :=
  List.replicate (bytes.takeWhile (· == 0)).length 49 ++ (Nat.digits 58 (leNat bytes.reverse)).reverse.map base58Char

def base64Alphabet : Bytes :=
  [65, 66, 67, 68, 69, 70, 71, 72, 73, 74, 75, 76, 77, 78, 79, 80, 81, 82, 83, 84, 85, 86, 87, 88, 89, 90, 97, 98, 99, 100,
    101, 102, 103, 104, 105, 106, 107, 108, 109, 110, 111, 112, 113, 114, 115, 116, 117, 118, 119, 120, 121, 122, 48, 49,
    50, 51, 52, 53, 54, 55, 56, 57, 43, 47]

def base64Char (d : ℕ) : UInt8 := base64Alphabet.getD d 0

/-- Three bytes become four characters; a last group of one or two bytes is padded. -/
def base64Encode : Bytes → Bytes
  | [] => []
  | [x] => [base64Char (x.toNat / 4), base64Char (x.toNat % 4 * 16), 61, 61]
  | [x, y] => [base64Char (x.toNat / 4), base64Char (x.toNat % 4 * 16 + y.toNat / 16), base64Char (y.toNat % 16 * 4), 61]
  | x :: y :: z :: rest => base64Char (x.toNat / 4) :: base64Char (x.toNat % 4 * 16 + y.toNat / 16) ::
      base64Char (y.toNat % 16 * 4 + z.toNat / 64) :: base64Char (z.toNat % 64) :: base64Encode rest

/-- What the alphabet is, character by character. -/
@[mk_iff]
structure Base58Table : Prop where
  value : ∀ n : Fin 256, ((base58Value (UInt8.ofNat n)).all fun d => decide (d < 58 ∧ UInt8.ofNat n = base58Char d)) = true
  char : ∀ d : Fin 58, base58Value (base58Char d) = some d.1
  one : ∀ d : Fin 58, base58Char d = 49 ↔ d.1 = 0
  ascii : ∀ d : Fin 58, (base58Char d).toNat < 128

theorem base58_table : Base58Table := by
  rw [base58Table_iff]
  decide +kernel

/-! ### Reading base58 -/

theorem base58Value_eq_some {byte : UInt8} {d : ℕ} : base58Value byte = some d ↔ d < 58 ∧ byte = base58Char d := by
  constructor
  · intro h
    have hbyte : UInt8.ofNat byte.toNat = byte := UInt8.ofNat_toNat
    have hvalue := base58_table.value ⟨byte.toNat, byte.toNat_lt⟩
    rw [hbyte, h] at hvalue
    exact of_decide_eq_true hvalue
  · rintro ⟨hd, rfl⟩
    exact base58_table.char ⟨d, hd⟩

theorem base58Char_eq_one {d : ℕ} (hd : d < 58) : base58Char d = 49 ↔ d = 0 := base58_table.one ⟨d, hd⟩

/-- The product with 58 and a carry below 58, as bytes and a carry below 58. -/
theorem expandDigits_ok (significant : Bytes) {carry : ℕ} (hcarry : carry < 58) :
    ∃ digits carry', expandDigits significant carry = .ok (digits, carry') ∧ digits.length = significant.length ∧
      carry' < 58 ∧ leNat digits + 256 ^ significant.length * carry' = 58 * leNat significant + carry := by
  induction significant generalizing carry with
  | nil => exact ⟨[], carry, rfl, rfl, hcarry, by simp [leNat]⟩
  | cons digit significant ih =>
    have hdigit : digit.toNat < 256 := digit.toNat_lt
    obtain ⟨digits, carry', hrest, hlength, hlt, hvalue⟩ := @ih ((digit.toNat * 58 + carry) / 256) (by omega)
    refine ⟨UInt8.ofNat (digit.toNat * 58 + carry) :: digits, carry', ?_, by rw [List.length_cons, hlength]; rfl, hlt, ?_⟩
    · rw [expandDigits, require_of _ (by omega), except_ok_bind, require_of _ (by omega), except_ok_bind]
      dsimp only
      rw [hrest]
      rfl
    · have hlow : (UInt8.ofNat (digit.toNat * 58 + carry)).toNat = (digit.toNat * 58 + carry) % 256 := by simp
      rw [leNat, leNat, hlow, List.length_cons, pow_succ]
      have hsplit := Nat.div_add_mod (digit.toNat * 58 + carry) 256
      calc (digit.toNat * 58 + carry) % 256 + 256 * leNat digits + 256 ^ significant.length * 256 * carry'
          = (digit.toNat * 58 + carry) % 256 + 256 * (leNat digits + 256 ^ significant.length * carry') := by ring
        _ = (digit.toNat * 58 + carry) % 256 + 256 * (58 * leNat significant + (digit.toNat * 58 + carry) / 256) := by
          rw [hvalue]
        _ = 58 * (digit.toNat + 256 * leNat significant) + carry := by omega

section
variable {z bound : ℕ}

/-- A carry below 58 is pushed as one byte. -/
theorem pushCarry_of_lt {significant : Bytes} {carry : ℕ} (hcarry : carry < 58) (hpos : carry ≠ 0)
    (hfits : z + significant.length + 1 < USIZE_LIMIT) : pushCarry z bound significant carry =
      if z + significant.length + 1 ≤ bound then .ok (significant ++ [UInt8.ofNat carry])
      else .error .decodedLengthExceeded := by
  have hnone : carry / 256 = 0 := Nat.div_eq_of_lt (by omega)
  have hdone : pushCarry z bound (significant ++ [UInt8.ofNat carry]) (carry / 256) =
      .ok (significant ++ [UInt8.ofNat carry]) := by rw [hnone, pushCarry, if_pos rfl]
  rw [pushCarry, if_neg hpos, require_of _ ⟨by omega, hfits⟩, except_ok_bind, hdone]
  by_cases hle : z + significant.length + 1 ≤ bound
  · rw [require_of _ hle, if_pos hle]
    rfl
  · rw [require, if_neg hle, if_neg hle]
    rfl

/-- One digit takes the shortest image of `v` to that of `58 v + d`, unless it would outgrow the bound. -/
theorem base58Step_leMin {v d : ℕ} {byte : UInt8} (hbound : 2 * bound + 1 < USIZE_LIMIT) (hz : z + byteLen v ≤ bound)
    (hvalue : base58Value byte = some d) : base58Step z bound (leMin v) byte =
      if z + byteLen (58 * v + d) ≤ bound then .ok (leMin (58 * v + d)) else .error .decodedLengthExceeded := by
  obtain ⟨hd, -⟩ := base58Value_eq_some.mp hvalue
  obtain ⟨digits, carry, hexpand, hlength, hcarry, hsum⟩ := expandDigits_ok (leMin v) hd
  rw [length_leMin] at hlength hsum
  rw [leNat_leMin] at hsum
  have hdigits : leNat digits < 256 ^ byteLen v := by
    rw [← hlength]
    exact leNat_lt digits
  rw [base58Step, hvalue]
  change expandDigits (leMin v) d >>= (fun p => pushCarry z bound p.1 p.2) = _
  rw [hexpand, except_ok_bind]
  by_cases hpos : carry = 0
  · rw [hpos, Nat.mul_zero, Nat.add_zero] at hsum
    have hle : byteLen (58 * v + d) ≤ byteLen v := byteLen_le_iff.mpr (by rw [← hsum]; exact hdigits)
    have hge : byteLen v ≤ byteLen (58 * v + d) := byteLen_mono (by omega)
    have hsame : byteLen (58 * v + d) = byteLen v := le_antisymm hle hge
    rw [hpos, pushCarry, if_pos rfl, hsame, if_pos hz]
    exact congrArg Except.ok (eq_leMin hsum (by rw [hlength, hsame]))
  · have hgrow : byteLen (58 * v + d) = byteLen v + 1 := by
      apply le_antisymm
      · rw [byteLen_le_iff, pow_succ, ← hsum]
        calc leNat digits + 256 ^ byteLen v * carry < 256 ^ byteLen v + 256 ^ byteLen v * carry := by omega
          _ = 256 ^ byteLen v * (carry + 1) := by ring
          _ ≤ 256 ^ byteLen v * 256 := Nat.mul_le_mul_left _ (by omega)
      · apply lt_byteLen_iff.mpr
        rw [← hsum]
        calc 256 ^ byteLen v ≤ 256 ^ byteLen v * carry := Nat.le_mul_of_pos_right _ (Nat.pos_of_ne_zero hpos)
          _ ≤ leNat digits + 256 ^ byteLen v * carry := Nat.le_add_left _ _
    have hpush : digits ++ [UInt8.ofNat carry] = leMin (58 * v + d) := by
      apply eq_leMin
      · have hbyte : (UInt8.ofNat carry).toNat = carry := by
          rw [UInt8.toNat_ofNat']
          exact Nat.mod_eq_of_lt (by omega)
        rw [leNat_append, hlength, leNat, leNat, hbyte, Nat.mul_zero, Nat.add_zero, hsum]
      · rw [List.length_append, hlength, hgrow, List.length_singleton]
    rw [pushCarry_of_lt hcarry hpos (by rw [hlength]; omega), hlength, hpush, hgrow, Nat.add_assoc]

/-- The digits after `v` are read exactly when they are all in the alphabet and the number fits the bound. -/
theorem base58_foldlM {v : ℕ} {text significant : Bytes} (hbound : 2 * bound + 1 < USIZE_LIMIT)
    (hz : z + byteLen v ≤ bound) : text.foldlM (base58Step z bound) (leMin v) = .ok significant ↔
      ∃ ds : List ℕ, (∀ d ∈ ds, d < 58) ∧ text = ds.map base58Char ∧ z + byteLen (hornerDigits 58 v ds) ≤ bound ∧
        leMin (hornerDigits 58 v ds) = significant := by
  induction text generalizing v with
  | nil =>
    rw [List.foldlM_nil, except_pure_eq_ok]
    constructor
    · rintro rfl
      exact ⟨[], fun d hd => absurd hd List.not_mem_nil, rfl, hz, rfl⟩
    · rintro ⟨ds, -, hds, -, hvalue⟩
      rw [List.map_eq_nil_iff.mp hds.symm] at hvalue
      exact hvalue
  | cons byte text ih =>
    rw [List.foldlM_cons, except_bind_eq_ok]
    constructor
    · rintro ⟨next, hstep, hrest⟩
      cases hvalue : base58Value byte with
      | none =>
        rw [base58Step, hvalue] at hstep
        cases hstep
      | some d =>
        obtain ⟨hd, hbyte⟩ := base58Value_eq_some.mp hvalue
        rw [base58Step_leMin hbound hz hvalue] at hstep
        split_ifs at hstep with hfits
        rw [← Except.ok.inj hstep, ih hfits] at hrest
        obtain ⟨ds, hlt, rfl, hlen, hdone⟩ := hrest
        exact ⟨d :: ds, List.forall_mem_cons.mpr ⟨hd, hlt⟩, by rw [List.map_cons, hbyte], hlen, hdone⟩
    · rintro ⟨ds, hlt, hds, hlen, hdone⟩
      cases ds with
      | nil => cases hds
      | cons d ds =>
        obtain ⟨hd, hlt⟩ := List.forall_mem_cons.mp hlt
        obtain ⟨rfl, rfl⟩ := List.cons.inj hds
        have hfits : z + byteLen (58 * v + d) ≤ bound :=
          le_trans (Nat.add_le_add_left (byteLen_mono (le_hornerDigits (by omega) _ ds)) z) hlen
        refine ⟨leMin (58 * v + d), ?_, (ih hfits).mpr ⟨ds, hlt, rfl, hlen, hdone⟩⟩
        rw [base58Step_leMin hbound hz (base58Value_eq_some.mpr ⟨hd, rfl⟩), if_pos hfits]

end

/-! ### Base58 strings -/

/-- `z` leading zero bytes and the shortest big-endian image of `v`. -/
def base58Bytes (z v : ℕ) : Bytes := List.replicate z 0 ++ (leMin v).reverse

/-- `z` leading ones and the base-58 digits of `v`. -/
def base58Text (z v : ℕ) : Bytes := List.replicate z 49 ++ (Nat.digits 58 v).reverse.map base58Char

theorem takeWhile_replicate {α : Type} [BEq α] [LawfulBEq α] (n : ℕ) (a : α) {rest : List α} (h : rest.head? ≠ some a) :
    (List.replicate n a ++ rest).takeWhile (· == a) = List.replicate n a := by
  induction n with
  | zero =>
    cases rest with
    | nil => rfl
    | cons b rest =>
      have hb : (b == a) = false := beq_false_of_ne fun hba => h (by rw [hba]; rfl)
      rw [List.replicate_zero, List.nil_append, List.takeWhile_cons_of_neg (by rw [hb]; exact Bool.false_ne_true)]
  | succ n ih => rw [List.replicate_succ, List.cons_append, @List.takeWhile_cons_of_pos _ (fun x => x == a) a _ (beq_self_eq_true a), ih]

theorem takeWhile_eq_replicate {α : Type} [BEq α] [LawfulBEq α] (a : α) (l : List α) :
    l.takeWhile (· == a) = List.replicate (l.takeWhile (· == a)).length a := by
  apply List.eq_replicate_of_mem
  intro b hb
  exact eq_of_beq (@List.mem_takeWhile_imp _ (fun x => x == a) l b hb)

theorem head?_drop_takeWhile {α : Type} [BEq α] [LawfulBEq α] (a : α) (l : List α) :
    (l.drop (l.takeWhile (· == a)).length).head? ≠ some a := by
  induction l with
  | nil => simp
  | cons b l ih =>
    by_cases hb : b = a
    · rw [List.takeWhile_cons_of_pos (by rw [hb]; exact beq_self_eq_true a), List.length_cons, List.drop_succ_cons]
      exact ih
    · rw [List.takeWhile_cons_of_neg (by rw [beq_false_of_ne hb]; exact Bool.false_ne_true), List.length_nil, List.drop_zero]
      exact fun h => hb (Option.some.inj h)

theorem base58Encode_bytes (z v : ℕ) : base58Encode (base58Bytes z v) = base58Text z v := by
  have hhead : (leMin v).reverse.head? ≠ some 0 := by
    rw [List.head?_reverse]
    exact getLast?_leMin v
  have hvalue : leNat (base58Bytes z v).reverse = v := by
    rw [base58Bytes, List.reverse_append, List.reverse_reverse, List.reverse_replicate, leNat_append, leNat_leMin,
      leNat_replicate_zero, Nat.mul_zero, Nat.add_zero]
  rw [base58Encode, hvalue, base58Bytes, takeWhile_replicate z 0 hhead, List.length_replicate, base58Text]

/-- Every byte string is some number of zero bytes before a shortest image. -/
theorem exists_base58Bytes (bytes : Bytes) : ∃ z v, bytes = base58Bytes z v := by
  refine ⟨(bytes.takeWhile (· == 0)).length, leNat (bytes.drop (bytes.takeWhile (· == 0)).length).reverse, ?_⟩
  have hlast : (bytes.drop (bytes.takeWhile (· == 0)).length).reverse.getLast? ≠ some 0 := by
    rw [List.getLast?_reverse]
    exact head?_drop_takeWhile 0 bytes
  rw [base58Bytes, leMin_leNat hlast, List.reverse_reverse, ← takeWhile_eq_replicate]
  conv_lhs => rw [← List.take_append_drop (bytes.takeWhile (· == 0)).length bytes]
  rw [← List.prefix_iff_eq_take.mp (List.takeWhile_prefix _)]

theorem length_base58Bytes (z v : ℕ) : (base58Bytes z v).length = z + byteLen v := by
  rw [base58Bytes, List.length_append, List.length_replicate, List.length_reverse, length_leMin]

/-- 138 base-58 digits say more than 100 bytes, so the bound on the encoded length refuses no encoding. -/
theorem length_base58Text_le {z v bound : ℕ} (h : z + byteLen v ≤ bound) :
    (base58Text z v).length ≤ bound * 138 / 100 + 2 := by
  have hdigits : (Nat.digits 58 v).length ≤ 138 * byteLen v / 100 + 1 :=
    length_digits_le (by omega) (by omega) (by norm_num) (byteLen_le_iff.mp le_rfl)
  rw [base58Text, List.length_append, List.length_replicate, List.length_map, List.length_reverse]
  omega

theorem head?_base58Digits (v : ℕ) : ((Nat.digits 58 v).reverse.map base58Char).head? ≠ some 49 := by
  intro hhead
  rw [List.head?_map, Option.map_eq_some_iff] at hhead
  obtain ⟨d, hd, hchar⟩ := hhead
  have hlt : d < 58 := Nat.digits_lt_base (by omega) (List.mem_reverse.mp (List.mem_of_head? hd))
  rw [(base58Char_eq_one hlt).mp hchar] at hd
  exact head?_reverse_digits v hd

theorem base58MaxEncoded_eq_ok {bound n : ℕ} :
    base58MaxEncoded bound = .ok n ↔ bound * 138 < USIZE_LIMIT ∧ bound * 138 / 100 + 2 = n := by
  simp only [base58MaxEncoded, except_bind_eq_ok, require_eq_ok, except_pure_eq_ok, exists_const]
  constructor
  · rintro ⟨hfits, -, heq⟩
    exact ⟨hfits, heq⟩
  · rintro ⟨hfits, heq⟩
    refine ⟨hfits, ?_, heq⟩
    simp only [USIZE_LIMIT] at hfits ⊢
    omega

/-- What the base58 decoder accepts, byte by byte. -/
theorem decodeBase58_eq_ok {input : String} {bound : ℕ} {bytes : Bytes} :
    decodeBase58BoundedV1 input bound = .ok bytes ↔
      bound * 138 < USIZE_LIMIT ∧ bytes.length ≤ bound ∧ asBytes input = base58Encode bytes := by
  simp only [decodeBase58BoundedV1, except_bind_eq_ok, require_eq_ok, except_pure_eq_ok, base58MaxEncoded_eq_ok]
  constructor
  · rintro ⟨_, ⟨hfits, rfl⟩, -, -, -, hz, significant, hfold, -, -, -, -, -, -, rfl⟩
    have hdouble : 2 * bound + 1 < USIZE_LIMIT := by
      simp only [USIZE_LIMIT] at hfits ⊢
      omega
    rw [← leMin_zero, base58_foldlM hdouble (by rw [byteLen_zero]; exact hz)] at hfold
    obtain ⟨ds, hlt, htext, hlen, rfl⟩ := hfold
    have hhead : ds.head? ≠ some 0 := by
      intro hzero
      apply head?_drop_takeWhile 49 (asBytes input)
      rw [htext, List.head?_map, hzero]
      rfl
    have hdigits := digits_hornerDigits (by omega) hlt hhead
    change _ ∧ (base58Bytes _ _).length ≤ _ ∧ _ = base58Encode (base58Bytes _ _)
    refine ⟨hfits, by rw [length_base58Bytes]; exact hlen, ?_⟩
    rw [base58Encode_bytes, base58Text, hdigits, List.reverse_reverse, ← htext, ← takeWhile_eq_replicate]
    conv_lhs => rw [← List.take_append_drop ((asBytes input).takeWhile (· == 49)).length (asBytes input)]
    rw [← List.prefix_iff_eq_take.mp (List.takeWhile_prefix _)]
  · rintro ⟨hfits, hlen, htext⟩
    obtain ⟨z, v, rfl⟩ := exists_base58Bytes bytes
    rw [length_base58Bytes] at hlen
    rw [base58Encode_bytes] at htext
    have hdouble : 2 * bound + 1 < USIZE_LIMIT := by
      simp only [USIZE_LIMIT] at hfits ⊢
      omega
    have hones : (asBytes input).takeWhile (· == 49) = List.replicate z 49 := by
      rw [htext, base58Text, takeWhile_replicate z 49 (head?_base58Digits v)]
    have hrest : (asBytes input).drop z = (Nat.digits 58 v).reverse.map base58Char := by
      rw [htext, base58Text, List.drop_left' List.length_replicate]
    rw [hones, List.length_replicate, hrest]
    have hfold := (@base58_foldlM z bound 0 _ _ hdouble (by rw [byteLen_zero]; omega)).mpr
      ⟨(Nat.digits 58 v).reverse, fun d hd => Nat.digits_lt_base (by omega) (List.mem_reverse.mp hd), rfl,
        by rw [hornerDigits_digits]; exact hlen, rfl⟩
    rw [hornerDigits_digits, leMin_zero] at hfold
    refine ⟨_, ⟨hfits, rfl⟩, (), by rw [htext]; exact length_base58Text_le hlen, (), by omega, leMin v, hfold, (),
      getLast?_leMin v, (), by rw [length_leMin]; omega, (), by rw [length_leMin]; exact hlen, rfl⟩

theorem bind_eq_error {ε α β : Type} {x : Except ε α} {f : α → Except ε β} {e : ε} :
    (x >>= f) = .error e ↔ x = .error e ∨ ∃ a, x = .ok a ∧ f a = .error e := by
  cases x with
  | error e' =>
    change (Except.error e' : Except ε β) = .error e ↔ _
    simp
  | ok a =>
    change f a = .error e ↔ _
    simp

theorem require_eq_error {ε : Type} {p : Prop} [Decidable p] {e e' : ε} : require p e' = .error e ↔ ¬ p ∧ e' = e := by
  rw [require]
  split_ifs with hp <;> simp [hp]

/-- With room for the lengths, no digit makes the checked arithmetic fail. -/
theorem base58_foldlM_ne_overflow {z bound v : ℕ} {text : Bytes} (hbound : 2 * bound + 1 < USIZE_LIMIT)
    (hz : z + byteLen v ≤ bound) : text.foldlM (base58Step z bound) (leMin v) ≠ .error .lengthOverflow := by
  induction text generalizing v with
  | nil => exact nofun
  | cons byte text ih =>
    rw [List.foldlM_cons]
    intro hrun
    cases hvalue : base58Value byte with
    | none =>
      rw [base58Step, hvalue] at hrun
      cases hrun
    | some d =>
      rw [base58Step_leMin hbound hz hvalue] at hrun
      by_cases hfits : z + byteLen (58 * v + d) ≤ bound
      · rw [if_pos hfits, except_ok_bind] at hrun
        exact ih hfits hrun
      · rw [if_neg hfits] at hrun
        cases hrun

/-- The checked arithmetic of the base58 decoder fails for a bound that is too large, and for nothing else. -/
theorem decodeBase58_overflow {input : String} {bound : ℕ} :
    decodeBase58BoundedV1 input bound = .error .lengthOverflow ↔ USIZE_LIMIT ≤ bound * 138 := by
  constructor
  · intro h
    by_contra hsmall
    have hfits : bound * 138 < USIZE_LIMIT := by omega
    have hdouble : 2 * bound + 1 < USIZE_LIMIT := by
      simp only [USIZE_LIMIT] at hfits ⊢
      omega
    simp only [decodeBase58BoundedV1, bind_eq_error, require_eq_error, base58MaxEncoded_eq_ok.mpr ⟨hfits, rfl⟩,
      reduceCtorEq, and_false, false_or, require_eq_ok, Except.ok.injEq, exists_eq_left', exists_const] at h
    obtain ⟨-, hz, hfold | ⟨significant, hfold, -, ⟨hlong, -⟩ | ⟨-, -, herror⟩⟩⟩ := h
    · rw [← leMin_zero] at hfold
      exact base58_foldlM_ne_overflow hdouble (by rw [byteLen_zero]; exact hz) hfold
    · rw [← leMin_zero, base58_foldlM hdouble (by rw [byteLen_zero]; exact hz)] at hfold
      obtain ⟨ds, -, -, hlen, rfl⟩ := hfold
      rw [length_leMin] at hlong
      omega
    · cases herror
  · intro hlarge
    have hmax : base58MaxEncoded bound = .error .lengthOverflow := by
      rw [base58MaxEncoded, require, if_neg (by omega)]
      rfl
    rw [decodeBase58BoundedV1, hmax]
    rfl

/-! ### Reading base64 -/

@[mk_iff]
structure Base64Table : Prop where
  value : ∀ n : Fin 256, ((base64Value (UInt8.ofNat n)).all fun v =>
    decide (v.toNat < 64 ∧ UInt8.ofNat n = base64Char v.toNat)) = true
  char : ∀ d : Fin 64, base64Value (base64Char d) = some (UInt8.ofNat d)
  pad : ∀ d : Fin 64, base64Char d ≠ 61
  ascii : ∀ d : Fin 64, (base64Char d).toNat < 128

theorem base64_table : Base64Table := by
  rw [base64Table_iff]
  decide +kernel

theorem base64Value_eq_some {byte v : UInt8} : base64Value byte = some v ↔ v.toNat < 64 ∧ byte = base64Char v.toNat := by
  constructor
  · intro h
    have hbyte : UInt8.ofNat byte.toNat = byte := UInt8.ofNat_toNat
    have hvalue := base64_table.value ⟨byte.toNat, byte.toNat_lt⟩
    rw [hbyte, h] at hvalue
    exact of_decide_eq_true hvalue
  · rintro ⟨hv, rfl⟩
    rw [base64_table.char ⟨v.toNat, hv⟩, UInt8.ofNat_toNat]

theorem base64Char_ne_pad {d : ℕ} (hd : d < 64) : base64Char d ≠ 61 := base64_table.pad ⟨d, hd⟩

section
variable {a b c d : UInt8}

theorem toNat_firstByte (ha : a.toNat < 64) (hb : b.toNat < 64) :
    ((a <<< 2) ||| (b >>> 4)).toNat = a.toNat * 4 + b.toNat / 16 := by
  have hleft : (a <<< 2).toNat = a.toNat <<< 2 := by
    rw [UInt8.toNat_shiftLeft, Nat.shiftLeft_eq, Nat.shiftLeft_eq]
    change a.toNat * 4 % 256 = a.toNat * 4
    omega
  have hright : (b >>> 4).toNat = b.toNat / 16 := by
    rw [UInt8.toNat_shiftRight, Nat.shiftRight_eq_div_pow]
    rfl
  rw [UInt8.toNat_or, hleft, hright, ← Nat.shiftLeft_add_eq_or_of_lt (by omega), Nat.shiftLeft_eq]

theorem toNat_secondByte (hb : b.toNat < 64) (hc : c.toNat < 64) :
    ((b <<< 4) ||| (c >>> 2)).toNat = b.toNat % 16 * 16 + c.toNat / 4 := by
  have hleft : (b <<< 4).toNat = (b.toNat % 16) <<< 4 := by
    rw [UInt8.toNat_shiftLeft, Nat.shiftLeft_eq, Nat.shiftLeft_eq]
    change b.toNat * 16 % 256 = b.toNat % 16 * 16
    omega
  have hright : (c >>> 2).toNat = c.toNat / 4 := by
    rw [UInt8.toNat_shiftRight, Nat.shiftRight_eq_div_pow]
    rfl
  rw [UInt8.toNat_or, hleft, hright, ← Nat.shiftLeft_add_eq_or_of_lt (by omega), Nat.shiftLeft_eq]

theorem toNat_thirdByte (hc : c.toNat < 64) (hd : d.toNat < 64) :
    ((c <<< 6) ||| d).toNat = c.toNat % 4 * 64 + d.toNat := by
  have hleft : (c <<< 6).toNat = (c.toNat % 4) <<< 6 := by
    rw [UInt8.toNat_shiftLeft, Nat.shiftLeft_eq, Nat.shiftLeft_eq]
    change c.toNat * 64 % 256 = c.toNat % 4 * 64
    omega
  rw [UInt8.toNat_or, hleft, ← Nat.shiftLeft_add_eq_or_of_lt (by omega), Nat.shiftLeft_eq]

theorem and_fifteen_eq_zero : b &&& 0x0f = 0 ↔ b.toNat % 16 = 0 := by
  have hnat : (b &&& 0x0f).toNat = b.toNat % 16 := by
    rw [UInt8.toNat_and]
    exact Nat.and_two_pow_sub_one_eq_mod b.toNat 4
  rw [← UInt8.toNat_inj, hnat]
  rfl

theorem and_three_eq_zero : c &&& 0x03 = 0 ↔ c.toNat % 4 = 0 := by
  have hnat : (c &&& 0x03).toNat = c.toNat % 4 := by
    rw [UInt8.toNat_and]
    exact Nat.and_two_pow_sub_one_eq_mod c.toNat 2
  rw [← UInt8.toNat_inj, hnat]
  rfl

end

def Chunk.text (chunk : Chunk) : Bytes := [chunk.first, chunk.second, chunk.third, chunk.fourth]

theorem base64Value_char {n : ℕ} (hn : n < 64) : base64Value (base64Char n) = some (UInt8.ofNat n) := by
  have hnat : (UInt8.ofNat n).toNat = n := by
    rw [UInt8.toNat_ofNat']
    exact Nat.mod_eq_of_lt (by omega)
  exact base64Value_eq_some.mpr ⟨by rw [hnat]; exact hn, by rw [hnat]⟩

theorem toNat_ofNat_lt {n : ℕ} (hn : n < 64) : (UInt8.ofNat n).toNat = n := by
  rw [UInt8.toNat_ofNat']
  exact Nat.mod_eq_of_lt (by omega)

section
variable {bound : ℕ} {isLast : Bool} {output out : Bytes} {chunk : Chunk}

/-- A chunk is read as the group of three bytes, or at the end one or two, that it is the encoding of. -/
theorem base64Chunk_sound (h : base64Chunk bound isLast output chunk = .ok out) :
    ∃ group : Bytes, (group.length = 3 ∨ (isLast = true ∧ 0 < group.length ∧ group.length ≤ 3)) ∧
      chunk.text = base64Encode group ∧ out = output ++ group ∧ out.length ≤ bound := by
  simp only [base64Chunk, except_bind_eq_ok, okOr_eq_ok, require_eq_ok, except_pure_eq_ok] at h
  obtain ⟨a, ha, b, hb, padding, hpadding, -, hlast, c, hc, d, hd, -, hpadTwo, -, hpadOne, -, -, -, -, -, hlen, rfl⟩ := h
  obtain ⟨ha, hfirst⟩ := base64Value_eq_some.mp ha
  obtain ⟨hb, hsecond⟩ := base64Value_eq_some.mp hb
  rw [base64Padding] at hpadding
  split_ifs at hpadding with htwo hone hmisplaced
  · obtain rfl := Except.ok.inj hpadding
    have hzero : b.toNat % 16 = 0 := and_fifteen_eq_zero.mp (by simpa using hpadTwo)
    refine ⟨[(a <<< 2) ||| (b >>> 4)], .inr ⟨by simpa using hlast, by simp, by simp⟩, ?_, by simp, by simpa using hlen⟩
    rw [Chunk.text, base64Encode, toNat_firstByte ha hb, hfirst, hsecond, htwo.1, htwo.2,
      show (a.toNat * 4 + b.toNat / 16) / 4 = a.toNat by omega,
      show (a.toNat * 4 + b.toNat / 16) % 4 * 16 = b.toNat by omega]
  · obtain rfl := Except.ok.inj hpadding
    rw [base64Digit, if_pos (by omega), okOr_eq_ok] at hc
    obtain ⟨hc, hthird⟩ := base64Value_eq_some.mp hc
    have hzero : c.toNat % 4 = 0 := and_three_eq_zero.mp (by simpa using hpadOne)
    refine ⟨[(a <<< 2) ||| (b >>> 4), (b <<< 4) ||| (c >>> 2)], .inr ⟨by simpa using hlast, by simp, by simp⟩, ?_, by simp,
      by simpa using hlen⟩
    rw [Chunk.text, base64Encode, toNat_firstByte ha hb, toNat_secondByte hb hc, hfirst, hsecond, hthird, hone,
      show (a.toNat * 4 + b.toNat / 16) / 4 = a.toNat by omega,
      show (a.toNat * 4 + b.toNat / 16) % 4 * 16 + (b.toNat % 16 * 16 + c.toNat / 4) / 16 = b.toNat by omega,
      show (b.toNat % 16 * 16 + c.toNat / 4) % 16 * 4 = c.toNat by omega]
  · obtain rfl := Except.ok.inj hpadding
    rw [base64Digit, if_pos (by omega), okOr_eq_ok] at hc
    rw [base64Digit, if_pos rfl, okOr_eq_ok] at hd
    obtain ⟨hc, hthird⟩ := base64Value_eq_some.mp hc
    obtain ⟨hd, hfourth⟩ := base64Value_eq_some.mp hd
    refine ⟨[(a <<< 2) ||| (b >>> 4), (b <<< 4) ||| (c >>> 2), (c <<< 6) ||| d], .inl rfl, ?_, by simp, by simpa using hlen⟩
    rw [Chunk.text, base64Encode, base64Encode, toNat_firstByte ha hb, toNat_secondByte hb hc, toNat_thirdByte hc hd, hfirst,
      hsecond, hthird, hfourth, show (a.toNat * 4 + b.toNat / 16) / 4 = a.toNat by omega,
      show (a.toNat * 4 + b.toNat / 16) % 4 * 16 + (b.toNat % 16 * 16 + c.toNat / 4) / 16 = b.toNat by omega,
      show (b.toNat % 16 * 16 + c.toNat / 4) % 16 * 4 + (c.toNat % 4 * 64 + d.toNat) / 64 = c.toNat by omega,
      show (c.toNat % 4 * 64 + d.toNat) % 64 = d.toNat by omega]

theorem base64Chunk_three {x y z : UInt8} (hbound : bound < USIZE_LIMIT) (htext : chunk.text = base64Encode [x, y, z])
    (hlen : output.length + 3 ≤ bound) : base64Chunk bound isLast output chunk = .ok (output ++ [x, y, z]) := by
  have hx : x.toNat < 256 := x.toNat_lt
  have hy : y.toNat < 256 := y.toNat_lt
  have hz : z.toNat < 256 := z.toNat_lt
  simp only [Chunk.text, base64Encode, List.cons.injEq, and_true] at htext
  obtain ⟨hfirst, hsecond, hthird, hfourth⟩ := htext
  have ha : x.toNat / 4 < 64 := by omega
  have hb : x.toNat % 4 * 16 + y.toNat / 16 < 64 := by omega
  have hc : y.toNat % 16 * 4 + z.toNat / 64 < 64 := by omega
  have hd : z.toNat % 64 < 64 := by omega
  have hpadding : base64Padding chunk.third chunk.fourth = .ok 0 := by
    rw [base64Padding, hthird, hfourth, if_neg fun h => base64Char_ne_pad hc h.1, if_neg (base64Char_ne_pad hd),
      if_neg (base64Char_ne_pad hc)]
  simp only [base64Chunk, except_bind_eq_ok, okOr_eq_ok, require_eq_ok, except_pure_eq_ok]
  refine ⟨_, by rw [hfirst]; exact base64Value_char ha, _, by rw [hsecond]; exact base64Value_char hb, 0, hpadding, (),
    .inl rfl, _, by rw [base64Digit, if_pos (by omega), okOr_eq_ok, hthird]; exact base64Value_char hc, _,
    by rw [base64Digit, if_pos rfl, okOr_eq_ok, hfourth]; exact base64Value_char hd, (), by simp, (), by simp, (), by simp,
    (), by omega, (), hlen, ?_⟩
  rw [if_pos (by omega), if_pos rfl, List.append_assoc, List.append_assoc]
  congr 1
  simp only [List.cons_append, List.nil_append, List.cons.injEq, and_true]
  refine ⟨UInt8.toNat.inj ?_, UInt8.toNat.inj ?_, UInt8.toNat.inj ?_⟩
  · rw [toNat_firstByte (by rw [toNat_ofNat_lt ha]; exact ha) (by rw [toNat_ofNat_lt hb]; exact hb), toNat_ofNat_lt ha,
      toNat_ofNat_lt hb]
    omega
  · rw [toNat_secondByte (by rw [toNat_ofNat_lt hb]; exact hb) (by rw [toNat_ofNat_lt hc]; exact hc), toNat_ofNat_lt hb,
      toNat_ofNat_lt hc]
    omega
  · rw [toNat_thirdByte (by rw [toNat_ofNat_lt hc]; exact hc) (by rw [toNat_ofNat_lt hd]; exact hd), toNat_ofNat_lt hc,
      toNat_ofNat_lt hd]
    omega

theorem base64Chunk_two {x y : UInt8} (hbound : bound < USIZE_LIMIT) (htext : chunk.text = base64Encode [x, y])
    (hlen : output.length + 2 ≤ bound) : base64Chunk bound true output chunk = .ok (output ++ [x, y]) := by
  have hx : x.toNat < 256 := x.toNat_lt
  have hy : y.toNat < 256 := y.toNat_lt
  simp only [Chunk.text, base64Encode, List.cons.injEq, and_true] at htext
  obtain ⟨hfirst, hsecond, hthird, hfourth⟩ := htext
  have ha : x.toNat / 4 < 64 := by omega
  have hb : x.toNat % 4 * 16 + y.toNat / 16 < 64 := by omega
  have hc : y.toNat % 16 * 4 < 64 := by omega
  have hpadding : base64Padding chunk.third chunk.fourth = .ok 1 := by
    rw [base64Padding, hthird, hfourth, if_neg fun h => base64Char_ne_pad hc h.1, if_pos rfl]
  simp only [base64Chunk, except_bind_eq_ok, okOr_eq_ok, require_eq_ok, except_pure_eq_ok]
  refine ⟨_, by rw [hfirst]; exact base64Value_char ha, _, by rw [hsecond]; exact base64Value_char hb, 1, hpadding, (),
    .inr trivial, _, by rw [base64Digit, if_pos (by omega), okOr_eq_ok, hthird]; exact base64Value_char hc, 0,
    by rw [base64Digit, if_neg (by omega)], (), by simp, (), ?_, (), by simp, (), by omega, (), hlen, ?_⟩
  · rintro ⟨-, hbits⟩
    apply hbits
    rw [and_three_eq_zero, toNat_ofNat_lt hc]
    omega
  rw [if_pos (by omega), if_neg (by omega), List.append_nil, List.append_assoc]
  congr 1
  simp only [List.cons_append, List.nil_append, List.cons.injEq, and_true]
  refine ⟨UInt8.toNat.inj ?_, UInt8.toNat.inj ?_⟩
  · rw [toNat_firstByte (by rw [toNat_ofNat_lt ha]; exact ha) (by rw [toNat_ofNat_lt hb]; exact hb), toNat_ofNat_lt ha,
      toNat_ofNat_lt hb]
    omega
  · rw [toNat_secondByte (by rw [toNat_ofNat_lt hb]; exact hb) (by rw [toNat_ofNat_lt hc]; exact hc), toNat_ofNat_lt hb,
      toNat_ofNat_lt hc]
    omega

theorem base64Chunk_one {x : UInt8} (hbound : bound < USIZE_LIMIT) (htext : chunk.text = base64Encode [x])
    (hlen : output.length + 1 ≤ bound) : base64Chunk bound true output chunk = .ok (output ++ [x]) := by
  have hx : x.toNat < 256 := x.toNat_lt
  simp only [Chunk.text, base64Encode, List.cons.injEq, and_true] at htext
  obtain ⟨hfirst, hsecond, hthird, hfourth⟩ := htext
  have ha : x.toNat / 4 < 64 := by omega
  have hb : x.toNat % 4 * 16 < 64 := by omega
  have hpadding : base64Padding chunk.third chunk.fourth = .ok 2 := by
    rw [base64Padding, hthird, hfourth, if_pos ⟨rfl, rfl⟩]
  simp only [base64Chunk, except_bind_eq_ok, okOr_eq_ok, require_eq_ok, except_pure_eq_ok]
  refine ⟨_, by rw [hfirst]; exact base64Value_char ha, _, by rw [hsecond]; exact base64Value_char hb, 2, hpadding, (),
    .inr trivial, 0, by rw [base64Digit, if_neg (by omega)], 0, by rw [base64Digit, if_neg (by omega)], (), ?_, (), by simp,
    (), by simp, (), by omega, (), hlen, ?_⟩
  · rintro ⟨-, hbits⟩
    apply hbits
    rw [and_fifteen_eq_zero, toNat_ofNat_lt hb]
    omega
  rw [if_neg (by omega), if_neg (by omega), List.append_nil, List.append_nil]
  congr 1
  simp only [List.cons.injEq, and_true]
  apply UInt8.toNat.inj
  rw [toNat_firstByte (by rw [toNat_ofNat_lt ha]; exact ha) (by rw [toNat_ofNat_lt hb]; exact hb), toNat_ofNat_lt ha,
    toNat_ofNat_lt hb]
  omega

end

theorem base64Encode_append {group : Bytes} (h : group.length = 3) (rest : Bytes) :
    base64Encode (group ++ rest) = base64Encode group ++ base64Encode rest := by
  match group, h with
  | [x, y, z], _ => rfl

theorem length_base64Encode (bytes : Bytes) : (base64Encode bytes).length = (bytes.length + 2) / 3 * 4 := by
  induction bytes using base64Encode.induct with
  | case1 => rfl
  | case2 x => simp [base64Encode]
  | case3 x y => simp [base64Encode]
  | case4 x y z rest ih =>
    rw [base64Encode]
    simp only [List.length_cons, ih]
    omega

/-- The chunks from some index on are read as the bytes they are the encoding of. -/
theorem base64Chunks_eq_ok {bound total index : ℕ} {chunks : List Chunk} {output out : Bytes} (hbound : bound < USIZE_LIMIT)
    (hindex : index + chunks.length = total) (hlen : output.length ≤ bound) :
    base64Chunks bound total index chunks output = .ok out ↔
      ∃ bytes, chunks.flatMap Chunk.text = base64Encode bytes ∧ out = output ++ bytes ∧ out.length ≤ bound := by
  induction chunks generalizing index output with
  | nil =>
    rw [base64Chunks, List.flatMap_nil]
    constructor
    · intro h
      obtain rfl := Except.ok.inj h
      exact ⟨[], rfl, (List.append_nil _).symm, hlen⟩
    · rintro ⟨bytes, htext, rfl, -⟩
      have hnil : bytes.length = 0 := by
        have hzero := congrArg List.length htext
        rw [List.length_nil, length_base64Encode] at hzero
        omega
      rw [List.eq_nil_of_length_eq_zero hnil, List.append_nil]
  | cons chunk chunks ih =>
    rw [List.length_cons] at hindex
    have hnext : index + 1 + chunks.length = total := by omega
    rw [base64Chunks, except_bind_eq_ok, List.flatMap_cons]
    constructor
    · rintro ⟨next, hchunk, hrest⟩
      obtain ⟨group, hgroup, htext, rfl, hfits⟩ := base64Chunk_sound hchunk
      rw [ih hnext hfits] at hrest
      obtain ⟨bytes, hbytes, rfl, hout⟩ := hrest
      refine ⟨group ++ bytes, ?_, List.append_assoc _ _ _, hout⟩
      rcases hgroup with hthree | ⟨hlast, -, -⟩
      · rw [base64Encode_append hthree, htext, hbytes]
      · -- the last chunk may hold fewer than three bytes, and nothing follows it
        have hdone : chunks = [] := List.eq_nil_of_length_eq_zero (by have := of_decide_eq_true hlast; omega)
        rw [hdone, List.flatMap_nil] at hbytes
        have hnil : bytes.length = 0 := by
          have hzero := congrArg List.length hbytes
          rw [List.length_nil, length_base64Encode] at hzero
          omega
        rw [hdone, List.eq_nil_of_length_eq_zero hnil, List.flatMap_nil, List.append_nil, List.append_nil, htext]
    · rintro ⟨bytes, htext, rfl, hout⟩
      rw [List.length_append] at hout
      have htextLength : (chunk.text ++ chunks.flatMap Chunk.text).length = 4 + (chunks.flatMap Chunk.text).length := by
        rw [List.length_append]
        rfl
      have hend : (base64Encode bytes).length = 4 → chunks = [] := by
        intro hfour
        rw [htext, hfour] at htextLength
        cases chunks with
        | nil => rfl
        | cons next chunks =>
          rw [List.flatMap_cons, List.length_append] at htextLength
          change 4 = 4 + (4 + _) at htextLength
          omega
      match bytes with
      | [] =>
        rw [htext] at htextLength
        change 0 = _ at htextLength
        omega
      | [x] =>
        obtain rfl := hend rfl
        rw [List.flatMap_nil, List.append_nil] at htext
        refine ⟨output ++ [x], ?_, rfl⟩
        rw [decide_eq_true (by simpa using hindex)]
        exact base64Chunk_one hbound htext hout
      | [x, y] =>
        obtain rfl := hend rfl
        rw [List.flatMap_nil, List.append_nil] at htext
        refine ⟨output ++ [x, y], ?_, rfl⟩
        rw [decide_eq_true (by simpa using hindex)]
        exact base64Chunk_two hbound htext hout
      | x :: y :: z :: rest =>
        have hsplit : chunk.text = base64Encode [x, y, z] ∧ chunks.flatMap Chunk.text = base64Encode rest := by
          rw [show x :: y :: z :: rest = [x, y, z] ++ rest from rfl, base64Encode_append rfl] at htext
          exact List.append_inj htext rfl
        rw [List.length_cons, List.length_cons, List.length_cons] at hout
        refine ⟨output ++ [x, y, z], base64Chunk_three hbound hsplit.1 (by omega), ?_⟩
        rw [ih hnext (by rw [List.length_append]; exact (by omega : output.length + 3 ≤ bound))]
        refine ⟨rest, hsplit.2, by rw [List.append_assoc]; rfl, ?_⟩
        simp only [List.length_append, List.length_cons]
        omega

theorem chunksExact_text (encoded : Bytes) (h : encoded.length % 4 = 0) :
    (chunksExact encoded).flatMap Chunk.text = encoded ∧ (chunksExact encoded).length = encoded.length / 4 := by
  induction encoded using chunksExact.induct with
  | case1 a b c d rest ih =>
    simp only [List.length_cons] at h
    obtain ⟨htext, hlength⟩ := ih (by omega)
    rw [chunksExact, List.flatMap_cons, htext, List.length_cons, hlength]
    refine ⟨rfl, ?_⟩
    simp only [List.length_cons]
    omega
  | case2 encoded hshort =>
    match encoded, hshort, h with
    | [], _, _ => exact ⟨rfl, rfl⟩
    | [_], _, h => cases h
    | [_, _], _, h => cases h
    | [_, _, _], _, h => cases h
    | a :: b :: c :: d :: rest, hshort, _ => exact absurd rfl (hshort a b c d rest)

def Base64BoundFits (bound : ℕ) : Prop := bound + 2 < USIZE_LIMIT ∧ (bound + 2) / 3 * 4 < USIZE_LIMIT

theorem base64MaxEncoded_eq_ok {bound n : ℕ} :
    base64MaxEncoded bound = .ok n ↔ Base64BoundFits bound ∧ (bound + 2) / 3 * 4 = n := by
  simp only [base64MaxEncoded, Base64BoundFits, except_bind_eq_ok, require_eq_ok, except_pure_eq_ok, exists_const, and_assoc]

/-- What the base64 decoder accepts. -/
theorem decodeBase64_eq_ok {input : String} {bound : ℕ} {bytes : Bytes} :
    decodeBase64StandardBoundedV1 input bound = .ok bytes ↔
      Base64BoundFits bound ∧ bytes.length ≤ bound ∧ asBytes input = base64Encode bytes := by
  simp only [decodeBase64StandardBoundedV1, except_bind_eq_ok, require_eq_ok, base64MaxEncoded_eq_ok]
  constructor
  · rintro ⟨-, hfour, _, ⟨hfits, rfl⟩, -, -, hchunks⟩
    obtain ⟨htext, hlength⟩ := chunksExact_text (asBytes input) hfour
    rw [base64Chunks_eq_ok (by have := hfits.1; omega) (by rw [hlength, Nat.zero_add]) (Nat.zero_le _), htext] at hchunks
    obtain ⟨bytes', hbytes, rfl, hlen⟩ := hchunks
    exact ⟨hfits, hlen, hbytes⟩
  · rintro ⟨hfits, hlen, hbytes⟩
    have hencoded : (asBytes input).length = (bytes.length + 2) / 3 * 4 := by rw [hbytes, length_base64Encode]
    have hfour : (asBytes input).length % 4 = 0 := by omega
    obtain ⟨htext, hlength⟩ := chunksExact_text (asBytes input) hfour
    refine ⟨(), hfour, _, ⟨hfits, rfl⟩, (), by omega, ?_⟩
    rw [base64Chunks_eq_ok (by have := hfits.1; omega) (by rw [hlength, Nat.zero_add]) (Nat.zero_le _), htext]
    exact ⟨bytes, hbytes, rfl, hlen⟩

/-- A check that reports another error, before something that does not report this one. -/
theorem bind_ne_error {ε α β : Type} {x : Except ε α} {f : α → Except ε β} {e : ε} (hx : x ≠ .error e)
    (hf : ∀ a, x = .ok a → f a ≠ .error e) : (x >>= f) ≠ .error e := by
  intro h
  rcases bind_eq_error.mp h with hfirst | ⟨a, ha, hrest⟩
  · exact hx hfirst
  · exact hf a ha hrest

theorem okOr_ne_error {ε α : Type} {x : Option α} {e e' : ε} (h : e' ≠ e) : okOr x e' ≠ .error e := by
  cases x with
  | none => exact fun heq => h (Except.error.inj heq)
  | some a => exact nofun

theorem require_ne_error {ε : Type} {p : Prop} [Decidable p] {e e' : ε} (h : e' ≠ e ∨ p) : require p e' ≠ .error e := by
  intro heq
  obtain ⟨hp, he⟩ := require_eq_error.mp heq
  exact h.elim (fun hne => hne he) hp

theorem base64Padding_le {third fourth : UInt8} {padding : ℕ} (h : base64Padding third fourth = .ok padding) :
    padding ≤ 2 := by
  rw [base64Padding] at h
  split_ifs at h
  · exact (Except.ok.inj h).symm.le
  · rw [← Except.ok.inj h]
    omega
  · rw [← Except.ok.inj h]
    omega

theorem base64Chunk_ne_overflow {bound : ℕ} {isLast : Bool} {output : Bytes} {chunk : Chunk}
    (hroom : output.length + 3 < USIZE_LIMIT) : base64Chunk bound isLast output chunk ≠ .error .lengthOverflow := by
  unfold base64Chunk
  refine bind_ne_error (okOr_ne_error nofun) fun a _ => bind_ne_error (okOr_ne_error nofun) fun b _ => ?_
  refine bind_ne_error ?_ fun padding hpadding => ?_
  · rw [base64Padding]
    split_ifs <;> exact nofun
  have hle := base64Padding_le hpadding
  have hdigit : ∀ (present : Prop) [Decidable present] (byte : UInt8),
      base64Digit present byte ≠ .error .lengthOverflow := by
    intro present _ byte
    rw [base64Digit]
    split_ifs
    · exact okOr_ne_error nofun
    · exact nofun
  refine bind_ne_error (require_ne_error (.inl nofun)) fun _ _ => bind_ne_error (hdigit _ _) fun c _ =>
    bind_ne_error (hdigit _ _) fun d _ => bind_ne_error (require_ne_error (.inl nofun)) fun _ _ =>
    bind_ne_error (require_ne_error (.inl nofun)) fun _ _ => ?_
  refine bind_ne_error (require_ne_error (.inr (by omega))) fun _ _ =>
    bind_ne_error (require_ne_error (.inr (by omega))) fun _ _ =>
    bind_ne_error (require_ne_error (.inl nofun)) fun _ _ => nofun

theorem base64Chunks_ne_overflow {bound total index : ℕ} {chunks : List Chunk} {output : Bytes}
    (hbound : bound + 3 < USIZE_LIMIT) (hlen : output.length ≤ bound) :
    base64Chunks bound total index chunks output ≠ .error .lengthOverflow := by
  induction chunks generalizing index output with
  | nil => exact nofun
  | cons chunk chunks ih =>
    rw [base64Chunks]
    refine bind_ne_error (base64Chunk_ne_overflow (by omega)) fun next hnext => ih ?_
    obtain ⟨_, -, -, -, hfits⟩ := base64Chunk_sound hnext
    exact hfits

/-- The checked arithmetic of the base64 decoder fails for a bound that is too large, and for nothing else. -/
theorem decodeBase64_overflow {input : String} {bound : ℕ} : decodeBase64StandardBoundedV1 input bound =
    .error .lengthOverflow ↔ (asBytes input).length % 4 = 0 ∧ ¬ Base64BoundFits bound := by
  constructor
  · intro h
    by_contra hfree
    revert h
    unfold decodeBase64StandardBoundedV1
    refine bind_ne_error (require_ne_error (.inl nofun)) fun _ hfour => ?_
    have hfits : Base64BoundFits bound := by
      by_contra hlarge
      exact hfree ⟨require_eq_ok.mp hfour, hlarge⟩
    have hroom : bound + 3 < USIZE_LIMIT := by
      obtain ⟨-, hlarge⟩ := hfits
      simp only [USIZE_LIMIT] at hlarge ⊢
      omega
    refine bind_ne_error ?_ fun _ _ => bind_ne_error (require_ne_error (.inl nofun)) fun _ _ =>
      base64Chunks_ne_overflow hroom (Nat.zero_le _)
    rw [base64MaxEncoded_eq_ok.mpr ⟨hfits, rfl⟩]
    exact nofun
  · rintro ⟨hfour, hlarge⟩
    have hmax : base64MaxEncoded bound = .error .lengthOverflow := by
      rw [base64MaxEncoded]
      by_cases hadd : bound + 2 < USIZE_LIMIT
      · rw [require_of _ hadd, except_ok_bind, require, if_neg fun hmul => hlarge ⟨hadd, hmul⟩]
        rfl
      · rw [require, if_neg hadd]
        rfl
    rw [decodeBase64StandardBoundedV1, require_of _ hfour, except_ok_bind, hmax]
    rfl

/-! ### Spellings -/

theorem asBytes_injective : Function.Injective asBytes := by
  intro s t h
  apply String.toByteArray_inj.mp
  apply ByteArray.ext
  exact Array.toList_inj.mp h

/-- Bytes below 128 are the bytes of a string. -/
theorem exists_string {bytes : Bytes} (h : ∀ b ∈ bytes, b.toNat < 128) : ∃ input : String, asBytes input = bytes := by
  refine ⟨String.ofList (bytes.map fun b => Char.ofNat b.toNat), ?_⟩
  rw [asBytes, String.toByteArray_ofList, List.utf8Encode, List.toList_data_toByteArray, List.flatMap_map]
  induction bytes with
  | nil => rfl
  | cons b bytes ih =>
    obtain ⟨hb, hrest⟩ := List.forall_mem_cons.mp h
    have hall : ∀ n : Fin 128, String.utf8EncodeChar (Char.ofNat n) = [UInt8.ofNat n] := by decide +kernel
    rw [List.flatMap_cons, ih hrest, hall ⟨b.toNat, hb⟩, UInt8.ofNat_toNat]
    rfl

theorem base58Encode_ascii (bytes : Bytes) : ∀ b ∈ base58Encode bytes, b.toNat < 128 := by
  intro b hb
  rw [base58Encode, List.mem_append] at hb
  rcases hb with hone | hdigit
  · rw [List.eq_of_mem_replicate hone]
    decide
  · obtain ⟨d, hd, rfl⟩ := List.mem_map.mp hdigit
    have hlt : d < 58 := Nat.digits_lt_base (by omega) (List.mem_reverse.mp hd)
    exact base58_table.ascii ⟨d, hlt⟩

theorem base64Encode_ascii (bytes : Bytes) : ∀ b ∈ base64Encode bytes, b.toNat < 128 := by
  have hchar : ∀ d, d < 64 → (base64Char d).toNat < 128 := fun d hd => base64_table.ascii ⟨d, hd⟩
  have hpad : (61 : UInt8).toNat < 128 := by decide
  induction bytes using base64Encode.induct with
  | case1 => exact fun b hb => absurd hb List.not_mem_nil
  | case2 x =>
    have hx : x.toNat < 256 := x.toNat_lt
    rw [base64Encode]
    simp only [List.forall_mem_cons]
    exact ⟨hchar _ (by omega), hchar _ (by omega), hpad, hpad, fun b hb => absurd hb List.not_mem_nil⟩
  | case3 x y =>
    have hx : x.toNat < 256 := x.toNat_lt
    have hy : y.toNat < 256 := y.toNat_lt
    rw [base64Encode]
    simp only [List.forall_mem_cons]
    exact ⟨hchar _ (by omega), hchar _ (by omega), hchar _ (by omega), hpad, fun b hb => absurd hb List.not_mem_nil⟩
  | case4 x y z rest ih =>
    have hx : x.toNat < 256 := x.toNat_lt
    have hy : y.toNat < 256 := y.toNat_lt
    have hz : z.toNat < 256 := z.toNat_lt
    rw [base64Encode]
    simp only [List.forall_mem_cons]
    exact ⟨hchar _ (by omega), hchar _ (by omega), hchar _ (by omega), hchar _ (by omega), ih⟩

/-- Both decoders accept exactly the standard encodings of byte strings within the bound, one spelling for each, as long as
the bound on the encoded length fits a word; a larger bound is refused, and no other arithmetic overflows. -/
theorem rpc_decoders_canonical (bound : ℕ) :
    (∀ input bytes, decodeBase58BoundedV1 input bound = .ok bytes ↔
      bound * 138 < USIZE_LIMIT ∧ bytes.length ≤ bound ∧ asBytes input = base58Encode bytes) ∧
    (∀ input bytes, decodeBase64StandardBoundedV1 input bound = .ok bytes ↔
      Base64BoundFits bound ∧ bytes.length ≤ bound ∧ asBytes input = base64Encode bytes) ∧
    (bound * 138 < USIZE_LIMIT → ∀ bytes : Bytes, bytes.length ≤ bound →
      ∃! input, decodeBase58BoundedV1 input bound = .ok bytes) ∧
    (Base64BoundFits bound → ∀ bytes : Bytes, bytes.length ≤ bound →
      ∃! input, decodeBase64StandardBoundedV1 input bound = .ok bytes) ∧
    (∀ input, decodeBase58BoundedV1 input bound = .error .lengthOverflow ↔ USIZE_LIMIT ≤ bound * 138) ∧
    ∀ input, decodeBase64StandardBoundedV1 input bound = .error .lengthOverflow ↔
      (asBytes input).length % 4 = 0 ∧ ¬ Base64BoundFits bound := by
  refine ⟨fun _ _ => decodeBase58_eq_ok, fun _ _ => decodeBase64_eq_ok, ?_, ?_, fun _ => decodeBase58_overflow,
    fun _ => decodeBase64_overflow⟩
  · intro hfits bytes hlen
    obtain ⟨input, hinput⟩ := exists_string (base58Encode_ascii bytes)
    refine ⟨input, decodeBase58_eq_ok.mpr ⟨hfits, hlen, hinput⟩, fun other hother => ?_⟩
    obtain ⟨-, -, htext⟩ := decodeBase58_eq_ok.mp hother
    exact asBytes_injective (htext.trans hinput.symm)
  · intro hfits bytes hlen
    obtain ⟨input, hinput⟩ := exists_string (base64Encode_ascii bytes)
    refine ⟨input, decodeBase64_eq_ok.mpr ⟨hfits, hlen, hinput⟩, fun other hother => ?_⟩
    obtain ⟨-, -, htext⟩ := decodeBase64_eq_ok.mp hother
    exact asBytes_injective (htext.trans hinput.symm)

/-- At the largest bound neither decoder accepts an encoding of the empty string of bytes. -/
theorem rpc_decoders_refuse_largest_bound :
    base58Encode [] = asBytes "" ∧ base64Encode [] = asBytes "" ∧
      decodeBase58BoundedV1 "" (2 ^ 64 - 1) = .error .lengthOverflow ∧
      decodeBase64StandardBoundedV1 "" (2 ^ 64 - 1) = .error .lengthOverflow := by
  have hempty : asBytes "" = [] := rfl
  refine ⟨?_, ?_, decodeBase58_overflow.mpr (by norm_num [USIZE_LIMIT]), decodeBase64_overflow.mpr ⟨?_, ?_⟩⟩
  · rw [hempty, base58Encode]
    simp [leNat]
  · rw [hempty, base64Encode]
  · rw [hempty]
    rfl
  · norm_num [Base64BoundFits, USIZE_LIMIT]

end Aspis.Wallet
