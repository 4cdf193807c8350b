import Aspis.Core.QuerySampling

/-! What a transcript's state commits to. Every operation feeds the state a sequence of
records: a labelled byte string, or one squeezed block. The framing keeps the inputs of
the hash apart, so a state that was reached in two ways was reached by the same records. -/

namespace Aspis.Core

open Aspis.Lib

namespace Transcript

/-- Both branches hash the state, the framing and the record as one string. -/
theorem absorb_eq (t : Transcript) (label : UInt8) (data : Bytes) :
    t.absorb label data = { t with state := t.hash.hashv [t.state.1 ++ ([DOM_ABSORB, label] ++ data)] } := by
  unfold absorb
  split_ifs with hshort
  · have hlen := t.state.2
    have hdata : data.length + 34 ≤ 192 := by
      have : PACKED_ABSORB_BYTES = 192 := rfl
      omega
    have hstate : patch 0 t.state.1 (zeros PACKED_ABSORB_BYTES) = t.state.1 ++ zeros 160 := by
      have := @patch_append_at 0 t.state.1 [] (zeros 192) rfl
      rw [List.nil_append, List.nil_append, hlen, drop_zeros] at this
      exact this
    have hbyte : ∀ (front : Bytes) (b : UInt8) (n : ℕ), patch front.length [b] (front ++ zeros (n + 1)) =
        (front ++ [b]) ++ zeros n := by
      intro front b n
      rw [patch_append_at rfl, List.length_singleton, drop_zeros, Nat.add_sub_cancel]
    have hdom := hbyte t.state.1 DOM_ABSORB 159
    have hlabel := hbyte (t.state.1 ++ [DOM_ABSORB]) label 158
    have hrest : patch 34 data ((t.state.1 ++ [DOM_ABSORB] ++ [label]) ++ zeros 158) =
        (t.state.1 ++ [DOM_ABSORB] ++ [label]) ++ data ++ zeros (158 - data.length) := by
      rw [patch_append_at (by simp [hlen]), drop_zeros]
    rw [List.length_append, List.length_singleton, hlen] at hlabel
    rw [hlen] at hdom
    simp only [hstate, hdom, hlabel, hrest]
    rw [List.take_left' (by simp [hlen]; omega)]
    simp
  · rw [t.hash.hashv_flatten]
    simp

/-- The branches of the absorption agree: a record of any length gives what hashing its slices gives. -/
theorem absorb_eq_slices (t : Transcript) (label : UInt8) (data : Bytes) :
    t.absorb label data = { t with state := t.hash.hashv [t.state.1, [DOM_ABSORB, label], data] } := by
  rw [absorb_eq, t.hash.hashv_flatten [t.state.1, [DOM_ABSORB, label], data]]
  simp

theorem absorbTwo_eq (t : Transcript) (label : UInt8) (first second : Bytes) :
    t.absorbTwo label first second = t.absorb label (first ++ second) := by
  rw [absorb_eq, absorbTwo, t.hash.hashv_flatten]
  simp

end Transcript

/-! ### Records -/

/-- What the state takes in: a labelled record, or the move past a squeezed block. -/
inductive Record
  | absorb (label : UInt8) (data : Bytes)
  | squeeze
  deriving DecidableEq, Repr

namespace Record

/-- What is hashed into the new state. -/
def input (state : FixedBytes 32) : Record → Bytes
  | .absorb label data => state.1 ++ ([DOM_ABSORB, label] ++ data)
  | .squeeze => state.1 ++ [DOM_ADVANCE]

def run (t : Transcript) : Record → Transcript
  | .absorb label data => t.absorb label data
  | .squeeze => t.advance

theorem run_eq (t : Transcript) (r : Record) : r.run t = { t with state := t.hash.hashv [r.input t.state] } := by
  cases r with
  | absorb label data => exact t.absorb_eq label data
  | squeeze => rfl

/-- The input shows the state and the record: the domain byte tells the two kinds apart, and a record's data ends
the input. -/
theorem input_inj {state state' : FixedBytes 32} {r r' : Record} (h : r.input state = r'.input state') :
    state = state' ∧ r = r' := by
  have hlen : state.1.length = state'.1.length := state.2.trans state'.2.symm
  cases r with
  | absorb label data =>
    cases r' with
    | absorb label' data' =>
      obtain ⟨hstate, hrest⟩ := List.append_inj h hlen
      simp only [List.cons_append, List.nil_append, List.cons.injEq, true_and] at hrest
      exact ⟨Subtype.ext hstate, by rw [hrest.1, hrest.2]⟩
    | squeeze =>
      have hrest := (List.append_inj h hlen).2
      simp [DOM_ABSORB, DOM_ADVANCE] at hrest
  | squeeze =>
    cases r' with
    | absorb label' data' =>
      have hrest := (List.append_inj h hlen).2
      simp [DOM_ABSORB, DOM_ADVANCE] at hrest
    | squeeze => exact ⟨Subtype.ext (List.append_inj h hlen).1, rfl⟩

/-- The transcript after a sequence of records. -/
def runAll (records : List Record) (t : Transcript) : Transcript := records.foldl run t

/-- The inputs that a sequence of records hashes. -/
def inputs : List Record → Transcript → List Bytes
  | [], _ => []
  | r :: records, t => r.input t.state :: inputs records (r.run t)

theorem hash_runAll (records : List Record) (t : Transcript) : (runAll records t).hash = t.hash := by
  induction records generalizing t with
  | nil => rfl
  | cons r records ih =>
    rw [runAll, List.foldl_cons, ← runAll, ih, run_eq]

theorem runAll_append (records records' : List Record) (t : Transcript) :
    runAll (records ++ records') t = runAll records' (runAll records t) := List.foldl_append

theorem inputs_append (records records' : List Record) (t : Transcript) :
    inputs (records ++ records') t = inputs records t ++ inputs records' (runAll records t) := by
  induction records generalizing t with
  | nil => rfl
  | cons r records ih =>
    rw [List.cons_append, inputs, ih, inputs, List.cons_append]
    rfl

theorem runAll_replicate_squeeze (n : ℕ) (t : Transcript) :
    runAll (List.replicate n .squeeze) t = Transcript.advance^[n] t := by
  induction n generalizing t with
  | zero => rfl
  | succ n ih =>
    rw [List.replicate_succ, runAll, List.foldl_cons, ← runAll, ih]
    rfl

/-- The last record hashes the state before it, and that input is among the inputs of the sequence. -/
theorem state_runAll_concat (hash : HashFn) (front : List Record) (last : Record) :
    (runAll (front ++ [last]) (.new hash)).state = hash.hashv [last.input (runAll front (.new hash)).state] := by
  rw [runAll_append]
  change (last.run (runAll front (.new hash))).state = _
  rw [run_eq, hash_runAll]
  rfl

theorem mem_inputs_concat (front : List Record) (last : Record) (t : Transcript) :
    last.input (runAll front t).state ∈ inputs (front ++ [last]) t := by
  rw [inputs_append]
  exact List.mem_append_right _ List.mem_cons_self

/-- From a fresh transcript, two sequences of records that lead to one state are the same: the hash is asked not to
collide, and not to give the fresh state, on the inputs of the two sequences. -/
theorem eq_of_runAll_eq {hash : HashFn} {records records' : List Record}
    (hinj : ∀ x ∈ inputs records (.new hash), ∀ y ∈ inputs records' (.new hash),
      hash.hashv [x] = hash.hashv [y] → x = y)
    (hfresh : ∀ x ∈ inputs records (.new hash) ++ inputs records' (.new hash),
      hash.hashv [x] ≠ (Transcript.new hash).state)
    (h : (runAll records (.new hash)).state = (runAll records' (.new hash)).state) : records = records' := by
  -- the last records come off together: their inputs are equal, and these show the states before them
  induction records using List.reverseRecOn generalizing records' with
  | nil =>
    rcases List.eq_nil_or_concat' records' with rfl | ⟨front', last', rfl⟩
    · rfl
    · rw [state_runAll_concat] at h
      exact absurd h.symm (hfresh _ (List.mem_append_right _ (mem_inputs_concat front' last' _)))
  | append_singleton front last ih =>
    have hmem := mem_inputs_concat front last (.new hash)
    rcases List.eq_nil_or_concat' records' with rfl | ⟨front', last', rfl⟩
    · rw [state_runAll_concat] at h
      exact absurd h (hfresh _ (List.mem_append_left _ hmem))
    · have hmem' := mem_inputs_concat front' last' (.new hash)
      rw [state_runAll_concat, state_runAll_concat] at h
      obtain ⟨hstate, rfl⟩ := input_inj (hinj _ hmem _ hmem' h)
      simp only [inputs_append, List.mem_append] at hinj hfresh
      have hfront := ih (fun x hx y hy => hinj x (Or.inl hx) y (Or.inl hy))
        (fun x hx => hfresh x ((List.mem_append.mp hx).imp Or.inl Or.inl)) hstate
      rw [hfront]

end Record

/-! ### Operations -/

/-- The calls that change a transcript. -/
inductive Operation
  | absorb (label : UInt8) (data : Bytes)
  | absorbTwo (label : UInt8) (first second : Bytes)
  | squeezeBlock
  | challengeQm31
  | challengeNonzeroQm31
  | challengeOodQm31
  | challengeSecureCirclePoint
  | challengeQueries (count : ℕ) (bound : UInt32)
  | challengeQueriesWithoutReplacement (count : ℕ) (bound : UInt32) (maxDraws : ℕ)

namespace Operation

/-- The transcript that a call leaves, whether it returns a value or an error. -/
def run (t : Transcript) : Operation → Transcript
  | .absorb label data => t.absorb label data
  | .absorbTwo label first second => t.absorbTwo label first second
  | .squeezeBlock => t.squeezeBlock.2
  | .challengeQm31 => t.challengeQm31.2
  | .challengeNonzeroQm31 => t.challengeNonzeroQm31.2
  | .challengeOodQm31 => t.challengeOodQm31.2
  | .challengeSecureCirclePoint => t.challengeSecureCirclePoint.2
  | .challengeQueries count bound => (t.challengeQueries count bound).2
  | .challengeQueriesWithoutReplacement count bound maxDraws =>
    (t.challengeQueriesWithoutReplacement count bound maxDraws).2

/-- The records of a call. A challenge is run on the bare blocks of the transcript to see how many it takes. -/
def records (t : Transcript) : Operation → List Record
  | .absorb label data => [.absorb label data]
  | .absorbTwo label first second => [.absorb label (first ++ second)]
  | .squeezeBlock => [.squeeze]
  | .challengeQm31 => List.replicate (Core.challengeQm31 t.blocks 0).2 .squeeze
  | .challengeNonzeroQm31 => List.replicate (Core.challengeNonzeroQm31 t.blocks 0).2 .squeeze
  | .challengeOodQm31 => List.replicate (Core.challengeOodQm31 t.blocks 0).2 .squeeze
  | .challengeSecureCirclePoint => List.replicate (Core.challengeSecureCirclePoint t.blocks 0).2 .squeeze
  | .challengeQueries count bound => List.replicate (Core.challengeQueries t.blocks count bound 0).2 .squeeze
  | .challengeQueriesWithoutReplacement count bound maxDraws =>
    List.replicate (Core.challengeQueriesWithoutReplacement t.blocks count bound maxDraws 0).2 .squeeze

/-- A call leaves the transcript that its records leave. -/
theorem run_eq_records (t : Transcript) (op : Operation) : op.run t = Record.runAll (op.records t) t := by
  have hblocks := t.follows_blocks
  cases op with
  | absorb label data => rfl
  | absorbTwo label first second => exact t.absorbTwo_eq label first second
  | squeezeBlock => rfl
  | challengeQm31 =>
    rw [records, Record.runAll_replicate_squeeze]
    exact congrArg Prod.snd (challengeQm31_follows hblocks 0)
  | challengeNonzeroQm31 =>
    rw [records, Record.runAll_replicate_squeeze]
    exact congrArg Prod.snd (challengeAccepted_follows hblocks _ _ _ _ 0)
  | challengeOodQm31 =>
    rw [records, Record.runAll_replicate_squeeze]
    exact congrArg Prod.snd (challengeAccepted_follows hblocks _ _ _ _ 0)
  | challengeSecureCirclePoint =>
    rw [records, Record.runAll_replicate_squeeze]
    exact congrArg Prod.snd (challengeAccepted_follows hblocks _ _ _ _ 0)
  | challengeQueries count bound =>
    rw [records, Record.runAll_replicate_squeeze]
    exact congrArg Prod.snd (queryBlocks_follows hblocks _ _ _ _ 0)
  | challengeQueriesWithoutReplacement count bound maxDraws =>
    rw [records, Record.runAll_replicate_squeeze]
    exact congrArg Prod.snd (challengeQueriesWithoutReplacement_follows hblocks count bound maxDraws 0)

def runAll (ops : List Operation) (t : Transcript) : Transcript := ops.foldl run t

/-- The records of a sequence of calls. -/
def allRecords : List Operation → Transcript → List Record
  | [], _ => []
  | op :: ops, t => op.records t ++ allRecords ops (op.run t)

theorem runAll_eq_records (ops : List Operation) (t : Transcript) :
    runAll ops t = Record.runAll (allRecords ops t) t := by
  induction ops generalizing t with
  | nil => rfl
  | cons op ops ih =>
    rw [runAll, List.foldl_cons, ← runAll, ih, allRecords, Record.runAll_append, ← run_eq_records]

/-- Two sequences of calls on fresh transcripts that end in one state have the same records, and a record counts the
same whichever branch absorbs it and whether it comes in one piece or two. The hash is asked not to collide and not to
give the fresh state on the inputs that the two sequences hash into the state. -/
theorem state_determines_records (hash : HashFn) (ops ops' : List Operation)
    (hinj : ∀ x ∈ Record.inputs (allRecords ops (.new hash)) (.new hash),
      ∀ y ∈ Record.inputs (allRecords ops' (.new hash)) (.new hash), hash.hashv [x] = hash.hashv [y] → x = y)
    (hfresh : ∀ x ∈ Record.inputs (allRecords ops (.new hash)) (.new hash) ++
        Record.inputs (allRecords ops' (.new hash)) (.new hash),
      hash.hashv [x] ≠ (Transcript.new hash).state)
    (hstate : (runAll ops (.new hash)).state = (runAll ops' (.new hash)).state) :
    allRecords ops (.new hash) = allRecords ops' (.new hash) ∧
      (∀ (t : Transcript) (label : UInt8) (data : Bytes), t.absorb label data =
        { t with state := t.hash.hashv [t.state.1, [DOM_ABSORB, label], data] }) ∧
      ∀ (t : Transcript) (label : UInt8) (first second : Bytes),
        t.absorbTwo label first second = t.absorb label (first ++ second) := by
  rw [runAll_eq_records, runAll_eq_records] at hstate
  exact ⟨Record.eq_of_runAll_eq hinj hfresh hstate, Transcript.absorb_eq_slices, Transcript.absorbTwo_eq⟩

/-- A record in two pieces and a field challenge against the whole record and one squeezed block. -/
theorem split_record_same_records :
    allRecords [.absorbTwo 7 [1] [2, 3], .challengeQm31] (.new Transcript.countingHash) =
      allRecords [.absorb 7 [1, 2, 3], .squeezeBlock] (.new Transcript.countingHash) :=
  (state_determines_records Transcript.countingHash [.absorbTwo 7 [1] [2, 3], .challengeQm31]
    [.absorb 7 [1, 2, 3], .squeezeBlock] (by decide +kernel) (by decide +kernel) (by decide +kernel)).1

end Operation

end Aspis.Core
