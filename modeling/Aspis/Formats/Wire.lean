import Aspis.Forest.Terminal
import Aspis.Formats.Accounts
import Aspis.Registry.Instructions
import Aspis.Verifier.DispatchExact

/-! The messages of the protocol side by side: payment statements, the terminal
messages of the pair forest, verification requests and results, and the
instructions of the registry. Each format is exact, and no message is read as
another one. -/

namespace Aspis.Formats

open Lib Chain Statement Pool Forest Verifier Registry

inductive WireFormat
  | privateTransferStatement
  | withdrawalStatement
  | terminalStatement
  | terminalRequest
  | terminalResult
  | dispatchRequest
  | dispatchResult
  | registryInstruction (v : RegistryVersion)
  deriving DecidableEq

namespace WireFormat

def Value : WireFormat → Type
  | privateTransferStatement => PoolV1PrivateTransferPublicV1
  | withdrawalStatement => PoolV1WithdrawalPublicV1
  | terminalStatement => PoolV1PairForestTerminalStatementV1
  | terminalRequest => PoolV1PairForestTerminalRequestV1
  | terminalResult => PoolV1PairForestTerminalResultV1
  | dispatchRequest => VerifierDispatchRequestV1
  | dispatchResult => VerifierDispatchResultV1
  | registryInstruction v => RegistryInstruction v

/-- The decoder and the encoder of a message. The encoders check every field, so
each value fits. -/
def format (hashv : List Bytes → Bytes32) : (f : WireFormat) → Format f.Value
  | privateTransferStatement => .ofExcept decodePoolV1PrivateTransferPublicV1 encodePoolV1PrivateTransferPublicV1
      fun _ => True
  | withdrawalStatement => .ofExcept decodePoolV1WithdrawalPublicV1 encodePoolV1WithdrawalPublicV1 fun _ => True
  | terminalStatement => .ofExcept decodePoolV1PairForestTerminalStatementV1 encodePoolV1PairForestTerminalStatementV1
      fun _ => True
  | terminalRequest => .ofExcept decodePoolV1PairForestTerminalRequestV1 encodePoolV1PairForestTerminalRequestV1
      fun _ => True
  | terminalResult => .ofExcept decodePoolV1PairForestTerminalResultV1 encodePoolV1PairForestTerminalResultV1
      fun _ => True
  | dispatchRequest => .ofExcept (decodeVerifierDispatchRequestV1 hashv) (encodeVerifierDispatchRequestV1 hashv)
      fun _ => True
  | dispatchResult => .ofExcept VerifierDispatchResultV1.decode VerifierDispatchResultV1.encode fun _ => True
  | registryInstruction v => .ofExcept (decodeRegistryInstruction v) encodeRegistryInstruction fun _ => True

def magic : WireFormat → Bytes
  | privateTransferStatement => POOL_V1_PRIVATE_TRANSFER_STATEMENT_MAGIC
  | withdrawalStatement => POOL_V1_WITHDRAWAL_STATEMENT_MAGIC
  | terminalStatement => POOL_V1_PAIR_FOREST_TERMINAL_STATEMENT_MAGIC
  | terminalRequest => POOL_V1_PAIR_FOREST_TERMINAL_REQUEST_MAGIC
  | terminalResult => POOL_V1_PAIR_FOREST_TERMINAL_RESULT_MAGIC
  | dispatchRequest => POOL_V1_VERIFIER_DISPATCH_REQUEST_MAGIC
  | dispatchResult => POOL_V1_VERIFIER_DISPATCH_RESULT_MAGIC
  | registryInstruction _ => REGISTRY_MUTATION_INSTRUCTION_MAGIC

variable {hashv : List Bytes → Bytes32} {f g : WireFormat} {bytes : Bytes}

theorem format_exact (hashv : List Bytes → Bytes32) (f : WireFormat) : (f.format hashv).Exact := by
  cases f with
  | privateTransferStatement => exact transfer_exact
  | withdrawalStatement => exact withdrawal_exact
  | terminalStatement =>
    exact Format.exact_ofExcept (fun _ _ _ => decode_encodeTerminalStatement)
      fun _ _ h => ⟨trivial, encode_decodeTerminalStatement h⟩
  | terminalRequest =>
    exact Format.exact_ofExcept (fun _ _ _ => decode_encodeTerminalRequest)
      fun _ _ h => ⟨trivial, encode_decodeTerminalRequest h⟩
  | terminalResult =>
    exact Format.exact_ofExcept (fun _ _ _ => decode_encodeTerminalResult)
      fun _ _ h => ⟨trivial, encode_decodeTerminalResult h⟩
  | dispatchRequest => exact request_exact
  | dispatchResult => exact VerifierDispatchResultV1.exact
  | registryInstruction v => exact instruction_exact

/-! ### The messages are disjoint -/

theorem requireHeader_magic {magic : Bytes} {kind : PoolV1TransitionKind} {u : Unit}
    (h : requireHeader bytes magic kind = .ok u) : slice 0 4 bytes = magic := magic_of_checks h

theorem decodeTransfer_magic {p : PoolV1PrivateTransferPublicV1} (h : decodePoolV1PrivateTransferPublicV1 bytes = .ok p) :
    slice 0 4 bytes = POOL_V1_PRIVATE_TRANSFER_STATEMENT_MAGIC := by
  simp only [decodePoolV1PrivateTransferPublicV1, except_bind_eq_ok] at h
  obtain ⟨_, hheader, -⟩ := h
  exact requireHeader_magic hheader

theorem decodeWithdrawal_magic {p : PoolV1WithdrawalPublicV1} (h : decodePoolV1WithdrawalPublicV1 bytes = .ok p) :
    slice 0 4 bytes = POOL_V1_WITHDRAWAL_STATEMENT_MAGIC := by
  simp only [decodePoolV1WithdrawalPublicV1, except_bind_eq_ok] at h
  obtain ⟨_, hheader, -⟩ := h
  exact requireHeader_magic hheader

theorem decodeDispatchResult_magic {r : VerifierDispatchResultV1} (h : VerifierDispatchResultV1.decode bytes = .ok r) :
    slice 0 4 bytes = POOL_V1_VERIFIER_DISPATCH_RESULT_MAGIC := by
  simp only [VerifierDispatchResultV1.decode, except_bind_eq_ok] at h
  obtain ⟨_, hbinding, -⟩ := h
  exact magic_of_checks hbinding

theorem decodeInstruction_header {v : RegistryVersion} {i : RegistryInstruction v}
    (h : decodeRegistryInstruction v bytes = .ok i) : slice 0 4 bytes = REGISTRY_MUTATION_INSTRUCTION_MAGIC ∧
      byteAt 4 bytes = REGISTRY_MUTATION_INSTRUCTION_VERSION v := by
  simp only [decodeRegistryInstruction, except_bind_eq_ok] at h
  obtain ⟨_, hheader, -⟩ := h
  exact (header_of_requireInstructionHeader hheader).2

theorem accepts_magic (h : (f.format hashv).Accepts bytes) : slice 0 4 bytes = f.magic := by
  obtain ⟨v, hv⟩ := h
  cases f with
  | privateTransferStatement => exact decodeTransfer_magic (Format.toOption_eq_some.mp hv)
  | withdrawalStatement => exact decodeWithdrawal_magic (Format.toOption_eq_some.mp hv)
  | terminalStatement => exact magic_of_checks (Format.toOption_eq_some.mp hv)
  | terminalRequest => exact magic_of_checks (Format.toOption_eq_some.mp hv)
  | terminalResult => exact magic_of_checks (Format.toOption_eq_some.mp hv)
  | dispatchRequest => exact magic_of_checks (Format.toOption_eq_some.mp hv)
  | dispatchResult => exact decodeDispatchResult_magic (Format.toOption_eq_some.mp hv)
  | registryInstruction v => exact (decodeInstruction_header (Format.toOption_eq_some.mp hv)).1

/-- Only the two versions of the registry instructions start with the same four bytes. -/
theorem magic_cases (h : f.magic = g.magic) :
    f = g ∨ ∃ v w, f = registryInstruction v ∧ g = registryInstruction w := by
  rcases f with _ | _ | _ | _ | _ | _ | _ | v <;> rcases g with _ | _ | _ | _ | _ | _ | _ | w
  all_goals first
    | exact .inl rfl
    | exact .inr ⟨v, w, rfl, rfl⟩
    | exact absurd h (by simp [magic, POOL_V1_PRIVATE_TRANSFER_STATEMENT_MAGIC, POOL_V1_WITHDRAWAL_STATEMENT_MAGIC,
        POOL_V1_PAIR_FOREST_TERMINAL_STATEMENT_MAGIC, POOL_V1_PAIR_FOREST_TERMINAL_REQUEST_MAGIC,
        POOL_V1_PAIR_FOREST_TERMINAL_RESULT_MAGIC, POOL_V1_VERIFIER_DISPATCH_REQUEST_MAGIC,
        POOL_V1_VERIFIER_DISPATCH_RESULT_MAGIC, REGISTRY_MUTATION_INSTRUCTION_MAGIC])

theorem format_unique (hf : (f.format hashv).Accepts bytes) (hg : (g.format hashv).Accepts bytes) : f = g := by
  rcases magic_cases ((accepts_magic hf).symm.trans (accepts_magic hg)) with rfl | ⟨v, w, rfl, rfl⟩
  · rfl
  · obtain ⟨i, hi⟩ := hf
    obtain ⟨j, hj⟩ := hg
    have hv := (decodeInstruction_header (Format.toOption_eq_some.mp hi)).2
    have hw := (decodeInstruction_header (Format.toOption_eq_some.mp hj)).2
    rw [hv] at hw
    cases v <;> cases w <;> first | rfl | cases hw

end WireFormat

/-- For every message format and every byte string, the decoder returns a value
exactly if the bytes are the encoding of that value; so the bytes it accepts are
the encodings of the values the encoder admits, each such value has one image,
and no byte string is accepted by the decoders of two formats. -/
theorem wire_formats_exact (hashv : List Bytes → Bytes32) :
    (∀ (f : WireFormat) (bytes : Bytes) (v : f.Value),
      (f.format hashv).decode bytes = some v ↔ (f.format hashv).encode v = some bytes) ∧
    (∀ (f : WireFormat) (bytes : Bytes), (f.format hashv).Accepts bytes ↔ ∃ v, (f.format hashv).encode v = some bytes) ∧
    (∀ (f : WireFormat) (v : f.Value), (f.format hashv).Valid v → ∃! bytes, (f.format hashv).decode bytes = some v) ∧
    ∀ (f g : WireFormat) (bytes : Bytes), (f.format hashv).Accepts bytes → (g.format hashv).Accepts bytes → f = g := by
  have hfits : ∀ (f : WireFormat) (v : f.Value), (f.format hashv).Fits v := fun f _ => by cases f <;> trivial
  have hexact := WireFormat.format_exact hashv
  refine ⟨?_, ?_, ?_, ?_⟩
  · intro f bytes v
    rw [hexact f bytes v]
    exact and_iff_right (hfits f v)
  · intro f bytes
    rw [(hexact f).accepts_iff bytes]
    exact exists_congr fun v => and_iff_right (hfits f v)
  · exact fun f v hv => (hexact f).existsUnique_image hv
  · exact fun f g bytes hf hg => WireFormat.format_unique hf hg

end Aspis.Formats
