import Aspis.Statement.Digest

/-! Points of the finalized chain and the identities of the events found there.
The fields that a constructor checks are kept as proofs, so that a point without
a block hash, a block that does not follow its parent, or an event without a
signature cannot be written down. -/

namespace Aspis.Wallet

open Lib

/-- A block point whose finality was established elsewhere. -/
structure FinalizedChainPointV1 where
  slot : ℕ
  blockHash : Bytes32
  slot_lt : slot < 2 ^ 64
  hash_ne : blockHash ≠ Bytes32.zero
  deriving DecidableEq

/-- A finalized block with its exact parent point; slot numbers may be skipped. -/
structure FinalizedBlockV1 where
  point : FinalizedChainPointV1
  parent : FinalizedChainPointV1
  parent_lt : parent.slot < point.slot
  deriving DecidableEq

/-- The identity an authenticated transaction parser gives an event. -/
structure DepositEventIdV1 where
  point : FinalizedChainPointV1
  transactionSignature : Bytes
  instructionIndex : ℕ
  eventIndex : ℕ
  signature_length : transactionSignature.length = 64
  signature_ne : transactionSignature ≠ zeros 64
  instructionIndex_lt : instructionIndex < 2 ^ 16
  eventIndex_lt : eventIndex < 2 ^ 16
  deriving DecidableEq

/-- One append of the finalized stream. -/
structure FinalizedAppendEvidenceV1 where
  eventId : DepositEventIdV1
  leafIndex : ℕ
  rootSequence : ℕ
  noteCommitment : Bytes32
  root : Bytes32
  deriving DecidableEq

end Aspis.Wallet
