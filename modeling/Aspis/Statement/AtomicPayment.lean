import Aspis.Lib.Exec
import Aspis.Lib.Records
import Aspis.Statement.Digest

/-! The public statement of an atomic payment and the digest a proof absorbs. A
statement names one pool at one revision, the spend, the root that replaces the
pool's anchor and the deployment the proof is for. -/

namespace Aspis.Statement

open Lib

inductive AtomicStatementError
  | nonCanonicalDigest
  | nonCanonicalAssetId
  | feeOutOfRange
  deriving DecidableEq, Repr

def ATOMIC_PAYMENT_TREE_DEPTH : UInt8 := 20

def ATOMIC_PAYMENT_STATEMENT_VERSION : UInt8 := 4

def ATOMIC_PAYMENT_STATEMENT_DOMAIN : Bytes := "aspis/atomic-payment-statement/v4".toUTF8.toList

def ATOMIC_DEPLOYMENT_DOMAIN_SEPARATOR : Bytes := "aspis-spend-deployment-domain-v1".toUTF8.toList

structure SpendPublic where
  anchor : Digest
  nullifier : Digest
  outputCommitment : Digest
  assetId : M31
  fee : UInt32
  deriving DecidableEq

structure AtomicPaymentStatementV4 where
  pool : Bytes32
  sequence : UInt64
  spend : SpendPublic
  outputAnchor : Digest
  deploymentDomain : Bytes32
  deriving DecidableEq

/-- The domain of one deployment: its program and a cluster name. -/
def atomicDeploymentDomain (hashv : List Bytes → Bytes32) (runtimeProgramId : Bytes32) (domainTag : Bytes) : Bytes32 :=
  hashv [ATOMIC_DEPLOYMENT_DOMAIN_SEPARATOR, runtimeProgramId.bytes, domainTag]

def decodeDigest (bytes : Bytes32) : Except AtomicStatementError Digest :=
  okOr (decodeDigestCanonical bytes.bytes) .nonCanonicalDigest

def decodeAssetIdCanonical (value : UInt32) : Except AtomicStatementError M31 := do
  require (value.toNat < P) .nonCanonicalAssetId
  return ⟨value⟩

def encodeAtomicPaymentStatementV4 (statement : AtomicPaymentStatementV4) : Except AtomicStatementError Bytes := do
  require statement.spend.assetId.Canonical .nonCanonicalAssetId
  require (statement.spend.fee.toNat < VALUE_LIMIT) .feeOutOfRange
  return u8Bytes ATOMIC_PAYMENT_STATEMENT_VERSION ++ u8Bytes ATOMIC_PAYMENT_TREE_DEPTH ++ zeros 6 ++
    statement.pool.bytes ++ u64Bytes statement.sequence ++ encodeDigestCanonical statement.spend.anchor ++
    encodeDigestCanonical statement.spend.nullifier ++ encodeDigestCanonical statement.spend.outputCommitment ++
    encodeDigestCanonical statement.outputAnchor ++ statement.spend.assetId.toLeBytes ++
    u32Bytes statement.spend.fee ++ statement.deploymentDomain.bytes

def atomicPaymentStatementDigestV4 (hashv : List Bytes → Bytes32) (statement : AtomicPaymentStatementV4) :
    Except AtomicStatementError Bytes32 := do
  let payload ← encodeAtomicPaymentStatementV4 statement
  return hashv [ATOMIC_PAYMENT_STATEMENT_DOMAIN, payload]

end Aspis.Statement
