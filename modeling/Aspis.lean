import Aspis.Lib.Bytes
import Aspis.Lib.Exec
import Aspis.Lib.MerkleTree
import Aspis.Statement.Digest
import Aspis.Chain.Ledger
import Aspis.Pool.History
import Aspis.Pool.Environment
import Aspis.Pool.State
import Aspis.Pool.Nullifier
import Aspis.Pool.Accounts
import Aspis.Pool.Transition
import Aspis.Pool.Vault
import Aspis.Pool.Deposit
import Aspis.Pool.Spend
import Aspis.Pool.PreparedFormat
import Aspis.Pool.Prepared
import Aspis.Pool.Settlement
import Aspis.Lib.Pages
import Aspis.Pool.Ideal
import Aspis.Lib.Run
import Aspis.Pool.Program
import Aspis.Pool.Content
import Aspis.Pool.SpendOnce
import Aspis.Pool.Invariant
import Aspis.Pool.Refinement
import Aspis.Pool.SettleDirect
import Aspis.Pool.VaultBalance
import Aspis.Pool.AppendAtomic
import Aspis.Pool.PlanClose
import Aspis.Wallet.ChainPoint
import Aspis.Wallet.WitnessState
import Aspis.Statement.VerifierRegistry
import Aspis.Registry.Processor
import Aspis.Registry.Program
import Aspis.Registry.Lifecycle
import Aspis.Registry.Governance
import Aspis.Registry.Certificates
import Aspis.Registry.Records
import Aspis.Pool.VerifierSelection
import Aspis.Pool.GovernedSelection
import Aspis.Pool.CertifiedSelection
import Aspis.Pool.SampleDeployment
import Aspis.Wallet.ScanState
import Aspis.Wallet.ScanChain
import Aspis.Wallet.ScanSteps
import Aspis.Wallet.ScanHistory
import Aspis.Lib.Records
import Aspis.Wallet.ScanImage
import Aspis.Relayer.Plan
import Aspis.Relayer.Image
import Aspis.Relayer.Queue
import Aspis.Statement.AtomicPayment
import Aspis.Verifier.Lifecycle
import Aspis.Verifier.AtomicPayment
import Aspis.Verifier.AtomicSpend
import Aspis.Verifier.AtomicHistory
import Aspis.Verifier.Dispatch
import Aspis.Verifier.Profiles
import Aspis.Verifier.ReceiptFormat
import Aspis.Verifier.Receipt
import Aspis.Verifier.Program
import Aspis.Verifier.AccountLife
import Aspis.Verifier.ReceiptHistory
import Aspis.Pool.NoteNullifier
import Aspis.Wallet.DurableState
import Aspis.Wallet.DurableHistory
import Aspis.Wallet.DurableSteps
import Aspis.Wallet.DurableReorg
import Aspis.Forest.Accounts
import Aspis.Statement.PairLeaf
import Aspis.Lib.AtomicFile
import Aspis.Relayer.ExecutionRecord
import Aspis.Core.Field
import Aspis.Core.Transcript
import Aspis.Lib.Openings
import Aspis.Core.QuerySampling
import Aspis.Core.TranscriptRecords
import Aspis.Core.Merkle
import Aspis.Core.MultiOpening
import Aspis.Core.Frontier
import Aspis.Pool.PreparedExact
import Aspis.Lib.Format
import Aspis.Pool.StateExact
import Aspis.Forest.AccountsExact
import Aspis.Pool.RootHistoryPage
import Aspis.Verifier.DispatchExact
import Aspis.Verifier.ReceiptExact
import Aspis.Formats.Accounts
import Aspis.Forest.PairState
import Aspis.Verifier.PaymentStatements
import Aspis.Forest.Terminal
import Aspis.Registry.Instructions
import Aspis.Formats.Wire
import Aspis.Forest.Lane
import Aspis.Forest.Deposit
import Aspis.Forest.Spend
import Aspis.Forest.Setup
import Aspis.Forest.LaneLog
import Aspis.Forest.Program
import Aspis.Forest.Images
import Aspis.Forest.Readers
import Aspis.Core.FieldTower
import Aspis.Core.DotKernels
import Aspis.Core.DotSums
import Aspis.Core.DotProducts
import Aspis.Core.DotBytes
import Aspis.Core.DotBytesExact
import Aspis.Core.PackedCodec
import Aspis.Core.PackedExact
import Aspis.Core.OneFoldWire
import Aspis.Lib.CheckedWord
import Aspis.Statement.Poseidon2
import Aspis.Statement.Poseidon2Exact
import Aspis.Core.WeightAccumulator
import Aspis.Lib.DualFold
import Aspis.Core.WeightFold
import Aspis.Core.WeightForms
import Aspis.Core.WeightTables
import Aspis.Core.WeightMasks
import Aspis.Core.WeightShape
import Aspis.Core.WeightRounds
import Aspis.Core.RoundPolynomial
import Aspis.Core.WeightDot
import Aspis.Core.SumcheckRounds
import Aspis.Core.CirclePoint
import Aspis.Lib.SubsetSum
import Aspis.Core.LaneZeta
import Aspis.Core.CompactSumcheck
import Aspis.Core.QueryBatch
import Aspis.Verifier.Routes
import Aspis.Pool.RootHistoryOps
import Aspis.Lib.Numerals
import Aspis.Wallet.RpcWire
import Aspis.Forest.UncheckedAppend
import Aspis.Core.WeightKernels
import Aspis.Core.WeightPrefix
import Aspis.Core.WeightInterval
import Aspis.Core.WeightTail
import Aspis.Forest.ResultChecks
import Aspis.Forest.VerifierRoutes
import Aspis.Pool.PageLayouts
import Aspis.Wallet.TransitionAccounts
import Aspis.Lib.SortedKeys
import Aspis.Relayer.ExecutionExact
import Aspis.Relayer.ExecutionJournal
import Aspis.Relayer.JournalImage
import Aspis.Core.PowerKernels
import Aspis.Core.SelectedMask
import Aspis.Relayer.ExecutionHistory
import Aspis.Wallet.WitnessImage
import Aspis.Wallet.WitnessReachable
