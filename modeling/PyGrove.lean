import PyGrove.Lib.Words
import PyGrove.Lib.Steps
import PyGrove.Lib.Events
import PyGrove.Lib.Cbor
import PyGrove.Core.Tx
import PyGrove.Core.Cbor
import PyGrove.Core.Commitment
import PyGrove.Crypto.Verify
import PyGrove.State.Store
import PyGrove.State.RootPreimage
import PyGrove.State.RocksStore
import PyGrove.State.Migration
import PyGrove.Lib.FixedPoint
import PyGrove.Lib.LogSeries
import PyGrove.Lib.BitGroups
import PyGrove.Lib.Bech32
import PyGrove.Core.Address
import PyGrove.Lib.Bech32Errors
import PyGrove.Core.AddressTypos
import PyGrove.Consensus.Accordion
import PyGrove.Consensus.ExactAccordion
import PyGrove.Consensus.LnFixed
import PyGrove.Consensus.AccordionBounds
import PyGrove.Consensus.RegimeChoice
import PyGrove.Consensus.LnError
import PyGrove.State.Records
import PyGrove.State.Cbor
import PyGrove.State.Governance
import PyGrove.State.Apply
import PyGrove.State.ApplySteps
import PyGrove.Lib.Ledger
import PyGrove.State.Conservation
import PyGrove.State.Ownership
import PyGrove.State.EffectRuns
import PyGrove.State.Atomicity
import PyGrove.State.Nonces
import PyGrove.State.Acceptance
import PyGrove.State.BurntFees
import PyGrove.State.ReflectionHistory
import PyGrove.State.AccountStatement
import PyGrove.State.ChainSeparation
import PyGrove.State.GovernanceThreshold
import PyGrove.State.GovernanceGate
import PyGrove.State.GovernanceReplay
import PyGrove.State.CryptoRotation
import PyGrove.State.Attestation
import PyGrove.State.HeaderBinding
import PyGrove.Lib.HashChain
import PyGrove.State.Lockstep
import PyGrove.State.LedgerBinding
import PyGrove.State.HeaderResult
import PyGrove.State.Backends
import PyGrove.State.TransferOrder
import PyGrove.Lib.Halving
import PyGrove.Consensus.Emission
import PyGrove.Consensus.ScheduledSupply
import PyGrove.Consensus.EmissionRuns
import PyGrove.Consensus.SlewRecovery
import PyGrove.Lib.Quorum
import PyGrove.Finality.Aggregate
import PyGrove.Finality.AggregateConflicts
import PyGrove.Finality.Certificate
import PyGrove.Finality.SignedMessages
import PyGrove.Lib.Frames
import PyGrove.Lib.HashMap
import PyGrove.Lib.Limbs
import PyGrove.Lib.Json
import PyGrove.Consensus.Pow
import PyGrove.Consensus.Asert
import PyGrove.Lib.Compact
import PyGrove.Consensus.Compact
import PyGrove.Consensus.Retarget
import PyGrove.Consensus.TargetCodec
import PyGrove.Consensus.RetargetBounds
import PyGrove.Consensus.RetargetClamp
import PyGrove.Consensus.BitcoinRetarget
import PyGrove.Consensus.RetargetRuns
import PyGrove.Consensus.StabilityBias
import PyGrove.Sim.Accordion
import PyGrove.Node.Mempool
import PyGrove.Lib.AgeQueue
import PyGrove.Node.MempoolQueue
import PyGrove.Node.Eviction
import PyGrove.Node.ChainStore
import PyGrove.Node.Genesis
import PyGrove.Node.Startup
import PyGrove.Node.Submit
import PyGrove.Node.Restart
import PyGrove.Node.CrashLog
import PyGrove.Node.LogRuns
import PyGrove.Node.EmissionSeries
import PyGrove.Node.SupplyAudit
import PyGrove.Node.Issuance
import PyGrove.Node.Chronicle
import PyGrove.Node.DifficultyRuns
import PyGrove.Node.Template
import PyGrove.Node.BlockProduction
import PyGrove.Node.Rpc
import PyGrove.Node.HonestClock
import PyGrove.Node.SelfMining
import PyGrove.Node.Transfers
import PyGrove.Node.Settlement
import PyGrove.Node.StalePool
import PyGrove.Node.Frozen
import PyGrove.Node.Race
import PyGrove.Node.LinearChain
import PyGrove.Node.ChainHistory
import PyGrove.Node.Agreement
import PyGrove.Node.Init
import PyGrove.Node.Lifetimes
import PyGrove.Node.Explorer
import PyGrove.Node.RaceOutcome
import PyGrove.Gui.Miner
import PyGrove.Gui.Delivery
import PyGrove.P2p.Broker
import PyGrove.P2p.Envelope
