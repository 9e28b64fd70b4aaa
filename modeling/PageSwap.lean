import PageSwap.Bench.Perform
import PageSwap.Bench.Trial.Accounting
import PageSwap.Bench.Trial.Locking
import PageSwap.Bench.Trial.Logging
import PageSwap.Bench.Trial.Mapping
import PageSwap.Bench.Trial.Sleeping
import PageSwap.Bench.Trial.Waking
import PageSwap.Proofs.Bounds
import PageSwap.Proofs.Callers
import PageSwap.Proofs.Deactivation
import PageSwap.Proofs.Discovery
import PageSwap.Proofs.FaithfulStore
import PageSwap.Proofs.Floods
import PageSwap.Proofs.FreedSlots
import PageSwap.Proofs.Handover
import PageSwap.Proofs.Handshake
import PageSwap.Proofs.Holes
import PageSwap.Proofs.LongRuns
import PageSwap.Proofs.NoLostData
import PageSwap.Proofs.Parking
import PageSwap.Proofs.ReadOutcome
import PageSwap.Proofs.Refusals
import PageSwap.Proofs.Registration
import PageSwap.Proofs.SlotStorage
import PageSwap.Proofs.Tallies
import PageSwap.Proofs.TopBlock
import PageSwap.Proofs.TwoPaths
import PageSwap.Proofs.WaitBudget
import PageSwap.Proofs.WellFormed
import PageSwap.Proofs.WriteOutcome
