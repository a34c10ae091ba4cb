import PhysicalMemory.Manager.Instance
import PhysicalMemory.Sync.Contention
import PhysicalMemory.Sync.Callers
import PhysicalMemory.Proofs.Answers
import PhysicalMemory.Proofs.Halts
import PhysicalMemory.Proofs.Memory.Bytes
import PhysicalMemory.Proofs.Memory.Chain
import PhysicalMemory.Proofs.Buddy.Cell
import PhysicalMemory.Proofs.Buddy.Place
import PhysicalMemory.Proofs.Memory.FreeList
import PhysicalMemory.Proofs.Memory.Sequence
import PhysicalMemory.Proofs.Memory.Pairs
import PhysicalMemory.Proofs.Buddy.Zone
import PhysicalMemory.Proofs.Buddy.Pool
import PhysicalMemory.Proofs.Buddy.Coalesced
import PhysicalMemory.Proofs.Buddy.Take
import PhysicalMemory.Proofs.Buddy.Give
import PhysicalMemory.Proofs.Buddy.Seed
import PhysicalMemory.Proofs.Page.Table
import PhysicalMemory.Proofs.Buddy.Ledger
import PhysicalMemory.Proofs.Buddy.Allocator
import PhysicalMemory.Proofs.Buddy.Run
import PhysicalMemory.Proofs.Buddy.Blocks
import PhysicalMemory.Proofs.Buddy.Conservation
import PhysicalMemory.Proofs.Buddy.Partition
import PhysicalMemory.Proofs.Buddy.PairBits
import PhysicalMemory.Proofs.Buddy.Pairing
import PhysicalMemory.Proofs.Buddy.Canonical
import PhysicalMemory.Proofs.Buddy.RoundTrip
import PhysicalMemory.Proofs.Buddy.Availability
import PhysicalMemory.Proofs.Buddy.Cover
import PhysicalMemory.Proofs.Boot.Plan
import PhysicalMemory.Proofs.Slab.Page
import PhysicalMemory.Proofs.Slab.Stock
import PhysicalMemory.Proofs.Slab.Cache
import PhysicalMemory.Proofs.Slab.Object
import PhysicalMemory.Proofs.Slab.Ring
import PhysicalMemory.Proofs.Slab.Grow
import PhysicalMemory.Proofs.Slab.Store
import PhysicalMemory.Proofs.Slab.Change
import PhysicalMemory.Proofs.Slab.Serve
import PhysicalMemory.Proofs.Slab.Seats
import PhysicalMemory.Proofs.Slab.Layout
import PhysicalMemory.Proofs.Slab.Supply
import PhysicalMemory.Proofs.Slab.Onward
import PhysicalMemory.Proofs.Manager.Lending
import PhysicalMemory.Proofs.Manager.Routes
import PhysicalMemory.Proofs.Manager.Requests
import PhysicalMemory.Proofs.Manager.Releases
import PhysicalMemory.Proofs.Manager.Session
import PhysicalMemory.Proofs.Boot.Start
import PhysicalMemory.Proofs.Manager.Chains
import PhysicalMemory.Proofs.Manager.Ownership
import PhysicalMemory.Proofs.Manager.Progress
import PhysicalMemory.Proofs.Manager.RoundTrip
import PhysicalMemory.Proofs.Manager.Mirror
import PhysicalMemory.Proofs.Manager.Service
import PhysicalMemory.Proofs.Manager.Lifetime
import PhysicalMemory.Proofs.Boot.Map
import PhysicalMemory.Proofs.Boot.Refusals
import PhysicalMemory.Proofs.Boot.Totality
import PhysicalMemory.Proofs.Manager.Returns
import PhysicalMemory.Proofs.Manager.Routing
import PhysicalMemory.Proofs.Manager.Turns
import PhysicalMemory.Proofs.Manager.Aligned
import PhysicalMemory.Proofs.Manager.Discipline
import PhysicalMemory.Proofs.Sync.Moves
import PhysicalMemory.Proofs.Sync.Queue
import PhysicalMemory.Proofs.Sync.Serial
import PhysicalMemory.Proofs.Sync.Trial
import PhysicalMemory.Proofs.Sync.Guards
import PhysicalMemory.Proofs.Sync.Winner
import PhysicalMemory.Proofs.Sync.WrittenOnce
import PhysicalMemory.Proofs.Slab.Remnant
import PhysicalMemory.Proofs.Manager.Refusal
import PhysicalMemory.Proofs.Buddy.Splitting
import PhysicalMemory.Proofs.Slab.Count
import PhysicalMemory.Proofs.Manager.Registry
import PhysicalMemory.Proofs.Slab.Filling
import PhysicalMemory.Proofs.Manager.Exhaustion
import PhysicalMemory.Proofs.Slab.Reuse
import PhysicalMemory.Proofs.Manager.Reuse
