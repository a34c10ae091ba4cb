import PhysicalMemory.Boot.Plan
import PhysicalMemory.Tiers

/-!
# Booting

Following a plan, the heap is seeded with free blocks and the bootstrap cache
gets its first slab.  What was planned and what was built are reported on the
way.
-/

namespace PhysicalMemory

structure Manager where
  layout : MemoryLayout
  tiers : Tiers
  deriving Inhabited

namespace BootPlan

def zones (plan : BootPlan) : ZonePair where
  noHeap :=
    .reserved .noHeap plan.layout.ramStart (plan.heapStart - plan.layout.ramStart) plan.geometry
  heap :=
    .unseeded .heap plan.heapStart (plan.ramEnd - plan.heapStart) plan.geometry plan.base
      (Vector.ofFn fun order => PairBitmap.wordsCovering plan.span order)
      (Vector.ofFn fun order => plan.recordPlace order)

def reportZone (zone : Zone) : Action Unit Unit := do
  let stop ← zone.stop
  Action.report (.bootZone zone.id zone.start stop zone.allocatable)

/-- Build both tiers as planned, in memory that may contain anything. -/
def build (plan : BootPlan) (ram : Ram) : Action Unit (Except AllocFailure Tiers) := do
  Action.report (.bootWindow plan.layout.ramStart plan.ramEnd plan.layout.kernelEnd)
  Action.report (.bootMetadata ((plan.heapStart - plan.layout.kernelEnd) / 1024)
    plan.heapStart plan.ramEnd)
  let pages ← DescriptorTable.describe plan.geometry plan.layout.ramStart plan.totalPages
    plan.zoneOf (plan.recordPlace orderCount)
  let ((), buddy) ← BuddyAllocator.seed.runFrom { ram := ram, zones := plan.zones, pages := pages }
  reportZone buddy.zones.noHeap
  reportZone buddy.zones.heap
  let (slabs, buddy) ← (SlabAllocator.bootstrap plan.cachePlace).outcome.runFrom buddy
  match slabs with
  | .error failure => return .error failure
  | .ok slab => do
      let free ← buddy.freeBytes
      Action.report (.bootFree (free / plan.geometry.size) plan.totalPages)
      return .ok ⟨buddy, slab⟩

end BootPlan

namespace Manager

/--
Build the manager for a layout, in memory that may contain anything, or say why
the layout is refused.
-/
def boot (layout : MemoryLayout) (ram : Ram := {}) :
    Action Unit (Except BootFailure Manager) := do
  let plan ← (BootPlan.ofLayout layout).run
  match plan with
  | .error failure => return .error failure
  | .ok plan => do
      let tiers ← plan.build ram
      match tiers with
      | .error failure => return .error (.bootstrap failure)
      | .ok tiers => return .ok ⟨layout, tiers⟩

end Manager

end PhysicalMemory
