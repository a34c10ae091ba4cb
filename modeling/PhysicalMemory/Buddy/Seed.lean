import PhysicalMemory.Zone.Pool

/-!
# Seeding a zone

A zone starts out covered by free blocks.  From the start of the zone up, each
block is the largest whose natural alignment the place has and which ends
inside the zone, and the next block begins where it ends.  A rest smaller than
a page at the end of the zone belongs to no block.
-/

namespace PhysicalMemory

namespace Pool

/-- The largest order, from `order` down, whose block at `place` is aligned and ends by `stop`. -/
def fittingOrder (geometry : Geometry) (place stop : Nat) : Nat → Checked Nat
  | 0 => .ok 0
  | order + 1 => do
      let size ← geometry.blockSize (order + 1)
      let aligned ← Address.isAligned place size
      if aligned then
        let top ← Word.add place size
        if top ≤ stop then return order + 1
        else fittingOrder geometry place stop order
      else
        fittingOrder geometry place stop order

/-- Cover the zone from `place` to `stop` by at most `fuel` blocks, and tell their orders. -/
def cover (stop : Nat) : Nat → Nat → Action Pool (List Nat)
  | 0, _ => return []
  | fuel + 1, place => do
      let geometry := (← get).zone.geometry
      let pageEnd ← Word.add place geometry.size
      if pageEnd ≤ stop then
        let order ← fittingOrder geometry place stop topOrder
        push order place
        let _ ← toggle order (geometry.frameOf place)
        let size ← geometry.blockSize order
        let next ← Word.add place size
        let rest ← cover stop fuel next
        return order :: rest
      else
        return []

def reportSeeded (zone : ZoneId) (orders : List Nat) : List Nat → Action Pool Unit
  | [] => return
  | order :: rest => do
      if order ∈ orders then
        Action.report (.zoneSeeded zone order (orders.count order))
      reportSeeded zone orders rest

/-- Cover a zone by free blocks; its start has to be a page boundary. -/
def seed : Action Pool Unit := do
  let zone := (← get).zone
  let aligned ← zone.geometry.isAligned zone.start
  if aligned then
    let stop ← zone.stop
    let orders ← cover stop (zone.size / zone.geometry.size + 1) zone.start
    reportSeeded zone.id orders (List.range orderCount)
  else
    Action.violate (.unalignedZone zone.id zone.start)

end Pool

end PhysicalMemory
