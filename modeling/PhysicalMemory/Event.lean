import PhysicalMemory.Halt

/-!
# Log events

What the manager tells the kernel log.  An event keeps the facts it reports;
its level says how severe it is, and its text is made only when it is read.
-/

namespace PhysicalMemory

inductive Level where
  | error
  | warn
  | info
  | debug
  | trace
  deriving DecidableEq

namespace Level

def rank : Level → Nat
  | .error => 0
  | .warn => 1
  | .info => 2
  | .debug => 3
  | .trace => 4

def name : Level → String
  | .error => "ERROR"
  | .warn => "WARN"
  | .info => "INFO"
  | .debug => "DEBUG"
  | .trace => "TRACE"

def isKeptAt (level threshold : Level) : Bool :=
  level.rank ≤ threshold.rank

end Level

inductive Event where
  | violated (cause : Violation)
  | zoneSeeded (zone : ZoneId) (order blocks : Nat)
  | blockAllocated (block : Nat) (order found : Nat)
  | outOfMemory (order : Nat)
  | blockFreed (start : Nat) (order : Nat) (block : Nat) (merged : Nat)
  | bootstrapCacheReady (records : Nat)
  | cacheCreated (size : Nat)
  | slabCreated (base : Nat) (size capacity : Nat)
  | freeInSlabMetadata (address : Nat)
  | freePastLastObject (address : Nat)
  | bytesAsBlock (size order : Nat) (start : Nat)
  | freeOutsideRam (address : Nat)
  | freeInUnownedPage (address : Nat)
  | bootWindow (ramStart ramEnd kernelEnd : Nat)
  | bootMetadata (kibibytes : Nat) (heapStart ramEnd : Nat)
  | bootZone (zone : ZoneId) (start stop : Nat) (allocatable : Bool)
  | bootFree (free total : Nat)
  | pagesLeaked (start : Nat)
  | pointerLeaked (address : Nat)
  deriving DecidableEq

namespace Event

/-- What is reported when something halts: a violation, and nothing else. -/
def onHalt : Halt → List Event
  | .violation cause => [.violated cause]
  | _ => []

def level : Event → Level
  | .violated _ | .outOfMemory _ => .error
  | .freeInSlabMetadata _ | .freePastLastObject _ => .warn
  | .freeOutsideRam _ | .freeInUnownedPage _ => .warn
  | .pagesLeaked _ | .pointerLeaked _ => .warn
  | .bootWindow _ _ _ | .bootMetadata _ _ _ => .info
  | .bootZone _ _ _ _ | .bootFree _ _ => .info
  | .zoneSeeded _ _ _ | .bootstrapCacheReady _ | .cacheCreated _ => .debug
  | .blockAllocated _ _ _ | .blockFreed _ _ _ _ => .trace
  | .slabCreated _ _ _ | .bytesAsBlock _ _ _ => .trace

def text : Event → String
  | .violated cause => cause.message
  | .zoneSeeded zone order blocks =>
      "buddy: zone " ++ zone.name ++ " order " ++ toString order ++ ": " ++
        toString blocks ++ " free blocks"
  | .blockAllocated block order found =>
      "buddy: order " ++ toString order ++ " block at " ++ Address.text block ++
        " (split from order " ++ toString found ++ ")"
  | .outOfMemory order =>
      "buddy: out of memory for an order " ++ toString order ++ " block"
  | .blockFreed start order block merged =>
      "buddy: freed order " ++ toString order ++ " at " ++ Address.text start ++
        ", now order " ++ toString merged ++ " at " ++ Address.text block
  | .bootstrapCacheReady records =>
      "slab: bootstrap cache ready, " ++ toString records ++ " records per slab"
  | .cacheCreated size => "slab: new cache for " ++ toString size ++ "-byte objects"
  | .slabCreated base size capacity =>
      "slab: new " ++ toString size ++ "-byte slab at " ++ Address.text base ++ ", " ++
        toString capacity ++ " objects"
  | .freeInSlabMetadata address =>
      "slab: ignoring free of " ++ Address.text address ++ " inside slab metadata"
  | .freePastLastObject address =>
      "slab: ignoring free of " ++ Address.text address ++ " past the last object"
  | .bytesAsBlock size order start =>
      "kmalloc: " ++ toString size ++ " bytes as order " ++ toString order ++ " at " ++
        Address.text start
  | .freeOutsideRam address =>
      "kfree: " ++ Address.text address ++ " is outside RAM, ignoring"
  | .freeInUnownedPage address =>
      "kfree: " ++ Address.text address ++ " is in an unowned page, ignoring"
  | .bootWindow ramStart ramEnd kernelEnd =>
      "boot mem: RAM " ++ Address.text ramStart ++ ".." ++ Address.text ramEnd ++
        ", kernel image ends at " ++ Address.text kernelEnd
  | .bootMetadata kibibytes heapStart ramEnd =>
      "boot mem: " ++ toString kibibytes ++ " KiB of metadata, heap zone " ++
        Address.text heapStart ++ ".." ++ Address.text ramEnd
  | .bootZone zone start stop allocatable =>
      "boot mem: zone " ++ zone.name ++ " " ++ Address.text start ++ ".." ++
        Address.text stop ++ ", allocatable: " ++ toString allocatable
  | .bootFree free total =>
      "boot mem: " ++ toString free ++ " of " ++ toString total ++ " pages free"
  | .pagesLeaked start =>
      "free_pages: memory manager not initialized, leaking " ++ Address.text start
  | .pointerLeaked address =>
      "kfree: memory manager not initialized, leaking " ++ hex address

def line (event : Event) : String :=
  event.level.name ++ " " ++ event.text

end Event

end PhysicalMemory
