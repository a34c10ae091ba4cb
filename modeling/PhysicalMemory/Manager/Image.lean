import PhysicalMemory.Manager.Pages

/-!
# The boot records in memory

The pair bitmaps and the page descriptors stand in memory where the boot plan
put them, in front of the heap.  The manager works on them as tables; here is
what they read as to whoever looks at memory itself.
-/

namespace PhysicalMemory

def Page.words (page : Page) : List Nat :=
  [page.flags.bits, page.cache.getD 0, page.start]

namespace Manager

/--
What stands in the carved regions, in the order they are carved, up to the
record of the bootstrap cache, which is in memory anyway.
-/
def records (manager : Manager) : List (List Nat) :=
  manager.tiers.buddy.zones.heap.areas.toList.map (·.pairs.words.toList.map BitVec.toNat) ++
    [manager.tiers.buddy.pages.pages.toList.flatMap Page.words]

/-- Memory as it reads with the boot records in it. -/
def image (manager : Manager) : Ram :=
  match (BootPlan.ofLayout manager.layout).run with
  | .ok (.ok plan) =>
      (plan.regions.zip manager.records).foldl
        (fun ram (region, words) => ram.setWords region.start words) manager.ram
  | _ => manager.ram

def readable (manager : Manager) (address : Nat) : Ram :=
  if address < manager.tiers.buddy.zones.heap.start then manager.image else manager.ram

end Manager

end PhysicalMemory
