import PhysicalMemory.Address.Basic
import PhysicalMemory.Page.Owner
import PhysicalMemory.Zone.Id

/-!
# Halts

A halt is not an answer.  The machine stops because the manager found its own
records violated, because a word-sized operation left its word, because an
index pointed outside its table, because a caller's own code panicked under a
lock, or because it waits for what nobody will bring about.  What had been
written before a halt stays written.
-/

namespace PhysicalMemory

/-- A broken promise, of a caller or of the manager's own records. -/
inductive Violation where
  | unalignedZone (zone : ZoneId) (start : Nat)
  | freeOutsideRam (start : Nat)
  | freeNotBuddy (start : Nat) (owner : Owner)
  | freeAtWrongOrder (start : Nat) (given recorded : Nat)
  | freeOutsideZone (start : Nat) (zone : ZoneId)
  | buddyMissing (buddy block : Nat) (order : Nat)
  | slabPageWithoutCache (page : Nat)
  | freeInPageWithoutCache (page : Nat)
  | slabWithoutStart
  | nullCacheRecord
  | nullObject
  | nullSlabPage
  | nullBlock
  deriving DecidableEq

namespace Violation

def message : Violation → String
  | .unalignedZone zone start =>
      "buddy: zone " ++ zone.name ++ " starts at unaligned " ++ Address.text start
  | .freeOutsideRam start =>
      "buddy: free of " ++ Address.text start ++ ", which is outside RAM"
  | .freeNotBuddy start owner =>
      "buddy: free of " ++ Address.text start ++ ", which is " ++ owner.name
  | .freeAtWrongOrder start given recorded =>
      "buddy: free of " ++ Address.text start ++ " at order " ++ toString given ++
        ", but it was allocated at order " ++ toString recorded
  | .freeOutsideZone start zone =>
      "buddy: free of " ++ Address.text start ++ ", which is outside zone " ++ zone.name
  | .buddyMissing buddy block order =>
      "buddy: " ++ Address.text buddy ++ ", buddy of " ++ Address.text block ++
        ", is missing from the order " ++ toString order ++ " free list"
  | .slabPageWithoutCache page =>
      "slab: page " ++ Address.text page ++ " has no owning cache"
  | .freeInPageWithoutCache page =>
      "kfree: slab page " ++ Address.text page ++ " has no owning cache"
  | .slabWithoutStart => "slab: descriptor without a start address"
  | .nullCacheRecord => "slab: cache record at a null address"
  | .nullObject => "slab: object at a null address"
  | .nullSlabPage => "slab: buddy returned a null page"
  | .nullBlock => "kmalloc: buddy returned a null block"

end Violation

inductive Operation where
  | add
  | subtract
  | multiply
  | shiftLeft
  | shiftRight
  deriving DecidableEq

namespace Operation

def name : Operation → String
  | .add => "add"
  | .subtract => "subtract"
  | .multiply => "multiply"
  | .shiftLeft => "shift left"
  | .shiftRight => "shift right"

end Operation

/-- Why an operation stopped instead of answering. -/
inductive Halt where
  | violation (cause : Violation)
  | overflow (operation : Operation)
  | outOfBounds (length index : Nat)
  | divisionByZero
  | panic (text : String)
  | endlessWait
  deriving DecidableEq

namespace Halt

def message : Halt → String
  | .violation cause => cause.message
  | .overflow operation => "attempt to " ++ operation.name ++ " with overflow"
  | .outOfBounds length index =>
      "index out of bounds: the len is " ++ toString length ++ " but the index is " ++
        toString index
  | .divisionByZero => "attempt to divide by zero"
  | .panic text => text
  | .endlessWait => "waiting for ever"

end Halt

/-- A computation on words that either answers or halts. -/
abbrev Checked (α : Type) : Type :=
  Except Halt α

end PhysicalMemory
