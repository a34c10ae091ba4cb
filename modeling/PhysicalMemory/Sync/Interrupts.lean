/-!
# Interrupt requests

A core has a register of masked exceptions, in which one bit masks interrupt requests.  A
guard of the mask sets this bit unless it is set already, and only the guard that has set it
clears it again.  A program that is hosted may not touch the register: to it interrupt
requests are never enabled, and masking them does nothing.
-/

namespace PhysicalMemory

inductive Core where
  | hosted
  | bare (daif : BitVec 64)
  deriving DecidableEq

namespace Core

/-- The bit that masks interrupt requests. -/
def irqBit : BitVec 64 :=
  1#64 <<< 7

def irqsEnabled : Core → Bool
  | .hosted => false
  | .bare daif => daif &&& irqBit == 0

def maskIrqs : Core → Core
  | .hosted => .hosted
  | .bare daif => .bare (daif ||| irqBit)

def unmaskIrqs : Core → Core
  | .hosted => .hosted
  | .bare daif => .bare (daif &&& ~~~irqBit)

@[simp] theorem irqsEnabled_maskIrqs (core : Core) : core.maskIrqs.irqsEnabled = false := by
  cases core with
  | hosted => rfl
  | bare daif =>
      have kept : (daif ||| irqBit) &&& irqBit = irqBit := by
        ext position inside
        cases set : irqBit[position] <;> simp [set]
      simp only [maskIrqs, irqsEnabled, kept]
      decide

theorem unmaskIrqs_maskIrqs {core : Core} (enabled : core.irqsEnabled = true) :
    core.maskIrqs.unmaskIrqs = core := by
  cases core with
  | hosted => rfl
  | bare daif =>
      have clear : daif &&& irqBit = 0 := eq_of_beq enabled
      simp only [maskIrqs, unmaskIrqs, bare.injEq]
      ext position inside
      have bit := congrArg (·[position]) clear
      simp at bit ⊢
      cases set : irqBit[position] <;> simp_all

end Core

/-- What a guard of the mask remembers. -/
structure IrqGuard where
  wereEnabled : Bool
  deriving DecidableEq

namespace IrqGuard

def new (core : Core) : IrqGuard × Core :=
  let enabled := core.irqsEnabled
  (⟨enabled⟩, if enabled then core.maskIrqs else core)

def drop (guard : IrqGuard) (core : Core) : Core :=
  if guard.wereEnabled then core.unmaskIrqs else core

@[simp] theorem irqsEnabled_new (core : Core) : (new core).2.irqsEnabled = false := by
  by_cases enabled : core.irqsEnabled = true
  · simp [new, enabled]
  · simp [new, enabled]

/-- A guard that is dropped leaves the mask as it found it. -/
@[simp] theorem drop_new (core : Core) : (new core).1.drop (new core).2 = core := by
  by_cases enabled : core.irqsEnabled = true
  · simp [new, drop, enabled, Core.unmaskIrqs_maskIrqs enabled]
  · simp [new, drop, enabled]

end IrqGuard

end PhysicalMemory
