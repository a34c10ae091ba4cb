import PhysicalMemory.Text.Numeral

/-!
# Failures

A failure is an answer: the request is refused, and the manager goes on.  There
are three families, for allocation requests, for zone numbers and for memory
layouts at boot.  Each has the sentence it is reported with, its label, and the
form in which records show it.
-/

namespace PhysicalMemory

inductive AllocFailure where
  | zeroSize
  | orderTooLarge (order max : Nat)
  | outOfMemory (order : Nat)
  | objectTooLarge (size : Nat)
  | invalidAlignment (alignment : Nat)
  | notInitialized
  deriving DecidableEq

namespace AllocFailure

def message : AllocFailure → String
  | .zeroSize => "zero-sized allocation request"
  | .orderTooLarge order max =>
      "order " ++ toString order ++ " exceeds the largest order " ++ toString max
  | .outOfMemory order => "no free block of order " ++ toString order ++ " or larger"
  | .objectTooLarge size =>
      "objects of " ++ toString size ++ " bytes do not fit in a slab"
  | .invalidAlignment alignment =>
      "alignment " ++ toString alignment ++ " is not a power of two no larger than a page"
  | .notInitialized => "the physical memory manager is not initialized"

def label : AllocFailure → String
  | .zeroSize => "ZeroSize"
  | .orderTooLarge _ _ => "OrderTooLarge"
  | .outOfMemory _ => "OutOfMemory"
  | .objectTooLarge _ => "ObjectTooLarge"
  | .invalidAlignment _ => "InvalidAlignment"
  | .notInitialized => "NotInitialized"

def fields : AllocFailure → String
  | .orderTooLarge order max =>
      " \x7b order: " ++ toString order ++ ", max: " ++ toString max ++ " \x7d"
  | .outOfMemory order => " \x7b order: " ++ toString order ++ " \x7d"
  | .objectTooLarge size => " \x7b size: " ++ toString size ++ " \x7d"
  | .invalidAlignment alignment => " \x7b align: " ++ toString alignment ++ " \x7d"
  | .zeroSize => ""
  | .notInitialized => ""

def inspect (failure : AllocFailure) : String :=
  failure.label ++ failure.fields

end AllocFailure

inductive ZoneFailure where
  | notFound (number : Nat)
  deriving DecidableEq

namespace ZoneFailure

def message : ZoneFailure → String
  | .notFound number => "no zone with id " ++ toString number

def label : ZoneFailure → String
  | .notFound _ => "NotFound"

def inspect : ZoneFailure → String
  | .notFound number => "NotFound(" ++ toString number ++ ")"

end ZoneFailure

inductive BootFailure where
  | invalidPageSize (size : Nat)
  | unalignedRam (start size : Nat)
  | kernelEndOutOfRange (kernelEnd : Nat)
  | metadataExhaustsRam (metadataEnd ramEnd : Nat)
  | bootstrap (cause : AllocFailure)
  | alreadyInitialized
  deriving DecidableEq

namespace BootFailure

def message : BootFailure → String
  | .invalidPageSize size =>
      "page size " ++ toString size ++ " is not a supported power of two"
  | .unalignedRam start size =>
      "RAM window " ++ hex start ++ "+" ++ hex size ++ " is not page aligned"
  | .kernelEndOutOfRange kernelEnd => "kernel end " ++ hex kernelEnd ++ " lies outside RAM"
  | .metadataExhaustsRam metadataEnd ramEnd =>
      "allocator metadata ends at " ++ hex metadataEnd ++ ", leaving no heap before " ++
        hex ramEnd
  | .bootstrap cause => "bootstrap slab cache could not be created: " ++ cause.message
  | .alreadyInitialized => "the physical memory manager is already initialized"

def label : BootFailure → String
  | .invalidPageSize _ => "InvalidPageSize"
  | .unalignedRam _ _ => "UnalignedRam"
  | .kernelEndOutOfRange _ => "KernelEndOutOfRange"
  | .metadataExhaustsRam _ _ => "MetadataExhaustsRam"
  | .bootstrap _ => "Bootstrap"
  | .alreadyInitialized => "AlreadyInitialized"

def fields : BootFailure → String
  | .invalidPageSize size => "(" ++ toString size ++ ")"
  | .unalignedRam start size =>
      " \x7b start: " ++ toString start ++ ", size: " ++ toString size ++ " \x7d"
  | .kernelEndOutOfRange kernelEnd => "(" ++ toString kernelEnd ++ ")"
  | .metadataExhaustsRam metadataEnd ramEnd =>
      " \x7b metadata_end: " ++ toString metadataEnd ++ ", ram_end: " ++ toString ramEnd ++
        " \x7d"
  | .bootstrap cause => "(" ++ cause.inspect ++ ")"
  | .alreadyInitialized => ""

def inspect (failure : BootFailure) : String :=
  failure.label ++ failure.fields

/-- The failure that led to this one. -/
def cause? : BootFailure → Option AllocFailure
  | .bootstrap cause => some cause
  | _ => none

end BootFailure

end PhysicalMemory
