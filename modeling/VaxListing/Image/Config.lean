import VaxListing.Fault

set_option relaxedAutoImplicit false
set_option autoImplicit false

/-!
# Settings for loading an image

How large a memory the image is loaded into, and how many bytes of the file come before the part
that is loaded.

## Main definitions

* `VaxListing.Config` — the settings, usable or not.
* `VaxListing.Config.default` — the usual settings.
* `VaxListing.Config.check` — the fault of settings that cannot be used.
* `VaxListing.Config.new` — usable settings only.
-/

namespace VaxListing

/-- Settings for loading an image. -/
structure Config where
  /-- The number of bytes of memory. -/
  memorySize : Nat
  /-- The number of bytes in front of the part of the file that is loaded. -/
  headerSize : Nat
  deriving DecidableEq, Repr

namespace Config

/-- A memory of 64 KB, and a header without padding. -/
def default : Config :=
  ⟨65536, 32⟩

/-- The fault of settings that cannot be used. The memory is looked at before the header. -/
def check (c : Config) : Except ConfigFault Unit :=
  if c.memorySize = 0 then .error .zeroMemory
  else if c.headerSize < minHeaderSize then .error .headerTooSmall
  else .ok ()

/-- Settings that can be used. -/
def new (memorySize headerSize : Nat) : Except ConfigFault Config :=
  let c : Config := ⟨memorySize, headerSize⟩
  c.check.map fun _ => c

/-- The settings with another memory size, which is not checked. -/
def withMemorySize (c : Config) (size : Nat) : Config :=
  { c with memorySize := size }

/-- The settings in words. -/
def describe (c : Config) : String :=
  s!"Config \x7b memory: {c.memorySize} bytes ({c.memorySize / 1024} KB), " ++
    s!"header: {c.headerSize} bytes \x7d"

end Config

end VaxListing
