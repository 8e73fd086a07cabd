import VaxListing.Image.Config
import VaxListing.Image.Header
import VaxListing.Log
import VaxListing.Memory

set_option relaxedAutoImplicit false
set_option autoImplicit false

/-!
# Loading an image

An image file is a header, padding up to the declared header size, and the payload. Loading stores
the payload at address zero of a new memory; the rest of the memory is zero. The memory is allocated
when everything else has been looked at but whether the payload fits into it.

## Main definitions

* `VaxListing.Image` — a loaded image.
* `VaxListing.Image.load` — the image in a file, or the first thing that keeps it from being loaded.
* `VaxListing.Image.events` — the events of loading it.
-/

namespace VaxListing

/-- A loaded image. -/
structure Image where
  /-- The file's header. -/
  header : Header
  /-- The memory that holds the payload. -/
  memory : Memory
  /-- The number of bytes of the payload. -/
  payloadSize : Nat

namespace Image

/-- The size of the code, as the header declares it. -/
def codeSize (image : Image) : UInt32 :=
  image.header.textSize

/-- Loads the image in a file. The settings are looked at first, then whether the file is long
enough for a header, then whether it is as long as the declared header, then whether there can be a
memory of the demanded size, and last whether the payload fits into it. -/
def load (file : List UInt8) (config : Config) : Except LoadFault Image :=
  match config.check with
  | .error fault => .error (.machine (.arch (.config fault)))
  | .ok () =>
    match Header.ofBytes file with
    | .error fault => .error (.machine (.arch fault))
    | .ok header =>
      if file.length < config.headerSize then
        .error (.machine (.arch (.headerSize config.headerSize file.length)))
      else
        let payload := file.drop config.headerSize
        match Memory.allocate? config.memorySize with
        | none => .error (.capacity config.memorySize)
        | some memory =>
          match memory.load payload 0 with
          | .error fault => .error (.machine fault)
          | .ok memory => .ok { header, memory, payloadSize := payload.length }

/-- The events of loading the image. -/
def events (image : Image) : List Log.Event :=
  .loaded image.payloadSize image.header.textSize image.header.dataSize ::
    if image.payloadSize < image.header.textSize.toNat then
      [.codeExceedsPayload image.header.textSize image.payloadSize]
    else []

end Image

end VaxListing
