import VaxListing.Image
import VaxListing.Listing
import VaxListing.Proofs.HeaderStorage

set_option relaxedAutoImplicit false
set_option autoImplicit false

/-!
# What loading an image file gives

A file that is made of a header, its padding and a payload gives back the header when it is loaded,
together with a memory of the payload and zeros, and every file that can be loaded is of this kind.
A memory of `2 ^ 63` bytes or more cannot be allocated. No file can be loaded into it, and this is
found out before the payload is compared with the memory.

## Main definitions

* `VaxListing.Image.padded` — the memory that a payload is loaded into.

## Main results

* `VaxListing.Image.load_eq` — loading, with all its faults in their order.
* `VaxListing.Image.memory_of_load`, `VaxListing.Image.size_of_load` — the memory of a loaded image.
* `VaxListing.Image.load_ne_capacity` — a memory that can be allocated is not what loading fails at.
* `VaxListing.Image.load_toBytes_append` — a file of a header, padding and a payload can be loaded.
* `VaxListing.image_load_exact` — what loading gives, for every file and all settings.
-/

namespace VaxListing

/-! ## Loading -/

/-- There is a new memory of fewer than `2 ^ 63` bytes, and none of more. -/
lemma Memory.allocate?_eq (n : Nat) :
    allocate? n = if 2 ^ 63 ≤ n then none else some (zeroed n) := by
  have hmax : n ≤ maxSize ↔ ¬ 2 ^ 63 ≤ n := by
    unfold maxSize
    omega
  rw [allocate?]
  simp only [hmax, ite_not]

/-- Storing at the beginning of a memory of zeros. -/
lemma Memory.load_zeroed (n : Nat) (data : List UInt8) :
    (zeroed n).load data 0 =
      if data.length ≤ n then .ok (.ofList (data ++ List.replicate (n - data.length) 0))
      else .error (.loadOverflow 0 data.length n) := by
  rw [load, size_zeroed, Nat.zero_add]
  split
  · congr 2
    apply Array.toList_inj.1
    simp [zeroed]
  · rfl

namespace Image

/-- The memory that a payload is loaded into: the payload, and zeros up to the size. -/
def padded (payload : List UInt8) (memorySize : Nat) : Memory :=
  .ofList (payload ++ List.replicate (memorySize - payload.length) 0)

/-- **Loading, with all its faults in their order.** -/
lemma load_eq (file : List UInt8) (config : Config) :
    load file config =
      if config.memorySize = 0 then .error (.machine (.arch (.config .zeroMemory)))
      else if config.headerSize < 32 then .error (.machine (.arch (.config .headerTooSmall)))
      else match Header.ofBytes file with
        | .error fault => .error (.machine (.arch fault))
        | .ok header =>
          if file.length < config.headerSize then
            .error (.machine (.arch (.headerSize config.headerSize file.length)))
          else if 2 ^ 63 ≤ config.memorySize then .error (.capacity config.memorySize)
          else if config.memorySize < file.length - config.headerSize then
            .error (.machine (.loadOverflow 0 (file.length - config.headerSize) config.memorySize))
          else
            .ok ⟨header, padded (file.drop config.headerSize) config.memorySize,
              file.length - config.headerSize⟩ := by
  have hcheck : config.check =
      if config.memorySize = 0 then .error .zeroMemory
      else if config.headerSize < 32 then .error .headerTooSmall
      else .ok () := rfl
  rw [load, hcheck]
  by_cases hmemory : config.memorySize = 0
  · rw [if_pos hmemory, if_pos hmemory]
  · by_cases hheader : config.headerSize < 32
    · rw [if_neg hmemory, if_neg hmemory, if_pos hheader, if_pos hheader]
    · rw [if_neg hmemory, if_neg hmemory, if_neg hheader, if_neg hheader]
      cases Header.ofBytes file with
      | error fault => rfl
      | ok header =>
        dsimp only
        rw [Memory.allocate?_eq]
        by_cases hcapacity : 2 ^ 63 ≤ config.memorySize
        · rw [if_pos hcapacity, if_pos hcapacity]
        rw [if_neg hcapacity, if_neg hcapacity]
        dsimp only
        rw [Memory.load_zeroed, List.length_drop]
        by_cases hfits : file.length - config.headerSize ≤ config.memorySize
        · rw [if_pos hfits, if_neg (Nat.not_lt.2 hfits), padded, List.length_drop]
        · rw [if_neg hfits, if_pos (Nat.not_le.1 hfits)]

/-- The memory of a loaded image is the payload, which fits into it, and zeros. -/
lemma memory_of_load {file : List UInt8} {config : Config} {image : Image}
    (h : load file config = .ok image) :
    image.memory = padded (file.drop config.headerSize) config.memorySize ∧
      file.length - config.headerSize ≤ config.memorySize := by
  rw [load_eq] at h
  cases hread : Header.ofBytes file with
  | error fault =>
    rw [hread] at h
    split_ifs at h
  | ok header =>
    rw [hread] at h
    dsimp only at h
    split_ifs at h with _ _ _ _ hover
    cases h
    exact ⟨rfl, Nat.not_lt.1 hover⟩

/-- The memory of a loaded image has the size that the settings demand. -/
lemma size_of_load {file : List UInt8} {config : Config} {image : Image}
    (h : load file config = .ok image) : image.memory.size = config.memorySize := by
  obtain ⟨hmemory, hfits⟩ := memory_of_load h
  rw [hmemory, padded, Memory.size_ofList, List.length_append, List.length_replicate,
    List.length_drop]
  omega

/-- Below `2 ^ 63` bytes the memory is not what loading fails at. -/
lemma load_ne_capacity {config : Config} (h : config.memorySize < 2 ^ 63) (file : List UInt8)
    (size : Nat) : load file config ≠ .error (.capacity size) := by
  rw [load_eq]
  cases Header.ofBytes file with
  | error fault => split_ifs <;> simp
  | ok header =>
    dsimp only
    rw [if_neg (Nat.not_le.2 h)]
    split_ifs <;> simp

/-- **A file that is put together can be loaded**: the header is the stored one, and the memory
holds the payload, whatever the padding between them is. -/
lemma load_toBytes_append (header : Header) (padding payload : List UInt8) {memorySize : Nat}
    (hmemory : 0 < memorySize) (hcapacity : memorySize < 2 ^ 63)
    (hfits : payload.length ≤ memorySize) :
    load (header.toBytes ++ padding ++ payload) ⟨memorySize, 32 + padding.length⟩ =
      .ok ⟨header, padded payload memorySize, payload.length⟩ := by
  set file := header.toBytes ++ padding ++ payload with hfile
  have hfront : (header.toBytes ++ padding).length = 32 + padding.length := by
    rw [List.length_append, Header.length_toBytes, Header.size]
  have hlength : file.length - (32 + padding.length) = payload.length := by
    rw [hfile, List.length_append, hfront, Nat.add_sub_cancel_left]
  have hlong : 32 + padding.length ≤ file.length := by
    rw [hfile, List.length_append, hfront]
    omega
  have hpayload : file.drop (32 + padding.length) = payload := List.drop_left' hfront
  have hread : Header.ofBytes file = .ok header := by
    rw [hfile, List.append_assoc]
    exact header.ofBytes_toBytes_append _
  rw [load_eq, hread]
  dsimp only
  rw [if_neg (by omega), if_neg (by omega), if_neg (by omega), if_neg (by omega),
    if_neg (by omega), hpayload, hlength]

end Image

/-- **What loading an image gives.** For every file and all settings, usable or not, loading looks
in this order for: a memory of no bytes, a header that is declared too short, a file too short for a
header, a file shorter than the declared header, a memory of `2 ^ 63` bytes or more, which cannot be
allocated, and a payload that does not fit into the memory. If there is none of these, the memory
has the size that the settings demand and holds the payload followed by zeros, and the header is
stored as the first bytes of the file. So a file that is made of a stored header, padding and a
payload that fits into a memory which can be allocated gives back the header, and its listing is
that of the payload followed by zeros, with the size of the code that the header declares. -/
theorem image_load_exact :
    (∀ (file : List UInt8) (config : Config), ∃ header : Header,
      (32 ≤ file.length → header.toBytes = file.take 32) ∧
      Image.load file config =
        if config.memorySize = 0 then .error (.machine (.arch (.config .zeroMemory)))
        else if config.headerSize < 32 then .error (.machine (.arch (.config .headerTooSmall)))
        else if file.length < 32 then .error (.machine (.arch (.headerSize 32 file.length)))
        else if file.length < config.headerSize then
          .error (.machine (.arch (.headerSize config.headerSize file.length)))
        else if 2 ^ 63 ≤ config.memorySize then .error (.capacity config.memorySize)
        else if config.memorySize < file.length - config.headerSize then
          .error (.machine (.loadOverflow 0 (file.length - config.headerSize) config.memorySize))
        else
          .ok ⟨header, Image.padded (file.drop config.headerSize) config.memorySize,
            file.length - config.headerSize⟩) ∧
    (∀ (file : List UInt8) (config : Config) (image : Image),
      Image.load file config = .ok image → image.memory.size = config.memorySize) ∧
    ∀ (header : Header) (padding payload : List UInt8) (memorySize : Nat), 0 < memorySize →
      memorySize < 2 ^ 63 → payload.length ≤ memorySize →
      ∃ image, Image.load (header.toBytes ++ padding ++ payload)
          ⟨memorySize, 32 + padding.length⟩ = .ok image ∧
        image.header = header ∧
        Listing.collect image.memory image.codeSize =
          Listing.collect (Image.padded payload memorySize) header.textSize := by
  refine ⟨fun file config => ?_, fun file config image h => Image.size_of_load h, ?_⟩
  · by_cases hshort : file.length < 32
    · refine ⟨⟨0, 0, 0, 0, 0, 0, 0, 0⟩, fun hlong => absurd hlong (by omega), ?_⟩
      rw [Image.load_eq, Header.ofBytes_of_short hshort, if_pos hshort]
    · obtain ⟨header, hread, hbytes⟩ := Header.exists_ofBytes (Nat.not_lt.1 hshort)
      refine ⟨header, fun _ => hbytes, ?_⟩
      rw [Image.load_eq, hread, if_neg hshort]
  · intro header padding payload memorySize hmemory hcapacity hfits
    exact ⟨_, Image.load_toBytes_append header padding payload hmemory hcapacity hfits, rfl, rfl⟩

/-- A header with eight different fields, two bytes of padding, and a payload of two instructions
that fills a quarter of the memory. -/
theorem image_load_exact_padding :
    let header : Header := ⟨0x108, 2, 3, 4, 5, 6, 7, 8⟩
    ∃ image, Image.load (header.toBytes ++ [0xaa, 0xbb] ++ [0x01, 0x05]) ⟨8, 34⟩ = .ok image ∧
      image.header = header ∧
      Listing.collect image.memory image.codeSize =
        Listing.collect (.ofList [0x01, 0x05, 0, 0, 0, 0, 0, 0]) 2 :=
  image_load_exact.2.2 _ [0xaa, 0xbb] [0x01, 0x05] 8 (by decide) (by decide) (by decide)

/-- A memory of `2 ^ 63` bytes for a file that is a header and nothing else. The settings can be
used, the header is there and the payload, which is empty, would fit; but the memory cannot be
allocated, and the image is not loaded. -/
theorem image_load_fails_beyond_capacity :
    let file : List UInt8 := List.replicate 32 0
    let config : Config := ⟨2 ^ 63, 32⟩
    config.memorySize ≠ 0 ∧ 32 ≤ config.headerSize ∧ 32 ≤ file.length ∧
      config.headerSize ≤ file.length ∧
      file.length - config.headerSize ≤ config.memorySize ∧
      Image.load file config = .error (.capacity (2 ^ 63)) ∧
      ¬ ∃ image, Image.load file config = .ok image := by
  intro file config
  have hlong : 32 ≤ file.length := by
    decide
  have hload : Image.load file config = .error (.capacity (2 ^ 63)) := by
    obtain ⟨header, hread, -⟩ := Header.exists_ofBytes hlong
    rw [Image.load_eq, hread]
    rfl
  refine ⟨by decide, by decide, hlong, hlong, by decide, hload, ?_⟩
  rintro ⟨image, himage⟩
  rw [hload] at himage
  cases himage

end VaxListing
