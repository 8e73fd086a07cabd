import VaxListing.Proofs.Format

set_option relaxedAutoImplicit false
set_option autoImplicit false

/-!
# Memory over whole histories

What a memory holds can be read off the accesses that were made to it, without making them: every
byte is the one that was stored last at its address. Which accesses succeed can be told from the
size of the memory alone, which no access changes.

## Main definitions

* `VaxListing.Memory.Access`, `VaxListing.Memory.Answer` — an access to a memory, and what it gives.
* `VaxListing.Memory.access` — the answer to an access, and the memory afterwards.
* `VaxListing.Memory.after` — a memory after a history of accesses.
* `VaxListing.Memory.lastStored?` — the byte that was last stored at an address.

## Main results

* `VaxListing.Memory.getElem?_load` — every byte of a memory after storing.
* `VaxListing.Memory.size_access`, `VaxListing.Memory.getElem?_access` — what one access does to the
  size and to every byte.
* `VaxListing.Memory.size_after`, `VaxListing.Memory.getElem?_after` — the same for whole histories.
* `VaxListing.memory_history_last_store_wins` — what every access gives after any history.

## Design

Each access of a history finds the memory that the accesses before it have left behind. So whatever
holds of the next access after every history holds of each access of a history. Offsets, lengths and
sizes are natural numbers, and where a range ends is computed without wrapping.
-/

namespace VaxListing

namespace Memory

/-! ## Histories -/

/-- An access to a memory. -/
inductive Access where
  /-- Stores bytes from an offset on. -/
  | load (data : List UInt8) (offset : Nat)
  /-- Reads the number of a given size at an address. -/
  | read (address : Address) (size : Nat)
  /-- Reads the byte at an address. -/
  | readByte (address : Address)
  /-- Takes the bytes of a range of addresses. -/
  | slice (address : Address) (length : Nat)
  deriving DecidableEq, Repr

/-- What an access gives when it succeeds. -/
inductive Answer where
  /-- The bytes are stored. -/
  | stored
  /-- A number was read. -/
  | number (value : Nat)
  /-- A byte was read. -/
  | byte (value : UInt8)
  /-- The bytes of the range. -/
  | bytes (bytes : List UInt8)
  deriving DecidableEq, Repr

/-- The answer to an access, and the memory afterwards. -/
def access (m : Memory) : Access → Except MachineFault Answer × Memory
  | .load data offset =>
    match m.load data offset with
    | .ok m' => (.ok .stored, m')
    | .error fault => (.error fault, m)
  | .read address size => ((m.read address size).map .number, m)
  | .readByte address => ((m.readByte address).map .byte, m)
  | .slice address length => ((m.slice address length).map .bytes, m)

/-- A memory after a history of accesses, the first one first. -/
def after (m : Memory) (history : List Access) : Memory :=
  history.foldl (fun m a => (m.access a).2) m

/-- The byte that an access stores at the address `p` of a memory of the given size. Bytes that do
not fit the memory are not stored at all. -/
def Access.stored? (size p : Nat) : Access → Option UInt8
  | .load data offset =>
    if offset + data.length ≤ size ∧ offset ≤ p then data[p - offset]? else none
  | _ => none

/-- The byte that was last stored at the address `p` of a memory of the given size. -/
def lastStored? (size p : Nat) (history : List Access) : Option UInt8 :=
  history.reverse.findSome? (Access.stored? size p)

@[simp]
lemma after_nil (m : Memory) : m.after [] = m :=
  rfl

@[simp]
lemma after_concat (m : Memory) (history : List Access) (a : Access) :
    m.after (history ++ [a]) = ((m.after history).access a).2 := by
  simp [after, List.foldl_append]

@[simp]
lemma lastStored?_concat (size p : Nat) (history : List Access) (a : Access) :
    lastStored? size p (history ++ [a]) = (a.stored? size p).or (lastStored? size p history) := by
  unfold lastStored?
  cases ha : a.stored? size p <;> simp [ha]

/-! ## One access -/

/-- **Every byte of a memory after storing**: inside the range it is the byte stored there, and
outside it is as before. -/
lemma getElem?_load {m m' : Memory} {data : List UInt8} {offset : Nat}
    (h : m.load data offset = .ok m') (p : Nat) :
    m'.bytes[p]? =
      if offset ≤ p ∧ p < offset + data.length then data[p - offset]? else m.bytes[p]? := by
  have hfits : offset + data.length ≤ m.size := exists_load_eq_ok_iff.1 ⟨m', h⟩
  have hfront : (m.toList.take offset).length = offset := by
    rw [List.length_take, length_toList]
    omega
  have hbytes : m'.bytes[p]? = m'.toList[p]? := by
    simp [toList]
  rw [hbytes, toList_load h, List.append_assoc]
  by_cases hbefore : p < offset
  · rw [List.getElem?_append_left (by omega), if_neg (by omega)]
    simp [toList, hbefore]
  rw [List.getElem?_append_right (by omega), hfront]
  by_cases hinside : p < offset + data.length
  · rw [List.getElem?_append_left (by omega), if_pos (by omega)]
  · rw [List.getElem?_append_right (by omega), if_neg (by omega), List.getElem?_drop,
      show offset + data.length + (p - offset - data.length) = p by omega]
    simp [toList]

/-- Storing is refused, with its range and the size of the memory, where the range does not fit. -/
lemma load_of_lt {m : Memory} {data : List UInt8} {offset : Nat}
    (h : m.size < offset + data.length) :
    m.load data offset = .error (.loadOverflow offset data.length m.size) := by
  unfold load
  exact if_neg (by omega)

/-- No access changes the size. -/
@[simp]
lemma size_access (m : Memory) (a : Access) : (m.access a).2.size = m.size := by
  cases a with
  | load data offset =>
    cases h : m.load data offset with
    | ok m' => simpa [access, h] using size_load h
    | error fault => simp [access, h]
  | _ => rfl

/-- **What one access does to the byte at an address**: it stores a byte there, or leaves the byte
as it is. -/
lemma getElem?_access (m : Memory) (a : Access) (p : Nat) :
    (m.access a).2.bytes[p]? = (a.stored? m.size p).or m.bytes[p]? := by
  cases a with
  | load data offset =>
    by_cases hfits : offset + data.length ≤ m.size
    · obtain ⟨m', h⟩ := exists_load_eq_ok_iff.2 hfits
      simp only [access, h, getElem?_load h, Access.stored?, hfits, true_and]
      by_cases hbefore : offset ≤ p
      · by_cases hinside : p < offset + data.length
        · have hlt : p - offset < data.length := by omega
          simp [hbefore, hinside, List.getElem?_eq_getElem hlt]
        · have hge : data.length ≤ p - offset := by omega
          simp [hbefore, hinside, List.getElem?_eq_none hge]
      · simp [hbefore]
    · simp [access, load_of_lt (Nat.lt_of_not_le hfits), Access.stored?, hfits]
  | _ => simp [access, Access.stored?]

/-! ## Whole histories -/

/-- No history changes the size. -/
@[simp]
lemma size_after (m : Memory) (history : List Access) : (m.after history).size = m.size := by
  induction history using List.reverseRecOn with
  | nil => rfl
  | append_singleton history a ih => rw [after_concat, size_access, ih]

/-- **Every byte is the one stored last at its address**, or the initial one if none was. -/
lemma getElem?_after (m : Memory) (history : List Access) (p : Nat) :
    (m.after history).bytes[p]? = (lastStored? m.size p history).or m.bytes[p]? := by
  induction history using List.reverseRecOn with
  | nil => simp [lastStored?]
  | append_singleton history a ih =>
    rw [after_concat, getElem?_access, size_after, ih, lastStored?_concat, Option.or_assoc]

/-! ## Answers -/

/-- Storing succeeds exactly if the range fits the memory. -/
lemma access_load_iff (m : Memory) (data : List UInt8) (offset : Nat) :
    (m.access (.load data offset)).1 = .ok .stored ↔ offset + data.length ≤ m.size := by
  rw [← exists_load_eq_ok_iff]
  cases h : m.load data offset <;> simp [access, h]

/-- A slice is answered by the bytes of its range exactly if the range is inside the memory. -/
lemma access_slice_iff (m : Memory) (address : Address) (length : Nat) (bytes : List UInt8) :
    (m.access (.slice address length)).1 = .ok (.bytes bytes) ↔
      address.toNat + length ≤ m.size ∧ bytes = (m.toList.drop address.toNat).take length := by
  simp only [access, slice_eq]
  split_ifs with hinside
  · simp [Except.map, hinside, eq_comm]
  · simp [Except.map, hinside]

/-- A number is refused for its size exactly if no number has this size, wherever it is. -/
lemma access_read_iff (m : Memory) (address : Address) (size : Nat) :
    (m.access (.read address size)).1 = .error (.readSize size) ↔ size ∉ [1, 2, 4, 8, 16] := by
  rw [← isReadSize_iff]
  by_cases hsize : isReadSize size = true
  · by_cases hinside : address.toNat + size ≤ m.size <;>
      simp [access, read, slice_eq, Except.map, hsize, hinside]
  · simp [access, read, Except.map, hsize]

/-- An access that fails leaves the memory as it is. -/
lemma access_of_error {m : Memory} {a : Access} {fault : MachineFault}
    (h : (m.access a).1 = .error fault) : (m.access a).2 = m := by
  cases a with
  | load data offset =>
    cases hload : m.load data offset with
    | ok m' => simp [access, hload] at h
    | error fault' => simp [access, hload]
  | _ => rfl

end Memory

/-- **Memory over whole histories.** After every history of accesses to any memory, the size is what
it was at first, and the byte at each address is the one that was stored there last, or the initial
one if there is none; only what fits the memory is stored. The next access has these answers. Bytes
are stored exactly if their range, whose end does not wrap, ends inside the memory. A slice is given
exactly if its range ends inside the memory, and then it is the present bytes of the range. The size
of a number is refused exactly if it is none of five, whether or not the range is inside the memory.
An access that fails changes nothing, and neither does an access that does not store. -/
theorem memory_history_last_store_wins (m₀ : Memory) (history : List Memory.Access) :
    let m := m₀.after history
    m.size = m₀.size ∧
    (∀ p, m.bytes[p]? = (Memory.lastStored? m₀.size p history).or m₀.bytes[p]?) ∧
    (∀ data offset, (m.access (.load data offset)).1 = .ok .stored ↔
      offset + data.length ≤ m₀.size) ∧
    (∀ address length bytes, (m.access (.slice address length)).1 = .ok (.bytes bytes) ↔
      address.toNat + length ≤ m₀.size ∧ bytes = (m.toList.drop address.toNat).take length) ∧
    (∀ address size, (m.access (.read address size)).1 = .error (.readSize size) ↔
      size ∉ [1, 2, 4, 8, 16]) ∧
    (∀ a fault, (m.access a).1 = .error fault → (m.access a).2 = m) ∧
    ∀ address n, (m.access (.read address n)).2 = m ∧ (m.access (.readByte address)).2 = m ∧
      (m.access (.slice address n)).2 = m := by
  intro m
  have hsize : m.size = m₀.size := m₀.size_after history
  refine ⟨hsize, m₀.getElem?_after history, fun data offset => ?_, fun address length bytes => ?_,
    m.access_read_iff, fun a fault => Memory.access_of_error, fun address n => ⟨rfl, rfl, rfl⟩⟩
  · rw [← hsize, m.access_load_iff]
  · rw [← hsize, m.access_slice_iff]

/-- Two stores that overlap, one of no bytes at the very end, and two that do not fit; the range of
one of the latter ends at address one if its end is computed modulo `2 ^ 64`. -/
theorem memory_history_last_store_wins_overlapping :
    let m₀ := Memory.ofList [1, 2, 3, 4, 5]
    let history : List Memory.Access := [.load [10, 11, 12] 1, .load [20, 21] (2 ^ 64 - 1),
      .slice 0 5, .load [30] 2, .load [] 5, .load [40, 41] 4]
    let m := m₀.after history
    m.bytes[1]? = some 10 ∧ m.bytes[2]? = some 30 ∧ m.bytes[4]? = some 5 ∧
      (m.access (.slice 1 4)).1 = .ok (.bytes [10, 30, 12, 5]) ∧
      (m.access (.load [20, 21] (2 ^ 64 - 1))).1 ≠ .ok .stored ∧
      (m.access (.read 9 3)).1 = .error (.readSize 3) ∧ (m.access (.read 9 3)).2 = m := by
  intro m₀ history m
  obtain ⟨-, hbytes, hload, hslice, hread, hfault, -⟩ :=
    memory_history_last_store_wins m₀ history
  have hrefused := (hread 9 3).2 (by decide)
  exact ⟨(hbytes 1).trans (by decide), (hbytes 2).trans (by decide), (hbytes 4).trans (by decide),
    (hslice 1 4 _).2 (by decide), fun h => absurd ((hload _ _).1 h) (by decide), hrefused,
    hfault _ _ hrefused⟩

end VaxListing
