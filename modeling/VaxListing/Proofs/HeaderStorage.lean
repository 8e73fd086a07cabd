import VaxListing.Image.Header
import VaxListing.Proofs.Format

set_option relaxedAutoImplicit false
set_option autoImplicit false

/-!
# How a header is stored

A header is stored as the bytes of its fields, in their order and the least significant byte first.
Storing a header and reading it are inverse to each other: what was stored is read back, whatever
follows it, and what was read would be stored as it was.

## Main definitions

* `VaxListing.Header.store` — numbers of four bytes, one after another.

## Main results

* `VaxListing.Header.getElem?_store` — every byte of stored numbers.
* `VaxListing.Header.ofBytes_toBytes_append` — a stored header is read back, whatever follows it.
* `VaxListing.Header.exists_ofBytes` — a header that is read is stored as it was.
* `VaxListing.header_round_trip` — both together, with the only fault and the place of every byte.
-/

namespace VaxListing

/-! ## Numbers of four bytes -/

/-- The bytes of a number are its digits to the base `256`. -/
lemma Bytes.getElem?_ofValue {n i : Nat} (h : i < n) (v : Nat) :
    (ofValue n v)[i]? = some (.ofNat (v / 256 ^ i)) := by
  induction n generalizing i v with
  | zero => omega
  | succ n ih =>
    rw [ofValue]
    cases i with
    | zero => simp
    | succ i =>
      rw [List.getElem?_cons_succ, ih (by omega), Nat.div_div_eq_div_mul, ← pow_succ']

namespace Header

/-- The bytes of numbers of four bytes, one after another. -/
def store (words : List UInt32) : List UInt8 :=
  words.flatMap fun word => Bytes.ofValue 4 word.toNat

/-- The number at the beginning of stored numbers. -/
lemma field_zero (word : UInt32) (rest : List UInt8) :
    field (Bytes.ofValue 4 word.toNat ++ rest) 0 = word := by
  have hlt : word.toNat < Bytes.capacity 4 := word.toNat_lt
  rw [field, Nat.mul_zero, List.drop_zero, List.take_left' (Bytes.length_ofValue 4 _),
    Bytes.value_ofValue, Nat.mod_eq_of_lt hlt, UInt32.ofNat_toNat]

/-- The numbers behind the first four bytes. -/
lemma field_succ {first : List UInt8} (hfirst : first.length = 4) (rest : List UInt8) (i : Nat) :
    field (first ++ rest) (i + 1) = field rest i := by
  have hdrop : (first ++ rest).drop (4 * (i + 1)) = rest.drop (4 * i) := by
    rw [Nat.mul_succ, Nat.add_comm, ← List.drop_drop, List.drop_left' hfirst]
  rw [field, field, hdrop]

/-- Stored numbers are read back, whatever follows them. -/
lemma map_field_store (words : List UInt32) (rest : List UInt8) :
    (List.range words.length).map (field (store words ++ rest)) = words := by
  induction words with
  | nil => rfl
  | cons word words ih =>
    have hstore : store (word :: words) ++ rest =
        Bytes.ofValue 4 word.toNat ++ (store words ++ rest) := by
      rw [store, List.flatMap_cons, List.append_assoc, store]
    have hrest : field (Bytes.ofValue 4 word.toNat ++ (store words ++ rest)) ∘ Nat.succ =
        field (store words ++ rest) := by
      funext i
      exact field_succ (Bytes.length_ofValue 4 _) _ i
    rw [hstore, List.length_cons, List.range_succ_eq_map, List.map_cons, List.map_map, field_zero,
      hrest, ih]

/-- Storing the number that was read from four bytes gives these bytes. -/
lemma ofValue_field {bytes : List UInt8} {i : Nat} (h : 4 * i + 4 ≤ bytes.length) :
    Bytes.ofValue 4 (field bytes i).toNat = (bytes.drop (4 * i)).take 4 := by
  set word := (bytes.drop (4 * i)).take 4 with hword
  have hlen : word.length = 4 := by
    rw [hword, List.length_take, List.length_drop]
    omega
  have hlt := value_lt_capacity word
  have hback := ofValue_value word
  rw [hlen] at hlt hback
  rw [field, ← hword, UInt32.toNat_ofNat_of_lt' hlt, hback]

/-- Storing the numbers that were read from the beginning of a byte string gives the bytes that were
read. -/
lemma store_map_field {bytes : List UInt8} (n : Nat) (h : 4 * n ≤ bytes.length) :
    store ((List.range n).map (field bytes)) = bytes.take (4 * n) := by
  induction n with
  | zero => rfl
  | succ n ih =>
    have hlast : store [field bytes n] = (bytes.drop (4 * n)).take 4 := by
      rw [store, List.flatMap_singleton, ofValue_field (by omega)]
    have happend : ∀ xs ys, store (xs ++ ys) = store xs ++ store ys := by
      intro xs ys
      rw [store, List.flatMap_append, store, store]
    rw [List.range_succ, List.map_append, happend, ih (by omega), List.map_singleton, hlast,
      ← List.take_add, Nat.mul_succ]

/-- **Every byte of stored numbers.** The number `i` takes the four bytes from number `4 * i` on.

**Proof sketch.** Induction on the numbers. Without the first one, every other one moves up by one,
and its bytes by four. -/
lemma getElem?_store (words : List UInt32) (i : Nat) {j : Nat} (hj : j < 4) :
    (store words)[4 * i + j]? = words[i]?.map fun word => .ofNat (word.toNat / 256 ^ j) := by
  induction words generalizing i with
  | nil => simp [store]
  | cons word words ih =>
    have hlength := Bytes.length_ofValue 4 word.toNat
    have hstore : store (word :: words) = Bytes.ofValue 4 word.toNat ++ store words := rfl
    rw [hstore]
    cases i with
    | zero =>
      rw [Nat.mul_zero, Nat.zero_add, List.getElem?_append_left (by omega),
        Bytes.getElem?_ofValue hj]
      rfl
    | succ i =>
      rw [List.getElem?_append_right (by omega), hlength,
        show 4 * (i + 1) + j - 4 = 4 * i + j by omega, ih]
      rfl

/-! ## Headers -/

/-- A header is determined by its fields. -/
lemma fields_injective : Function.Injective fields := by
  rintro ⟨⟩ ⟨⟩ h
  simpa [fields] using h

/-- **A stored header is read back**, whatever follows it. -/
lemma ofBytes_toBytes_append (h : Header) (rest : List UInt8) :
    ofBytes (h.toBytes ++ rest) = .ok h := by
  have hlong : ¬ (h.toBytes ++ rest).length < size := by
    rw [List.length_append, length_toBytes]
    omega
  rw [ofBytes, if_neg hlong]
  congr 1
  apply fields_injective
  exact map_field_store h.fields rest

/-- A file that is too short has no header. -/
lemma ofBytes_of_short {bytes : List UInt8} (h : bytes.length < 32) :
    ofBytes bytes = .error (.headerSize 32 bytes.length) :=
  if_pos h

/-- **A file that is long enough has a header**, which is stored as its first bytes. -/
lemma exists_ofBytes {bytes : List UInt8} (h : 32 ≤ bytes.length) :
    ∃ header, ofBytes bytes = .ok header ∧ header.toBytes = bytes.take 32 :=
  ⟨_, if_neg (Nat.not_lt.2 h), store_map_field 8 h⟩

end Header

/-- **Storing a header and reading it are inverse to each other.** Every stored header is read back,
whatever follows it. Every byte string of at least 32 bytes is read as a header, which is stored as
the first 32 of them. Reading fails exactly if there are fewer, and then names their number. In a
stored header the byte number `4 * i + j`, with `j` below four, is the byte number `j` of the field
number `i`, counted from the least significant one. -/
theorem header_round_trip :
    (∀ (h : Header) (rest : List UInt8), Header.ofBytes (h.toBytes ++ rest) = .ok h) ∧
    (∀ bytes : List UInt8, 32 ≤ bytes.length →
      ∃ h, Header.ofBytes bytes = .ok h ∧ h.toBytes = bytes.take 32) ∧
    (∀ (bytes : List UInt8) (fault : ArchFault), Header.ofBytes bytes = .error fault ↔
      bytes.length < 32 ∧ fault = .headerSize 32 bytes.length) ∧
    ∀ (h : Header) (i j : Nat), j < 4 →
      h.toBytes[4 * i + j]? =
        [h.magic, h.textSize, h.dataSize, h.bssSize, h.symbolSize, h.entryPoint, h.textRelocSize,
          h.dataRelocSize][i]?.map fun field => .ofNat (field.toNat / 256 ^ j) := by
  refine ⟨Header.ofBytes_toBytes_append, fun bytes => Header.exists_ofBytes, ?_, ?_⟩
  · intro bytes fault
    by_cases hshort : bytes.length < 32
    · rw [Header.ofBytes_of_short hshort]
      simp [hshort, eq_comm]
    · obtain ⟨h, hread, -⟩ := Header.exists_ofBytes (Nat.not_lt.1 hshort)
      rw [hread]
      simp [hshort]
  · intro h i j hj
    exact Header.getElem?_store h.fields i hj

/-- A header with eight different fields in a longer file, and the second byte of its last field. -/
theorem header_round_trip_different_fields :
    let h : Header := ⟨0x108, 2, 3, 4, 5, 6, 7, 0xaabbccdd⟩
    Header.ofBytes (h.toBytes ++ [0xff]) = .ok h ∧
    (∃ h', Header.ofBytes (h.toBytes ++ [0xff]) = .ok h' ∧ h'.toBytes = h.toBytes) ∧
    Header.ofBytes (h.toBytes.take 12) = .error (.headerSize 32 12) ∧
    h.toBytes[29]? = some 0xcc := by
  intro h
  obtain ⟨hstored, hread, hfault, hbyte⟩ := header_round_trip
  exact ⟨hstored h [0xff], hread (h.toBytes ++ [0xff]) (by decide),
    (hfault (h.toBytes.take 12) _).2 (by decide), (hbyte h 7 1 (by decide)).trans (by decide)⟩

end VaxListing
