import Mathlib.Tactic
import VaxListing.Cursor

set_option relaxedAutoImplicit false
set_option autoImplicit false

/-!
# Formats: what a piece of decoding accepts

A format says how the values of a type stand in the code: which bytes each value has, and which
values can stand at an address. A piece of decoding reads a format when it succeeds exactly on the
bytes of the format's values, gives the value back, and moves the program counter behind the bytes;
and when every other outcome is an access out of bounds at the point where the bytes ended.

Formats are put together as decoders are: `Reads.bind` gives the format of two decoders in a row, so
the format of an operand or of an instruction follows from the formats of its parts.

## Main definitions

* `VaxListing.Memory.HoldsAt` — a byte string stands in memory at an address.
* `VaxListing.Format` — the bytes of each value, and the values that fit an address.
* `VaxListing.Reads` — the outcome of decoding is the one that a format demands.
* `VaxListing.cursorOf` — the cursor that a piece of decoding leaves behind.

## Main results

* `VaxListing.Reads.bind` — decoding one piece after another reads one format behind another.
* `VaxListing.reads_fetchByte`, `VaxListing.reads_fetchModeByte`, `VaxListing.reads_fetch` — the
  formats of the three kinds of fetches.

## Design

Addresses in formats are natural numbers and never wrap. The fetches are the only place where the
wrapping program counter meets them, and it is there that the memory has to be smaller than
`2 ^ 32` bytes.
-/

namespace VaxListing

/-! ## Byte strings in memory -/

namespace Memory

/-- The byte string `bs` stands in memory from the address `p` on. -/
def HoldsAt (m : Memory) (p : Nat) (bs : List UInt8) : Prop :=
  bs <+: m.toList.drop p

instance (m : Memory) (p : Nat) (bs : List UInt8) : Decidable (m.HoldsAt p bs) :=
  inferInstanceAs (Decidable (bs <+: m.toList.drop p))

@[simp]
lemma holdsAt_nil (m : Memory) (p : Nat) : m.HoldsAt p [] :=
  List.nil_prefix

/-- A byte string stands in memory when its first part does and the rest stands behind it. -/
lemma holdsAt_append {m : Memory} {p : Nat} {xs ys : List UInt8} :
    m.HoldsAt p (xs ++ ys) ↔ m.HoldsAt p xs ∧ m.HoldsAt (p + xs.length) ys := by
  unfold HoldsAt
  rw [← List.drop_drop]
  constructor
  · rintro ⟨rest, h⟩
    rw [← h, List.append_assoc, List.drop_left]
    exact ⟨List.prefix_append _ _, List.prefix_append _ _⟩
  · rintro ⟨⟨rest, h⟩, hys⟩
    rw [← h] at hys ⊢
    rw [List.drop_left] at hys
    exact (List.prefix_append_right_inj xs).2 hys

/-- A byte string that is not empty ends inside the memory. -/
lemma HoldsAt.le_size {m : Memory} {p : Nat} {bs : List UInt8} (h : m.HoldsAt p bs)
    (hne : bs ≠ []) : p + bs.length ≤ m.size := by
  have hlen := List.IsPrefix.length_le h
  have hpos := List.length_pos_iff.2 hne
  rw [List.length_drop, length_toList] at hlen
  omega

/-- A byte string in memory is the segment of its length. -/
lemma HoldsAt.eq_take {m : Memory} {p : Nat} {bs : List UInt8} (h : m.HoldsAt p bs) :
    (m.toList.drop p).take bs.length = bs :=
  (List.prefix_iff_eq_take.1 h).symm

/-- Inside the memory, a segment stands where it was taken. -/
lemma holdsAt_take (m : Memory) (p n : Nat) : m.HoldsAt p ((m.toList.drop p).take n) :=
  List.take_prefix _ _

/-- A single byte stands in memory where it is found. -/
lemma holdsAt_singleton {m : Memory} {p : Nat} {b : UInt8} :
    m.HoldsAt p [b] ↔ m.bytes[p]? = some b := by
  unfold HoldsAt
  rw [List.prefix_iff_getElem?]
  simp [toList]

end Memory

/-! ## Formats and what it means to read them -/

/-- How the values of a type stand in the code. -/
structure Format (α : Type) where
  /-- The bytes of a value. -/
  bytes : α → List UInt8
  /-- Whether a value can stand at an address. -/
  Fits : Nat → α → Prop

namespace Format

/-- The format of a value that takes no bytes. -/
def unit {α : Type} (a : α) : Format α :=
  ⟨fun _ => [], fun _ b => b = a⟩

/-- A single byte. -/
def byte : Format UInt8 :=
  ⟨fun b => [b], fun _ _ => True⟩

/-- A number of `n` bytes. -/
def number (n : Nat) : Format Nat :=
  ⟨Bytes.ofValue n, fun _ v => v < Bytes.capacity n⟩

end Format

/-- An access out of bounds at the cursor `c'`, which decoding has reached from `c`: the size is one
that numbers have, and the bytes between the two cursors were all there. -/
structure Overrun (m : Memory) (c c' : Cursor) (fault : MachineFault) : Prop where
  /-- The fault names the program counter, and a size that does not fit there. -/
  fault_eq : ∃ n, Memory.isReadSize n = true ∧ fault = .outOfBounds c'.pc.toNat n ∧
    m.size < c'.pc.toNat + n
  /-- What was read before the fault stands in memory. -/
  reached : ∃ bs, m.HoldsAt c.pc.toNat bs ∧ c'.pc.toNat = c.pc.toNat + bs.length

/-- The outcome `r` of decoding from the cursor `c` is the one that the format `F` demands. -/
structure Reads {α : Type} (m : Memory) (F : Format α) (c : Cursor)
    (r : EStateM.Result MachineFault Cursor α) : Prop where
  /-- A result fits, its bytes stand at the cursor, and the cursor has moved behind them. -/
  sound : ∀ {a c'}, r = .ok a c' → F.Fits c.pc.toNat a ∧ m.HoldsAt c.pc.toNat (F.bytes a) ∧
    c'.pc.toNat = c.pc.toNat + (F.bytes a).length
  /-- A value that fits and whose bytes stand at the cursor is the result. -/
  complete : ∀ {a}, F.Fits c.pc.toNat a → m.HoldsAt c.pc.toNat (F.bytes a) → ∃ c', r = .ok a c'
  /-- Every fault is an access out of bounds. -/
  overrun : ∀ {fault c'}, r = .error fault c' → Overrun m c c' fault

namespace Reads

variable {α β : Type} {m : Memory} {c : Cursor}

/-- A result, with its cursor at the address that the format demands. -/
lemma exists_ok {F : Format α} {r : EStateM.Result MachineFault Cursor α} (h : Reads m F c r)
    {a : α} (hfit : F.Fits c.pc.toNat a) (hat : m.HoldsAt c.pc.toNat (F.bytes a)) :
    ∃ c', r = .ok a c' ∧ c'.pc.toNat = c.pc.toNat + (F.bytes a).length := by
  obtain ⟨c', hr⟩ := h.complete hfit hat
  exact ⟨c', hr, (h.sound hr).2.2⟩

/-- Giving a result without reading anything. -/
lemma unit (m : Memory) (a : α) (c c' : Cursor) (hpc : c'.pc = c.pc) :
    Reads m (.unit a) c (.ok a c') where
  sound := by
    intro b c'' h
    cases h
    exact ⟨rfl, m.holdsAt_nil _, by rw [hpc]; rfl⟩
  complete := by
    intro b hb _
    exact ⟨c', by rw [show b = a from hb]⟩
  overrun := by
    intro fault c'' h
    cases h

/-- **Decoding one piece after another** reads the values that are made of a value of the first
format and, behind it, a value of the format that depends on the first.

**Proof sketch.** The second piece starts where the first one ended, which is the address behind the
bytes of the first value, so the bytes of the two stand one behind the other
(`Memory.holdsAt_append`). A fault of the second piece has the bytes of the first piece and those
read since behind it. -/
lemma bind {F : Format α} {G : Format β} (rest : α → Format β) {d : Decoder α}
    {k : α → Decoder β} (hd : Reads m F c (d c))
    (hk : ∀ a c', d c = .ok a c' → Reads m (rest a) c' (k a c'))
    (hfits : ∀ b, G.Fits c.pc.toNat b ↔
      ∃ a, F.Fits c.pc.toNat a ∧ (rest a).Fits (c.pc.toNat + (F.bytes a).length) b)
    (hbytes : ∀ a b, (rest a).Fits (c.pc.toNat + (F.bytes a).length) b →
      G.bytes b = F.bytes a ++ (rest a).bytes b) :
    Reads m G c ((d >>= k) c) where
  sound := by
    intro b c₂ h
    rw [show (d >>= k) c = EStateM.bind d k c from rfl, EStateM.bind] at h
    cases hdc : d c with
    | error fault c₁ => simp [hdc] at h
    | ok a c₁ =>
      rw [hdc] at h
      obtain ⟨hfit, hat, hpc⟩ := hd.sound hdc
      obtain ⟨hfit', hat', hpc'⟩ := (hk a c₁ hdc).sound h
      rw [hpc] at hfit' hat' hpc'
      rw [hbytes a b hfit', List.length_append]
      exact ⟨(hfits b).2 ⟨a, hfit, hfit'⟩, Memory.holdsAt_append.2 ⟨hat, hat'⟩, by omega⟩
  complete := by
    intro b hfit hat
    obtain ⟨a, hfit₁, hfit₂⟩ := (hfits b).1 hfit
    rw [hbytes a b hfit₂] at hat
    obtain ⟨hat₁, hat₂⟩ := Memory.holdsAt_append.1 hat
    obtain ⟨c₁, hdc, hpc⟩ := hd.exists_ok hfit₁ hat₁
    rw [← hpc] at hfit₂ hat₂
    obtain ⟨c₂, hkc⟩ := (hk a c₁ hdc).complete hfit₂ hat₂
    refine ⟨c₂, ?_⟩
    rw [show (d >>= k) c = EStateM.bind d k c from rfl, EStateM.bind, hdc]
    exact hkc
  overrun := by
    intro fault c₂ h
    rw [show (d >>= k) c = EStateM.bind d k c from rfl, EStateM.bind] at h
    cases hdc : d c with
    | error fault₁ c₁ =>
      rw [hdc] at h
      cases h
      exact hd.overrun hdc
    | ok a c₁ =>
      rw [hdc] at h
      obtain ⟨-, hat, hpc⟩ := hd.sound hdc
      obtain ⟨hfault, bs, hbs, hpc'⟩ := (hk a c₁ hdc).overrun h
      rw [hpc] at hbs hpc'
      refine ⟨hfault, F.bytes a ++ bs, Memory.holdsAt_append.2 ⟨hat, hbs⟩, ?_⟩
      rw [List.length_append]
      omega

/-- Rearranging a result reads the rearranged values. -/
lemma map {F : Format α} {G : Format β} {d : Decoder α} {f : α → β} (hd : Reads m F c (d c))
    (hfits : ∀ b, G.Fits c.pc.toNat b ↔ ∃ a, F.Fits c.pc.toNat a ∧ b = f a)
    (hbytes : ∀ a, G.bytes (f a) = F.bytes a) : Reads m G c ((f <$> d) c) := by
  have h : Reads m G c ((d >>= fun a => pure (f a)) c) := by
    refine bind (fun a => .unit (f a)) hd (fun a c' _ => unit m (f a) c' c' rfl) hfits ?_
    rintro a b rfl
    rw [hbytes a]
    exact (List.append_nil _).symm
  exact h

end Reads

/-- The cursor that a piece of decoding leaves behind, whichever its outcome. -/
def cursorOf {α : Type} : EStateM.Result MachineFault Cursor α → Cursor
  | .ok _ c => c
  | .error _ c => c

/-- A result that is seen without its cursor has one. -/
lemma Decoder.exists_ok_of_run' {α : Type} {d : Decoder α} {c : Cursor} {a : α}
    (h : d.run' c = some a) : ∃ c', d c = .ok a c' := by
  rw [show d.run' c = EStateM.run' (fun _ => d c) c from rfl] at h
  cases hd : d c with
  | ok b c' =>
    rw [hd] at h
    rw [show b = a from Option.some.inj h]
    exact ⟨c', rfl⟩
  | error fault c' =>
    rw [hd] at h
    cases show none = some a from h

/-! ## Fetches -/

section Fetch

variable {m : Memory} (hm : m.size < 2 ^ 32)

include hm in
/-- Moving the program counter over bytes inside the memory does not wrap. -/
lemma toNat_add_of_le {p : Address} {n : Nat} (h : p.toNat + n ≤ m.size) :
    (p + .ofNat n).toNat = p.toNat + n := by
  rw [UInt32.toNat_add, UInt32.toNat_ofNat']
  omega

/-- Fetching a number takes the segment at the program counter, or finds it out of bounds. -/
lemma fetch_eq {n : Nat} (hn : Memory.isReadSize n = true) (c : Cursor) :
    m.fetch n c =
      if c.pc.toNat + n ≤ m.size then
        .ok (Bytes.value ((m.toList.drop c.pc.toNat).take n)) { c with pc := c.pc + .ofNat n }
      else .error (.outOfBounds c.pc.toNat n) c := by
  rw [Memory.fetch, Memory.read, if_pos hn, Memory.slice_eq]
  by_cases hle : c.pc.toNat + n ≤ m.size
  · rw [if_pos hle, if_pos hle]
    rfl
  · rw [if_neg hle, if_neg hle]
    rfl

/-- The sizes of numbers, one by one. -/
lemma isReadSize_iff {n : Nat} : Memory.isReadSize n = true ↔ n ∈ [1, 2, 4, 8, 16] := by
  simp [Memory.isReadSize, or_assoc]

/-- A byte string is made of the low bytes of its number. -/
lemma ofValue_value (bs : List UInt8) : Bytes.ofValue bs.length (Bytes.value bs) = bs := by
  induction bs with
  | nil => rfl
  | cons b rest ih =>
    have hb := b.toNat_lt
    have hmod : (b.toNat + 256 * Bytes.value rest) % 256 = b.toNat := by omega
    have hdiv : (b.toNat + 256 * Bytes.value rest) / 256 = Bytes.value rest := by omega
    have hhead : UInt8.ofNat (b.toNat + 256 * Bytes.value rest) = b := by
      apply UInt8.toNat_inj.1
      rw [UInt8.toNat_ofNat']
      exact hmod
    rw [List.length_cons, Bytes.value, Bytes.ofValue, hhead, hdiv, ih]

/-- The number of a byte string is below the capacity of its bytes. -/
lemma value_lt_capacity (bs : List UInt8) : Bytes.value bs < Bytes.capacity bs.length := by
  induction bs with
  | nil => exact Nat.one_pos
  | cons b rest ih =>
    have hb := b.toNat_lt
    rw [List.length_cons, Bytes.value, Bytes.capacity]
    omega

include hm in
/-- Fetching a number reads a number of that many bytes. -/
lemma reads_fetch {n : Nat} (hn : Memory.isReadSize n = true) (c : Cursor) :
    Reads m (.number n) c (m.fetch n c) := by
  rw [fetch_eq hn]
  have hpos : 0 < n := by
    rcases n with _ | n
    · exact absurd hn (by decide)
    · omega
  split
  case isTrue hle =>
    set bs := (m.toList.drop c.pc.toNat).take n with hbs
    have hlen : bs.length = n := by
      rw [hbs, List.length_take, List.length_drop, Memory.length_toList]
      omega
    have hback : Bytes.ofValue n (Bytes.value bs) = bs := by
      rw [← hlen]
      exact ofValue_value bs
    refine ⟨fun {v c'} h => ?_, fun {v} hfit hat => ?_, fun {fault c'} h => (nomatch h)⟩
    · cases h
      refine ⟨?_, ?_, ?_⟩
      · show Bytes.value bs < Bytes.capacity n
        rw [← hlen]
        exact value_lt_capacity bs
      · show m.HoldsAt c.pc.toNat (Bytes.ofValue n (Bytes.value bs))
        rw [hback]
        exact m.holdsAt_take _ _
      · show (c.pc + .ofNat n).toNat = c.pc.toNat + (Bytes.ofValue n (Bytes.value bs)).length
        rw [Bytes.length_ofValue]
        exact toNat_add_of_le hm hle
    · have hsegment := hat.eq_take
      rw [show (Format.number n).bytes v = Bytes.ofValue n v from rfl, Bytes.length_ofValue,
        ← hbs] at hsegment
      have hvalue : Bytes.value bs = v := by
        rw [hsegment, Bytes.value_ofValue, Nat.mod_eq_of_lt hfit]
      exact ⟨_, by rw [hvalue]⟩
  case isFalse hgt =>
    refine ⟨fun {v c'} h => (nomatch h), fun {v} _ hat => ?_, fun {fault c'} h => ?_⟩
    · have hne : Bytes.ofValue n v ≠ [] := by
        rw [← List.length_pos_iff, Bytes.length_ofValue]
        exact hpos
      have hle := hat.le_size hne
      rw [show (Format.number n).bytes v = Bytes.ofValue n v from rfl, Bytes.length_ofValue]
        at hle
      exact absurd hle hgt
    · cases h
      exact ⟨⟨n, hn, rfl, by omega⟩, [], m.holdsAt_nil _, rfl⟩

include hm in
/-- Taking the byte at the program counter reads a byte, whatever is recorded about it. -/
lemma reads_byte (c : Cursor) (record : UInt8 → Array Log.Event) :
    Reads m .byte c
      (match m.bytes[c.pc.toNat]? with
      | some byte => .ok byte ⟨c.pc + 1, record byte⟩
      | none => .error (.outOfBounds c.pc.toNat 1) c) := by
  cases hb : m.bytes[c.pc.toNat]? with
  | none =>
    have hend : m.size ≤ c.pc.toNat := Array.getElem?_eq_none_iff.1 hb
    refine ⟨fun {b c'} h => (nomatch h), fun {b} _ hat => ?_, fun {fault c'} h => ?_⟩
    · rw [Memory.holdsAt_singleton.1 hat] at hb
      cases hb
    · cases h
      exact ⟨⟨1, rfl, rfl, by omega⟩, [], m.holdsAt_nil _, rfl⟩
  | some byte =>
    have hle : c.pc.toNat + 1 ≤ m.size := (Array.getElem?_eq_some_iff.1 hb).1
    refine ⟨fun {b c'} h => ?_, fun {b} _ hat => ?_, fun {fault c'} h => (nomatch h)⟩
    · cases h
      exact ⟨trivial, Memory.holdsAt_singleton.2 hb, toNat_add_of_le hm hle⟩
    · rw [Memory.holdsAt_singleton.1 hat] at hb
      cases hb
      exact ⟨_, rfl⟩

include hm in
/-- Fetching a mode byte reads a byte. -/
lemma reads_fetchModeByte (c : Cursor) : Reads m .byte c (m.fetchModeByte c) := by
  rw [Memory.fetchModeByte_eq]
  exact reads_byte hm c fun byte => c.events.push (.modeByte byte c.pc)

/-- Fetching a byte moves the program counter by one; where there is no byte it leaves the cursor
alone. -/
lemma fetchByte_eq (m : Memory) (c : Cursor) :
    m.fetchByte c =
      match m.bytes[c.pc.toNat]? with
      | some byte => .ok byte ⟨c.pc + 1, c.events⟩
      | none => .error (.outOfBounds c.pc.toNat 1) c := by
  rw [Memory.fetchByte, Memory.readByte]
  cases m.bytes[c.pc.toNat]? <;> rfl

include hm in
/-- Fetching a byte reads a byte. -/
lemma reads_fetchByte (c : Cursor) : Reads m .byte c (m.fetchByte c) := by
  rw [fetchByte_eq]
  exact reads_byte hm c fun _ => c.events

end Fetch

end VaxListing
