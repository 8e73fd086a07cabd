import VaxListing.Operand.Encoding
import VaxListing.Proofs.Format

set_option relaxedAutoImplicit false
set_option autoImplicit false

/-!
# The format of operands

Decoding an operand is the inverse of encoding it: the operands that can be decoded at an address
are the well-formed ones whose bytes stand there.

## Main definitions

* `VaxListing.Specifier.chainFormat` — a chain of index bytes up to the base mode byte.
* `VaxListing.Specifier.format`, `VaxListing.Operand.format` — a general operand, and an operand of
  either kind.
* `VaxListing.Operand.listFormat` — operands of the given types, one behind another.

## Main results

* `VaxListing.Specifier.decodeChain_seen` — the loop over the index bytes is a recursion.
* `VaxListing.reads_operand`, `VaxListing.reads_operands` — decoding reads these formats.
-/

namespace VaxListing

/-! ## Mode bytes -/

/-- What holds of the bytes of all numbers below 256 holds of every byte. -/
lemma forall_byte {P : UInt8 → Prop} (h : ∀ n : Fin 256, P (.ofNat n)) (b : UInt8) : P b := by
  have hb := h ⟨b.toNat, b.toNat_lt⟩
  rwa [UInt8.ofNat_toNat] at hb

/-- Every mode that a mode byte announces is well-formed. -/
lemma classify_wellFormed (b : UInt8) : (AddressingMode.classify b).WellFormed := by
  revert b
  exact forall_byte (by decide +kernel)

/-- A byte announces a mode exactly if the mode is well-formed and has this byte. -/
lemma classify_eq_iff {b : UInt8} {mode : AddressingMode} :
    AddressingMode.classify b = mode ↔ mode.WellFormed ∧ b = mode.byte := by
  constructor
  · rintro rfl
    exact ⟨classify_wellFormed b, (AddressingMode.byte_classify b).symm⟩
  · rintro ⟨hmode, rfl⟩
    exact AddressingMode.classify_byte hmode

namespace Specifier

/-! ## The chain of index bytes -/

/-- The bytes of index registers, outermost first. -/
def indexBytes (indices : List Register) : List UInt8 :=
  indices.map fun r => (AddressingMode.indexed r).byte

/-- A chain of index bytes up to the base mode byte. -/
def chainFormat : Format (List Register × BaseMode) :=
  ⟨fun chain => indexBytes chain.1 ++ [chain.2.byte], fun _ chain => chain.2.WellFormed⟩

/-- **The loop over the index bytes is a recursion**: what it has seen before is put in front of
what it finds from there on.

**Proof sketch.** Induction on the rounds. A round that meets an index byte goes on with one more
register seen, and the induction hypothesis takes this register out again on both sides. -/
lemma decodeChain_seen (m : Memory) (rounds : Nat) (seen : List Register) (c : Cursor) :
    decodeChain m rounds seen c =
      ((fun chain => (seen.reverse ++ chain.1, chain.2)) <$> decodeChain m rounds []) c := by
  induction rounds generalizing seen c with
  | zero => rfl
  | succ rounds ih =>
    simp only [decodeChain, Functor.map, EStateM.map, bind, EStateM.bind]
    cases m.fetchModeByte c with
    | error fault c' => rfl
    | ok b c' =>
      dsimp only
      cases AddressingMode.classify b with
      | base mode => simp [pure, EStateM.pure]
      | indexed r =>
        dsimp only
        rw [ih (r :: seen), ih [r]]
        simp only [Functor.map, EStateM.map]
        cases decodeChain m rounds [] c' <;> simp

/-- What may follow a mode byte in a chain. -/
def chainRest (b : UInt8) : Format (List Register × BaseMode) :=
  match AddressingMode.classify b with
  | .indexed r =>
    ⟨fun chain => chainFormat.bytes (chain.1.tail, chain.2),
      fun _ chain => chain.2.WellFormed ∧ chain.1 = r :: chain.1.tail⟩
  | .base mode => .unit ([], mode)

/-- A chain is a mode byte with what may follow it. -/
lemma chainFormat_fits_iff {p q : Nat} {chain : List Register × BaseMode} :
    chainFormat.Fits p chain ↔ ∃ b, Format.byte.Fits p b ∧ (chainRest b).Fits q chain := by
  obtain ⟨indices, base⟩ := chain
  constructor
  · intro hbase
    cases indices with
    | nil =>
      have hmode : AddressingMode.classify base.byte = .base base :=
        classify_eq_iff.2 ⟨hbase, rfl⟩
      exact ⟨base.byte, trivial, by rw [chainRest, hmode]; rfl⟩
    | cons r indices =>
      have hmode : AddressingMode.classify (AddressingMode.indexed r).byte = .indexed r :=
        classify_eq_iff.2 ⟨trivial, rfl⟩
      refine ⟨(AddressingMode.indexed r).byte, trivial, ?_⟩
      rw [chainRest, hmode]
      exact ⟨hbase, rfl⟩
  · rintro ⟨b, -, hfit⟩
    rw [chainRest] at hfit
    cases hmode : AddressingMode.classify b with
    | indexed r =>
      rw [hmode] at hfit
      exact hfit.1
    | base mode =>
      rw [hmode] at hfit
      have hwf := classify_wellFormed b
      rw [hmode] at hwf
      cases hfit
      exact hwf

/-- The bytes of a chain are its first mode byte and the bytes of what follows. -/
lemma chainFormat_bytes {b : UInt8} {p : Nat} {chain : List Register × BaseMode}
    (h : (chainRest b).Fits p chain) :
    chainFormat.bytes chain = [b] ++ (chainRest b).bytes chain := by
  obtain ⟨indices, base⟩ := chain
  have hbyte := AddressingMode.byte_classify b
  rw [chainRest] at h ⊢
  cases hmode : AddressingMode.classify b with
  | indexed r =>
    rw [hmode] at h hbyte
    obtain ⟨-, hcons⟩ := h
    rw [← hbyte, show indices = r :: indices.tail from hcons]
    rfl
  | base mode =>
    rw [hmode] at h hbyte
    cases h
    rw [← hbyte]
    rfl

/-- The loop over the index bytes reads a chain, given rounds enough to leave the memory.

**Proof sketch.** Induction on the rounds. When there are none left, the program counter is behind
the memory, and the fault of the exhausted loop is the very fault of fetching there. Otherwise a
mode byte is read, and the loop, which `decodeChain_seen` turns into a recursion, reads what follows
an index byte by the induction hypothesis. -/
lemma reads_decodeChain {m : Memory} (hm : m.size < 2 ^ 32) (rounds : Nat) (c : Cursor)
    (hrounds : m.size < rounds + c.pc.toNat) :
    Reads m chainFormat c (decodeChain m rounds [] c) := by
  induction rounds generalizing c with
  | zero =>
    refine ⟨fun {chain c'} h => (nomatch h), fun {chain} _ hat => ?_, fun {fault c'} h => ?_⟩
    · have hle := hat.le_size (by simp [chainFormat])
      omega
    · cases h
      exact ⟨⟨1, rfl, rfl, by omega⟩, [], m.holdsAt_nil _, rfl⟩
  | succ rounds ih =>
    have hbyte := reads_fetchModeByte hm c
    refine hbyte.bind chainRest ?_ (fun chain => ?_) (fun b chain => chainFormat_bytes)
    · intro b c' hb
      obtain ⟨-, -, hpc⟩ := hbyte.sound hb
      rw [show (Format.byte.bytes b).length = 1 from rfl] at hpc
      rw [chainRest]
      cases AddressingMode.classify b with
      | base mode => exact Reads.unit m _ c' c' rfl
      | indexed r =>
        dsimp only
        rw [decodeChain_seen]
        refine (ih c' (by omega)).map (fun chain => ?_) (fun chain => rfl)
        constructor
        · rintro ⟨hbase, hcons⟩
          exact ⟨(chain.1.tail, chain.2), hbase, Prod.ext hcons rfl⟩
        · rintro ⟨chain, hbase, rfl⟩
          exact ⟨hbase, rfl⟩
    · exact chainFormat_fits_iff

/-! ## General operands -/

instance (type : DataType) : DecidablePred (WellFormed type) := fun s =>
  inferInstanceAs (Decidable (s.base.WellFormed ∧ _ < _))

/-- A general operand for a value of the given type. -/
def format (type : DataType) : Format Specifier :=
  ⟨encode type, fun _ s => s.WellFormed type⟩

/-- The bytes behind a mode byte are none, or as many as a number can have. -/
lemma extensionSize_cases (type : DataType) (base : BaseMode) :
    base.extensionSize type.size = 0 ∨
      Memory.isReadSize (base.extensionSize type.size) = true := by
  cases base with
  | immediate => cases type <;> exact .inr rfl
  | absolute => exact .inr rfl
  | displacement width r deferred => cases width <;> exact .inr rfl
  | _ => exact .inl rfl

/-- **What is fetched behind a mode byte** is a number of the size that the mode announces, and
nothing where this size is zero. -/
lemma decodeExtension_eq (m : Memory) (type : DataType) (base : BaseMode) :
    decodeExtension m type base =
      if base.extensionSize type.size = 0 then pure 0
      else m.fetch (base.extensionSize type.size) := by
  cases base with
  | immediate => cases type <;> rfl
  | displacement width r deferred => cases width <;> rfl
  | _ => rfl

/-- The extension of an operand is a number of the size that its mode demands. -/
lemma reads_decodeExtension {m : Memory} (hm : m.size < 2 ^ 32) (type : DataType) (base : BaseMode)
    (c : Cursor) :
    Reads m (.number (base.extensionSize type.size)) c (decodeExtension m type base c) := by
  rw [decodeExtension_eq]
  have hcases := extensionSize_cases type base
  split
  case isTrue h =>
    rw [h]
    refine ⟨fun {v c'} h => ?_, fun {v} hfit _ => ?_, fun {fault c'} h => (nomatch h)⟩
    · cases h
      exact ⟨Nat.one_pos, m.holdsAt_nil _, rfl⟩
    · obtain rfl : v = 0 := Nat.lt_one_iff.1 hfit
      exact ⟨c, rfl⟩
  case isFalse h => exact reads_fetch hm (hcases.resolve_left h) c

/-- Decoding a general operand reads its format. -/
lemma reads_decode {m : Memory} (hm : m.size < 2 ^ 32) (type : DataType) (c : Cursor) :
    Reads m (format type) c (decode m type c) := by
  have hrounds : m.size < UInt32.size + c.pc.toNat := Nat.lt_add_right _ hm
  have hchain := reads_decodeChain hm UInt32.size c hrounds
  let rest (chain : List Register × BaseMode) : Format Specifier :=
    ⟨fun s => Bytes.ofValue (chain.2.extensionSize type.size) s.extension,
      fun _ s => (s.indices, s.base) = chain ∧
        s.extension < Bytes.capacity (chain.2.extensionSize type.size)⟩
  refine hchain.bind rest ?_ (fun s => ?_) ?_
  · rintro ⟨indices, base⟩ c' -
    refine (reads_decodeExtension hm type base c').map (fun s => ?_) (fun v => rfl)
    constructor
    · rintro ⟨hchain, hfit⟩
      cases hchain
      exact ⟨s.extension, hfit, rfl⟩
    · rintro ⟨v, hfit, rfl⟩
      exact ⟨rfl, hfit⟩
  · constructor
    · rintro ⟨hbase, hfit⟩
      exact ⟨(s.indices, s.base), hbase, rfl, hfit⟩
    · rintro ⟨chain, hbase, rfl, hfit⟩
      exact ⟨hbase, hfit⟩
  · rintro chain s ⟨rfl, -⟩
    simp [format, encode, chainFormat, indexBytes, rest]

end Specifier

/-! ## Operands of either kind -/

instance : DecidablePred OperandForm.WellFormed
  | .general type s => inferInstanceAs (Decidable (s.WellFormed type))
  | .branch _ displacement => inferInstanceAs (Decidable (displacement < _))

namespace Operand

/-- An operand of the given type, which knows the address behind it. -/
def format (type : OperandType) : Format Operand :=
  ⟨fun op => op.form.encode, fun p op =>
    (op.form.type = type ∧ op.form.WellFormed) ∧ op.stop.toNat = p + op.form.encode.length⟩

/-- Operands of the given types, one behind another. -/
def Placed : Nat → List OperandType → List Operand → Prop
  | _, [], [] => True
  | p, type :: types, op :: ops => (format type).Fits p op ∧ Placed op.stop.toNat types ops
  | _, _, _ => False

/-- Operands of the given types, one behind another. -/
def listFormat (types : List OperandType) : Format (List Operand) :=
  ⟨fun ops => ops.flatMap fun op => op.form.encode, fun p ops => Placed p types ops⟩

end Operand

/-- Decodes what an operand says, without the address behind it. -/
def OperandForm.decode (m : Memory) : OperandType → Decoder OperandForm
  | .general type => OperandForm.general type <$> Specifier.decode m type
  | .branch width => OperandForm.branch width <$> m.fetch width.size

/-- An operand is what it says and the address behind it. -/
lemma Operand.decode_eq (m : Memory) (type : OperandType) :
    Operand.decode m type =
      OperandForm.decode m type >>= fun form => do
        let stop ← Decoder.pc
        return { form, stop } := by
  cases type <;> rfl

/-- Decoding what an operand says reads a well-formed operand of its type. -/
lemma reads_operandForm {m : Memory} (hm : m.size < 2 ^ 32) (type : OperandType) (c : Cursor) :
    Reads m ⟨OperandForm.encode, fun _ form => form.type = type ∧ form.WellFormed⟩ c
      (OperandForm.decode m type c) := by
  cases type with
  | general type =>
    refine (Specifier.reads_decode hm type c).map (fun form => ?_) (fun s => rfl)
    constructor
    · rintro ⟨htype, hwf⟩
      cases form with
      | branch width displacement => cases htype
      | general type' s =>
        cases htype
        exact ⟨s, hwf, rfl⟩
    · rintro ⟨s, hwf, rfl⟩
      exact ⟨rfl, hwf⟩
  | branch width =>
    have hsize : Memory.isReadSize width.size = true := by cases width <;> rfl
    refine (reads_fetch hm hsize c).map (fun form => ?_) (fun v => rfl)
    constructor
    · rintro ⟨htype, hwf⟩
      cases form with
      | general type s => cases htype
      | branch width' displacement =>
        cases htype
        exact ⟨displacement, hwf, rfl⟩
    · rintro ⟨v, hfit, rfl⟩
      exact ⟨rfl, hfit⟩

/-- Decoding an operand reads its format. -/
lemma reads_operand {m : Memory} (hm : m.size < 2 ^ 32) (type : OperandType) (c : Cursor) :
    Reads m (Operand.format type) c (Operand.decode m type c) := by
  have hform := reads_operandForm hm type c
  let rest (form : OperandForm) : Format Operand :=
    ⟨fun _ => [], fun p op => op.form = form ∧ op.stop.toNat = p⟩
  rw [Operand.decode_eq]
  refine hform.bind rest ?_ (fun op => ?_) ?_
  · intro form c' _
    refine ⟨fun {op c''} h => ?_, fun {op} hfit _ => ?_, fun {fault c''} h => (nomatch h)⟩
    · cases h
      exact ⟨⟨rfl, rfl⟩, m.holdsAt_nil _, rfl⟩
    · obtain ⟨rfl, hstop⟩ := hfit
      refine ⟨c', ?_⟩
      rw [show op = ⟨op.form, c'.pc⟩ by rw [← UInt32.toNat_inj.1 hstop]]
      rfl
  · constructor
    · rintro ⟨hwf, hstop⟩
      exact ⟨op.form, hwf, rfl, hstop⟩
    · rintro ⟨form, hwf, rfl, hstop⟩
      exact ⟨hwf, hstop⟩
  · rintro form op ⟨rfl, -⟩
    exact (List.append_nil _).symm

/-- Decoding operands one after another reads them one behind another. -/
lemma reads_operands {m : Memory} (hm : m.size < 2 ^ 32) (types : List OperandType) (c : Cursor) :
    Reads m (Operand.listFormat types) c (Operand.decodeAll m types c) := by
  induction types generalizing c with
  | nil =>
    refine ⟨fun {ops c'} h => ?_, fun {ops} hfit _ => ?_, fun {fault c'} h => (nomatch h)⟩
    · cases h
      exact ⟨trivial, m.holdsAt_nil _, rfl⟩
    · cases ops with
      | nil => exact ⟨c, rfl⟩
      | cons op ops => exact hfit.elim
  | cons type types ih =>
    have hop := reads_operand hm type c
    let rest (op : Operand) : Format (List Operand) :=
      ⟨fun ops => (Operand.listFormat types).bytes ops.tail,
        fun p ops => ops = op :: ops.tail ∧ Operand.Placed p types ops.tail⟩
    refine hop.bind rest ?_ (fun ops => ?_) ?_
    · intro op c' _
      refine (ih c').map (fun ops => ?_) (fun ops => rfl)
      constructor
      · rintro ⟨hcons, hplaced⟩
        exact ⟨ops.tail, hplaced, hcons⟩
      · rintro ⟨ops, hplaced, rfl⟩
        exact ⟨rfl, hplaced⟩
    · constructor
      · intro hplaced
        cases ops with
        | nil => exact hplaced.elim
        | cons op ops =>
          obtain ⟨hfit, hrest⟩ := hplaced
          rw [hfit.2] at hrest
          exact ⟨op, hfit, rfl, hrest⟩
      · rintro ⟨op, hfit, hcons, hrest⟩
        rw [hcons]
        refine ⟨hfit, ?_⟩
        rw [hfit.2]
        exact hrest
    · rintro op ops ⟨hcons, -⟩
      rw [hcons]
      rfl

end VaxListing
