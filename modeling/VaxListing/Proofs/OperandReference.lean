import VaxListing.Proofs.Hexadecimal
import VaxListing.Proofs.OperandFormat

set_option relaxedAutoImplicit false
set_option autoImplicit false

/-!
# Operands by the table of mode bytes

The text of an operand can be read off the code by recursion on the mode byte: an index byte puts
its register behind the text of the operand that follows, and any other mode byte is rendered by its
row in the table of modes. Decoding, which walks the index bytes in a loop and renders the parts
afterwards, gives the same text, the same program counter and the same faults.

## Main definitions

* `VaxListing.View`, `VaxListing.view` — what can be seen of a piece of decoding.
* `VaxListing.Reference.base` — the table of base modes.
* `VaxListing.Reference.general`, `VaxListing.Reference.operand` — operands, by recursion.
* `VaxListing.Reference.indexSuffix` — what index bytes put behind the text of an operand.

## Main results

* `VaxListing.classify_eq_byRange` — the classes of mode bytes, as ranges.
* `VaxListing.Specifier.renderBase_displacement`, `VaxListing.Operand.render_branch` — displacement
  modes and branches are rendered from a displacement that is fetched.
* `VaxListing.view_render` — the loop over index bytes does what the recursion does.
* `VaxListing.decode_eq_reference` — decoding an operand agrees with the reference.

## Design

The reference works on the list of bytes from the program counter on, so that its recursion is
structural. Addresses are natural numbers and displacements are integers; both become 32-bit words
only where they are written.
-/

namespace VaxListing

/-! ## What can be seen of decoding -/

/-- A result with the address behind what was read, or a fault with the address where decoding
stopped. -/
abbrev View (α : Type) :=
  Except (MachineFault × Nat) (α × Nat)

/-- Changes the result. -/
def View.map {α β : Type} (f : α → β) (v : View α) : View β :=
  Except.map (fun r => (f r.1, r.2)) v

/-- Two changes of a result are one. -/
lemma View.map_map {α β γ : Type} (g : β → γ) (f : α → β) (v : View α) :
    (v.map f).map g = v.map (g ∘ f) := by
  cases v <;> rfl

/-- What can be seen of a piece of decoding: its outcome, and the program counter afterwards. -/
def view {α : Type} : EStateM.Result MachineFault Cursor α → View α
  | .ok a c => .ok (a, c.pc.toNat)
  | .error fault c => .error (fault, c.pc.toNat)

/-- Changing the result of decoding changes what is seen of it. -/
lemma view_map {α β : Type} (f : α → β) (d : Decoder α) (c : Cursor) :
    view ((f <$> d) c) = (view (d c)).map f := by
  simp only [Functor.map, EStateM.map]
  cases d c <;> rfl

/-! ## The reference -/

namespace Reference

/-- The number of `size` bytes at the address `p`, rendered together with the address behind it. -/
def number (size p : Nat) (code : List UInt8) (render : Nat → Nat → String) : View String :=
  if size ≤ code.length then
    .ok (render (Bytes.value (code.take size)) (p + size), p + size)
  else .error (.outOfBounds p size, p)

/-- The number that `size` bytes of the given value stand for in two's complement. -/
def signed (size value : Nat) : Int :=
  if 2 * value < 256 ^ size then value else value - 256 ^ size

/-- An integer as a word of 32 bits. -/
def word (z : Int) : Nat :=
  (z % 2 ^ 32).toNat

/-- The operand that a base mode byte begins; `p` is the address behind the mode byte. -/
def base (type : DataType) (mode : UInt8) (p : Nat) (code : List UInt8) : View String :=
  let byte := mode.toNat
  let r := (Register.ofNibble mode).name
  if byte ≤ 0x3f then .ok ("$" ++ Hex.text byte ++ type.suffix, p)
  else if byte ≤ 0x5f then .ok (r, p)
  else if byte ≤ 0x6f then .ok ("(" ++ r ++ ")", p)
  else if byte ≤ 0x7f then .ok ("-(" ++ r ++ ")", p)
  else if byte ≤ 0x8e then .ok ("(" ++ r ++ ")+", p)
  else if byte = 0x8f then
    number type.size p code fun value _ =>
      "$" ++ ("0x" ++ String.ofList (Hex.fixed (2 * type.size) value)) ++ type.suffix
  else if byte ≤ 0x9e then .ok ("@(" ++ r ++ ")+", p)
  else if byte = 0x9f then number 4 p code fun value _ => "*" ++ Hex.text value
  else
    let size := if byte ≤ 0xbf then 1 else if byte ≤ 0xdf then 2 else 4
    let mark := if byte / 16 % 2 = 1 then "*" else ""
    number size p code fun value stop =>
      mark ++
        if byte % 16 = 15 then Hex.text (word (stop + signed size value))
        else Hex.text (word (signed size value)) ++ "(" ++ r ++ ")"

/-- The general operand at the address `p`, where the code goes on with the given bytes. -/
def general (type : DataType) : Nat → List UInt8 → View String
  | p, [] => .error (.outOfBounds p 1, p)
  | p, mode :: code =>
    if 0x40 ≤ mode.toNat ∧ mode.toNat ≤ 0x4f then
      (general type (p + 1) code).map fun text =>
        text ++ ("[" ++ (Register.ofNibble mode).name ++ "]")
    else base type mode (p + 1) code

/-- The registers of index bytes, the last one first. -/
def indexSuffix (indices : List UInt8) : String :=
  String.join (indices.reverse.map fun b => "[" ++ (Register.ofNibble b).name ++ "]")

/-- The operand at the address `p`, with the mode that its first byte announces. A branch operand is
a bare displacement and announces no mode. -/
def operand (p : Nat) (code : List UInt8) : OperandType → View (String × Option AddressingMode)
  | .general type =>
    (general type p code).map fun text => (text, code.head?.map AddressingMode.classify)
  | .branch width =>
    (number width.size p code fun value stop =>
      Hex.text (word (stop + signed width.size value))).map fun text => (text, none)

end Reference

/-! ## Displacements -/

open Reference (signed word)

/-- **A stored number is widened by its sign**, whichever size numbers can have. Beyond four bytes
its low 32 bits are the same with and without the sign. -/
lemma toNat_signExtend_of_mem {n v : Nat} (hn : n ∈ [1, 2, 4, 8, 16]) (hv : v < Bytes.capacity n) :
    (signExtend n v).toNat = word (signed n v) := by
  simp only [List.mem_cons, List.not_mem_nil, or_false] at hn
  rcases hn with rfl | rfl | rfl | rfl | rfl <;>
    simp only [Bytes.capacity] at hv <;>
    simp only [signExtend, signed, word] <;>
    split_ifs <;>
    rw [UInt32.toNat_ofNat'] <;>
    omega

/-- A stored displacement is widened by its sign. -/
lemma toNat_signExtend {n v : Nat} (hn : n = 1 ∨ n = 2 ∨ n = 4) (hv : v < Bytes.capacity n) :
    (signExtend n v).toNat = word (signed n v) := by
  apply toNat_signExtend_of_mem _ hv
  rcases hn with rfl | rfl | rfl <;> decide

/-- Adding an offset to an address wraps around. -/
lemma toNat_add_of_eq_word {offset : Address} {z : Int} (h : offset.toNat = word z)
    (stop : Address) : (stop + offset).toNat = word (stop.toNat + z) := by
  rw [UInt32.toNat_add, h]
  simp only [word]
  omega

/-! ## The table of modes -/

/-- The program counter is the register that the low half `f` selects. -/
lemma isPc_ofNibble (b : UInt8) :
    (Register.ofNibble b).isPc = decide (b.toNat % 16 = 15) := by
  rw [Register.isPc, Bool.eq_iff_iff, beq_iff_eq, decide_eq_true_iff]
  simp [Register.ofNibble, Register.pc, Fin.ext_iff]

/-- The base mode of a mode byte, as the range that the byte lies in. -/
def BaseMode.byRange (b : UInt8) : BaseMode :=
  let r := Register.ofNibble b
  if b.toNat ≤ 0x3f then .shortLiteral (.ofNat 64 b.toNat)
  else if b.toNat ≤ 0x5f then .register r
  else if b.toNat ≤ 0x6f then .registerDeferred r
  else if b.toNat ≤ 0x7f then .autodecrement r
  else if b.toNat ≤ 0x8e then .autoincrement r
  else if b.toNat = 0x8f then .immediate
  else if b.toNat ≤ 0x9e then .autoincrementDeferred r
  else if b.toNat = 0x9f then .absolute
  else
    .displacement (if b.toNat ≤ 0xbf then .byte else if b.toNat ≤ 0xdf then .word else .long)
      r (b.toNat / 16 % 2 = 1)

/-- **The classes of mode bytes are ranges.** -/
lemma classify_eq_byRange (b : UInt8) :
    AddressingMode.classify b =
      if 0x40 ≤ b.toNat ∧ b.toNat ≤ 0x4f then .indexed (.ofNibble b) else .base (.byRange b) := by
  revert b
  exact forall_byte (by decide +kernel)

/-! ## Rendering while decoding -/

variable {m : Memory}

namespace Specifier

/-- Decodes what follows a base mode byte, and renders it. -/
def renderBase (m : Memory) (type : DataType) (base : BaseMode) : Decoder String := do
  let extension ← decodeExtension m type base
  let stop ← Decoder.pc
  return baseText type stop { indices := [], base, extension }

/-- Decodes a general operand, whose index bytes are walked for at most a number of rounds, and
renders it. -/
def render (m : Memory) (type : DataType) (rounds : Nat) :
    Decoder (String × Option AddressingMode) := do
  let (indices, base) ← decodeChain m rounds []
  let extension ← decodeExtension m type base
  let stop ← Decoder.pc
  let s : Specifier := { indices, base, extension }
  return (s.text type stop, some s.mode)

/-- **A displacement mode is rendered from a displacement that is fetched**, together with the
address behind it. -/
lemma renderBase_displacement (type : DataType) (width : DisplacementWidth) (r : Register)
    (deferred : Bool) :
    renderBase m type (.displacement width r deferred) = (do
      let offset ← m.fetchDisplacement width.size
      let stop ← Decoder.pc
      return (if deferred then "*" else "") ++
        if r.isPc then Hex.text (stop + offset).toNat
        else Hex.text offset.toNat ++ "(" ++ r.name ++ ")") := by
  simp only [renderBase, decodeExtension, Memory.fetchDisplacement, bind_assoc, pure_bind, baseText]

/-- An index is written behind all that follows it in the code. -/
lemma text_cons (type : DataType) (stop : Address) (r : Register) (indices : List Register)
    (base : BaseMode) (extension : Nat) :
    text type stop ⟨r :: indices, base, extension⟩ =
      text type stop ⟨indices, base, extension⟩ ++ ("[" ++ r.name ++ "]") := by
  simp only [text, indexText, List.reverse_cons, List.map_append, String.join_append, baseText]
  simp [String.append_assoc]

/-- Without indices the text is that of the base. -/
lemma text_nil (type : DataType) (stop : Address) (base : BaseMode) (extension : Nat) :
    text type stop ⟨[], base, extension⟩ = baseText type stop ⟨[], base, extension⟩ := by
  simp [text, indexText]

/-- One round: a mode byte is fetched, and an index is put behind what the other rounds give. -/
lemma render_succ (type : DataType) (rounds : Nat) (c : Cursor) :
    render m type (rounds + 1) c =
      match m.fetchModeByte c with
      | .error fault c₁ => .error fault c₁
      | .ok b c₁ =>
        match AddressingMode.classify b with
        | .indexed r =>
          ((fun t => (t.1 ++ ("[" ++ r.name ++ "]"), some (AddressingMode.indexed r))) <$>
            render m type rounds) c₁
        | .base mode =>
          ((fun text => (text, some (AddressingMode.base mode))) <$>
            renderBase m type mode) c₁ := by
  simp only [render, renderBase, decodeChain, bind, EStateM.bind, Functor.map, EStateM.map]
  cases m.fetchModeByte c with
  | error fault c₁ => rfl
  | ok b c₁ =>
    dsimp only
    cases AddressingMode.classify b with
    | base mode =>
      dsimp only [pure, EStateM.pure, List.reverse_nil]
      cases decodeExtension m type mode c₁ with
      | error fault c₂ => rfl
      | ok extension c₂ =>
        dsimp only [Decoder.pc]
        rw [text_nil, Specifier.mode]
    | indexed r =>
      dsimp only
      -- the register already seen is taken out of the loop, so that both sides walk the same chain
      rw [decodeChain_seen]
      simp only [Functor.map, EStateM.map]
      cases decodeChain m rounds [] c₁ with
      | error fault c₂ => rfl
      | ok chain c₂ =>
        obtain ⟨indices, base⟩ := chain
        dsimp only
        cases decodeExtension m type base c₂ with
        | error fault c₃ => rfl
        | ok extension c₃ =>
          dsimp only [Decoder.pc, pure, EStateM.pure]
          rw [← text_cons]
          rfl

end Specifier

/-- **A branch is rendered from a displacement that is fetched**, together with the address behind
it. -/
lemma Operand.render_branch (m : Memory) (width : BranchWidth) :
    (fun op => (op.text, op.mode?)) <$> decode m (.branch width) = (do
      let offset ← m.fetchDisplacement width.size
      let stop ← Decoder.pc
      return (Hex.text (stop + offset).toNat, none)) := by
  simp only [decode, Memory.fetchDisplacement, bind_assoc, pure_bind, map_bind, map_pure,
    bind_map_left, text, mode?]

/-! ## Agreement -/

/-- What is left of the code at an address inside the memory is the byte there and the rest. -/
lemma drop_eq_cons {p : Nat} {b : UInt8} (h : m.bytes[p]? = some b) :
    m.toList.drop p = b :: m.toList.drop (p + 1) := by
  obtain ⟨hp, hb⟩ := Array.getElem?_eq_some_iff.1 h
  rw [Memory.toList, ← List.getElem_cons_drop (by simpa using hp), Array.getElem_toList, hb]

/-- Nothing is left of the code at an address outside the memory. -/
lemma drop_eq_nil {p : Nat} (h : m.size ≤ p) : m.toList.drop p = [] := by
  rw [List.drop_eq_nil_iff, Memory.length_toList]
  exact h

/-- Fetching a number and rendering it. The two ways to render need to agree only on numbers that
the bytes can hold. -/
lemma view_fetch (hm : m.size < 2 ^ 32) {n : Nat} (hn : Memory.isReadSize n = true)
    {f : Nat → Address → String} {render : Nat → Nat → String}
    (hf : ∀ v stop, v < Bytes.capacity n → f v stop = render v stop.toNat) (c : Cursor) :
    view ((do
        let v ← m.fetch n
        let stop ← Decoder.pc
        return f v stop : Decoder String) c) =
      Reference.number n c.pc.toNat (m.toList.drop c.pc.toNat) render := by
  have hpos : n ≠ 0 := by
    rintro rfl
    exact absurd hn (by decide)
  have hlen : (m.toList.drop c.pc.toNat).length = m.size - c.pc.toNat := by
    rw [List.length_drop, Memory.length_toList]
  simp only [bind, EStateM.bind, fetch_eq hn]
  rw [Reference.number]
  by_cases hle : c.pc.toNat + n ≤ m.size
  · have hstop := toNat_add_of_le hm hle
    have hvalue := value_lt_capacity ((m.toList.drop c.pc.toNat).take n)
    rw [List.length_take_of_le (by omega)] at hvalue
    rw [if_pos hle, if_pos (by omega)]
    simp only [Decoder.pc, pure, EStateM.pure, view]
    rw [hf _ _ hvalue, hstop]
  · rw [if_neg hle, if_neg (by omega)]
    rfl

/-- Fetching a displacement and rendering it. The two ways to render need to agree where the offset
is the word of the integer. -/
lemma view_fetchDisplacement (hm : m.size < 2 ^ 32) {n : Nat} (hn : n = 1 ∨ n = 2 ∨ n = 4)
    {f : Address → Address → String} {g : Int → Nat → String}
    (hf : ∀ (offset stop : Address) (z : Int), offset.toNat = word z →
      f offset stop = g z stop.toNat) (c : Cursor) :
    view ((do
        let offset ← m.fetchDisplacement n
        let stop ← Decoder.pc
        return f offset stop : Decoder String) c) =
      Reference.number n c.pc.toNat (m.toList.drop c.pc.toNat) fun value stop =>
        g (signed n value) stop := by
  have hread : Memory.isReadSize n = true := by
    rcases hn with rfl | rfl | rfl <;> rfl
  simp only [Memory.fetchDisplacement, bind_assoc, pure_bind]
  exact view_fetch hm hread (fun v stop hv => hf (signExtend n v) stop _ (toNat_signExtend hn hv)) c

/-- A constant has as many digits as its bytes need. -/
lemma paddedText_eq {type : DataType} {v : Nat} (hv : v < Bytes.capacity type.size) :
    Hex.paddedText (2 * type.size) v =
      "0x" ++ String.ofList (Hex.fixed (2 * type.size) v) := by
  have hcapacity : Bytes.capacity type.size = 16 ^ (2 * type.size) := by
    cases type <;> rfl
  have hpos : 0 < 2 * type.size := by
    cases type <;> decide
  rw [Hex.paddedText, Hex.padded_eq_fixed hpos (hcapacity ▸ hv)]

/-- A base mode with no bytes behind it is rendered at once. -/
lemma view_renderBase_bare {type : DataType} {base : BaseMode}
    (hsize : base.extensionSize type.size = 0) (c : Cursor) :
    view (Specifier.renderBase m type base c) =
      .ok (Specifier.baseText type c.pc ⟨[], base, 0⟩, c.pc.toNat) := by
  rw [Specifier.renderBase, Specifier.decodeExtension_eq, if_pos hsize]
  rfl

/-- A base mode with bytes behind it is rendered from the number they make up. -/
lemma view_renderBase_extended (hm : m.size < 2 ^ 32) {type : DataType} {base : BaseMode} {n : Nat}
    (hsize : base.extensionSize type.size = n) (hn : n ≠ 0) {render : Nat → Nat → String}
    (hf : ∀ v stop, v < Bytes.capacity n →
      Specifier.baseText type stop ⟨[], base, v⟩ = render v stop.toNat) (c : Cursor) :
    view (Specifier.renderBase m type base c) =
      Reference.number n c.pc.toNat (m.toList.drop c.pc.toNat) render := by
  subst hsize
  have hread := (Specifier.extensionSize_cases type base).resolve_left hn
  rw [Specifier.renderBase, Specifier.decodeExtension_eq, if_neg hn]
  exact view_fetch hm hread hf c

/-- **Every base mode is rendered as its row in the table says.**

**Proof sketch.** The ranges of the table are gone through in its order. Most rows read nothing
behind the mode byte; the others fetch a number. -/
lemma view_renderBase (hm : m.size < 2 ^ 32) (type : DataType) (b : UInt8) (c : Cursor) :
    view (Specifier.renderBase m type (.byRange b) c) =
      Reference.base type b c.pc.toNat (m.toList.drop c.pc.toNat) := by
  rw [BaseMode.byRange, Reference.base]
  dsimp only
  by_cases hshort : b.toNat ≤ 0x3f
  · rw [if_pos hshort, if_pos hshort, view_renderBase_bare rfl]
    have hvalue : ((Fin.ofNat 64 b.toNat : Fin 64) : Nat) = b.toNat := Nat.mod_eq_of_lt (by omega)
    simp only [Specifier.baseText, hvalue]
  rw [if_neg hshort, if_neg hshort]
  by_cases hregister : b.toNat ≤ 0x5f
  · rw [if_pos hregister, if_pos hregister, view_renderBase_bare rfl]
    rfl
  rw [if_neg hregister, if_neg hregister]
  by_cases hdeferred : b.toNat ≤ 0x6f
  · rw [if_pos hdeferred, if_pos hdeferred, view_renderBase_bare rfl]
    rfl
  rw [if_neg hdeferred, if_neg hdeferred]
  by_cases hdecrement : b.toNat ≤ 0x7f
  · rw [if_pos hdecrement, if_pos hdecrement, view_renderBase_bare rfl]
    rfl
  rw [if_neg hdecrement, if_neg hdecrement]
  by_cases hincrement : b.toNat ≤ 0x8e
  · rw [if_pos hincrement, if_pos hincrement, view_renderBase_bare rfl]
    rfl
  rw [if_neg hincrement, if_neg hincrement]
  by_cases himmediate : b.toNat = 0x8f
  · rw [if_pos himmediate, if_pos himmediate]
    have hsize : type.size ≠ 0 := by
      cases type <;> decide
    refine view_renderBase_extended hm (n := type.size) rfl hsize (fun v stop hv => ?_) c
    simp only [Specifier.baseText, paddedText_eq hv]
  rw [if_neg himmediate, if_neg himmediate]
  by_cases hincrementDeferred : b.toNat ≤ 0x9e
  · rw [if_pos hincrementDeferred, if_pos hincrementDeferred, view_renderBase_bare rfl]
    rfl
  rw [if_neg hincrementDeferred, if_neg hincrementDeferred]
  by_cases habsolute : b.toNat = 0x9f
  · rw [if_pos habsolute, if_pos habsolute]
    exact view_renderBase_extended hm (n := 4) rfl (by decide) (fun v stop _ => rfl) c
  rw [if_neg habsolute, if_neg habsolute]
  -- the three widths of displacements differ only in the number of bytes they read
  generalize hwidth : (if b.toNat ≤ 0xbf then DisplacementWidth.byte
    else if b.toNat ≤ 0xdf then .word else .long) = width
  have hsize : (if b.toNat ≤ 0xbf then 1 else if b.toNat ≤ 0xdf then 2 else 4) = width.size := by
    rw [← hwidth]
    split_ifs <;> rfl
  rw [hsize]
  have hcases : width.size = 1 ∨ width.size = 2 ∨ width.size = 4 := by
    cases width <;> decide
  rw [Specifier.renderBase_displacement]
  refine view_fetchDisplacement hm hcases (g := fun z stop => _ ++ if b.toNat % 16 = 15 then
    Hex.text (word (stop + z)) else Hex.text (word z) ++ "(" ++ _ ++ ")")
    (fun offset stop z hz => ?_) c
  simp only [isPc_ofNibble, decide_eq_true_eq, hz, toNat_add_of_eq_word hz]

/-- **The loop over the index bytes does what the recursion does**, given rounds enough to leave the
memory.

**Proof sketch.** Induction on the rounds. With none left the program counter is behind the memory,
and both sides fail there. Otherwise the mode byte at the program counter is the first byte of the
code that is left; an index byte is put behind what the induction hypothesis gives, and a base mode
byte is rendered by its row in the table. -/
lemma view_render (hm : m.size < 2 ^ 32) (type : DataType) (rounds : Nat) (c : Cursor)
    (hrounds : m.size < rounds + c.pc.toNat) :
    view (Specifier.render m type rounds c) =
      Reference.operand c.pc.toNat (m.toList.drop c.pc.toNat) (.general type) := by
  induction rounds generalizing c with
  | zero =>
    rw [drop_eq_nil (by omega)]
    rfl
  | succ rounds ih =>
    rw [Specifier.render_succ, Memory.fetchModeByte_eq]
    cases hbyte : m.bytes[c.pc.toNat]? with
    | none =>
      rw [drop_eq_nil (Array.getElem?_eq_none_iff.1 hbyte)]
      rfl
    | some b =>
      obtain ⟨hlt, -⟩ := Array.getElem?_eq_some_iff.1 hbyte
      have hpc : (c.pc + 1).toNat = c.pc.toNat + 1 := toNat_add_of_le hm hlt
      have hclass := classify_eq_byRange b
      rw [drop_eq_cons hbyte, Reference.operand, Reference.general, List.head?_cons,
        Option.map_some]
      dsimp only
      by_cases hindex : 0x40 ≤ b.toNat ∧ b.toNat ≤ 0x4f
      · rw [if_pos hindex] at hclass ⊢
        rw [hclass]
        dsimp only
        rw [view_map, ih _ (by dsimp only; omega), Reference.operand, hpc, View.map_map,
          View.map_map]
        rfl
      · rw [if_neg hindex] at hclass ⊢
        rw [hclass]
        dsimp only
        rw [view_map, view_renderBase hm, hpc]

/-- Rendering a decoded general operand is rendering while decoding. -/
lemma decode_general_eq_render (type : DataType) (c : Cursor) :
    ((fun op => (op.text, op.mode?)) <$> Operand.decode m (.general type)) c =
      Specifier.render m type UInt32.size c := by
  simp only [Operand.decode, Specifier.decode, Specifier.render, Functor.map, EStateM.map, bind,
    EStateM.bind]
  cases Specifier.decodeChain m UInt32.size [] c with
  | error fault c₁ => rfl
  | ok chain c₁ =>
    dsimp only
    cases Specifier.decodeExtension m type chain.2 c₁ <;> rfl

/-- **Decoding an operand agrees with the reference**: at every program counter and for every
operand type it gives the same text and mode and the same program counter afterwards, or the same
fault at the same program counter. -/
theorem decode_eq_reference (m : Memory) (hm : m.size < 2 ^ 32) (type : OperandType) (c : Cursor) :
    view (((fun op => (op.text, op.mode?)) <$> Operand.decode m type) c) =
      Reference.operand c.pc.toNat (m.toList.drop c.pc.toNat) type := by
  cases type with
  | general type =>
    rw [decode_general_eq_render]
    exact view_render hm type UInt32.size c (Nat.lt_add_right _ hm)
  | branch width =>
    have hcases : width.size = 1 ∨ width.size = 2 ∨ width.size = 4 := by
      cases width <;> decide
    have hview := view_fetchDisplacement hm hcases
      (f := fun offset stop => Hex.text (stop + offset).toNat)
      (g := fun z stop => Hex.text (word (stop + z)))
      (fun offset stop z hz => by rw [toNat_add_of_eq_word hz]) c
    rw [Operand.render_branch, Reference.operand, ← hview, ← view_map]
    simp only [map_bind, map_pure]

/-- Two indices before a displacement that leads below address zero, and an index before a
displacement that is cut off by the end of the memory. -/
theorem decode_eq_reference_indexed :
    ((Memory.ofList [0x41, 0x42, 0xbf, 0xfb]).size < 2 ^ 32 ∧
      view (((fun op => (op.text, op.mode?)) <$>
          Operand.decode (.ofList [0x41, 0x42, 0xbf, 0xfb]) (.general .byte)) (.start 0)) =
        .ok (("*0xffffffff[r2][r1]", some (.indexed ⟨1⟩)), 4)) ∧
    ((Memory.ofList [0x4c, 0xef, 0x00]).size < 2 ^ 32 ∧
      view (((fun op => (op.text, op.mode?)) <$>
          Operand.decode (.ofList [0x4c, 0xef, 0x00]) (.general .byte)) (.start 0)) =
        .error (.outOfBounds 2 4, 2)) :=
  ⟨⟨by decide, (decode_eq_reference _ (by decide) _ _).trans (by decide +kernel)⟩,
    by decide, (decode_eq_reference _ (by decide) _ _).trans (by decide +kernel)⟩

end VaxListing
