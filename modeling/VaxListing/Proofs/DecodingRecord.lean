import VaxListing.Proofs.Layout
import VaxListing.Proofs.OperandReference
import VaxListing.Proofs.Progress

set_option relaxedAutoImplicit false
set_option autoImplicit false

/-!
# What decoding records

Decoding an instruction records the mode bytes that it fetches, in their order, or that its code is
no opcode. Nothing else is recorded, and what is recorded can be read off the memory before.

## Main definitions

* `VaxListing.Layout.modeBytesOf` — the mode bytes of an instruction, with their addresses.
* `VaxListing.Layout.undefinedCode?` — the code of an instruction without an opcode.
* `VaxListing.Layout.instructionEvents` — the events of an instruction.
* `VaxListing.Records` — the events that a piece of decoding adds to the record.

## Main results

* `VaxListing.Records.bind` — decoding one piece after another records the events of both.
* `VaxListing.records_decodeChain` — the loop over index bytes records the mode bytes.
* `VaxListing.records_instruction` — an instruction records its mode bytes or its undefined code.

## Design

Which events there are is read off the memory by the layout of the instruction, also where decoding
fails: the layout goes on behind the end of the memory, where there are no mode bytes. What is true
of the addresses is carried along by `Records`, which looks at the events only.
-/

namespace VaxListing

/-! ## What there is to record -/

namespace Layout

/-- The mode bytes of a general operand that the code begins with: its index bytes and the byte
behind them, as far as they are there. -/
def modeBytes (code : List UInt8) : List UInt8 :=
  indexPart code ++ (baseByte? code).toList

/-- The mode bytes of the operand that starts at an address, with their own addresses. A branch
operand has none. -/
def modeBytesAt (m : Memory) (start : OperandType × Nat) : List (UInt8 × Nat) :=
  if start.1.isBranch then [] else (modeBytes (m.toList.drop start.2)).zipIdx start.2

/-- The code that the bytes begin with: one byte or, behind an escape byte, another one. -/
def code? : List UInt8 → Option UInt16
  | [] => none
  | first :: rest =>
    if Opcode.isEscape first then
      rest.head?.map fun second => .ofNat (first.toNat * 256 + second.toNat)
    else some first.toUInt16

/-- The mode bytes of the instruction at an address, with their own addresses. -/
def modeBytesOf (m : Memory) (p : Nat) : List (UInt8 × Nat) :=
  match (code? (m.toList.drop p)).bind Opcode.find? with
  | some op => (operandStarts m (p + op.width) op.operands).flatMap (modeBytesAt m)
  | none => []

/-- The code of the instruction at an address, if it is no opcode. -/
def undefinedCode? (m : Memory) (p : Nat) : Option UInt16 :=
  (code? (m.toList.drop p)).filter fun code => (Opcode.find? code).isNone

/-- The mode bytes as events. -/
def events (bytes : List (UInt8 × Nat)) : List Log.Event :=
  bytes.map fun b => .modeByte b.1 (.ofNat b.2)

/-- The events of the instruction at an address: its mode bytes, or that its code is no opcode. -/
def instructionEvents (m : Memory) (p : Nat) : List Log.Event :=
  events (modeBytesOf m p) ++
    (undefinedCode? m p).toList.map fun code => .unknownOpcode code (.ofNat p)

/-! ## Mode bytes in memory -/

/-- Without bytes there are no mode bytes. -/
lemma modeBytes_nil : modeBytes [] = [] :=
  rfl

/-- An index byte is followed by other mode bytes. -/
lemma modeBytes_cons_indexed {b : UInt8} {r : Register}
    (h : AddressingMode.classify b = .indexed r) (code : List UInt8) :
    modeBytes (b :: code) = b :: modeBytes code := by
  simp [modeBytes, indexPart, baseByte?, isIndexByte, h]

/-- Any other byte is the last mode byte. -/
lemma modeBytes_cons_base {b : UInt8} {mode : BaseMode}
    (h : AddressingMode.classify b = .base mode) (code : List UInt8) :
    modeBytes (b :: code) = [b] := by
  simp [modeBytes, indexPart, baseByte?, isIndexByte, h]

/-- The mode bytes stand at the beginning of the code. -/
lemma modeBytes_isPrefix (code : List UInt8) : modeBytes code <+: code := by
  rw [modeBytes]
  cases hbyte : baseByte? code with
  | none =>
    rw [indexPart_of_baseByte?_eq_none hbyte]
    simp
  | some b =>
    obtain ⟨_, rest, -, hcode⟩ := exists_of_baseByte? hbyte
    refine ⟨rest, ?_⟩
    conv_rhs => rw [hcode]
    simp

/-- A mode byte is the byte at its address. -/
lemma getElem?_of_mem_modeBytesAt {m : Memory} {start : OperandType × Nat} {b : UInt8} {a : Nat}
    (h : (b, a) ∈ modeBytesAt m start) : m.bytes[a]? = some b := by
  rw [modeBytesAt] at h
  split at h
  · cases h
  · obtain ⟨hle, hget⟩ := List.mk_mem_zipIdx_iff_le_and_getElem?_sub.1 h
    obtain ⟨rest, hrest⟩ := modeBytes_isPrefix (m.toList.drop start.2)
    obtain ⟨hlt, -⟩ := List.getElem?_eq_some_iff.1 hget
    have hdrop : (m.toList.drop start.2)[a - start.2]? = some b := by
      rw [← hrest, List.getElem?_append_left hlt, hget]
    rw [List.getElem?_drop, Nat.add_sub_cancel' hle] at hdrop
    simpa [Memory.toList] using hdrop

/-- The mode bytes of an instruction stand in memory. -/
lemma getElem?_of_mem_modeBytesOf {m : Memory} {p : Nat} {b : UInt8} {a : Nat}
    (h : (b, a) ∈ modeBytesOf m p) : m.bytes[a]? = some b := by
  rw [modeBytesOf] at h
  split at h
  · obtain ⟨start, -, hmem⟩ := List.mem_flatMap.1 h
    exact getElem?_of_mem_modeBytesAt hmem
  · cases h

/-- Behind the end of the memory there are no mode bytes. -/
lemma modeBytesAt_of_size_le {m : Memory} {start : OperandType × Nat} (h : m.size ≤ start.2) :
    modeBytesAt m start = [] := by
  rw [modeBytesAt, drop_eq_nil h, modeBytes_nil]
  simp

/-- Operands that start behind the end of the memory have no mode bytes. -/
lemma flatMap_modeBytesAt_of_size_le {m : Memory} {p : Nat} (h : m.size ≤ p)
    (types : List OperandType) : (operandStarts m p types).flatMap (modeBytesAt m) = [] := by
  induction types generalizing p with
  | nil => rfl
  | cons type types ih =>
    rw [operandStarts, List.flatMap_cons, modeBytesAt_of_size_le h, ih (by omega), List.append_nil]

/-! ## Codes in memory -/

/-- The bytes of a code begin with it. -/
lemma code?_bytesOf {code : UInt16} (h : Opcode.IsCode code) (rest : List UInt8) :
    code? (Opcode.bytesOf code ++ rest) = some code := by
  obtain ⟨first, -, hrest⟩ := (Opcode.isCode_iff (p := 0) (q := 0)).1 h
  rw [Opcode.bytesOf_eq hrest]
  rw [Opcode.codeRest] at hrest ⊢
  split at hrest
  case isTrue hescape =>
    obtain ⟨second, rfl⟩ := hrest
    rw [if_pos hescape]
    dsimp only
    rw [Opcode.low_escaped]
    simp [code?, hescape]
  case isFalse hescape =>
    obtain rfl : code = first.toUInt16 := hrest
    rw [if_neg hescape]
    simp [code?, hescape, Format.unit]

/-- Where bytes begin with a code, they begin with its bytes. -/
lemma bytesOf_isPrefix_of_code? {code : UInt16} {bs : List UInt8} (h : code? bs = some code) :
    Opcode.IsCode code ∧ Opcode.bytesOf code <+: bs := by
  cases bs with
  | nil => cases h
  | cons first rest =>
    rw [code?] at h
    split at h
    case isTrue hescape =>
      obtain ⟨second, hsecond, rfl⟩ := Option.map_eq_some_iff.1 h
      obtain ⟨rest, rfl⟩ := List.head?_eq_some_iff.1 hsecond
      have hgt := Opcode.escaped_gt hescape second
      have hhigh := Opcode.high_escaped first second
      refine ⟨?_, ?_⟩
      · rw [Opcode.IsCode, if_pos hgt, hhigh]
        exact hescape
      · rw [Opcode.bytesOf, if_pos hgt, hhigh, Opcode.low_escaped]
        exact ⟨rest, rfl⟩
    case isFalse hescape =>
      obtain rfl : first.toUInt16 = code := Option.some.inj h
      have hle := Opcode.toUInt16_le first
      have hlow : first.toUInt16.toUInt8 = first := by simp
      refine ⟨?_, ?_⟩
      · rw [Opcode.IsCode, if_neg hle, hlow]
        simpa using hescape
      · rw [Opcode.bytesOf, if_neg hle, hlow]
        exact ⟨rest, rfl⟩

variable {m : Memory} {p : Nat} {code : UInt16}

/-- Without a code there are no events. -/
lemma instructionEvents_of_code?_eq_none (hcode : code? (m.toList.drop p) = none) :
    instructionEvents m p = [] := by
  rw [instructionEvents, modeBytesOf, undefinedCode?, hcode]
  rfl

/-- A code that is no opcode is the only event. -/
lemma instructionEvents_of_unknown (hcode : code? (m.toList.drop p) = some code)
    (hfind : Opcode.find? code = none) :
    instructionEvents m p = [.unknownOpcode code (.ofNat p)] := by
  rw [instructionEvents, modeBytesOf, undefinedCode?, hcode, Option.bind_some, hfind,
    Option.filter_some, if_pos (by rw [hfind]; rfl)]
  rfl

/-- The events of an instruction with an opcode are the mode bytes of its operands. -/
lemma instructionEvents_of_known (hcode : code? (m.toList.drop p) = some code) {op : Opcode}
    (hfind : Opcode.find? code = some op) :
    instructionEvents m p =
      events ((operandStarts m (p + op.width) op.operands).flatMap (modeBytesAt m)) := by
  rw [instructionEvents, modeBytesOf, undefinedCode?, hcode, Option.bind_some, hfind,
    Option.filter_some, if_neg (by rw [hfind]; simp)]
  exact List.append_nil _

end Layout

/-! ## Recording -/

/-- The address of a recorded mode byte. -/
def Log.Event.modeAddress? : Log.Event → Option Nat
  | .modeByte _ address => some address.toNat
  | _ => none

/-- The outcome `r` of decoding from the cursor `c` adds the events `es` to the record. The mode
bytes among them stand between the two cursors and come in the order of their addresses. -/
structure Records {α : Type} (c : Cursor) (es : List Log.Event)
    (r : EStateM.Result MachineFault Cursor α) : Prop where
  /-- The events are added behind those that were there. -/
  events_eq : (cursorOf r).events.toList = c.events.toList ++ es
  /-- The program counter does not move back. -/
  le_pc : c.pc.toNat ≤ (cursorOf r).pc.toNat
  /-- The mode bytes lie between the two cursors. -/
  between : ∀ a ∈ es.filterMap Log.Event.modeAddress?,
    c.pc.toNat ≤ a ∧ a < (cursorOf r).pc.toNat
  /-- The mode bytes are recorded in the order of their addresses. -/
  sorted : (es.filterMap Log.Event.modeAddress?).Pairwise (· < ·)

namespace Records

variable {α β : Type} {c : Cursor}

/-- Decoding that does not record anything. -/
lemma silent {r : EStateM.Result MachineFault Cursor α} (hevents : (cursorOf r).events = c.events)
    (hpc : c.pc.toNat ≤ (cursorOf r).pc.toNat) : Records c [] r where
  events_eq := by rw [hevents, List.append_nil]
  le_pc := hpc
  between := by simp
  sorted := by simp

/-- Noting an event that is no mode byte. -/
lemma note (e : Log.Event) (h : e.modeAddress? = none) : Records c [e] (Decoder.note e c) where
  events_eq := by simp [cursorOf, Decoder.note]
  le_pc := le_rfl
  between := by simp [h]
  sorted := by simp [h]

/-- **Decoding one piece after another** records the events of the first piece and, behind them,
those of the second. If already the first piece fails, there are no events of the second.

**Proof sketch.** The mode bytes of the first piece lie below the cursor where the second piece
starts, and those of the second piece lie above it. -/
lemma bind {d : Decoder α} {k : α → Decoder β} {es es' : List Log.Event}
    (hd : Records c es (d c)) (hk : ∀ a c', d c = .ok a c' → Records c' es' (k a c'))
    (hfault : ∀ fault c', d c = .error fault c' → es' = []) :
    Records c (es ++ es') ((d >>= k) c) := by
  rw [show (d >>= k) c = EStateM.bind d k c from rfl, EStateM.bind]
  cases hdc : d c with
  | error fault c' =>
    rw [hdc] at hd
    rw [hfault fault c' hdc, List.append_nil]
    exact ⟨hd.events_eq, hd.le_pc, hd.between, hd.sorted⟩
  | ok a c' =>
    rw [hdc] at hd
    have hk' := hk a c' hdc
    have hmiddle : c.pc.toNat ≤ c'.pc.toNat := hd.le_pc
    refine ⟨?_, hmiddle.trans hk'.le_pc, ?_, ?_⟩
    · rw [hk'.events_eq, show c'.events.toList = c.events.toList ++ es from hd.events_eq,
        List.append_assoc]
    · intro a hmem
      rw [List.filterMap_append, List.mem_append] at hmem
      have hend := hk'.le_pc
      rcases hmem with hmem | hmem
      · obtain ⟨hle, hlt⟩ := hd.between a hmem
        exact ⟨hle, lt_of_lt_of_le hlt hend⟩
      · obtain ⟨hle, hlt⟩ := hk'.between a hmem
        exact ⟨hmiddle.trans hle, hlt⟩
    · rw [List.filterMap_append, List.pairwise_append]
      refine ⟨hd.sorted, hk'.sorted, fun a ha a' ha' => ?_⟩
      exact lt_of_lt_of_le (hd.between a ha).2 (hk'.between a' ha').1

/-- A second piece that records nothing leaves the record to the first. -/
lemma bind_silent {d : Decoder α} {k : α → Decoder β} {es : List Log.Event}
    (hd : Records c es (d c)) (hk : ∀ a c', d c = .ok a c' → Records c' [] (k a c')) :
    Records c es ((d >>= k) c) := by
  have h := hd.bind hk (fun _ _ _ => rfl)
  rwa [List.append_nil] at h

/-- Rearranging a result records the same. -/
lemma map {d : Decoder α} {f : α → β} {es : List Log.Event} (hd : Records c es (d c)) :
    Records c es ((f <$> d) c) :=
  hd.bind_silent (k := fun a => pure (f a)) fun _ _ _ => silent rfl le_rfl

/-- What is recorded depends only on the cursor that is left behind. -/
lemma congr {r : EStateM.Result MachineFault Cursor α} {r' : EStateM.Result MachineFault Cursor β}
    {es : List Log.Event} (h : Records c es r) (hcursor : cursorOf r' = cursorOf r) :
    Records c es r' := by
  obtain ⟨hevents, hle, hbetween, hsorted⟩ := h
  rw [← hcursor] at hevents hle hbetween
  exact ⟨hevents, hle, hbetween, hsorted⟩

end Records

section Decoding

variable {m : Memory} (hm : m.size < 2 ^ 32)

include hm in
/-- Fetching a number records nothing. -/
lemma records_fetch {n : Nat} (hn : Memory.isReadSize n = true) (c : Cursor) :
    Records c [] (m.fetch n c) := by
  rw [fetch_eq hn]
  split
  case isTrue hle =>
    refine .silent rfl ?_
    show c.pc.toNat ≤ (c.pc + .ofNat n).toNat
    rw [toNat_add_of_le hm hle]
    omega
  case isFalse hgt => exact .silent rfl le_rfl

include hm in
/-- Fetching a byte records nothing. -/
lemma records_fetchByte (c : Cursor) : Records c [] (m.fetchByte c) := by
  rw [fetchByte_eq]
  cases hbyte : m.bytes[c.pc.toNat]? with
  | none => exact .silent rfl le_rfl
  | some b =>
    obtain ⟨hlt, -⟩ := Array.getElem?_eq_some_iff.1 hbyte
    refine .silent rfl ?_
    show c.pc.toNat ≤ (c.pc + .ofNat 1).toNat
    rw [toNat_add_of_le hm hlt]
    omega

include hm in
/-- Fetching a mode byte that is there records it. -/
lemma records_fetchModeByte {c : Cursor} {b : UInt8} (hbyte : m.bytes[c.pc.toNat]? = some b) :
    Records c [.modeByte b c.pc] (m.fetchModeByte c) := by
  obtain ⟨hlt, -⟩ := Array.getElem?_eq_some_iff.1 hbyte
  have hpc : (c.pc + 1).toNat = c.pc.toNat + 1 := toNat_add_of_le hm hlt
  rw [Memory.fetchModeByte_eq, hbyte]
  refine ⟨by simp [cursorOf], ?_, ?_, ?_⟩
  · show c.pc.toNat ≤ (c.pc + 1).toNat
    omega
  · intro a hmem
    obtain rfl : a = c.pc.toNat := by simpa [Log.Event.modeAddress?] using hmem
    show c.pc.toNat ≤ c.pc.toNat ∧ c.pc.toNat < (c.pc + 1).toNat
    omega
  · simp [Log.Event.modeAddress?]

include hm in
/-- **The loop over index bytes records the mode bytes** that the code at the cursor begins with,
given rounds enough to leave the memory.

**Proof sketch.** Induction on the rounds. Behind the memory there are no mode bytes, and nothing is
recorded. Otherwise the byte at the cursor is recorded, and an index byte is followed by what the
other rounds record. -/
lemma records_decodeChain (rounds : Nat) (seen : List Register) (c : Cursor)
    (hrounds : m.size < rounds + c.pc.toNat) :
    Records c (Layout.events
      ((Layout.modeBytes (m.toList.drop c.pc.toNat)).zipIdx c.pc.toNat))
      (Specifier.decodeChain m rounds seen c) := by
  induction rounds generalizing seen c with
  | zero =>
    rw [drop_eq_nil (by omega)]
    exact .silent rfl le_rfl
  | succ rounds ih =>
    cases hbyte : m.bytes[c.pc.toNat]? with
    | none =>
      have hfetch : m.fetchModeByte c = .error (.outOfBounds c.pc.toNat 1) c := by
        rw [Memory.fetchModeByte_eq, hbyte]
      rw [drop_eq_nil (Array.getElem?_eq_none_iff.1 hbyte)]
      simp only [Specifier.decodeChain, bind, EStateM.bind, hfetch]
      exact .silent rfl le_rfl
    | some b =>
      obtain ⟨hlt, -⟩ := Array.getElem?_eq_some_iff.1 hbyte
      have hpc : (c.pc + 1).toNat = c.pc.toNat + 1 := toNat_add_of_le hm hlt
      have hfetch : m.fetchModeByte c =
          .ok b ⟨c.pc + 1, c.events.push (.modeByte b c.pc)⟩ := by
        rw [Memory.fetchModeByte_eq, hbyte]
      have hfirst := records_fetchModeByte hm hbyte
      rw [drop_eq_cons hbyte]
      cases hmode : AddressingMode.classify b with
      | indexed r =>
        rw [Layout.modeBytes_cons_indexed hmode, List.zipIdx_cons]
        have hevent : Layout.events ((b, c.pc.toNat) ::
            (Layout.modeBytes (m.toList.drop (c.pc.toNat + 1))).zipIdx (c.pc.toNat + 1)) =
            [.modeByte b c.pc] ++ Layout.events ((Layout.modeBytes
              (m.toList.drop (c.pc.toNat + 1))).zipIdx (c.pc.toNat + 1)) := by
          simp [Layout.events]
        rw [hevent]
        refine hfirst.bind (fun b' c' hok => ?_) (fun fault c' herror => ?_)
        · rw [hfetch] at hok
          cases hok
          rw [hmode, ← hpc]
          exact ih (r :: seen) ⟨c.pc + 1, _⟩ (by dsimp only; omega)
        · rw [hfetch] at herror
          cases herror
      | base mode =>
        have hevent : Layout.events ((Layout.modeBytes
            (b :: m.toList.drop (c.pc.toNat + 1))).zipIdx c.pc.toNat) =
            [.modeByte b c.pc] ++ [] := by
          simp [Layout.modeBytes_cons_base hmode, Layout.events]
        rw [hevent]
        refine hfirst.bind (fun b' c' hok => ?_) (fun _ _ _ => rfl)
        rw [hfetch] at hok
        cases hok
        rw [hmode]
        exact .silent rfl le_rfl

include hm in
/-- Fetching what follows a mode byte records nothing. -/
lemma records_decodeExtension (type : DataType) (base : BaseMode) (c : Cursor) :
    Records c [] (Specifier.decodeExtension m type base c) := by
  rw [Specifier.decodeExtension_eq]
  split
  case isTrue hzero => exact .silent rfl le_rfl
  case isFalse hsize =>
    exact records_fetch hm ((Specifier.extensionSize_cases type base).resolve_left hsize) c

include hm in
/-- **An operand records its mode bytes.** -/
lemma records_operand (type : OperandType) (c : Cursor) :
    Records c (Layout.events (Layout.modeBytesAt m (type, c.pc.toNat)))
      (Operand.decode m type c) := by
  rw [Operand.decode_eq]
  refine Records.bind_silent ?_ fun form c' _ => .silent rfl le_rfl
  cases type with
  | branch width =>
    have hsize : Memory.isReadSize width.size = true := by cases width <;> rfl
    exact (records_fetch hm hsize c).map
  | general type =>
    have hrounds : m.size < UInt32.size + c.pc.toNat := Nat.lt_add_right _ hm
    refine Records.map ?_
    refine (records_decodeChain hm UInt32.size [] c hrounds).bind_silent fun chain c' _ => ?_
    exact (records_decodeExtension hm type chain.2 c').bind_silent fun _ _ _ => .silent rfl le_rfl

include hm in
/-- **Operands one after another record their mode bytes**, also if one of them cannot be decoded.

**Proof sketch.** Induction on the types. If the first operand is decoded, the layout goes on where
the next one starts. If it cannot be decoded, the layout goes on behind the end of the memory, where
there are no mode bytes. -/
lemma records_operands (types : List OperandType) (c : Cursor) :
    Records c (Layout.events
      ((Layout.operandStarts m c.pc.toNat types).flatMap (Layout.modeBytesAt m)))
      (Operand.decodeAll m types c) := by
  induction types generalizing c with
  | nil => exact .silent rfl le_rfl
  | cons type types ih =>
    rw [Layout.operandStarts, List.flatMap_cons, Layout.events, List.map_append]
    refine (records_operand hm type c).bind (fun op c' hok => ?_) (fun fault c' herror => ?_)
    · rw [← pc_of_operand hm hok]
      exact (ih c').bind_silent fun _ _ _ => .silent rfl le_rfl
    · have hlt := size_lt_of_operand_error hm herror
      rw [Layout.flatMap_modeBytesAt_of_size_le (by omega), List.map_nil]

include hm in
/-- Fetching a code records nothing. -/
lemma records_decodeCode (c : Cursor) : Records c [] (Instruction.decodeCode m c) := by
  refine (records_fetchByte hm c).bind_silent fun first c' _ => ?_
  split
  · exact (records_fetchByte hm c').bind_silent fun _ _ _ => .silent rfl le_rfl
  · exact .silent rfl le_rfl

include hm in
/-- A code that is decoded is the one that the bytes at the cursor begin with. -/
lemma code?_of_decodeCode {c c' : Cursor} {code : UInt16}
    (h : Instruction.decodeCode m c = .ok code c') :
    Layout.code? (m.toList.drop c.pc.toNat) = some code ∧
      c'.pc.toNat = c.pc.toNat + Opcode.widthOf code := by
  obtain ⟨hcode, ⟨rest, hrest⟩, hpc⟩ := (reads_decodeCode hm c).sound h
  refine ⟨?_, ?_⟩
  · rw [← hrest]
    exact Layout.code?_bytesOf hcode rest
  · rw [hpc, Opcode.codeFormat, Opcode.length_bytesOf]

include hm in
/-- A code that cannot be decoded is not there. -/
lemma code?_of_decodeCode_error {c c' : Cursor} {fault : MachineFault}
    (h : Instruction.decodeCode m c = .error fault c') :
    Layout.code? (m.toList.drop c.pc.toNat) = none := by
  rw [Option.eq_none_iff_forall_not_mem]
  intro code hcode
  obtain ⟨hfit, hat⟩ := Layout.bytesOf_isPrefix_of_code? hcode
  obtain ⟨c'', hok⟩ := (reads_decodeCode hm c).complete hfit hat
  rw [h] at hok
  cases hok

include hm in
/-- **An instruction records its mode bytes, or that its code is no opcode**, also if it cannot be
decoded to its end.

**Proof sketch.** The code itself records nothing. If it is not there, the layout does not announce
any events; if it is no opcode, this is the only event; and if it is an opcode, the operands record
their mode bytes. Taking the bytes of the instruction from memory again records nothing. -/
lemma records_instruction (c : Cursor) :
    Records c (Layout.instructionEvents m c.pc.toNat) (Instruction.decode m c) := by
  have hbody : Records c ([] ++ Layout.instructionEvents m c.pc.toNat)
      ((Instruction.decodeCode m >>= Instruction.decodeBody m c.pc) c) := by
    refine (records_decodeCode hm c).bind (fun code c' hok => ?_) (fun fault c' herror => ?_)
    · obtain ⟨hcode, hpc⟩ := code?_of_decodeCode hm hok
      rw [Instruction.decodeBody]
      cases hfind : Opcode.find? code with
      | none =>
        rw [Layout.instructionEvents_of_unknown hcode hfind, UInt32.ofNat_toNat]
        exact (Records.note (.unknownOpcode code c.pc) rfl).bind_silent
          fun _ _ _ => .silent rfl le_rfl
      | some op =>
        obtain ⟨-, rfl⟩ := Opcode.find?_eq_some_iff.1 hfind
        rw [Layout.instructionEvents_of_known hcode hfind,
          show c.pc.toNat + op.width = c'.pc.toNat from hpc.symm]
        exact (records_operands hm op.operands c').map
    · exact Layout.instructionEvents_of_code?_eq_none (code?_of_decodeCode_error hm herror)
  refine hbody.congr ?_
  rw [Instruction.decode_eq hm]
  cases (Instruction.decodeCode m >>= Instruction.decodeBody m c.pc) c <;> rfl

include hm in
/-- A code is undefined exactly if the instruction that is decoded is such a code. -/
lemma undefinedCode?_eq_some_iff {c : Cursor} {code : UInt16} :
    Layout.undefinedCode? m c.pc.toNat = some code ↔
      ∃ i c', Instruction.decode m c = .ok i c' ∧ i.body = .unknown code := by
  rw [Layout.undefinedCode?, Option.filter_eq_some_iff, Option.isNone_iff_eq_none]
  constructor
  · rintro ⟨hcode, hnone⟩
    obtain ⟨hfit, hat⟩ := Layout.bytesOf_isPrefix_of_code? hcode
    obtain ⟨c', hok⟩ := (reads_instructionBody hm c.pc c).complete
      (a := .unknown code) ⟨hfit, hnone⟩ hat
    rw [Instruction.decode_eq hm, hok]
    exact ⟨_, c', rfl, rfl⟩
  · rintro ⟨i, c', hok, hbody⟩
    obtain ⟨⟨-, hplaced⟩, hat, -⟩ := (reads_instruction hm c).sound hok
    rw [hbody] at hplaced
    obtain ⟨hcode, hnone⟩ := hplaced
    obtain ⟨rest, hrest⟩ : i.body.encode <+: m.toList.drop c.pc.toNat := hat
    rw [hbody] at hrest
    refine ⟨?_, hnone⟩
    rw [← hrest]
    exact Layout.code?_bytesOf hcode rest

end Decoding

end VaxListing
