import VaxListing.Proofs.Characters
import VaxListing.Proofs.OperandReference

set_option relaxedAutoImplicit false
set_option autoImplicit false

/-!
# The text of an operand can be read back

The base of a general operand can be read back from its text, if the number of bytes behind its mode
byte and the address behind the operand are known. An absolute address reads back as the long
deferred displacement off the program counter that leads to it, since both have the same text.

## Main definitions

* `VaxListing.Specifier.body` — the base of an operand in a listing, without the remark behind a
  constant.
* `VaxListing.Specifier.readBody` — reads it back.
* `VaxListing.Specifier.canonical` — the base of an operand, with a displacement in the place of an
  absolute address.

## Main results

* `VaxListing.append_inj_of_stop` — where a text is cut is seen from its characters.
* `VaxListing.Specifier.toList_text` — a text is a body, a remark and the indices.
* `VaxListing.Specifier.indices_inj` — the indices in a listing are those of one operand only.
* `VaxListing.Specifier.readBody_body` — what is read back is the canonical base.

## Design

A body consists of letters, digits and symbols, but it has neither a space nor a square bracket. So
it ends where the first of them stands, which is either the remark behind a constant or an index.
-/

namespace VaxListing

/-! ## Where texts are cut -/

/-- The characters that stand in front of a stop are cut off there. -/
lemma span_append_stop {p : Char → Bool} {xs ys : List Char} (hxs : ∀ x ∈ xs, p x = true)
    (hys : ∀ y ∈ ys.head?, p y = false) : (xs ++ ys).span p = (xs, ys) := by
  rw [List.span_eq_takeWhile_dropWhile, List.takeWhile_append_of_pos hxs,
    List.dropWhile_append_of_pos hxs]
  cases ys with
  | nil => simp
  | cons y ys =>
    have hy : p y = false := hys y rfl
    simp [hy]

/-- **Where a text is cut is seen from its characters**: the first part ends at the first character
that cannot stand in it. -/
lemma append_inj_of_stop {p : Char → Bool} {xs xs' ys ys' : List Char}
    (h : xs ++ ys = xs' ++ ys') (hxs : ∀ x ∈ xs, p x = true) (hys : ∀ y ∈ ys.head?, p y = false)
    (hxs' : ∀ x ∈ xs', p x = true) (hys' : ∀ y ∈ ys'.head?, p y = false) :
    xs = xs' ∧ ys = ys' := by
  have hspan := span_append_stop hxs hys
  rw [h, span_append_stop hxs' hys'] at hspan
  simpa [eq_comm] using hspan

/-! ## Names and numbers -/

/-- Letters and digits are not symbols. -/
lemma bne_of_isAlphanum {cs : List Char} (h : ∀ c ∈ cs, c.isAlphanum = true) {symbol : Char}
    (hsymbol : symbol.isAlphanum = false) : ∀ c ∈ cs, (c != symbol) = true := by
  intro c hc
  rw [bne_iff_ne]
  rintro rfl
  rw [h c hc] at hsymbol
  cases hsymbol

/-- Digits that are filled up with zeros read back as the number. -/
lemma Hex.value?_padded (w n : Nat) : value? (padded w n) = some n := by
  refine value?_fixed (lt_of_lt_of_le (lt_pow_width n) ?_)
  exact Nat.pow_le_pow_right (by decide) (le_max_right w (width n))

namespace Register

/-- The register with a given name, if there is one. -/
def ofName? (name : List Char) : Option Register :=
  all.find? (·.name.toList == name)

/-- Every register is found by its name. -/
lemma ofName?_name (r : Register) : ofName? r.name.toList = some r := by
  have all : ∀ n : Fin 16, ofName? (name ⟨n⟩).toList = some ⟨n⟩ := by
    decide
  exact all r.number

/-- The names of registers begin with a letter that no other text begins with. -/
lemma exists_name_eq_cons (r : Register) :
    ∃ c rest, r.name.toList = c :: rest ∧ c ∈ ['r', 'a', 'f', 's', 'p'] := by
  have all : ∀ n : Fin 16,
      (name ⟨n⟩).toList.head?.any (['r', 'a', 'f', 's', 'p'].contains ·) = true := by
    decide
  have hhead : r.name.toList.head?.any (['r', 'a', 'f', 's', 'p'].contains ·) = true :=
    all r.number
  cases hname : r.name.toList with
  | nil =>
    rw [hname] at hhead
    cases hhead
  | cons c rest =>
    rw [hname] at hhead
    exact ⟨c, rest, rfl, List.contains_iff_mem.1 hhead⟩

/-- The name of a register between two brackets. -/
def between (opening closing : Char) (r : Register) : List Char :=
  opening :: r.name.toList ++ [closing]

/-- Reads the name of a register up to a closing bracket, and gives what follows. -/
def readUpTo? (closing : Char) (cs : List Char) : Option (Register × List Char) :=
  match cs.span (· != closing) with
  | (name, _ :: rest) => (ofName? name).map fun r => (r, rest)
  | (_, []) => none

/-- A name in front of a closing bracket is read back. -/
lemma readUpTo?_name {closing : Char} (hclosing : closing.isAlphanum = false) (r : Register)
    (rest : List Char) :
    readUpTo? closing (r.name.toList ++ closing :: rest) = some (r, rest) := by
  have hname := bne_of_isAlphanum r.isAlphanum_of_mem_name hclosing
  rw [readUpTo?, span_append_stop hname (by simp)]
  simp [ofName?_name]

end Register

/-! ## Bodies -/

namespace Specifier

/-- Whether the operand is a constant, which has a remark behind it. -/
def isConstant (s : Specifier) : Bool :=
  match s.base with
  | .shortLiteral _ | .immediate => true
  | _ => false

/-- The base of the operand in a listing, without the remark behind a constant. -/
def body (type : DataType) (stop : Address) (s : Specifier) : List Char :=
  match s.base with
  | .shortLiteral value => '$' :: '0' :: 'x' :: Hex.minimal value
  | .register r => r.name.toList
  | .registerDeferred r => r.between '(' ')'
  | .autodecrement r => '-' :: r.between '(' ')'
  | .autoincrement r => r.between '(' ')' ++ ['+']
  | .immediate => '$' :: '0' :: 'x' :: Hex.padded (2 * type.size) s.extension
  | .autoincrementDeferred r => '@' :: (r.between '(' ')' ++ ['+'])
  | .absolute => '*' :: '0' :: 'x' :: Hex.minimal s.extension
  | .displacement width r deferred =>
    let offset := signExtend width.size s.extension
    (if deferred then ['*'] else []) ++ '0' :: 'x' ::
      if r.isPc then Hex.minimal (stop + offset).toNat
      else Hex.minimal offset.toNat ++ r.between '(' ')'

/-- What stands behind the body: the remark behind a constant, and the indices. -/
def tail (type : DataType) (s : Specifier) : List Char :=
  (if s.isConstant then type.suffix.toList else []) ++
    s.indices.reverse.flatMap (Register.between '[' ']')

/-- The base of an operand is its body and the remark behind a constant. -/
lemma toList_baseText (type : DataType) (stop : Address) (s : Specifier) :
    (s.baseText type stop).toList =
      s.body type stop ++ if s.isConstant then type.suffix.toList else [] := by
  rw [baseText, body, isConstant]
  cases s.base with
  | displacement width r deferred =>
    by_cases hpc : r.isPc = true <;> cases deferred <;>
      simp [hpc, Hex.text, Register.between, String.toList_append]
  | _ => simp [Hex.text, Hex.paddedText, Register.between, String.toList_append]

/-- **A text is a body, a remark behind a constant, and the indices.** -/
lemma toList_text (type : DataType) (stop : Address) (s : Specifier) :
    (s.text type stop).toList = s.body type stop ++ s.tail type := by
  have hindices : s.indexText.toList =
      s.indices.reverse.flatMap (Register.between '[' ']') := by
    rw [indexText, String.toList_join, List.flatMap_map]
    refine List.flatMap_congr fun r _ => ?_
    simp [Register.between, String.toList_append]
  rw [text, String.toList_append, toList_baseText, hindices, tail, List.append_assoc]

/-- Whether a character can stand in a body. -/
def isBodyChar (c : Char) : Bool :=
  c != '[' && c != ' '

/-- A text of characters that can stand in a body. -/
def IsBody (cs : List Char) : Prop :=
  ∀ c ∈ cs, isBodyChar c = true

lemma IsBody.cons {c : Char} {cs : List Char} (hc : isBodyChar c = true) (hcs : IsBody cs) :
    IsBody (c :: cs) :=
  List.forall_mem_cons.2 ⟨hc, hcs⟩

lemma IsBody.append {cs cs' : List Char} (hcs : IsBody cs) (hcs' : IsBody cs') :
    IsBody (cs ++ cs') :=
  List.forall_mem_append.2 ⟨hcs, hcs'⟩

/-- Letters and digits can stand in a body. -/
lemma IsBody.of_isAlphanum {cs : List Char} (h : ∀ c ∈ cs, c.isAlphanum = true) : IsBody cs := by
  intro c hc
  rw [isBodyChar, Bool.and_eq_true]
  exact ⟨bne_of_isAlphanum h (by decide) c hc, bne_of_isAlphanum h (by decide) c hc⟩

lemma IsBody.fixed (w n : Nat) : IsBody (Hex.fixed w n) :=
  .of_isAlphanum (Hex.isAlphanum_of_mem_fixed w n)

lemma IsBody.name (r : Register) : IsBody r.name.toList :=
  .of_isAlphanum r.isAlphanum_of_mem_name

lemma IsBody.between (r : Register) : IsBody (r.between '(' ')') :=
  .cons (by decide) (.append (.name r) (.cons (by decide) (by simp [IsBody])))

/-- **A body has neither a space nor a square bracket.** -/
lemma isBody_body (type : DataType) (stop : Address) (s : Specifier) :
    IsBody (s.body type stop) := by
  have hplus : IsBody ['+'] := .cons (by decide) (by simp [IsBody])
  rw [body]
  cases s.base with
  | shortLiteral value =>
    exact .cons (by decide) (.cons (by decide) (.cons (by decide) (.fixed _ _)))
  | register r => exact .name r
  | registerDeferred r => exact .between r
  | autodecrement r => exact .cons (by decide) (.between r)
  | autoincrement r => exact .append (.between r) hplus
  | immediate => exact .cons (by decide) (.cons (by decide) (.cons (by decide) (.fixed _ _)))
  | autoincrementDeferred r => exact .cons (by decide) (.append (.between r) hplus)
  | absolute => exact .cons (by decide) (.cons (by decide) (.cons (by decide) (.fixed _ _)))
  | displacement width r deferred =>
    have hmark : IsBody (if deferred then ['*'] else []) := by
      cases deferred <;> simp [IsBody, isBodyChar]
    refine .append hmark (.cons (by decide) (.cons (by decide) ?_))
    split
    · exact .fixed _ _
    · exact .append (.fixed _ _) (.between r)

/-- What stands behind a body does not begin with a character that can stand in it. -/
lemma isBodyChar_head_tail (type : DataType) (s : Specifier) :
    ∀ c ∈ (s.tail type).head?, isBodyChar c = false := by
  have hindices : ∀ c ∈ (s.indices.reverse.flatMap (Register.between '[' ']')).head?,
      isBodyChar c = false := by
    cases s.indices.reverse with
    | nil => simp
    | cons r rs =>
      intro c hc
      obtain rfl : '[' = c := by simpa [Register.between] using hc
      decide
  rw [tail]
  cases s.isConstant with
  | false => simpa using hindices
  | true =>
    -- the remark of a floating-point constant begins with a space, and integers have none
    cases type with
    | fFloat | dFloat | gFloat | hFloat => simp [DataType.suffix, isBodyChar]
    | byte | word | long | quad | octa => simpa [DataType.suffix] using hindices

/-- A constant is seen from the first character. -/
lemma head?_body (type : DataType) (stop : Address) (s : Specifier) :
    s.isConstant = true ↔ (s.body type stop).head? = some '$' := by
  rw [isConstant, body]
  cases s.base with
  | register r =>
    obtain ⟨c, rest, hname, hc⟩ := r.exists_name_eq_cons
    simp only [hname, List.head?_cons]
    simp only [List.mem_cons, List.not_mem_nil, or_false] at hc
    rcases hc with rfl | rfl | rfl | rfl | rfl <;> decide
  | displacement width r deferred => cases deferred <;> simp
  | _ => simp [Register.between]

/-- The indices in a listing are those of one operand only.

**Proof sketch.** Induction on the indices. The name of the first one is read up to its closing
bracket, and the others follow. -/
lemma indices_inj {rs rs' : List Register}
    (h : rs.flatMap (Register.between '[' ']') = rs'.flatMap (Register.between '[' ']')) :
    rs = rs' := by
  have hcons : ∀ (r : Register) (rs : List Register),
      (r :: rs).flatMap (Register.between '[' ']') =
        '[' :: (r.name.toList ++ ']' :: rs.flatMap (Register.between '[' ']')) := by
    intro r rs
    simp [Register.between]
  induction rs generalizing rs' with
  | nil =>
    cases rs' with
    | nil => rfl
    | cons r' rs' =>
      rw [hcons] at h
      cases h
  | cons r rs ih =>
    cases rs' with
    | nil =>
      rw [hcons] at h
      cases h
    | cons r' rs' =>
      rw [hcons, hcons] at h
      have hread := congrArg (Register.readUpTo? ']') (List.cons.inj h).2
      rw [Register.readUpTo?_name (by decide), Register.readUpTo?_name (by decide)] at hread
      obtain ⟨rfl, hrest⟩ := Prod.mk.inj (Option.some.inj hread)
      rw [ih hrest]

end Specifier

/-! ## Reading a body back -/

/-- The width of a displacement of a number of bytes. -/
def DisplacementWidth.ofSize : Nat → DisplacementWidth
  | 1 => .byte
  | 2 => .word
  | _ => .long

namespace Specifier

/-- Reads a number, and the register between brackets that follows it if it is not the program
counter, as a displacement of `n` bytes. -/
def readPlace (n : Nat) (stop : Address) (deferred : Bool) (cs : List Char) :
    Option (BaseMode × Nat) :=
  match cs.span (· != '(') with
  | (digits, []) => (Hex.value? digits).map fun v =>
    (.displacement (.ofSize n) .pc deferred, (.ofNat v - stop : Address).toNat % Bytes.capacity n)
  | (digits, _ :: rest) =>
    match Hex.value? digits, Register.readUpTo? ')' rest with
    | some v, some (r, _) =>
      some (.displacement (.ofSize n) r deferred, v % Bytes.capacity n)
    | _, _ => none

/-- Reads the body of an operand with `n` bytes behind its mode byte, and gives its base and the
number in these bytes. -/
def readBody (n : Nat) (stop : Address) : List Char → Option (BaseMode × Nat)
  | '$' :: '0' :: 'x' :: digits => (Hex.value? digits).map fun v =>
    if n = 0 then (.shortLiteral ⟨v % 64, Nat.mod_lt v (by decide)⟩, 0) else (.immediate, v)
  | '@' :: '(' :: cs => (Register.readUpTo? ')' cs).map fun x => (.autoincrementDeferred x.1, 0)
  | '-' :: '(' :: cs => (Register.readUpTo? ')' cs).map fun x => (.autodecrement x.1, 0)
  | '(' :: cs => (Register.readUpTo? ')' cs).map fun x =>
    (if x.2.isEmpty then .registerDeferred x.1 else .autoincrement x.1, 0)
  | '*' :: '0' :: 'x' :: cs => readPlace n stop true cs
  | '0' :: 'x' :: cs => readPlace n stop false cs
  | name => (Register.ofName? name).map fun r => (.register r, 0)

/-- The base of the operand and the number behind its mode byte, with the displacement off the
program counter that leads to the same address in the place of an absolute address. -/
def canonical (stop : Address) (s : Specifier) : BaseMode × Nat :=
  match s.base with
  | .absolute => (.displacement .long .pc true, (.ofNat s.extension - stop : Address).toNat)
  | base => (base, s.extension)

/-- A number without a register is the address that a displacement off the program counter leads
to. -/
lemma readPlace_number (n : Nat) (stop : Address) (deferred : Bool) (v : Nat) :
    readPlace n stop deferred (Hex.minimal v) = some (.displacement (.ofSize n) .pc deferred,
      (.ofNat v - stop : Address).toNat % Bytes.capacity n) := by
  have hdigits : ∀ c ∈ Hex.minimal v, (c != '(') = true :=
    bne_of_isAlphanum (Hex.isAlphanum_of_mem_fixed _ v) (by decide)
  have hspan : (Hex.minimal v).span (· != '(') = (Hex.minimal v, []) := by
    simpa using span_append_stop hdigits (show ∀ c ∈ [].head?, (c != '(') = false by simp)
  rw [readPlace, hspan]
  simp [Hex.value?_minimal]

/-- A number in front of a register is a displacement off this register. -/
lemma readPlace_register (n : Nat) (stop : Address) (deferred : Bool) (v : Nat) (r : Register) :
    readPlace n stop deferred (Hex.minimal v ++ r.between '(' ')') =
      some (.displacement (.ofSize n) r deferred, v % Bytes.capacity n) := by
  have hdigits : ∀ c ∈ Hex.minimal v, (c != '(') = true :=
    bne_of_isAlphanum (Hex.isAlphanum_of_mem_fixed _ v) (by decide)
  have hstop : ∀ c ∈ (r.between '(' ')').head?, (c != '(') = false := by
    simp [Register.between]
  have hname := Register.readUpTo?_name (show ')'.isAlphanum = false by decide) r []
  rw [readPlace, span_append_stop hdigits hstop, Register.between]
  simp only [List.cons_append, hname, Hex.value?_minimal]

/-- The low bytes of a displacement are those that were stored. -/
lemma toNat_signExtend_mod {n v : Nat} (hn : n = 1 ∨ n = 2 ∨ n = 4) (hv : v < Bytes.capacity n) :
    (signExtend n v).toNat % Bytes.capacity n = v := by
  rw [toNat_signExtend hn hv, Reference.word, Reference.signed]
  rcases hn with rfl | rfl | rfl <;>
    simp only [Bytes.capacity] at hv ⊢ <;>
    split_ifs <;>
    omega

/-- The stored displacement is found from where it leads to. -/
lemma toNat_sub_stop_mod {n v : Nat} (hn : n = 1 ∨ n = 2 ∨ n = 4) (hv : v < Bytes.capacity n)
    (stop : Address) :
    (.ofNat (stop + signExtend n v).toNat - stop : Address).toNat % Bytes.capacity n = v := by
  have hoffset : (.ofNat (stop + signExtend n v).toNat - stop : Address) = signExtend n v := by
    rw [UInt32.ofNat_toNat]
    grind
  rw [hoffset, toNat_signExtend_mod hn hv]

/-- **A body is read back as the canonical base.**

**Proof sketch.** The first character tells constants, addresses, registers and the places that they
hold apart. The number of bytes tells a short literal from a constant of its own, and gives the
width of a displacement; the displacement itself is found from where it leads to. -/
lemma readBody_body {type : DataType} {s : Specifier} (h : s.WellFormed type) (stop : Address) :
    readBody (s.base.extensionSize type.size) stop (s.body type stop) =
      some (s.canonical stop) := by
  obtain ⟨indices, base, extension⟩ := s
  obtain ⟨hbase, hextension⟩ := h
  have hname := fun r => Register.readUpTo?_name (show ')'.isAlphanum = false by decide) r
  dsimp only at hbase hextension ⊢
  cases base with
  | shortLiteral value =>
    obtain rfl : extension = 0 := Nat.lt_one_iff.1 hextension
    simp [body, readBody, canonical, BaseMode.extensionSize, Hex.value?_minimal,
      Nat.mod_eq_of_lt value.isLt]
  | register r =>
    obtain rfl : extension = 0 := Nat.lt_one_iff.1 hextension
    obtain ⟨c, rest, hcons, hc⟩ := r.exists_name_eq_cons
    have hread := r.ofName?_name
    simp only [body, canonical]
    rw [hcons] at hread ⊢
    simp only [List.mem_cons, List.not_mem_nil, or_false] at hc
    rcases hc with rfl | rfl | rfl | rfl | rfl <;> simp [readBody, hread]
  | registerDeferred r | autodecrement r | autoincrement r | autoincrementDeferred r =>
    obtain rfl : extension = 0 := Nat.lt_one_iff.1 hextension
    simp [body, readBody, canonical, Register.between, hname]
  | immediate =>
    have hsize : type.size ≠ 0 := by
      cases type <;> decide
    simp [body, readBody, canonical, BaseMode.extensionSize, Hex.value?_padded, hsize]
  | absolute =>
    have hlt : (.ofNat extension - stop : Address).toNat < Bytes.capacity 4 :=
      UInt32.toNat_lt _
    simp only [body, readBody, canonical, readPlace_number, BaseMode.extensionSize]
    rw [Nat.mod_eq_of_lt hlt]
    rfl
  | displacement width r deferred =>
    have hn : width.size = 1 ∨ width.size = 2 ∨ width.size = 4 := by
      cases width <;> decide
    have hwidth : DisplacementWidth.ofSize width.size = width := by
      cases width <;> rfl
    have hplace : readPlace width.size stop deferred
        (if r.isPc then Hex.minimal (stop + signExtend width.size extension).toNat
          else Hex.minimal (signExtend width.size extension).toNat ++ r.between '(' ')') =
        some (.displacement width r deferred, extension) := by
      split
      case isTrue hpc =>
        obtain rfl : r = .pc := by simpa [Register.isPc] using hpc
        rw [readPlace_number, toNat_sub_stop_mod hn hextension, hwidth]
      case isFalse hpc =>
        rw [readPlace_register, toNat_signExtend_mod hn hextension, hwidth]
    cases deferred <;> exact hplace

end Specifier

end VaxListing
