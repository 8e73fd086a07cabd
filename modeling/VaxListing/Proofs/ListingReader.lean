import VaxListing.Proofs.Hexadecimal
import VaxListing.Proofs.PrintableText
import VaxListing.Proofs.Tour

set_option relaxedAutoImplicit false
set_option autoImplicit false

/-!
# Listings can be read back

Every row of a listing gives its address, its bytes and its text back, and the rows of instructions
put together give the instructions back. Since nothing in a row is the end of a line, a listing
survives being written as one text as well.

## Main definitions

* `VaxListing.Instruction.entry` — what a listing shows of an instruction.
* `VaxListing.Listing.splitLines` — the lines of a text.

## Main results

* `VaxListing.Listing.read?_row`, `VaxListing.Listing.read?_row_text` — a row gives its columns
  back.
* `VaxListing.Listing.read?_entries`, `VaxListing.Listing.read?_rows` — the rows of a listing give
  its entries back, and those of instructions the instructions.
* `VaxListing.Listing.splitLines_intercalate` — lines put together come apart again.
* `VaxListing.listing_lossless` — a listing keeps the instructions, and all bytes of the code.
-/

namespace VaxListing

/-- What a listing shows of an instruction. -/
def Instruction.entry (i : Instruction) : Listing.Entry :=
  ⟨i.start, i.bytes, i.text⟩

namespace Listing

/-! ## The columns of a row -/

/-- The digits of a number are no colons and no spaces. -/
lemma digit_ne {w n : Nat} {c : Char} (h : c ∈ Hex.fixed w n) : c ≠ ':' ∧ c ≠ ' ' := by
  have all : ∀ d : Fin 16, Hex.digit d ≠ ':' ∧ Hex.digit d ≠ ' ' := by
    decide
  obtain ⟨d, rfl⟩ := Hex.exists_digit_of_mem h
  exact all d

/-- Where no digit comes first, there are no more bytes to read. -/
lemma readBytes_of_head {rest : List Char}
    (h : ∀ c ∈ rest.head?, Hex.digitValue? c = none) : readBytes rest = ([], rest) := by
  rw [readBytes.eq_def]
  split
  · next a b rest =>
    rw [h a rfl]
  · rfl

/-- Bytes written as digits are read back, up to what follows them.

**Proof sketch.** Induction on the bytes. The two digits of a byte are its halves. -/
lemma readBytes_append (bytes : List UInt8) {rest : List Char}
    (h : ∀ c ∈ rest.head?, Hex.digitValue? c = none) :
    readBytes ((byteText bytes).toList ++ rest) = (bytes, rest) := by
  rw [byteText, String.toList_ofList]
  induction bytes with
  | nil => exact readBytes_of_head h
  | cons b bytes ih =>
    have hhigh := Hex.digitValue?_digit (Nat.mod_lt (b.toNat / 16) (show 0 < 16 by decide))
    have hlow := Hex.digitValue?_digit (Nat.mod_lt b.toNat (show 0 < 16 by decide))
    have hbyte : UInt8.ofNat (16 * (b.toNat / 16 % 16) + b.toNat % 16) = b := by
      have hlt := b.toNat_lt
      rw [show 16 * (b.toNat / 16 % 16) + b.toNat % 16 = b.toNat by omega, UInt8.ofNat_toNat]
    rw [List.flatMap_cons, List.append_assoc]
    -- two digits are written by evaluation, so that the first equation of the reader applies
    show readBytes (Hex.digit (b.toNat / 16 % 16) :: Hex.digit (b.toNat % 16) :: ' ' ::
      (bytes.flatMap (fun b => Hex.fixed 2 b.toNat ++ [' ']) ++ rest)) = _
    rw [readBytes, hhigh, hlow]
    dsimp only
    rw [ih, hbyte]

/-- The address of a row is read up to the colon. -/
lemma span_addressText (a : Address) (rest : List Char) :
    ((addressText a).toList ++ rest).span (· ≠ ':') =
      ((Hex.minimal a.toNat).leftpad 4 ' ', ':' :: '\t' :: rest) := by
  have hleft : ∀ c ∈ (Hex.minimal a.toNat).leftpad 4 ' ', decide (c ≠ ':') = true := by
    intro c hc
    rw [List.leftpad, List.mem_append, List.mem_replicate] at hc
    rcases hc with ⟨-, rfl⟩ | hc
    · decide
    · simpa using (digit_ne hc).1
  have hline : (addressText a).toList ++ rest =
      (Hex.minimal a.toNat).leftpad 4 ' ' ++ ':' :: '\t' :: rest := by
    rw [addressText, String.toList_append, String.toList_ofList, List.append_assoc]
    rfl
  rw [hline, List.span_eq_takeWhile_dropWhile, List.takeWhile_append_of_pos hleft,
    List.dropWhile_append_of_pos hleft]
  simp

/-- The address of a row stands behind the spaces that align it. -/
lemma dropWhile_leftpad (n k : Nat) :
    ((Hex.minimal n).leftpad k ' ').dropWhile (· = ' ') = Hex.minimal n := by
  have hpad : ∀ c ∈ List.replicate (k - (Hex.minimal n).length) ' ', decide (c = ' ') = true := by
    intro c hc
    simpa using (List.mem_replicate.1 hc).2
  rw [List.leftpad, List.dropWhile_append_of_pos hpad]
  cases hdigits : Hex.minimal n with
  | nil => rfl
  | cons c rest =>
    have hc : c ∈ Hex.minimal n := hdigits ▸ List.mem_cons_self
    exact List.dropWhile_cons_of_neg (by simpa using (digit_ne hc).2)

/-- A row gives back its address and its bytes. Whether it has a text is seen from what follows
them, behind the spaces. -/
lemma read?_columns {line : String} {a : Address} {bytes : List UInt8} {rest : List Char}
    (hline : line.toList = (row a bytes).toList ++ rest)
    (hrest : ∀ c ∈ rest.head?, Hex.digitValue? c = none) :
    (rest.dropWhile (· = ' ') = [] → Row.read? line = some ⟨a, bytes, none⟩) ∧
      ∀ text, rest.dropWhile (· = ' ') = '\t' :: text →
        Row.read? line = some ⟨a, bytes, some (String.ofList text)⟩ := by
  rw [Row.read?, hline, row, String.toList_append, List.append_assoc, span_addressText]
  dsimp only
  rw [dropWhile_leftpad, Hex.value?_minimal]
  constructor
  · intro hnone
    simp only [readBytes_append bytes hrest, UInt32.ofNat_toNat, hnone]
  · intro text htext
    simp only [readBytes_append bytes hrest, UInt32.ofNat_toNat, htext]

/-- **A row without text gives its columns back.** -/
lemma read?_row (a : Address) (bytes : List UInt8) :
    Row.read? (row a bytes) = some ⟨a, bytes, none⟩ := by
  have hline : (row a bytes).toList = (row a bytes).toList ++ [] := (List.append_nil _).symm
  exact (read?_columns hline (by simp)).1 rfl

/-- A space is no digit, and neither is a tab. -/
lemma digitValue?_blank (n : Nat) (text : List Char) :
    ∀ c ∈ (List.replicate n ' ' ++ '\t' :: text).head?, Hex.digitValue? c = none := by
  intro c hc
  cases n with
  | zero =>
    cases hc
    decide
  | succ n =>
    cases hc
    decide

/-- **A row with text gives its columns back**, however far the text is moved to the right. -/
lemma read?_row_text (a : Address) (bytes : List UInt8) (n : Nat) (text : String) :
    Row.read? (row a bytes ++ String.ofList (List.replicate n ' ') ++ "\t" ++ text) =
      some ⟨a, bytes, some text⟩ := by
  have hblank : ∀ c ∈ List.replicate n ' ', decide (c = ' ') = true := by
    intro c hc
    simpa using (List.mem_replicate.1 hc).2
  have hline : (row a bytes ++ String.ofList (List.replicate n ' ') ++ "\t" ++ text).toList =
      (row a bytes).toList ++ (List.replicate n ' ' ++ '\t' :: text.toList) := by
    simp [String.toList_append]
  have hrest : (List.replicate n ' ' ++ '\t' :: text.toList).dropWhile (· = ' ') =
      '\t' :: text.toList := by
    rw [List.dropWhile_append_of_pos hblank]
    exact List.dropWhile_cons_of_neg (by decide)
  rw [(read?_columns hline (digitValue?_blank n _)).2 _ hrest, String.ofList_toList]

/-! ## Rows put together -/

/-- The rows behind the first give the rest of the bytes back, in front of what follows them.

**Proof sketch.** Induction along the definition: four bytes are taken as long as there are so
many. -/
lemma exists_rows_continuation (a : Address) (bytes : List UInt8) :
    ∃ rs, (continuation a bytes).mapM Row.read? = some rs ∧
      ∀ more, gather (rs ++ more) = (bytes ++ (gather more).1, (gather more).2) := by
  fun_induction continuation a bytes with
  | case1 a => exact ⟨[], rfl, fun more => rfl⟩
  | case2 a x y z w rest ih =>
    obtain ⟨rs, hread, hgather⟩ := ih
    refine ⟨⟨a, [x, y, z, w], none⟩ :: rs, ?_, fun more => ?_⟩
    · rw [List.mapM_cons, read?_row, hread]
      rfl
    · rw [List.cons_append, gather, hgather]
      rfl
  | case3 a rest =>
    refine ⟨[⟨a, rest, none⟩], ?_, fun more => rfl⟩
    rw [List.mapM_cons, read?_row]
    rfl

/-- The rows for a byte string with a text give both back, in front of what follows them. -/
lemma exists_rows_entry (e : Entry) :
    ∃ rs, (rows e.start e.bytes e.text).mapM Row.read? = some rs ∧
      ∀ more, (gather more).1 = [] → gather (rs ++ more) = ([], e :: (gather more).2) := by
  obtain ⟨rs, hread, hgather⟩ :=
    exists_rows_continuation (e.start + 4) (e.bytes.drop bytesPerRow)
  refine ⟨⟨e.start, e.bytes.take bytesPerRow, some e.text⟩ :: rs, ?_, fun more hmore => ?_⟩
  · rw [rows, List.mapM_cons, read?_row_text, hread]
    rfl
  · rw [List.cons_append, gather, hgather, hmore, List.append_nil]
    dsimp only
    rw [List.take_append_drop]

/-- **The rows of a listing give its entries back**, whatever their texts are.

**Proof sketch.** Induction on the entries. The rows of the others begin with a row that has a text,
so that none of their bytes go to the entry before them. -/
lemma read?_entries (es : List Entry) :
    read? (es.flatMap fun e => rows e.start e.bytes e.text) = some es := by
  have hrows : ∃ rs, (es.flatMap fun e => rows e.start e.bytes e.text).mapM Row.read? = some rs ∧
      gather rs = ([], es) := by
    induction es with
    | nil => exact ⟨[], rfl, rfl⟩
    | cons e es ih =>
      obtain ⟨others, hothers, hgather⟩ := ih
      obtain ⟨rs, hread, hfirst⟩ := exists_rows_entry e
      refine ⟨rs ++ others, ?_, ?_⟩
      · rw [List.flatMap_cons, List.mapM_append, hread, hothers]
        rfl
      · rw [hfirst others (by rw [hgather]), hgather]
  obtain ⟨rs, hread, hgather⟩ := hrows
  rw [read?, hread]
  dsimp only
  rw [hgather]

/-- **The rows of instructions give the instructions back.** -/
lemma read?_rows (is : List Instruction) :
    read? (is.flatMap Instruction.rows) = some (is.map Instruction.entry) := by
  have hentries := read?_entries (is.map Instruction.entry)
  rwa [List.flatMap_map] at hentries

/-! ## Characters and lines -/

/-- A character that may stand in a row. -/
def IsColumnChar (c : Char) : Prop :=
  c = '\t' ∨ IsPrintable c

/-- The columns of address and bytes are printable, with a tab between them. -/
lemma isColumnChar_row (a : Address) (bytes : List UInt8) :
    ∀ c ∈ (row a bytes).toList, IsColumnChar c := by
  intro c hc
  rw [row, addressText, byteText, String.toList_append, String.toList_append,
    String.toList_ofList, String.toList_ofList, String.toList_ofList, List.mem_append,
    List.mem_append, List.leftpad, List.mem_append, List.mem_replicate, List.mem_flatMap] at hc
  obtain ((⟨-, rfl⟩ | hc) | hc) | ⟨b, -, hc⟩ := hc
  · exact .inr (by decide)
  · exact .inr (Hex.isPrintable_of_mem hc)
  · rw [List.mem_cons, List.mem_singleton] at hc
    rcases hc with rfl | rfl
    · exact .inr (by decide)
    · exact .inl rfl
  · rw [List.mem_append, List.mem_singleton] at hc
    rcases hc with hc | rfl
    · exact .inr (Hex.isPrintable_of_mem hc)
    · exact .inr (by decide)

/-- The rows behind the first have only columns of address and bytes. -/
lemma exists_row_of_mem_continuation {a : Address} {bytes : List UInt8} {line : String}
    (h : line ∈ continuation a bytes) : ∃ b bs, line = row b bs := by
  fun_induction continuation a bytes with
  | case1 a => cases h
  | case2 a x y z w rest ih =>
    rcases List.mem_cons.1 h with rfl | h
    · exact ⟨_, _, rfl⟩
    · exact ih h
  | case3 a rest => exact ⟨_, _, List.mem_singleton.1 h⟩

/-- The rows of an instruction with a printable text are printable but for tabs. -/
lemma isColumnChar_rows {i : Instruction} (htext : MadeOf IsPrintable i.text) :
    ∀ line ∈ i.rows, ∀ c ∈ line.toList, IsColumnChar c := by
  intro line hline c hc
  rcases List.mem_cons.1 hline with rfl | hline
  · rw [String.toList_append, String.toList_append, String.toList_append, String.toList_ofList,
      List.mem_append, List.mem_append, List.mem_append, List.mem_replicate] at hc
    obtain ((hc | ⟨-, rfl⟩) | hc) | hc := hc
    · exact isColumnChar_row _ _ c hc
    · exact .inr (by decide)
    · exact .inl (by simpa using hc)
    · exact .inr (htext c hc)
  · obtain ⟨b, bs, rfl⟩ := exists_row_of_mem_continuation hline
    exact isColumnChar_row b bs c hc

/-- No row is empty, since the address is always there. -/
lemma row_append_ne_empty (a : Address) (bytes : List UInt8) (s : String) :
    row a bytes ++ s ≠ "" := by
  intro h
  have hchars := congrArg String.toList h
  simp [row, addressText] at hchars

/-- No row of an instruction is empty. -/
lemma ne_empty_of_mem_rows {i : Instruction} {line : String} (h : line ∈ i.rows) : line ≠ "" := by
  rcases List.mem_cons.1 h with rfl | h
  · rw [String.append_assoc, String.append_assoc]
    exact row_append_ne_empty _ _ _
  · obtain ⟨b, bs, rfl⟩ := exists_row_of_mem_continuation h
    rw [← String.append_empty (s := row b bs)]
    exact row_append_ne_empty b bs ""

/-- The lines of a text, which are divided by line ends. The empty text has no lines. -/
def splitLines (text : String) : List String :=
  if text = "" then [] else (text.split '\n').toList.map (·.copy)

/-- **Lines put together come apart again**, if none is empty or contains the end of a line.

**Proof sketch.** Splitting undoes putting together, except that an empty text is split into one
empty line. The text of some lines is empty only if it is the text of one empty line. -/
lemma splitLines_intercalate {lines : List String} (hempty : ∀ line ∈ lines, line ≠ "")
    (hend : ∀ line ∈ lines, '\n' ∉ line.toList) :
    splitLines ("\n".intercalate lines) = lines := by
  have hsplit : (("\n".intercalate lines).split '\n').toList.map (·.copy) =
      if lines = [] then [""] else lines := String.toList_split_intercalate hend
  rw [splitLines]
  by_cases hnil : lines = []
  · rw [hnil]
    rfl
  · rw [if_neg hnil] at hsplit
    have htext : "\n".intercalate lines ≠ "" := by
      intro h
      have hnone : (("\n".intercalate []).split '\n').toList.map (·.copy) = [""] :=
        String.toList_split_intercalate (l := []) fun line h => (nomatch h)
      -- splitting the empty text gives one empty line, which is not among the lines
      rw [h] at hsplit
      rw [show "\n".intercalate [] = "" from rfl, hsplit] at hnone
      exact hempty "" (hnone ▸ List.mem_singleton_self _) rfl
    rw [if_neg htext, hsplit]

end Listing

/-! ## The instructions of a run -/

/-- The instructions that a run gives have printable texts. -/
lemma printable_of_yields {m : Memory} (hm : m.size < 2 ^ 32) {run : Run}
    {is : List Instruction} {fault : Option ListingFault} (h : run.Yields m is fault) :
    ∀ i ∈ is, MadeOf IsPrintable i.text := by
  intro i hi
  obtain ⟨c, c', hdecode⟩ := Run.exists_decode_of_yields hm h i hi
  obtain ⟨⟨-, hplaced⟩, -⟩ := (reads_instruction hm c).sound hdecode
  exact InstructionBody.printable_text hplaced

/-- **A listing is lossless.** If a memory can be listed, then the rows give back exactly the
instructions of the run, with their addresses, bytes and texts. The rows are made of printable
characters and tabs, so that they survive being put together as one text. The bytes that were read
back are those of the memory up to the final program counter of the run. -/
theorem listing_lossless (m : Memory) (hm : m.size < 2 ^ 32) (codeSize : UInt32)
    (lines : List String) (hlines : (Listing.collect m codeSize).result = .ok lines) :
    ∃ is : List Instruction, (Run.start codeSize).Yields m is none ∧
      Listing.read? lines = some (is.map fun i => ⟨i.start, i.bytes, i.text⟩) ∧
      (∀ line ∈ lines, ∀ c ∈ line.toList, c = '\t' ∨ IsPrintable c) ∧
      Listing.splitLines ("\n".intercalate lines) = lines ∧
      ∀ entries, Listing.read? lines = some entries → ∀ k, is.length < k →
        entries.flatMap Listing.Entry.bytes =
          m.toList.take ((Run.start codeSize).after m k).pc.toNat := by
  obtain ⟨is, fault, e, hyields, htiles, hpc, hresult⟩ := Listing.collect_eq hm codeSize
  cases fault with
  | some fault => exact absurd (hlines.symm.trans hresult) (by simp)
  | none =>
    obtain rfl : lines = is.flatMap Instruction.rows := by
      rw [hlines] at hresult
      exact Except.ok.inj hresult
    have hread : Listing.read? (is.flatMap Instruction.rows) = some (is.map Instruction.entry) :=
      Listing.read?_rows is
    have hchars : ∀ line ∈ is.flatMap Instruction.rows, ∀ c ∈ line.toList,
        Listing.IsColumnChar c := by
      intro line hline
      obtain ⟨i, hi, hline⟩ := List.mem_flatMap.1 hline
      exact Listing.isColumnChar_rows (printable_of_yields hm hyields i hi) line hline
    refine ⟨is, hyields, hread, hchars, Listing.splitLines_intercalate ?_ ?_, ?_⟩
    · intro line hline
      obtain ⟨i, -, hline⟩ := List.mem_flatMap.1 hline
      exact Listing.ne_empty_of_mem_rows hline
    · intro line hline hend
      have hchar : ¬ Listing.IsColumnChar '\n' := by
        unfold Listing.IsColumnChar
        decide
      exact hchar (hchars line hline _ hend)
    · intro entries hentries k hk
      obtain rfl : is.map Instruction.entry = entries := Option.some.inj (hread.symm.trans hentries)
      rw [Run.after_of_yields hm hyields hk, hpc rfl, List.flatMap_map]
      exact htiles.flatMap_bytes

/-- An instruction that takes two rows, and a short one behind it. -/
theorem listing_lossless_two_rows :
    let m := Memory.ofList [0xd0, 0x8f, 0x78, 0x56, 0x34, 0x12, 0x50, 0x05]
    let lines := ["   0:\td0 8f 78 56 \tmovl $0x12345678,r0", "   4:\t34 12 50 ",
      "   7:\t05          \trsb"]
    m.size < 2 ^ 32 ∧ (Listing.collect m 8).result = .ok lines ∧
      ∃ is : List Instruction, (Run.start 8).Yields m is none ∧
        Listing.read? lines = some (is.map fun i => ⟨i.start, i.bytes, i.text⟩) ∧
        (∀ line ∈ lines, ∀ c ∈ line.toList, c = '\t' ∨ IsPrintable c) ∧
        Listing.splitLines ("\n".intercalate lines) = lines ∧
        ∀ entries, Listing.read? lines = some entries → ∀ k, is.length < k →
          entries.flatMap Listing.Entry.bytes =
            m.toList.take ((Run.start 8).after m k).pc.toNat := by
  intro m lines
  have hm : m.size < 2 ^ 32 := by
    decide
  have hlines : (Listing.collect m 8).result = .ok lines := by
    decide +kernel
  exact ⟨hm, hlines, listing_lossless m hm 8 lines hlines⟩

end VaxListing
