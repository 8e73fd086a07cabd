import VaxListing.Proofs.ListingReader

set_option relaxedAutoImplicit false
set_option autoImplicit false

/-!
# The layout of rows

The rows for a byte string can be described one by one. Each row shows the address of its first byte
and up to four bytes, and the first row shows the text behind the columns of four bytes, whether
they are used or not. Nothing is lost by this layout: the address, the bytes and the text can be
read back from the rows, whatever they are.

## Main definitions

* `VaxListing.Listing.columns` — the columns of address and bytes of a row.
* `VaxListing.Listing.textColumn` — what the first row has behind them.

## Main results

* `VaxListing.Listing.continuation_eq`, `VaxListing.Listing.rows_eq` — the rows, one by one.
* `VaxListing.rows_layout_invertible` — the layout of all rows, and that they can be read back.
-/

namespace VaxListing

namespace Listing

/-! ## Columns -/

/-- The columns of the `i`-th row for a byte string at an address: the address of its first byte in
standard digits, right-aligned to at least four characters, a colon and a tab, and two digits and a
space for each of its bytes. -/
def columns (start : Address) (bytes : List UInt8) (i : Nat) : List Char :=
  (Nat.toDigits 16 ((start.toNat + 4 * i) % 2 ^ 32)).leftpad 4 ' ' ++ ':' :: '\t' ::
    ((bytes.drop (4 * i)).take 4).flatMap fun b => Hex.byteDigits b ++ [' ']

/-- What the first row has behind its columns: three spaces for each byte that it has less than
four, a tab and the text. -/
def textColumn (bytes : List UInt8) (text : String) : List Char :=
  List.replicate (3 * (4 - bytes.length)) ' ' ++ '\t' :: text.toList

/-- The row for the first four bytes. -/
lemma row_take (a : Address) (bytes : List UInt8) :
    row a (bytes.take 4) = .ofList (columns a bytes 0) := by
  have haddress : (a.toNat + 4 * 0) % 2 ^ 32 = a.toNat := Nat.mod_eq_of_lt a.toNat_lt
  apply String.toList_inj.1
  rw [row, addressText, byteText, columns, haddress, Hex.minimal_eq_toDigits]
  simp [Hex.fixed_two]

/-- The first row has the text behind the columns of its bytes. -/
lemma row_take_append (a : Address) (bytes : List UInt8) (text : String) :
    row a (bytes.take bytesPerRow) ++
        .ofList (List.replicate (3 * (bytesPerRow - (bytes.take bytesPerRow).length)) ' ') ++
        "\t" ++ text =
      .ofList (columns a bytes 0 ++ textColumn bytes text) := by
  have hblank : bytesPerRow - (bytes.take bytesPerRow).length = 4 - bytes.length := by
    rw [bytesPerRow, List.length_take]
    omega
  apply String.toList_inj.1
  rw [hblank, bytesPerRow, row_take, textColumn]
  simp

/-- Without the first four bytes every row moves up by one. -/
lemma columns_drop (a : Address) (bytes : List UInt8) (i : Nat) :
    columns (a + 4) (bytes.drop 4) i = columns a bytes (i + 1) := by
  have haddress : ((a + 4).toNat + 4 * i) % 2 ^ 32 = (a.toNat + 4 * (i + 1)) % 2 ^ 32 := by
    rw [UInt32.toNat_add, show (4 : UInt32).toNat = 4 from rfl]
    omega
  have hbytes : (bytes.drop 4).drop (4 * i) = bytes.drop (4 * (i + 1)) := by
    rw [List.drop_drop, Nat.mul_succ, Nat.add_comm]
  rw [columns, haddress, hbytes, columns]

/-! ## Rows one by one -/

/-- As long as there are bytes, the first four of them make up a row. -/
lemma continuation_of_ne_nil (a : Address) {bytes : List UInt8} (h : bytes ≠ []) :
    continuation a bytes = row a (bytes.take 4) :: continuation (a + 4) (bytes.drop 4) := by
  match bytes with
  | [] => exact absurd rfl h
  | [_] | [_, _] | [_, _, _] | _ :: _ :: _ :: _ :: _ => rfl

/-- **The rows behind the first, one by one.**

**Proof sketch.** Induction on the number of bytes. The first row takes four of them, and the others
are those of the bytes behind it, with their numbers moved by one. -/
lemma continuation_eq (a : Address) (bytes : List UInt8) :
    continuation a bytes =
      (List.range ((bytes.length + 3) / 4)).map fun i => .ofList (columns a bytes i) := by
  induction hlength : bytes.length using Nat.strong_induction_on generalizing a bytes with
  | h n ih =>
    by_cases hnil : bytes = []
    · subst hnil hlength
      rfl
    · have hpos := List.length_pos_iff.2 hnil
      have hrest : (bytes.drop 4).length = n - 4 := by
        rw [List.length_drop, hlength]
      have hrows : (n + 3) / 4 = (n - 4 + 3) / 4 + 1 := by
        omega
      rw [continuation_of_ne_nil a hnil, row_take, ih (n - 4) (by omega) (a + 4) _ hrest, hrows,
        List.range_succ_eq_map, List.map_cons, List.map_map]
      simp only [columns_drop]
      rfl

/-- **The rows for a byte string, one by one.** There is a first row also if there are no bytes. -/
lemma rows_eq (start : Address) (bytes : List UInt8) (text : String) :
    rows start bytes text = (List.range (max 1 ((bytes.length + 3) / 4))).map fun i =>
      .ofList (columns start bytes i ++ if i = 0 then textColumn bytes text else []) := by
  have hrows : max 1 ((bytes.length + 3) / 4) = ((bytes.drop 4).length + 3) / 4 + 1 := by
    rw [List.length_drop]
    omega
  rw [rows, row_take_append, bytesPerRow, continuation_eq, hrows, List.range_succ_eq_map,
    List.map_cons, List.map_map]
  simp only [columns_drop]
  congr 1
  refine List.map_congr_left fun i _ => ?_
  simp

end Listing

/-- **Rows are laid out by their numbers, and can be read back.** For every address, every byte
string and every text whatsoever there is one row for every four bytes, and a first row in any case.
The `i`-th row shows the address `start + 4 * i` modulo `2 ^ 32` and the bytes from number `4 * i`
on; the first row alone goes on with three spaces for each missing byte, a tab and the text. Reading
the rows gives back the address, the bytes and the text, so that the rows are the same only if all
of these are.

**Proof sketch.** The layout is `Listing.rows_eq`. The reader of listings gives every entry back
(`Listing.read?_entries`), also a single one, and rows that are read as different entries are
different. -/
theorem rows_layout_invertible (start : Address) (bytes : List UInt8) (text : String) :
    (Listing.rows start bytes text).length = max 1 ((bytes.length + 3) / 4) ∧
    Listing.rows start bytes text =
      (List.range (max 1 ((bytes.length + 3) / 4))).map (fun i => .ofList
        (Listing.columns start bytes i ++
          if i = 0 then Listing.textColumn bytes text else [])) ∧
    Listing.read? (Listing.rows start bytes text) = some [⟨start, bytes, text⟩] ∧
    ∀ start' bytes' text', Listing.rows start bytes text = Listing.rows start' bytes' text' ↔
      start = start' ∧ bytes = bytes' ∧ text = text' := by
  have hread : ∀ e : Listing.Entry,
      Listing.read? (Listing.rows e.start e.bytes e.text) = some [e] := by
    intro e
    have hentries := Listing.read?_entries [e]
    rwa [List.flatMap_singleton] at hentries
  have hrows := Listing.rows_eq start bytes text
  refine ⟨?_, hrows, hread ⟨start, bytes, text⟩, fun start' bytes' text' => ⟨fun heq => ?_, ?_⟩⟩
  · rw [hrows, List.length_map, List.length_range]
  · have hsame := hread ⟨start, bytes, text⟩
    rw [heq, hread ⟨start', bytes', text'⟩] at hsame
    simpa [eq_comm] using hsame
  · rintro ⟨rfl, rfl, rfl⟩
    rfl

/-- Five bytes in front of the end of all addresses, with a text of more than one line. -/
example : Listing.rows 0xfffffffe [0xd0, 0x8f, 0x00, 0x10, 0x0a] "a\tb\n0:\t" =
    ["fffffffe:\td0 8f 00 10 \ta\tb\n0:\t", "   2:\t0a "] := by
  decide +kernel

end VaxListing
