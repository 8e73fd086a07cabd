import VaxListing.Proofs.Tour

set_option relaxedAutoImplicit false
set_option autoImplicit false

/-!
# Streaming a listing

A listing that is written to a sink instruction by instruction is the listing that is collected as a
whole, cut off where the sink is full. A sink that is too small is noticed before a fault of
decoding, since all rows in front of the fault are written first.

## Main definitions

* `VaxListing.Listing.terminated` — the text of lines, each with its line break.

## Main results

* `VaxListing.Sink.write_append` — a text can be offered to a sink in pieces.
* `VaxListing.Listing.visitAll_writeRows` — writing the rows of instructions one after another is
  offering their whole text at once.
* `VaxListing.write_agrees_with_collect` — a written listing and a collected one agree, whatever the
  sink takes.

## Design

Everything about pieces is in `Sink.write_append`: what a sink keeps, and whether it refuses, does
not depend on where a text is divided. So the rows of a run need no accounting of their own.
-/

namespace VaxListing

/-! ## Texts in pieces -/

namespace Sink

/-- The bytes of a text are those of its parts. -/
lemma encode_append (a b : String) : encode (a ++ b) = encode a ++ encode b := by
  simp [encode]

/-- Offering the empty text changes nothing. -/
lemma write_empty (s : Sink) : s.write "" = (s, true) := by
  obtain ⟨room, accepted⟩ := s
  have hbytes : encode "" = [] := rfl
  cases room with
  | none => simp [write, hbytes]
  | some r => simp [write, hbytes]

/-- **A text can be offered in pieces**: offering its second part if the first was taken, and
nothing more if it was refused, is offering the text.

**Proof sketch.** A sink that refuses the first part has kept as many bytes as it had room for, and
these are the first bytes of the whole text as well. A sink that takes the first part has its length
less room for the second. -/
lemma write_append (s : Sink) (a b : String) :
    s.write (a ++ b) =
      match s.write a with
      | (s', true) => s'.write b
      | (s', false) => (s', false) := by
  obtain ⟨room, accepted⟩ := s
  have happend : ∀ xs ys : List UInt8, accepted ++ (xs ++ ys) = accepted ++ xs ++ ys := by
    intro xs ys
    apply Array.toList_inj.1
    simp
  cases room with
  | none => simp [write, encode_append, happend]
  | some r =>
    have hlen : (encode (a ++ b)).length = (encode a).length + (encode b).length := by
      rw [encode_append, List.length_append]
    by_cases hfits : (encode a).length ≤ r
    · have htake : (encode (a ++ b)).take r =
          encode a ++ (encode b).take (r - (encode a).length) := by
        rw [encode_append, List.take_append, List.take_of_length_le hfits]
      have hwhole : (encode a).take r = encode a := List.take_of_length_le hfits
      have hiff : (encode a).length + (encode b).length ≤ r ↔
          (encode b).length ≤ r - (encode a).length := by
        omega
      simp [write, hfits, hlen, htake, hwhole, hiff, happend, Nat.sub_sub]
    · have htake : (encode (a ++ b)).take r = (encode a).take r := by
        rw [encode_append, List.take_append_of_le_length (by omega)]
      have hroom : r - ((encode a).length + (encode b).length) = r - (encode a).length := by
        omega
      have hgt : ¬ (encode a).length + (encode b).length ≤ r := by
        omega
      simp [write, hfits, hlen, htake, hroom, hgt]

end Sink

namespace Listing

/-- The text of lines, each with its line break. -/
def terminated (lines : List String) : String :=
  String.join (lines.map (· ++ "\n"))

@[simp]
lemma terminated_nil : terminated [] = "" :=
  rfl

lemma terminated_cons (line : String) (lines : List String) :
    terminated (line :: lines) = line ++ "\n" ++ terminated lines := by
  rw [terminated, List.map_cons, String.join_cons, terminated]

lemma terminated_append (lines others : List String) :
    terminated (lines ++ others) = terminated lines ++ terminated others := by
  rw [terminated, List.map_append, String.join_append, terminated, terminated]

end Listing

/-- Offering lines one after another is offering their text. -/
lemma Sink.writeLines_eq_write (s : Sink) (lines : List String) :
    s.writeLines lines = s.write (Listing.terminated lines) := by
  induction lines generalizing s with
  | nil => rw [writeLines, Listing.terminated_nil, write_empty]
  | cons line lines ih =>
    rw [writeLines, Listing.terminated_cons, write_append s (line ++ "\n")]
    rcases s.write (line ++ "\n") with ⟨s', _ | _⟩
    · rfl
    · exact ih s'

namespace Listing

/-! ## The rows of a run -/

/-- **Writing the rows of instructions one after another** is offering their whole text: the sink is
the same, the refusal is the same, and without a refusal all instructions are counted.

**Proof sketch.** Induction on the instructions. The text is that of the first instruction and that
of the others, and by `Sink.write_append` the sink may be offered these one after the other. -/
lemma visitAll_writeRows (s : Sink) (n : Nat) (is : List Instruction) :
    let whole := s.write (terminated (is.flatMap Instruction.rows))
    (Run.visitAll writeRows (s, n) is).1.1 = whole.1 ∧
      (whole.2 = true → Run.visitAll writeRows (s, n) is = ((whole.1, n + is.length), none)) ∧
      (whole.2 = false →
        (Run.visitAll writeRows (s, n) is).2 = some (.output Sink.refusal)) := by
  induction is generalizing s n with
  | nil => simp [Run.visitAll, Sink.write_empty]
  | cons i is ih =>
    rw [List.flatMap_cons, terminated_append, Sink.write_append, Run.visitAll, writeRows,
      Sink.writeLines_eq_write]
    rcases s.write (terminated i.rows) with ⟨s', _ | _⟩
    · simp
    · have hrest := ih s' (n + 1)
      rw [Nat.add_assoc, Nat.add_comm 1] at hrest
      exact hrest

/-- Writing a listing is offering the text of all rows that the run gives. The rows come first: the
fault of the run counts only if the sink has taken them all. -/
lemma write_of_yields {m : Memory} {codeSize : UInt32} {is : List Instruction}
    {fault : Option ListingFault} (h : (Run.start codeSize).Yields m is fault)
    (hcount : is.length < UInt32.size) (s : Sink) :
    let whole := s.write (terminated (is.flatMap Instruction.rows))
    (write m codeSize s).sink = whole.1 ∧
      (whole.2 = true → (write m codeSize s).result = fault.elim (.ok is.length) .error) ∧
      (whole.2 = false → (write m codeSize s).result = .error (.output Sink.refusal)) := by
  intro whole
  obtain ⟨hstate, hfault⟩ :=
    Run.tourFrom_of_yields writeRows h UInt32.size hcount (s, 0) #[]
  obtain ⟨hsink, htaken, hrefused⟩ := visitAll_writeRows s 0 is
  rw [write, Run.tour, hfault, hstate]
  refine ⟨?_, fun hwhole => ?_, fun hwhole => ?_⟩
  · rcases (Run.visitAll writeRows (s, 0) is).2.or fault with _ | f
    · exact hsink
    · exact hsink
  · rw [htaken hwhole]
    cases fault with
    | none => simp
    | some f => rfl
  · rw [hrefused hwhole]
    rfl

end Listing

/-- A sink takes the whole of a text exactly if it has no limit or room enough. -/
lemma Sink.write_snd (s : Sink) (text : String) :
    (s.write text).2 = true ↔ ∀ r ∈ s.room, (encode text).length ≤ r := by
  obtain ⟨room, accepted⟩ := s
  cases room with
  | none => simp [write]
  | some r => simp [write]

/-- **A written listing and a collected one agree**, on success, on a fault of decoding and on a
refusal of the sink. Let the memory have fewer than `2 ^ 32` bytes, and let `text` be the rows of
all instructions that the run gives before its fault or its end, each row with its line break.
Writing adds to the sink the first bytes of `text`, as many as there is room for. If there is not
room for all, the listing ends with the refusal of the sink, even if the run ends with a fault.
Otherwise it ends with the fault of the run, or with the number of instructions. The collected
listing ends with the same fault, or has exactly the rows of `text`. -/
theorem write_agrees_with_collect (m : Memory) (hm : m.size < 2 ^ 32) (codeSize : UInt32)
    (sink : Sink) :
    ∃ (is : List Instruction) (fault : Option ListingFault),
      (Run.start codeSize).Yields m is fault ∧
      let rows := is.flatMap Instruction.rows
      let text := Sink.encode (Listing.terminated rows)
      let written := Listing.write m codeSize sink
      written.sink.accepted.toList =
          sink.accepted.toList ++ text.take (min (sink.room.getD text.length) text.length) ∧
        ((∃ r ∈ sink.room, r < text.length) →
          written.result = .error (.output Sink.refusal)) ∧
        ((∀ r ∈ sink.room, text.length ≤ r) → written.result =
          match fault with
          | some fault => .error fault
          | none => .ok is.length) ∧
        (Listing.collect m codeSize).result =
          match fault with
          | some fault => .error fault
          | none => .ok rows := by
  obtain ⟨is, fault, e, hyields, htiles, -, hcollect⟩ := Listing.collect_eq hm codeSize
  have hcount : is.length < UInt32.size := htiles.length_lt_size hm
  obtain ⟨hsink, htaken, hrefused⟩ := Listing.write_of_yields hyields hcount sink
  refine ⟨is, fault, hyields, ?_, fun hsmall => ?_, fun hlarge => ?_, hcollect⟩
  · rw [hsink, Sink.toList_accepted_write, ← List.take_take, List.take_length]
  · refine hrefused (Bool.eq_false_iff.2 fun hwhole => ?_)
    obtain ⟨r, hr, hlt⟩ := hsmall
    have hle := (Sink.write_snd sink _).1 hwhole r hr
    omega
  · rw [htaken ((Sink.write_snd sink _).2 hlarge)]
    cases fault with
    | none => rfl
    | some f => rfl

/-- One instruction and a second one that is cut off by the end of the memory. The row of the first
takes 23 bytes: with room for one byte less the sink refuses it, and with room for exactly as many
the fault of the second instruction is found. -/
theorem write_agrees_with_collect_before_fault :
    let m := Memory.ofList [0x01, 0xd0, 0xe1, 0x00, 0x00]
    let row := Sink.encode "   0:\t01          \tnop\n"
    m.size < 2 ^ 32 ∧
      ((Listing.write m 5 (.empty (some 22))).result = .error (.output Sink.refusal) ∧
        (Listing.write m 5 (.empty (some 22))).sink.accepted.toList = row.take 22) ∧
      (Listing.write m 5 (.empty (some 23))).result = .error (.machine (.outOfBounds 3 4)) ∧
      (Listing.write m 5 (.empty (some 23))).sink.accepted.toList = row := by
  intro m row
  have hm : m.size < 2 ^ 32 := by
    decide
  have hyields : (Run.start 5).Yields m [⟨0, 1, [0x01], .known ⟨0x01, "nop", []⟩ []⟩]
      (some (.machine (.outOfBounds 3 4))) := by
    unfold Run.Yields
    decide +kernel
  have hrow : Sink.encode (Listing.terminated (List.flatMap Instruction.rows
      [⟨0, 1, [0x01], .known ⟨0x01, "nop", []⟩ []⟩])) = row := by
    decide +kernel
  have hlength : row.length = 23 := by
    decide +kernel
  have hall : row.take 23 = row := List.take_of_length_le (by omega)
  refine ⟨hm, ?_, ?_⟩
  · obtain ⟨is, fault, hgives, haccepted, hrefused, -, -⟩ :=
      write_agrees_with_collect m hm 5 (.empty (some 22))
    obtain ⟨rfl, rfl⟩ := hgives.unique hyields
    rw [hrow] at haccepted hrefused
    exact ⟨hrefused ⟨22, rfl, by omega⟩, by simpa [Sink.empty, hlength] using haccepted⟩
  · obtain ⟨is, fault, hgives, haccepted, -, hresult, -⟩ :=
      write_agrees_with_collect m hm 5 (.empty (some 23))
    obtain ⟨rfl, rfl⟩ := hgives.unique hyields
    rw [hrow] at haccepted hresult
    refine ⟨hresult fun r hr => ?_, by simpa [Sink.empty, hlength, hall] using haccepted⟩
    obtain rfl : 23 = r := Option.some.inj hr
    omega

end VaxListing
