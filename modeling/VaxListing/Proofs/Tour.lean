import VaxListing.Listing
import VaxListing.Proofs.Run

set_option relaxedAutoImplicit false
set_option autoImplicit false

/-!
# Whole runs and tours

Every run comes to its end: it gives finitely many instructions and then a fault, or nothing once it
has come to the end of the code. A tour visits exactly these instructions, in their order, as far as
the visits let it, and a listing is made of the rows of these instructions.

## Main definitions

* `VaxListing.Run.Yields` — a run gives instructions and then ends, with or without a fault.
* `VaxListing.Run.EndsAt` — where the program counter is once a run gives nothing any more.
* `VaxListing.Run.visitAll` — visits to instructions, one after another, up to the first refusal.

## Main results

* `VaxListing.Run.exists_yields` — every run comes to its end.
* `VaxListing.Run.Yields.endsAt` — where a run ends that gives the instructions it gives.
* `VaxListing.Run.tourFrom_of_yields` — a tour visits what the run gives.
* `VaxListing.Listing.collect_eq` — a listing has the rows of what the run gives.
-/

namespace VaxListing

namespace Run

variable {m : Memory}

/-- The run gives the instructions `is`, and then ends: by the fault, if there is one, and otherwise
by giving nothing. -/
def Yields (m : Memory) (run : Run) (is : List Instruction) (fault : Option ListingFault) : Prop :=
  run.items m (is.length + 1) = is.map (fun i => some (.ok i)) ++ [fault.map .error]

/-- A run that gives no instruction ends with its first step. -/
lemma yields_nil {run : Run} {fault : Option ListingFault} :
    Yields m run [] fault ↔ (run.next m).item = fault.map .error := by
  rw [Yields, List.length_nil, items_succ]
  simp

/-- A run that gives an instruction does so with its first step, and gives the others from there
on. -/
lemma yields_cons {run : Run} {i : Instruction} {is : List Instruction}
    {fault : Option ListingFault} :
    Yields m run (i :: is) fault ↔
      (run.next m).item = some (.ok i) ∧ Yields m (run.next m).run is fault := by
  rw [Yields, List.length_cons, items_succ, List.map_cons, List.cons_append, List.cons.injEq]
  rfl

/-- What a run gives is determined, and so is how it ends. -/
lemma Yields.unique {run : Run} {is is' : List Instruction} {fault fault' : Option ListingFault}
    (h : Yields m run is fault) (h' : Yields m run is' fault') : is = is' ∧ fault = fault' := by
  induction is generalizing run is' with
  | nil =>
    rw [yields_nil] at h
    cases is' with
    | nil =>
      rw [yields_nil, h] at h'
      cases fault <;> cases fault' <;> simp_all
    | cons i' is' =>
      have hitem := (yields_cons.1 h').1
      rw [h] at hitem
      cases fault <;> simp at hitem
  | cons i is ih =>
    obtain ⟨hitem, hrest⟩ := yields_cons.1 h
    cases is' with
    | nil =>
      rw [yields_nil, hitem] at h'
      cases fault' <;> simp at h'
    | cons i' is' =>
      obtain ⟨hitem', hrest'⟩ := yields_cons.1 h'
      rw [hitem] at hitem'
      obtain ⟨rfl, rfl⟩ := ih hrest hrest'
      simp_all

/-- The first steps of a run do not depend on the number of steps that follow. -/
lemma take_items (run : Run) {j k : Nat} (h : j ≤ k) : (run.items m k).take j = run.items m j := by
  induction j generalizing k run with
  | zero => rfl
  | succ j ih =>
    obtain ⟨k, rfl⟩ : ∃ k', k = k' + 1 := ⟨k - 1, by omega⟩
    rw [items_succ, items_succ, List.take_succ_cons, ih _ (by omega)]

/-- **Every run comes to its end.** It gives instructions that tile the memory, and ends by a fault
or when the program counter, which is behind the last instruction, has come to the end of the code.

**Proof sketch.** More steps are taken than the memory has bytes. Since the instructions among what
they give tile the memory, each taking a byte at least, some step gives something else; the first
such step ends the run. -/
lemma exists_yields (hm : m.size < 2 ^ 32) (run : Run) (hlive : run.failed = false)
    (hpc : run.pc.toNat ≤ m.size) :
    ∃ is fault e, Yields m run is fault ∧ Tiles m run.codeSize run.pc.toNat is e ∧
      e ≤ m.size ∧ (fault = none → (run.after m (is.length + 1)).pc.toNat = e) := by
  obtain ⟨is, fault, n, e, htrace⟩ := exists_trace hm (m.size + 2) run hlive
  have hsize := htrace.tiles.le_size hpc
  have hcount := htrace.tiles.add_length_le
  have hlen := congrArg List.length htrace.items_eq
  rw [length_items, List.length_append, List.length_append, List.length_map, List.length_map,
    List.length_replicate] at hlen
  refine ⟨is, fault, e, ?_, htrace.tiles, hsize, fun hfault => ?_⟩
  · rw [Yields, ← take_items run (show is.length + 1 ≤ m.size + 2 by omega), htrace.items_eq]
    cases fault with
    | none =>
      obtain ⟨n, rfl⟩ : ∃ n', n = n' + 1 := ⟨n - 1, by
        rw [Option.toList_none, List.length_nil] at hlen
        omega⟩
      simp [List.take_append, List.replicate_succ]
    | some f => simp [List.take_append]
  · rw [htrace.frozen (is.length + 1) (by omega) (by omega)]
    exact htrace.pc_eq hfault

/-- Every instruction that a run gives was decoded. -/
lemma exists_decode_of_yields (hm : m.size < 2 ^ 32) {run : Run} {is : List Instruction}
    {fault : Option ListingFault} (h : Yields m run is fault) :
    ∀ i ∈ is, ∃ c c', Instruction.decode m c = .ok i c' := by
  induction is generalizing run with
  | nil => exact fun i hi => (nomatch hi)
  | cons i is ih =>
    obtain ⟨hitem, hrest⟩ := yields_cons.1 h
    obtain ⟨-, -, -, -, c, hdecode⟩ := decoded_of_item hm hitem
    exact List.forall_mem_cons.2 ⟨⟨_, c, hdecode⟩, ih hrest⟩

/-- A run that has come to the end of the code stays where it is. -/
lemma after_of_yields (hm : m.size < 2 ^ 32) {run : Run} {is : List Instruction}
    (h : Yields m run is none) {k : Nat} (hk : is.length < k) :
    run.after m k = run.after m (is.length + 1) := by
  induction is generalizing run k with
  | nil =>
    rw [yields_nil] at h
    generalize hstep : run.next m = step at h
    cases hstep ▸ next_outcome hm run with
    | ended hend => rw [after_of_ended hend, after_of_ended hend]
    | stopped fault c hlive hdecode => cases h
    | decoded i c hlive hdecode hstart htile => cases h
  | cons i is ih =>
    rw [List.length_cons] at hk
    obtain ⟨k, rfl⟩ : ∃ k', k = k' + 1 := ⟨k - 1, by omega⟩
    rw [List.length_cons, after_succ, after_succ, ih (yields_cons.1 h).2 (by omega)]

/-! ## Where a run ends -/

/-- After some number of steps the run gives nothing any more, and `e` is its program counter
then. -/
def EndsAt (m : Memory) (run : Run) (e : Address) : Prop :=
  ∃ k, ((run.after m k).next m).item = none ∧ (run.after m k).pc = e

/-- A step gives nothing exactly after a fault and from the end of the code on. -/
lemma item_eq_none_iff {run : Run} :
    (run.next m).item = none ↔ run.failed = true ∨ run.codeSize ≤ run.pc := by
  rw [next]
  split
  case isTrue hend => exact iff_of_true rfl hend
  case isFalse hend =>
    refine iff_of_false ?_ hend
    cases Instruction.decode m (.start run.pc) <;> simp

/-- Steps can be taken in two portions. -/
lemma after_add (run : Run) (j k : Nat) : run.after m (j + k) = (run.after m j).after m k := by
  induction j generalizing run with
  | zero => rw [Nat.zero_add, after_zero]
  | succ j ih => rw [Nat.succ_add, after_succ, after_succ, ih]

/-- There is one address at most where a run ends. -/
lemma EndsAt.unique {run : Run} {e e' : Address} (h : EndsAt m run e) (h' : EndsAt m run e') :
    e = e' := by
  -- more steps than are needed to come to the end change nothing
  have hstays : ∀ j k, j ≤ k → ((run.after m j).next m).item = none →
      run.after m k = run.after m j := by
    intro j k hjk hitem
    obtain ⟨d, rfl⟩ := Nat.exists_eq_add_of_le hjk
    rw [after_add, after_of_ended (item_eq_none_iff.1 hitem)]
  obtain ⟨j, hitem, rfl⟩ := h
  obtain ⟨k, hitem', rfl⟩ := h'
  rcases Nat.le_total j k with hjk | hkj
  · rw [hstays j k hjk hitem]
  · rw [hstays k j hkj hitem']

/-- A run that gives instructions and comes to its end does so with the program counter that it has
behind them. -/
lemma Yields.endsAt (hm : m.size < 2 ^ 32) {run : Run} {is : List Instruction}
    {fault : Option ListingFault} (h : Yields m run is fault) :
    EndsAt m run (run.after m (is.length + 1)).pc := by
  induction is generalizing run with
  | nil =>
    rw [yields_nil] at h
    refine ⟨1, item_eq_none_iff.2 ?_, rfl⟩
    rw [after_succ, after_zero]
    generalize hstep : run.next m = step at h
    cases hstep ▸ next_outcome hm run with
    | ended hend => exact hend
    | stopped f c hlive hdecode => exact .inl rfl
    | decoded i c hlive hdecode hstart htile => cases fault <;> cases h
  | cons i is ih =>
    obtain ⟨k, hitem, hpc⟩ := ih (yields_cons.1 h).2
    exact ⟨k + 1, hitem, hpc⟩

/-! ## Tours -/

/-- Visits to instructions one after another. A visit that refuses is the last one. -/
def visitAll {σ : Type} (visit : σ → Instruction → σ × Option ListingFault) :
    σ → List Instruction → σ × Option ListingFault
  | state, [] => (state, none)
  | state, i :: is =>
    match visit state i with
    | (state, some fault) => (state, some fault)
    | (state, none) => visitAll visit state is

/-- **A tour visits what the run gives**, in this order. It ends with the refusal of a visit or, if
none refuses, as the run does.

**Proof sketch.** Induction on the instructions. The number of steps is larger than their number, so
that the tour is never cut off. -/
lemma tourFrom_of_yields {σ : Type} (visit : σ → Instruction → σ × Option ListingFault)
    {run : Run} {is : List Instruction} {fault : Option ListingFault}
    (h : Yields m run is fault) (count : Nat) (hcount : is.length < count) (state : σ)
    (events : Array Log.Event) :
    (tourFrom m visit count run state events).state = (visitAll visit state is).1 ∧
      (tourFrom m visit count run state events).fault = (visitAll visit state is).2.or fault := by
  induction is generalizing run count state events with
  | nil =>
    obtain ⟨count, rfl⟩ : ∃ n, count = n + 1 := ⟨count - 1, by omega⟩
    rw [yields_nil] at h
    rw [tourFrom]
    cases fault <;> simp [h, visitAll]
  | cons i is ih =>
    rw [List.length_cons] at hcount
    obtain ⟨count, rfl⟩ : ∃ n, count = n + 1 := ⟨count - 1, by omega⟩
    obtain ⟨hitem, hrest⟩ := yields_cons.1 h
    rw [tourFrom, visitAll]
    simp only [hitem]
    rcases visit state i with ⟨state', _ | refusal⟩
    · exact ih hrest count (by omega) state' _
    · simp

end Run

namespace Listing

/-- Adding the rows of instructions one after another never fails. -/
lemma visitAll_addRows (rows : Array String) (is : List Instruction) :
    Run.visitAll addRows rows is = (rows ++ (is.flatMap Instruction.rows).toArray, none) := by
  induction is generalizing rows with
  | nil => simp [Run.visitAll]
  | cons i is ih =>
    rw [Run.visitAll, addRows]
    simp only
    rw [ih]
    congr 1
    apply Array.toList_inj.1
    simp

/-- **A listing has the rows of what the run gives**, unless the run ends by a fault, which is then
the fault of the listing. -/
lemma collect_eq {m : Memory} (hm : m.size < 2 ^ 32) (codeSize : UInt32) :
    ∃ is fault e, (Run.start codeSize).Yields m is fault ∧ Tiles m codeSize 0 is e ∧
      (fault = none → ((Run.start codeSize).after m (is.length + 1)).pc.toNat = e) ∧
      (collect m codeSize).result =
        match fault with
        | some fault => .error fault
        | none => .ok (is.flatMap Instruction.rows) := by
  obtain ⟨is, fault, e, hyields, htiles, hsize, hpc⟩ :=
    Run.exists_yields hm (Run.start codeSize) rfl (Nat.zero_le _)
  have hcount : is.length < UInt32.size := htiles.length_lt_size hm
  refine ⟨is, fault, e, hyields, htiles, hpc, ?_⟩
  obtain ⟨hstate, hfault⟩ := Run.tourFrom_of_yields addRows hyields UInt32.size hcount #[] #[]
  rw [visitAll_addRows] at hstate hfault
  rw [collect, Run.tour, hfault, hstate]
  cases fault <;> simp

/-- The listing of a memory whose run is known. -/
lemma collect_of_yields {m : Memory} (hm : m.size < 2 ^ 32) {codeSize : UInt32}
    {is : List Instruction} {fault : Option ListingFault}
    (h : (Run.start codeSize).Yields m is fault) :
    (collect m codeSize).result = fault.elim (.ok (is.flatMap Instruction.rows)) .error := by
  obtain ⟨is', fault', e, hyields, -, -, hresult⟩ := collect_eq hm codeSize
  obtain ⟨rfl, rfl⟩ := h.unique hyields
  rw [hresult]
  cases fault <;> rfl

end Listing

end VaxListing
