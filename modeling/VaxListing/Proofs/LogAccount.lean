import VaxListing.Proofs.DecodingRecord
import VaxListing.Proofs.Run

set_option relaxedAutoImplicit false
set_option autoImplicit false

/-!
# The log accounts for the run

Every step of a run records what it does: the mode bytes that it fetches, in their order, then an
undefined code if it has met one, and at last the instruction it gives or the fault that stops it.
Nothing else is recorded, and a step that gives nothing records nothing.

## Main definitions

* `VaxListing.Log.Event.entry` — an event as the reader of a log sees it.
* `VaxListing.Run.log` — the record of a number of steps.
* `VaxListing.Run.Account` — what there is to say about a step that gives something.

## Main results

* `VaxListing.Run.account_of_item` — every such step can be accounted for.
* `VaxListing.Run.exists_reports` — what the steps of a run report.
* `VaxListing.log_accounts_for_run` — these together.
-/

namespace VaxListing

/-! ## The record of a step -/

/-- The event by which a step of a run reports what it gives, when it has come to an address. -/
def Log.Event.report (pc : Address) : Except ListingFault Instruction → Log.Event
  | .ok i => .decoded i.start i.text
  | .error fault => .stopped pc fault

/-- Whether an event reports what a step of a run gives. -/
def Log.Event.isReport (e : Log.Event) : Bool :=
  e.origin == "vax_disassembler::disassembler"

/-- An event as the reader of a log sees it: how grave it is, where it comes from, and its words. -/
def Log.Event.entry (e : Log.Event) : Log.Level × String × String :=
  (e.level, e.origin, e.message)

/-- A mode byte is a trace entry of the operand decoder. -/
lemma Log.Event.entry_modeByte (b : UInt8) (a : Address) :
    (modeByte b a).entry = (.trace, "vax_disassembler::operand",
      s!"operand {Hex.paddedText 2 b.toNat} at {Hex.text a.toNat}: " ++
        (AddressingMode.classify b).name) :=
  rfl

/-- An undefined code is a debug entry of the instruction decoder. -/
lemma Log.Event.entry_unknownOpcode (code : UInt16) (a : Address) :
    (unknownOpcode code a).entry = (.debug, "vax_disassembler::decoder",
      s!"Unknown opcode: {Hex.text code.toNat} at {Hex.text a.toNat}") :=
  rfl

/-- The events of an instruction report nothing. -/
lemma Layout.filter_isReport_instructionEvents (m : Memory) (p : Nat) :
    (instructionEvents m p).filter Log.Event.isReport = [] := by
  rw [List.filter_eq_nil_iff]
  intro e he
  rw [instructionEvents, events, List.mem_append, List.mem_map, List.mem_map] at he
  rcases he with ⟨b, -, rfl⟩ | ⟨code, -, rfl⟩
  · simp [Log.Event.isReport, Log.Event.origin]
  · simp [Log.Event.isReport, Log.Event.origin]

/-- The addresses of the mode bytes are addresses. -/
lemma Layout.toNat_ofNat_of_mem {m : Memory} (hm : m.size < 2 ^ 32) {p : Nat} {x : UInt8 × Nat}
    (h : x ∈ modeBytesOf m p) : (UInt32.ofNat x.2).toNat = x.2 := by
  obtain ⟨hlt, -⟩ := Array.getElem?_eq_some_iff.1 (getElem?_of_mem_modeBytesOf (b := x.1) h)
  exact UInt32.toNat_ofNat_of_lt' (lt_trans hlt hm)

/-- The recorded addresses are those of the mode bytes. -/
lemma Layout.filterMap_modeAddress?_instructionEvents {m : Memory} (hm : m.size < 2 ^ 32)
    (p : Nat) : (instructionEvents m p).filterMap Log.Event.modeAddress? =
      (modeBytesOf m p).map Prod.snd := by
  have hnone : ((undefinedCode? m p).toList.map fun code =>
      Log.Event.unknownOpcode code (.ofNat p)).filterMap Log.Event.modeAddress? = [] := by
    simp [List.filterMap_map, Log.Event.modeAddress?, Function.comp_def]
  rw [instructionEvents, events, List.filterMap_append, hnone, List.append_nil,
    List.filterMap_map, ← List.filterMap_eq_map]
  refine List.filterMap_congr fun x hx => ?_
  simp [Log.Event.modeAddress?, toNat_ofNat_of_mem hm hx]

/-- The events of an instruction as entries of a log. -/
lemma Layout.map_entry_instructionEvents {m : Memory} (hm : m.size < 2 ^ 32) (p : Nat) :
    (instructionEvents m p).map Log.Event.entry =
      (modeBytesOf m p).map (fun x => (Log.Level.trace, "vax_disassembler::operand",
        s!"operand {Hex.paddedText 2 x.1.toNat} at {Hex.text x.2}: " ++
          (AddressingMode.classify x.1).name)) ++
      (undefinedCode? m p).toList.map fun code => (Log.Level.debug, "vax_disassembler::decoder",
        s!"Unknown opcode: {Hex.text code.toNat} at {Hex.text (UInt32.ofNat p).toNat}") := by
  rw [instructionEvents, events, List.map_append, List.map_map, List.map_map]
  refine congrArg₂ (· ++ ·) (List.map_congr_left fun x hx => ?_) ?_
  · rw [Function.comp_apply, Log.Event.entry_modeByte, toNat_ofNat_of_mem hm hx]
  · exact List.map_congr_left fun code _ => Log.Event.entry_unknownOpcode code (.ofNat p)

/-- A report is one. -/
lemma Log.Event.isReport_report (pc : Address) (result : Except ListingFault Instruction) :
    (report pc result).isReport = true := by
  cases result <;> rfl

namespace Run

/-- The events of the first `k` steps of a run, in order. -/
def log (m : Memory) (run : Run) (k : Nat) : List Log.Event :=
  (run.steps m k).flatMap fun step => step.events.toList

lemma log_succ (m : Memory) (run : Run) (k : Nat) :
    run.log m (k + 1) = (run.next m).events.toList ++ (run.next m).run.log m k :=
  rfl

variable {m : Memory} (hm : m.size < 2 ^ 32)

include hm in
/-- A step that gives nothing records nothing. -/
lemma events_of_item_eq_none {run : Run} (h : (run.next m).item = none) :
    (run.next m).events = #[] := by
  generalize hstep : run.next m = step at h ⊢
  cases hstep ▸ next_outcome hm run with
  | ended hend => rfl
  | decoded i c hlive hdecode hstart htile => cases h
  | stopped fault c hlive hdecode => cases h

/-- What there is to say about a step of a run that gives something. -/
structure Account (m : Memory) (run : Run) (step : RunStep)
    (result : Except ListingFault Instruction) : Prop where
  /-- The step records the events of the instruction, and reports at last what it gives. -/
  events_eq : step.events.toList =
    Layout.instructionEvents m run.pc.toNat ++ [.report step.run.pc result]
  /-- The mode bytes lie in what the step has consumed. -/
  between : ∀ a ∈ (Layout.modeBytesOf m run.pc.toNat).map Prod.snd,
    run.pc.toNat ≤ a ∧ a < step.run.pc.toNat
  /-- The mode bytes are recorded in the order of their addresses. -/
  sorted : ((Layout.modeBytesOf m run.pc.toNat).map Prod.snd).Pairwise (· < ·)
  /-- A fault is an access out of bounds where the step has come to. -/
  fault_eq : ∀ fault, result = .error fault →
    ∃ size, fault = .machine (.outOfBounds step.run.pc.toNat size)
  /-- The code is undefined exactly if the step gives it as such. -/
  undefined_iff : ∀ code, Layout.undefinedCode? m run.pc.toNat = some code ↔
    ∃ i, result = .ok i ∧ i.body = .unknown code

include hm in
/-- **Every step that gives something can be accounted for.** -/
lemma account_of_item {run : Run} {result : Except ListingFault Instruction}
    (h : (run.next m).item = some result) : Account m run (run.next m) result := by
  have hrecords := records_instruction hm (.start run.pc)
  have hundefined : ∀ code, Layout.undefinedCode? m run.pc.toNat = some code ↔
      ∃ i c', Instruction.decode m (.start run.pc) = .ok i c' ∧ i.body = .unknown code :=
    fun code => undefinedCode?_eq_some_iff hm (c := .start run.pc)
  have hbetween := hrecords.between
  have hsorted := hrecords.sorted
  rw [Layout.filterMap_modeAddress?_instructionEvents hm] at hbetween hsorted
  rw [next] at h ⊢
  split at h
  · cases h
  next hgoes =>
    rw [if_neg hgoes]
    cases hdecode : Instruction.decode m (.start run.pc) with
    | ok i c =>
      rw [hdecode] at h hrecords hbetween
      cases h
      refine ⟨?_, hbetween, hsorted, ?_, fun code => ?_⟩
      · rw [Array.toList_push]
        exact congrArg (· ++ _) hrecords.events_eq
      · intro fault hfault
        cases hfault
      · rw [hundefined code, hdecode]
        simp
    | error fault c =>
      rw [hdecode] at h hrecords hbetween
      cases h
      refine ⟨?_, hbetween, hsorted, ?_, fun code => ?_⟩
      · rw [Array.toList_push]
        exact congrArg (· ++ _) hrecords.events_eq
      · intro fault' hfault'
        cases hfault'
        obtain ⟨size, -, hfault, -⟩ := ((reads_instruction hm _).overrun hdecode).fault_eq
        exact ⟨size, by rw [hfault]⟩
      · rw [hundefined code, hdecode]
        simp

include hm in
/-- The reports among the events of a step: one if it gives something, and otherwise none. -/
lemma reports_next (run : Run) :
    (run.next m).events.toList.filter Log.Event.isReport =
      (run.next m).item.toList.map (.report (run.next m).run.pc) := by
  cases hitem : (run.next m).item with
  | none =>
    rw [events_of_item_eq_none hm hitem]
    rfl
  | some result =>
    rw [(account_of_item hm hitem).events_eq, List.filter_append,
      Layout.filter_isReport_instructionEvents, List.nil_append,
      List.filter_cons_of_pos (Log.Event.isReport_report _ _)]
    rfl

/-! ## The record of a run -/

/-- A run at its end records nothing any more. -/
lemma log_of_ended {run : Run} (h : run.failed = true ∨ run.codeSize ≤ run.pc) (k : Nat) :
    run.log m k = [] := by
  induction k with
  | zero => rfl
  | succ k ih =>
    rw [log_succ, next_of_ended h, ih]
    rfl

include hm in
/-- **The reports of a run** are those of its instructions in order and, if it fails, of its fault.

**Proof sketch.** Induction on the number of steps, by the outcome of the first one. A run at its
end records nothing; a run that fails is at its end; and behind a decoded instruction the induction
hypothesis gives the other reports. -/
lemma exists_reports (k : Nat) (run : Run) (hlive : run.failed = false) :
    ∃ (is : List Instruction) (fault : Option ListingFault) (n : Nat),
      run.items m k = is.map (fun i => some (.ok i)) ++
        fault.toList.map (fun f => some (.error f)) ++ List.replicate n none ∧
      (run.log m k).filter Log.Event.isReport =
        is.map (fun i => Log.Event.decoded i.start i.text) ++
          fault.toList.map (Log.Event.stopped (run.after m k).pc) := by
  induction k generalizing run with
  | zero => exact ⟨[], none, 0, rfl, rfl⟩
  | succ k ih =>
    have hreports := reports_next hm run
    generalize hnext : run.next m = step at hreports
    have houtcome := next_outcome hm run
    rw [hnext] at houtcome
    rw [log_succ, items_succ, after_succ, hnext, List.filter_append, hreports]
    cases houtcome with
    | ended h =>
      refine ⟨[], none, k + 1, ?_, ?_⟩
      · rw [items_of_ended h]
        rfl
      · rw [log_of_ended h]
        rfl
    | stopped fault c _ _ =>
      set failed : Run := { run with pc := c.pc, failed := true } with hfailed
      have hend : failed.failed = true ∨ failed.codeSize ≤ failed.pc := .inl rfl
      refine ⟨[], some (.machine fault), k, ?_, ?_⟩
      · rw [items_of_ended hend]
        rfl
      · rw [log_of_ended hend, after_of_ended hend]
        rfl
    | decoded i c _ _ hstart htile =>
      obtain ⟨is, fault, n, hitems, hlog⟩ := ih { run with pc := i.stop } hlive
      refine ⟨i :: is, fault, n, ?_, ?_⟩
      · rw [hitems]
        rfl
      · rw [hlog]
        rfl

end Run

/-- **The log accounts for the run.** Let the memory have fewer than `2 ^ 32` bytes, and take any
step of a run over code of any size. A step that gives nothing records nothing. A step that gives
something records, in this order:

* one trace entry of the operand decoder for each mode byte of a general operand, with the byte, its
  address and the name of its mode; these bytes stand in memory at strictly increasing addresses,
  between the program counters before and after the step, also if the step fails,
* one debug entry of the instruction decoder with the code and its address, exactly if the code is
  undefined,
* one debug entry of the run: the address and the text of the instruction, or where decoding has
  stopped and why, which is an access out of bounds at this very address.

Over any number of steps, the entries of the run list the decoded instructions in their order and,
if the run has failed, its fault behind them. -/
theorem log_accounts_for_run (m : Memory) (hm : m.size < 2 ^ 32) (codeSize : UInt32) (k : Nat) :
    let run := (Run.start codeSize).after m k
    let step := run.next m
    let modeBytes := Layout.modeBytesOf m run.pc.toNat
    let undefined := Layout.undefinedCode? m run.pc.toNat
    (step.item = none → step.events = #[]) ∧
    (∀ result, step.item = some result →
      step.events.toList.map Log.Event.entry =
        modeBytes.map (fun x => (Log.Level.trace, "vax_disassembler::operand",
          s!"operand {Hex.paddedText 2 x.1.toNat} at {Hex.text x.2}: " ++
            (AddressingMode.classify x.1).name)) ++
        undefined.toList.map (fun code => (Log.Level.debug, "vax_disassembler::decoder",
          s!"Unknown opcode: {Hex.text code.toNat} at {Hex.text run.pc.toNat}")) ++
        [(Log.Level.debug, "vax_disassembler::disassembler",
          match result with
          | .ok i => s!"{Hex.text i.start.toNat}: {i.text}"
          | .error fault =>
            s!"Decoding stopped at {Hex.text step.run.pc.toNat}: {fault.message}")] ∧
      (modeBytes.map Prod.snd).Pairwise (· < ·) ∧
      (∀ x ∈ modeBytes, m.bytes[x.2]? = some x.1 ∧
        run.pc.toNat ≤ x.2 ∧ x.2 < step.run.pc.toNat) ∧
      (∀ code, undefined = some code ↔ ∃ i, result = .ok i ∧ i.body = .unknown code) ∧
      (∀ i, result = .ok i → i.start = run.pc) ∧
      (∀ fault, result = .error fault →
        ∃ size, fault = .machine (.outOfBounds step.run.pc.toNat size))) ∧
    ∃ (is : List Instruction) (fault : Option ListingFault) (n : Nat),
      (Run.start codeSize).items m k = is.map (fun i => some (.ok i)) ++
        fault.toList.map (fun f => some (.error f)) ++ List.replicate n none ∧
      (((Run.start codeSize).log m k).filter fun e =>
          e.origin == "vax_disassembler::disassembler").map Log.Event.message =
        is.map (fun i => s!"{Hex.text i.start.toNat}: {i.text}") ++
          fault.toList.map fun f =>
            s!"Decoding stopped at {Hex.text run.pc.toNat}: {f.message}" := by
  intro run step modeBytes undefined
  refine ⟨Run.events_of_item_eq_none hm, fun result hresult => ?_, ?_⟩
  · have haccount := Run.account_of_item hm hresult
    refine ⟨?_, haccount.sorted, fun x hx => ?_, haccount.undefined_iff, ?_, haccount.fault_eq⟩
    · rw [haccount.events_eq, List.map_append, Layout.map_entry_instructionEvents hm,
        UInt32.ofNat_toNat]
      cases result <;> rfl
    · exact ⟨Layout.getElem?_of_mem_modeBytesOf hx,
        haccount.between x.2 (List.mem_map_of_mem hx)⟩
    · rintro i rfl
      exact (Run.decoded_of_item hm hresult).2.2.1
  · obtain ⟨is, fault, n, hitems, hlog⟩ := Run.exists_reports hm k (Run.start codeSize) rfl
    refine ⟨is, fault, n, hitems, ?_⟩
    rw [show (fun e : Log.Event => e.origin == "vax_disassembler::disassembler") =
      Log.Event.isReport from rfl, hlog, List.map_append, List.map_map, List.map_map]
    rfl

/-- A move whose second mode byte, behind an index byte, demands four bytes where two are left: the
step records both mode bytes before it reports the fault. -/
theorem log_accounts_for_run_cut_off :
    let m : Memory := .ofList [0x01, 0xd0, 0x41, 0x9f, 0x00, 0x10]
    let step := ((Run.start 6).after m 1).next m
    step.item = some (.error (.machine (.outOfBounds 4 4))) ∧
      step.events.toList.map Log.Event.entry =
        [(.trace, "vax_disassembler::operand", "operand 0x41 at 0x2: indexed"),
          (.trace, "vax_disassembler::operand", "operand 0x9f at 0x3: absolute"),
          (.debug, "vax_disassembler::disassembler",
            s!"Decoding stopped at 0x4: {(ListingFault.machine (.outOfBounds 4 4)).message}")] := by
  set m : Memory := .ofList [0x01, 0xd0, 0x41, 0x9f, 0x00, 0x10]
  have hitem : (((Run.start 6).after m 1).next m).item =
      some (.error (.machine (.outOfBounds 4 4))) := by
    decide +kernel
  obtain ⟨-, haccount, -⟩ := log_accounts_for_run m (by decide) 6 1
  refine ⟨hitem, ?_⟩
  rw [(haccount _ hitem).1]
  decide +kernel

end VaxListing
