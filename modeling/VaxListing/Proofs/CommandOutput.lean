import VaxListing.Command
import VaxListing.Proofs.ImageFile
import VaxListing.Proofs.Streaming

set_option relaxedAutoImplicit false
set_option autoImplicit false

/-!
# What the command puts out

The output of the command is the header, if it was asked for, followed by the rows of all
instructions in front of the first fault. The exit status tells whether there was a fault. Neither
depends on what is shown of the log, nor on how the words of the command line are read, as long as
they are read as the same request.

## Main results

* `VaxListing.Command.Account.stdout_outcome`, `VaxListing.Command.Account.status_outcome` — output
  and exit status are those of the account, whatever is shown of its events.
* `VaxListing.Command.listImage_of_yields` — what listing an image puts out, and whether it fails.
* `VaxListing.command_output` — output and exit status for every image, and their independence of
  the log.
-/

namespace VaxListing

namespace Command

/-! ## Accounts and what is shown of them -/

namespace Account

/-- What is shown of the events does not change the output. -/
lemma stdout_outcome (account : Account) (shows : Log.Event → Bool) :
    (account.outcome shows).stdout = account.stdout :=
  rfl

/-- The exit status tells how the command ended, whatever is shown of the events. -/
lemma status_outcome (account : Account) (shows : Log.Event → Bool) :
    (account.outcome shows).status = account.ending.status :=
  rfl

end Account

/-- The exit status is zero exactly if the command succeeds. -/
lemma Ending.status_eq_zero_iff (ending : Ending) : ending.status = 0 ↔ ending = .success := by
  cases ending <;> simp [status]

/-- How often more detail was asked for does not change the account. -/
lemma list_withVerbosity (arguments : Arguments) (verbosity : Nat)
    (contents : Except String (List UInt8)) :
    list { arguments with verbosity } contents = list arguments contents :=
  rfl

/-- A command line that is read as asking for a listing has the output of its account and the exit
status of its ending. -/
lemma performShowing_of_parse {parse : List String → Except UsageFault Request}
    {words : List String} {arguments : Arguments} (hparse : parse words = .ok (.list arguments))
    (shows : Nat → Log.Event → Bool) (contents : String → Except String (List UInt8)) :
    let account := list arguments (contents arguments.image)
    (performShowing parse words shows contents).stdout = account.stdout ∧
      (performShowing parse words shows contents).status = account.ending.status := by
  rw [performShowing, hparse]
  exact ⟨Account.stdout_outcome _ _, Account.status_outcome _ _⟩

/-! ## Listing an image -/

/-- That a file cannot be loaded into a memory of fewer than `2 ^ 32` bytes is reported, and there
is no output. -/
lemma list_of_load_error {arguments : Arguments} (hmemory : arguments.memorySize < 2 ^ 32)
    {file : List UInt8} {fault : LoadFault} (h : Image.load file arguments.config = .error fault) :
    (list arguments (.ok file)).stdout = #[] ∧ (list arguments (.ok file)).ending.status = 1 := by
  rw [list, h]
  cases fault with
  | machine fault => exact ⟨rfl, rfl⟩
  | capacity size =>
    have hsmall : arguments.config.memorySize < 2 ^ 63 := hmemory.trans (by decide)
    exact absurd h (Image.load_ne_capacity hsmall file size)

/-- **What listing an image puts out**: the header if it was asked for, and the rows of all
instructions that the run gives. It fails exactly if the run ends by a fault. -/
lemma listImage_of_yields (arguments : Arguments) {image : Image} {is : List Instruction}
    {fault : Option ListingFault} (h : (Run.start image.codeSize).Yields image.memory is fault)
    (hcount : is.length < UInt32.size) :
    (listImage arguments image).stdout.toList =
        Sink.encode ((if arguments.showHeader then image.header.describe ++ "\n" else "") ++
          Listing.terminated (is.flatMap Instruction.rows)) ∧
      ((listImage arguments image).ending = .success ↔ fault = none) := by
  rw [listImage]
  set header := if arguments.showHeader then image.header.describe ++ "\n" else ""
  set sink := ((Sink.empty none).write header).1
  -- without a limit the sink takes everything, so that only the run decides on the result
  have hroom : sink.room = none := rfl
  obtain ⟨hwritten, htaken, -⟩ := Listing.write_of_yields h hcount sink
  have hresult := htaken ((Sink.write_snd sink _).2 (by simp [hroom]))
  have haccepted : (Listing.write image.memory image.codeSize sink).sink.accepted.toList =
      Sink.encode (header ++ Listing.terminated (is.flatMap Instruction.rows)) := by
    rw [hwritten, Sink.toList_accepted_write, Sink.toList_accepted_write, hroom, Sink.encode_append]
    simp [Sink.empty]
  rw [hresult]
  cases fault with
  | none => exact ⟨haccepted, iff_of_true rfl rfl⟩
  | some f => exact ⟨haccepted, iff_of_false (by simp) (by simp)⟩

end Command

/-- **Output and exit status of the command.** However command lines are read, let one be read as
asking for a listing, with a memory of fewer than `2 ^ 32` bytes, and let the file be read. If the
image cannot be loaded, there is no output, and the exit status is one. Otherwise the output is the
header and an empty line, if the header was asked for, followed by the rows of all instructions in
front of the first fault, each with its line break; and the exit status is zero exactly if there is
no fault. Whatever is shown of the log, and however often more detail is asked for, output and exit
status are the same. `Command.perform` shows the events that are grave enough for the log
setting. -/
theorem command_output (parse : List String → Except Command.UsageFault Command.Request)
    (words : List String) (arguments : Command.Arguments)
    (hparse : parse words = .ok (.list arguments))
    (hmemory : arguments.memorySize < 2 ^ 32)
    (contents : String → Except String (List UInt8)) (file : List UInt8)
    (hfile : contents arguments.image = .ok file) (shows : Nat → Log.Event → Bool) :
    let outcome := Command.performShowing parse words shows contents
    (∀ fault, Image.load file ⟨arguments.memorySize, 32⟩ = .error fault →
      outcome.stdout.toList = [] ∧ outcome.status = 1) ∧
    (∀ image, Image.load file ⟨arguments.memorySize, 32⟩ = .ok image →
      ∃ (is : List Instruction) (fault : Option ListingFault),
        (Run.start image.header.textSize).Yields image.memory is fault ∧
        outcome.stdout.toList =
          Sink.encode ((if arguments.showHeader then image.header.describe ++ "\n" else "") ++
            Listing.terminated (is.flatMap Instruction.rows)) ∧
        (outcome.status = 0 ↔ fault = none)) ∧
    ∀ (words' : List String) (verbosity : Nat) (shows' : Nat → Log.Event → Bool),
      parse words' = .ok (.list { arguments with verbosity }) →
      let outcome' := Command.performShowing parse words' shows' contents
      outcome'.stdout = outcome.stdout ∧ outcome'.status = outcome.status := by
  intro outcome
  obtain ⟨hstdout, hstatus⟩ := Command.performShowing_of_parse hparse shows contents
  have hconfig : arguments.config = ⟨arguments.memorySize, 32⟩ := rfl
  refine ⟨fun fault hload => ?_, fun image hload => ?_, fun words' verbosity shows' hparse' => ?_⟩
  · obtain ⟨hnone, hone⟩ := Command.list_of_load_error hmemory (hconfig ▸ hload)
    rw [hfile, hnone] at hstdout
    rw [hfile, hone] at hstatus
    exact ⟨congrArg Array.toList hstdout, hstatus⟩
  · rw [hfile, Command.list, hconfig, hload] at hstdout hstatus
    have hm : image.memory.size < 2 ^ 32 := by
      rwa [Image.size_of_load hload]
    obtain ⟨is, fault, e, hyields, htiles, -, -⟩ := Listing.collect_eq hm image.codeSize
    obtain ⟨houtput, hfailure⟩ :=
      Command.listImage_of_yields arguments hyields (htiles.length_lt_size hm)
    refine ⟨is, fault, hyields, ?_, ?_⟩
    · rw [hstdout]
      exact houtput
    · rw [hstatus, ← hfailure]
      exact Command.Ending.status_eq_zero_iff _
  · obtain ⟨hstdout', hstatus'⟩ := Command.performShowing_of_parse hparse' shows' contents
    rw [Command.list_withVerbosity] at hstdout' hstatus'
    exact ⟨hstdout'.trans hstdout.symm, hstatus'.trans hstatus.symm⟩

/-- A file of an instruction and the beginning of another one, which the end of the memory cuts off.
The header and the row of the first instruction are put out, and the exit status is not zero. A
command line that asks for the same in other words and for more detail, with all events shown, has
the same output and exit status. -/
theorem command_output_cut_off :
    let header : Header := ⟨0x108, 2, 0, 0, 0, 0, 0, 0⟩
    let contents : String → Except String (List UInt8) :=
      fun _ => .ok (header.toBytes ++ [0x01, 0xd0])
    let quiet := Command.performShowing Command.Request.parse
      ["--show-header", "--memory-size=2", "image.bin"] (fun _ _ => false) contents
    let loud := Command.performShowing Command.Request.parse
      ["-vvv", "--memory-size", "2", "image.bin", "--show-header"] (fun _ _ => true) contents
    quiet.stdout.toList =
        Sink.encode (header.describe ++ "\n" ++ "   0:\t01          \tnop\n") ∧
      quiet.status ≠ 0 ∧ loud.stdout = quiet.stdout ∧ loud.status = quiet.status := by
  intro header contents quiet loud
  have hparse : Command.Request.parse ["--show-header", "--memory-size=2", "image.bin"] =
      .ok (.list ⟨"image.bin", 2, true, 0⟩) := by
    decide +kernel
  have hparse' : Command.Request.parse
      ["-vvv", "--memory-size", "2", "image.bin", "--show-header"] =
      .ok (.list ⟨"image.bin", 2, true, 3⟩) := by
    decide +kernel
  obtain ⟨-, hlisted, hsame⟩ :=
    command_output _ _ _ hparse (by decide) contents _ rfl (fun _ _ => false)
  have hload : Image.load (header.toBytes ++ [0x01, 0xd0]) ⟨2, 32⟩ =
      .ok ⟨header, ⟨#[0x01, 0xd0]⟩, 2⟩ := by
    rw [← header.toBytes.append_nil]
    exact Image.load_toBytes_append header [] [0x01, 0xd0] (by decide) (by decide) (by decide)
  have hyields : (Run.start 2).Yields ⟨#[0x01, 0xd0]⟩ [⟨0, 1, [0x01], .known ⟨0x01, "nop", []⟩ []⟩]
      (some (.machine (.outOfBounds 2 1))) := by
    unfold Run.Yields
    decide +kernel
  have hrow : Listing.terminated (List.flatMap Instruction.rows
      [⟨0, 1, [0x01], .known ⟨0x01, "nop", []⟩ []⟩]) = "   0:\t01          \tnop\n" := by
    decide +kernel
  obtain ⟨is, fault, hgives, houtput, hstatus⟩ := hlisted _ hload
  obtain ⟨rfl, rfl⟩ := hgives.unique hyields
  rw [hrow] at houtput
  have hfailed : quiet.status ≠ 0 := by
    intro hzero
    exact absurd (hstatus.1 hzero) (by simp)
  exact ⟨houtput, hfailed, hsame _ 3 (fun _ _ => true) hparse'⟩

end VaxListing
