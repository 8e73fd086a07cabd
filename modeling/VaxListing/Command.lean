import VaxListing.Command.Arguments
import VaxListing.Image
import VaxListing.Listing

set_option relaxedAutoImplicit false
set_option autoImplicit false

/-!
# The command

The command lists the code of an image file. All of it but reading the file and the actual output is
here: given the words of the command line, the log setting and the files, the outcome is a value.

## Main definitions

* `VaxListing.Command.Outcome` — exit status, output, and lines of the error output.
* `VaxListing.Command.Ending` — success, a failure that is reported, or a sudden end.
* `VaxListing.Command.list` — listing an image whose file has been read.
* `VaxListing.Command.performShowing` — what a command line leads to, however it is read and
  whatever is shown of the log.
* `VaxListing.Command.perform` — what a command line leads to.

## Design

A failed command reports in what it failed and, below, the chain of causes. What was listed before a
failure is still part of the output. The log setting decides which events are shown among the lines
of the error output and nothing else.

A command that asks for a memory which cannot be allocated ends at once, with an exit status of its
own and no report. Of the words that are left behind then, only those that say why are given here.

How the words of a command line make a request is a matter of its own, and the command takes it as
an argument.
-/

namespace VaxListing.Command

/-- What the command leaves behind. -/
structure Outcome where
  /-- The exit status. -/
  status : UInt8
  /-- The output. -/
  stdout : Array UInt8
  /-- The lines of the error output. -/
  stderr : List String
  deriving DecidableEq

/-- The program's name and version. -/
def versionText : String := "vax-cli 0.1.0\n"

/-- The description of the options. -/
def helpText : String :=
  "Command-line front end for the VAX disassembler\n" ++
  "\n" ++
  "Usage: vax-disasm [OPTIONS] <IMAGE>\n" ++
  "\n" ++
  "Arguments:\n" ++
  "  <IMAGE>  Image file to disassemble\n" ++
  "\n" ++
  "Options:\n" ++
  "      --memory-size <MEMORY_SIZE>  Size of the address space in bytes [default: 65536]\n" ++
  "      --show-header                Print the exec header before the listing\n" ++
  "  -v, --verbose...                 Verbosity level (-v, -vv, -vvv)\n" ++
  "  -h, --help                       Print help\n" ++
  "  -V, --version                    Print version\n"

/-- The events that are shown by default, for a number of requests for more detail. -/
def defaultThreshold : Nat → Log.Threshold
  | 0 => some .warn
  | 1 => some .info
  | 2 => some .debug
  | _ => some .trace

/-- The chain of causes in a report: a single cause by itself, several with their numbers. -/
def causeLines : List String → List String
  | [cause] => ["    " ++ cause]
  | causes => causes.mapIdx fun i cause =>
    String.ofList ((Nat.repr i).toList.leftpad 5 ' ') ++ ": " ++ cause

/-- The report of a failure: in what the command failed, and why. -/
def report (context : String) (causes : List String) : List String :=
  s!"Error: {context}" ::
    if causes.isEmpty then [] else "" :: "Caused by:" :: causeLines causes

/-- How a command ends. -/
inductive Ending where
  /-- It has done what was asked for. -/
  | success
  /-- It failed: in what, and why. -/
  | failure (context : String) (causes : List String)
  /-- It came to a sudden end, for the given reason. -/
  | crash (reason : String)
  deriving DecidableEq, Repr

/-- The exit status of an ending. -/
def Ending.status : Ending → UInt8
  | success => 0
  | failure .. => 1
  | crash _ => 101

/-- The last lines of the error output. -/
def Ending.lines : Ending → List String
  | success => []
  | failure context causes => report context causes
  | crash reason => [reason]

/-- How listing an image went, before anything is shown. -/
structure Account where
  /-- The output. -/
  stdout : Array UInt8
  /-- The events, in order. -/
  events : List Log.Event
  /-- How the command ended. -/
  ending : Ending

/-- The settings for loading the image. -/
def Arguments.config (arguments : Arguments) : Config :=
  Config.default.withMemorySize arguments.memorySize

/-- Lists a loaded image. -/
def listImage (arguments : Arguments) (image : Image) : Account :=
  let header := if arguments.showHeader then image.header.describe ++ "\n" else ""
  let written :=
    Listing.write image.memory image.codeSize ((Sink.empty none).write header).1
  let events :=
    .configured arguments.config :: image.events ++ written.events.toList
  match written.result with
  | .error fault =>
    ⟨written.sink.accepted, events, .failure "disassembly aborted" (fault.message :: fault.causes)⟩
  | .ok count => ⟨written.sink.accepted, events ++ [.listed count], .success⟩

/-- Lists an image, given the contents of its file or the reason why it cannot be read. -/
def list (arguments : Arguments) (contents : Except String (List UInt8)) : Account :=
  match contents with
  | .error reason =>
    ⟨#[], [.configured arguments.config], .failure s!"failed to read {arguments.image}" [reason]⟩
  | .ok file =>
    match Image.load file arguments.config with
    | .error (.machine fault) =>
      ⟨#[], [.configured arguments.config],
        .failure s!"failed to load {arguments.image}" (fault.message :: fault.causes)⟩
    | .error (.capacity _) => ⟨#[], [.configured arguments.config], .crash "capacity overflow"⟩
    | .ok image => listImage arguments image

/-- The outcome of an account, with the events that `shows` picks out. -/
def Account.outcome (account : Account) (shows : Log.Event → Bool) : Outcome :=
  ⟨account.ending.status, account.stdout,
    Log.linesWhere shows account.events ++ account.ending.lines⟩

/-- What a command line leads to, if `parse` reads its words. Given how often more detail was asked
for, `shows` picks out the events to be shown. -/
def performShowing (parse : List String → Except UsageFault Request) (words : List String)
    (shows : Nat → Log.Event → Bool) (contents : String → Except String (List UInt8)) : Outcome :=
  match parse words with
  | .error fault => ⟨2, #[], [s!"error: {fault.message}"]⟩
  | .ok .version => ⟨0, (Sink.encode versionText).toArray, []⟩
  | .ok .help => ⟨0, (Sink.encode helpText).toArray, []⟩
  | .ok (.list arguments) =>
    (list arguments (contents arguments.image)).outcome (shows arguments.verbosity)

/-- What a command line leads to. The log setting, if there is one, goes before the wish for more
detail. -/
def perform (words : List String) (setting : Option Log.Threshold)
    (contents : String → Except String (List UInt8)) : Outcome :=
  let shows verbosity (event : Log.Event) :=
    (setting.getD (defaultThreshold verbosity)).shows event.level
  performShowing Request.parse words shows contents

end VaxListing.Command
