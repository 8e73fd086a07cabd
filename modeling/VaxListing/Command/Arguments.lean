import VaxListing.Image.Config

set_option relaxedAutoImplicit false
set_option autoImplicit false

/-!
# Arguments of the command

What the words of a command line ask for. Words are taken from left to right, and the first one that
cannot be used, or that asks for help or for the version, decides.

## Main definitions

* `VaxListing.Command.Arguments` — the settings for listing an image.
* `VaxListing.Command.Request` — what a command line asks for.
* `VaxListing.Command.UsageFault` — why a command line cannot be used.
* `VaxListing.Command.Request.parse` — the request that a command line makes.

## Design

A word that starts with a hyphen and is not the hyphen alone is an option, until the word `--`
ends the options; every other word names the image. A long option takes its value from behind an
equals sign or from the next word, which may then not look like an option. Short options can be
written together behind one hyphen.
-/

namespace VaxListing.Command

/-- The settings for listing an image. -/
structure Arguments where
  /-- The file to list. -/
  image : String
  /-- The number of bytes of memory. -/
  memorySize : Nat
  /-- Whether to show the header before the listing. -/
  showHeader : Bool
  /-- How often more detail was asked for. -/
  verbosity : Nat
  deriving DecidableEq, Repr

/-- What a command line asks for. -/
inductive Request where
  /-- A listing. -/
  | list (arguments : Arguments)
  /-- The version of the program. -/
  | version
  /-- A description of the options. -/
  | help
  deriving DecidableEq, Repr

/-- Why a command line cannot be used. -/
inductive UsageFault where
  /-- There is no such option. -/
  | unknownOption (word : String)
  /-- An option needs a value and has none. -/
  | missingValue (option : String)
  /-- The value of an option cannot be used. -/
  | invalidValue (option value : String)
  /-- An option was given a value and takes none. -/
  | unexpectedValue (option value : String)
  /-- An option that may be given once was given again. -/
  | repeatedOption (option : String)
  /-- A second image is named. -/
  | unexpectedWord (word : String)
  /-- No image is named. -/
  | missingImage
  deriving DecidableEq, Repr

/-- The fault in words. -/
def UsageFault.message : UsageFault → String
  | unknownOption word => s!"unexpected argument '{word}' found"
  | missingValue option => s!"a value is required for '{option}' but none was supplied"
  | invalidValue option value => s!"invalid value '{value}' for '{option}'"
  | unexpectedValue option value => s!"unexpected value '{value}' for '{option}' found"
  | repeatedOption option => s!"the argument '{option}' cannot be used multiple times"
  | unexpectedWord word => s!"unexpected argument '{word}' found"
  | missingImage => "the following required arguments were not provided: <IMAGE>"

/-- What the words taken so far have settled. -/
structure Draft where
  /-- The image, once it is named. -/
  image : Option String
  /-- The memory size, once it is given. -/
  memorySize : Option Nat
  /-- Whether the header is to be shown. -/
  showHeader : Bool
  /-- How often more detail was asked for. -/
  verbosity : Nat
  deriving DecidableEq, Repr

namespace Draft

/-- Nothing is settled yet. -/
def empty : Draft :=
  ⟨none, none, false, 0⟩

/-- Takes a word as the name of the image. -/
def withImage (d : Draft) (word : String) : Except UsageFault Draft :=
  match d.image with
  | some _ => .error (.unexpectedWord word)
  | none => if word.isEmpty then .error .missingImage else .ok { d with image := some word }

/-- The number that a value stands for: decimal digits, a plus sign allowed before them, below
`2 ^ 64`. -/
def parseSize? (value : String) : Option Nat :=
  let digits := match value.toList with
    | '+' :: rest => rest
    | all => all
  if digits.isEmpty || !digits.all Char.isDigit then none
  else
    let n := digits.foldl (fun n c => 10 * n + (c.toNat - 48)) 0
    if n < UInt64.size then some n else none

/-- Takes a value as the memory size. -/
def withMemorySize (d : Draft) (value : String) : Except UsageFault Draft :=
  match d.memorySize, parseSize? value with
  | some _, _ => .error (.repeatedOption "--memory-size")
  | none, some n => .ok { d with memorySize := some n }
  | none, none => .error (.invalidValue "--memory-size" value)

/-- Takes the option that shows the header. -/
def withHeader (d : Draft) : Except UsageFault Draft :=
  if d.showHeader then .error (.repeatedOption "--show-header")
  else .ok { d with showHeader := true }

/-- Takes the option that asks for more detail. -/
def withDetail (d : Draft) : Draft :=
  { d with verbosity := d.verbosity + 1 }

/-- The request when no word is left. -/
def finish (d : Draft) : Except UsageFault Request :=
  match d.image with
  | none => .error .missingImage
  | some image =>
    .ok (.list
      { image
        memorySize := d.memorySize.getD Config.default.memorySize
        showHeader := d.showHeader
        verbosity := d.verbosity })

end Draft

/-- A word of a command line by its shape. -/
inductive Word where
  /-- The word `--`. -/
  | separator
  /-- A long option, with the value behind an equals sign if there is one. -/
  | long (name : String) (value : Option String)
  /-- Short options written together. -/
  | short (options : List Char)
  /-- Any other word. -/
  | plain (text : String)
  deriving DecidableEq, Repr

/-- The shape of a word. -/
def Word.ofString (word : String) : Word :=
  match word.toList with
  | ['-', '-'] => .separator
  | '-' :: '-' :: option =>
    let name := String.ofList (option.takeWhile (· ≠ '='))
    match option.dropWhile (· ≠ '=') with
    | [] => .long name none
    | _ :: value => .long name (some (String.ofList value))
  | '-' :: c :: cs => .short (c :: cs)
  | _ => .plain word

/-- The outcome of taking a word: more words are needed, or the request is settled. -/
inductive Progress where
  /-- More words are needed. -/
  | more (draft : Draft)
  /-- The request is settled. -/
  | done (request : Request)

/-- Takes short options that are written together. -/
def takeShort : Draft → List Char → Except UsageFault Progress
  | d, [] => .ok (.more d)
  | d, 'v' :: rest => takeShort d.withDetail rest
  | _, 'V' :: _ => .ok (.done .version)
  | _, 'h' :: _ => .ok (.done .help)
  | _, c :: _ => .error (.unknownOption (String.ofList ['-', c]))

/-- Takes a long option other than the memory size. -/
def takeLong (d : Draft) (name : String) (value : Option String) :
    Except UsageFault Progress :=
  let settled : Option (Except UsageFault Progress) := match name with
    | "show-header" => some (d.withHeader.map .more)
    | "verbose" => some (.ok (.more d.withDetail))
    | "version" => some (.ok (.done .version))
    | "help" => some (.ok (.done .help))
    | _ => none
  match settled, value with
  | none, _ => .error (.unknownOption ("--" ++ name))
  | some _, some value => .error (.unexpectedValue ("--" ++ name) value)
  | some progress, none => progress

/-- Takes the words behind `--`, which all name images. -/
def takeImages : Draft → List String → Except UsageFault Request
  | d, [] => d.finish
  | d, word :: words =>
    match d.withImage word with
    | .error fault => .error fault
    | .ok d => takeImages d words

/-- Takes words from left to right. -/
def takeWords : Draft → List String → Except UsageFault Request
  | d, [] => d.finish
  | d, word :: words =>
    match Word.ofString word with
    | .separator => takeImages d words
    | .plain text =>
      match d.withImage text with
      | .error fault => .error fault
      | .ok d => takeWords d words
    | .short options =>
      match takeShort d options with
      | .error fault => .error fault
      | .ok (.done request) => .ok request
      | .ok (.more d) => takeWords d words
    | .long "memory-size" (some value) =>
      match d.withMemorySize value with
      | .error fault => .error fault
      | .ok d => takeWords d words
    | .long "memory-size" none =>
      match words with
      | [] => .error (.missingValue "--memory-size")
      | value :: words =>
        match Word.ofString value with
        | .plain value =>
          match d.withMemorySize value with
          | .error fault => .error fault
          | .ok d => takeWords d words
        | _ => .error (.missingValue "--memory-size")
    | .long name value =>
      match takeLong d name value with
      | .error fault => .error fault
      | .ok (.done request) => .ok request
      | .ok (.more d) => takeWords d words

/-- The request that a command line makes. -/
def Request.parse (words : List String) : Except UsageFault Request :=
  takeWords .empty words

end VaxListing.Command
