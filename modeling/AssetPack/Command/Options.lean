import AssetPack.Settings.Basic
namespace AssetPack.Command

/-! The arguments of the program. -/

inductive Task where
  | build (entry : BuildEntry)
  | inspect (package : Path)
  | rebuild
  deriving DecidableEq, Repr

/-- Messages are shown up to the verbosity, from 0 for none to 5 for all. -/
structure Options where
  verbosity : Nat
  settings : Path
  task : Task
  deriving DecidableEq, Repr

inductive Refusal where
  | help | usage
  deriving DecidableEq, Repr

/-- An argument, or a part of one. A `value` is attached to the option before it, an `operand`
stands behind `--`. -/
inductive Item where
  | short (name : Char)
  | long (name : String)
  | value (text : String)
  | word (text : String)
  | operand (text : String)
  deriving DecidableEq, Repr

structure OptionName where
  short : Option Char
  long : String
  deriving DecidableEq, Repr

namespace OptionName

def verbose : OptionName := ⟨some 'v', "verbose"⟩
def quiet : OptionName := ⟨some 'q', "quiet"⟩
def help : OptionName := ⟨some 'h', "help"⟩
def version : OptionName := ⟨some 'V', "version"⟩
def settings : OptionName := ⟨none, "settings"⟩
def manifest : OptionName := ⟨some 'm', "manifest"⟩
def output : OptionName := ⟨some 'o', "output"⟩
def package : OptionName := ⟨some 'p', "package"⟩

/-- The options without a value. -/
def flags : List OptionName := [verbose, quiet, help, version]

/-- The options with a value. -/
def arguments : List OptionName := [settings, manifest, output, package]

def isFlag (c : Char) : Bool := flags.any (·.short == some c)

def isArgument (c : Char) : Bool := arguments.any (·.short == some c)

def fits (name : OptionName) : Item → Bool
  | .short c => name.short == some c
  | .long text => name.long == text
  | _ => false

end OptionName

/-- The letters behind a dash: flags, then at most one option with the rest as its value. -/
def cluster : List Char → Option (List Item)
  | [] => some []
  | c :: rest =>
    if OptionName.isFlag c then (cluster rest).map (.short c :: ·)
    else if OptionName.isArgument c then
      some (.short c :: if rest.isEmpty then [] else [.value (String.ofList rest)])
    else none

/-- An argument with one dash. Letters which make no sense together are a word. -/
def shortItems (argument : String) : List Char → List Item
  | [] => [.word argument]
  | [c] => [.short c]
  | c :: rest =>
    if rest.contains '=' then
      if 0x80 ≤ c.toNat then [.word argument]
      else [.short c, .value (String.ofList (if rest.head? = some '=' then rest.drop 1 else rest))]
    else
      match cluster (c :: rest) with
      | some items => items
      | none => [.word argument]

/-- An argument with two dashes. -/
def longItems (chars : List Char) : List Item :=
  let name := String.ofList (chars.takeWhile (· ≠ '='))
  match chars.dropWhile (· ≠ '=') with
  | [] => [.long name]
  | _ :: text => [.long name, .value (String.ofList text)]

def itemsOf (argument : String) : List Item :=
  match argument.toList with
  | '-' :: '-' :: chars => longItems chars
  | '-' :: chars => shortItems argument chars
  | _ => [.word argument]

/-- Items which were used up leave gaps. -/
abbrev Slots := List (Option Item)

/-- Behind the first `--`, which is used up at once, no argument is an option. -/
def slots : List String → Slots
  | [] => []
  | argument :: rest =>
    if argument = "--" then none :: rest.map fun text => some (.operand text)
    else (itemsOf argument).map some ++ slots rest

namespace Slots

def fits (name : OptionName) (slot : Option Item) : Bool := slot.any name.fits

/-- Uses up every flag of the name. -/
def takeFlags (name : OptionName) (slots : Slots) : Nat × Slots :=
  (slots.countP (fits name), slots.map fun slot => if fits name slot then none else slot)

/-- Uses up the first option of the name with the value behind it. -/
def takeArgument (name : OptionName) : Slots → Option (Option String × Slots)
  | [] => some (none, [])
  | slot :: rest =>
    if fits name slot then
      match rest with
      | some (.value text) :: more | some (.word text) :: more =>
        some (some text, none :: none :: more)
      | _ => none
    else (takeArgument name rest).map fun (text, rest) => (text, slot :: rest)

/-- Uses up an option which has to be there. -/
def require (name : OptionName) (slots : Slots) : Option (Path × Slots) := do
  let (text, rest) ← takeArgument name slots
  return (⟨← text⟩, rest)

/-- Uses up the first item that is left, if it is a word. -/
def takeWord : Slots → Option (String × Slots)
  | none :: rest => takeWord rest
  | some (.word text) :: rest => some (text, rest)
  | _ => none

end Slots

inductive TaskName where
  | build | inspect | rebuild
  deriving DecidableEq, Repr

def TaskName.ofWord? (word : String) : Option TaskName :=
  [("build", build), ("inspect", inspect), ("rebuild", rebuild)].lookup word

/-- The task with its options, and the items left over. -/
def TaskName.take (slots : Slots) : TaskName → Option (Task × Slots)
  | build => do
    let (manifest, slots) ← slots.require .manifest
    let (output, slots) ← slots.require .output
    return (.build ⟨manifest, output⟩, slots)
  | inspect => do
    let (package, slots) ← slots.require .package
    return (.inspect package, slots)
  | rebuild => some (.rebuild, slots)

def defaultVerbosity : Nat := 3

def verbosityLimit : Nat := 5

def defaultSettings : Path := ⟨"import-settings.json"⟩

/-- The options, if every item is used up in the end. -/
def Options.ofSlots? (slots : Slots) : Option Options := do
  let (verbose, slots) := slots.takeFlags .verbose
  let (quiet, slots) := slots.takeFlags .quiet
  let (settings, slots) ← slots.takeArgument .settings
  let (word, slots) ← slots.takeWord
  let (task, slots) ← (← TaskName.ofWord? word).take slots
  if slots.all Option.isNone then
    return {
      verbosity := min (defaultVerbosity + verbose - quiet) verbosityLimit
      settings := (settings.map Path.mk).getD defaultSettings
      task }
  else none

/-- A task uses up as many requests for help. -/
def requestsPerTask : Nat := 2

/-- Help is for those who ask for it in arguments that are not in order otherwise. When the
settings lack their value, the requests which the task uses up do not count. -/
def Slots.asksForHelp (slots : Slots) : Bool :=
  let requests := slots.countP (fits .help)
  let slots := ((slots.takeFlags .verbose).2.takeFlags .quiet).2
  match slots.takeArgument .settings, slots.takeWord with
  | none, some (word, _) =>
    (if (TaskName.ofWord? word).isSome then requestsPerTask else 0) < requests
  | _, _ => 0 < requests

def Options.parse (arguments : List String) : Except Refusal Options :=
  let slots := slots arguments
  match Options.ofSlots? slots with
  | some options => .ok options
  | none => .error (if slots.asksForHelp then .help else .usage)

end AssetPack.Command
