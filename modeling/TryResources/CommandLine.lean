import TryResources.Document
import TryResources.Program
import TryResources.Report

/-!
# The command line

What a command line asks for (`Invocation.ofArgs?`) and the program that does it
(`Invocation.program`), for any contents of files and any way to read texts as documents. The options
are loaded and the listing is opened; then all methods are filtered, and only then is the first line
printed. Lines are printed one by one, method by method.

Options may stand anywhere behind the command, up to `--`; none may be repeated. The file of
options is looked at before the listing.
-/

namespace TryResources

/-! ## Invocations -/

/-- What to do with a listing. -/
inductive Command
  /-- Print the ignored ranges of every method. -/
  | filter
  /-- Print every method with its ignored nodes marked. -/
  | annotate
  deriving Repr, DecidableEq

/-- The command of a name. -/
def Command.ofName? : String → Option Command
  | "filter" => some filter
  | "annotate" => some annotate
  | _ => none

/-- The arguments of a command, as far as they have been read. -/
structure Arguments where
  input : Option String := none
  options : Option String := none
  noJavac : Bool := false
  noEcj : Bool := false
  deriving Repr, DecidableEq

namespace Arguments

/-- Takes the path of the listing; there is one, and it is not empty. -/
def addInput (a : Arguments) (path : String) : Option Arguments :=
  if a.input.isSome || path.isEmpty then none else some { a with input := some path }

/-- Takes the path of the options; there is one at most, and it is not empty. -/
def addOptions (a : Arguments) (path : String) : Option Arguments :=
  if a.options.isSome || path.isEmpty then none else some { a with options := some path }

/-- An argument that is no value: it starts with a hyphen and has more than that. -/
def isFlag (arg : String) : Bool :=
  arg.startsWith "-" && arg != "-"

/-- Reads arguments in order. -/
def read (a : Arguments) : List String → Option Arguments
  | [] => some a
  | "--" :: paths => paths.foldlM addInput a
  | "--no-javac" :: args => if a.noJavac then none else { a with noJavac := true }.read args
  | "--no-ecj" :: args => if a.noEcj then none else { a with noEcj := true }.read args
  | ["--options"] => none
  | "--options" :: path :: args =>
    if isFlag path then none else (a.addOptions path).bind (read · args)
  | arg :: args =>
    if arg.startsWith "--options=" then
      (a.addOptions (arg.drop 10).toString).bind (read · args)
    else if isFlag arg then none
    else (a.addInput arg).bind (read · args)

end Arguments

/-- A command line that has been understood. -/
structure Invocation where
  command : Command
  input : String
  options : Option String := none
  noJavac : Bool := false
  noEcj : Bool := false
  deriving Repr, DecidableEq

/-- What a command line asks for, unless it is malformed. -/
def Invocation.ofArgs? : List String → Option Invocation
  | [] => none
  | name :: args => do
    let command ← Command.ofName? name
    let a ← ({} : Arguments).read args
    let input ← a.input
    return { command, input, options := a.options, noJavac := a.noJavac, noEcj := a.noEcj }

/-! ## Files -/

/-- A reason why the text of a file cannot be had. -/
inductive ReadFault
  | notFound
  | isDirectory
  | notText
  | other (reason : String)
  deriving Repr, DecidableEq

/-- The wording of a reason. -/
def ReadFault.message : ReadFault → String
  | notFound => "No such file or directory (os error 2)"
  | isDirectory => "Is a directory (os error 21)"
  | notText => "stream did not contain valid UTF-8"
  | other reason => reason

/-- What files hold, by path. -/
abbrev Files := String → Except ReadFault ByteArray

/-- The text of a file. -/
def Files.text (files : Files) (path : String) : Except ReadFault String := do
  let bytes ← files path
  match String.fromUTF8? bytes with
  | some text => .ok text
  | none => .error .notText

/-! ## Documents -/

/-- A way to read texts as documents, or to say why they are refused. -/
structure Reader where
  options : String → Except String Options
  listing : String → Except String Listing

/-- Texts are read as YAML. The caller chooses how a fault is described. -/
def Reader.yaml (describe : Yaml.Fault → String) : Reader where
  options text := (Options.ofText text).mapError describe
  listing text := (Listing.ofText text).mapError describe

/-- A reason why a listing cannot be opened. -/
inductive OpenError
  | unreadable (fault : ReadFault)
  | invalid (reason : String)
  | method (error : MethodError)
  deriving Repr, DecidableEq

/-- The wording of a reason. -/
def OpenError.message : OpenError → String
  | unreadable fault => "I/O error: " ++ fault.message
  | invalid reason => "Invalid listing: " ++ reason
  | method error => error.message

/-! ## Runs -/

open Program (println eprintln exit)

/-- What has been got, unless something went wrong: this is said, and the program ends. -/
def orExit {ε α : Type} (message : ε → String) : Except ε α → Program α
  | .ok a => return a
  | .error e => do
    eprintln ("Error: " ++ message e)
    exit 1

/-- What has been got, unless a precondition of the library was broken. -/
def orAbort {α : Type} : Except Fault α → Program α
  | .ok a => return a
  | .error fault => do
    eprintln fault.message
    exit 101

namespace Invocation

/-- The options that are left after what the command line switches off. -/
def restrict (i : Invocation) (o : Options) : Options :=
  { javac := o.javac && !i.noJavac, ecj := o.ecj && !i.noEcj }

/-- The options in the file of options, or the default without such a file. -/
def optionsFile (reader : Reader) (files : Files) (i : Invocation) : Except String Options :=
  match i.options with
  | none => return {}
  | some path => do
    let text ← (files.text path).mapError fun fault => path ++ ": " ++ fault.message
    (reader.options text).mapError fun reason => path ++ ": " ++ reason

/-- The options to go by. -/
def loadOptions (reader : Reader) (files : Files) (i : Invocation) : Except String Options := do
  let o ← i.optionsFile reader files
  return i.restrict o

/-- The methods of the listing. -/
def openListing (reader : Reader) (files : Files) (i : Invocation) :
    Except OpenError (List Method) := do
  let text ← (files.text i.input).mapError .unreadable
  let listing ← (reader.listing text).mapError .invalid
  listing.toMethods.mapError .method

/-- A method with the ranges that are ignored in it. -/
def filterMethod (o : Options) (m : Method) : Program (Method × List Range) := do
  let ranges ← orAbort (o.ignoredRanges m)
  return (m, ranges)

/-- The methods of the listing, each with the ranges that are ignored. -/
def filterMethods (reader : Reader) (files : Files) (i : Invocation) :
    Program (List (Method × List Range)) := do
  let o ← orExit id (i.loadOptions reader files)
  let methods ← orExit OpenError.message (i.openListing reader files)
  methods.mapM (filterMethod o)

/-- Prints a range of a method. -/
def printRange (m : Method) (r : Range) : Program Unit := do
  let line ← orAbort (Report.rangeLine m r)
  println line

/-- Prints the ranges of a method under its name. -/
def printRanges (m : Method) (ranges : List Range) : Program Unit := do
  println (Report.heading m ranges)
  ranges.forM (printRange m)

/-- Prints a method with its nodes marked. -/
def printMarks (m : Method) (ranges : List Range) : Program Unit := do
  println m.signature
  (Report.nodeLines m ranges).forM println

/-- Prints methods with their nodes marked; an empty line sets each apart from the one before. -/
def printAllMarks (first : Bool) : List (Method × List Range) → Program Unit
  | [] => return ()
  | (m, ranges) :: rest => do
    if !first then println ""
    printMarks m ranges
    printAllMarks false rest

/-- Carries out an invocation. -/
def program (reader : Reader) (files : Files) (i : Invocation) : Program Unit := do
  let methods ← i.filterMethods reader files
  match i.command with
  | .filter => methods.forM fun (m, ranges) => printRanges m ranges
  | .annotate => printAllMarks true methods

/-- What an invocation leaves. -/
def run (reader : Reader) (files : Files) (i : Invocation) : Outcome :=
  (i.program reader files).outcome

end Invocation

/-- How to use the program. -/
def usage : String :=
  "Usage: <filter|annotate> <LISTING> [--options <FILE>] [--no-javac] [--no-ecj]"

/-- Carries out a command line. A malformed one is answered by the way to use the program. -/
def runCommandLine (describe : Yaml.Fault → String) (files : Files) (args : List String) :
    Outcome :=
  match Invocation.ofArgs? args with
  | some i => i.run (.yaml describe) files
  | none => { exitCode := 2, events := [.err usage] }

end TryResources
