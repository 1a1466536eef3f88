import OrderOfGrowth.Footprint
import OrderOfGrowth.Run

/-!
The program. It takes a picture of what its command line looks at, runs on the picture, and carries
out what comes of it.
-/

set_option autoImplicit false

namespace OrderOfGrowth

open Files (Tree Place)

namespace Shell

def pack (bytes : List UInt8) : ByteArray :=
  ⟨bytes.toArray⟩

def probe (path : Text) : IO (Option Tree.Finding) := do
  match ← (IO.FS.readBinFile (String.ofList path)).toBaseIO with
  | .ok bytes => return some (.file bytes.toList)
  | .error (.inappropriateType _ 21 _) => return some .directory
  | .error _ => return none

def survey (working : Place) (tree : Tree) (path : Text) : IO Tree :=
  (Files.Path.waypoints working path).foldlM
    (fun tree (stretch, place) =>
      return ((← probe stretch).map (tree.record place)).getD tree)
    tree

def workingPlace : IO Place := do
  return Files.Path.moves (← IO.currentDir).toString.toList

-- The environment: entries end with a zero byte, and the first equals sign ends the name.
def environment : IO (List (Text × Text)) := do
  match ← (IO.FS.readBinFile "/proc/self/environ").toBaseIO with
  | .error _ => return []
  | .ok bytes =>
    let entries := Text.splitOn '\x00' (Text.decode bytes.toList)
    return entries.map fun entry => (entry.takeWhile (· ≠ '='), (entry.dropWhile (· ≠ '=')).drop 1)

def picture (line : CommandLine) : IO World := do
  let working ← workingPlace
  let empty := Tree.makeDirectory working (.directory [])
  let files ← (line.paths working).foldlM (survey working) empty
  let input ← if line.command.readsInput then (← IO.getStdin).readBinToEnd else pure ByteArray.empty
  let terminal ← (← IO.getStdout).isTty
  return { files, working, environment := ← environment, input := input.toList, terminal }

def store (line : CommandLine) (world : World) (outcome : Outcome) : IO Unit :=
  match line.command.outputPath? with
  | none => pure ()
  | some path =>
    match outcome.exit, outcome.files.read world.working path with
    | 0, .ok bytes => IO.FS.writeBinFile (String.ofList path) (pack bytes)
    | _, _ => pure ()

def finish (outcome : Outcome) : IO UInt32 := do
  let out ← IO.getStdout
  out.write (pack (Text.encode outcome.output))
  out.flush
  IO.eprint (String.ofList (outcome.error.getD []))
  return UInt32.ofNat outcome.exit

end Shell

end OrderOfGrowth

open OrderOfGrowth in
def main (args : List String) : IO UInt32 := do
  let args := args.map String.toList
  let line? := CommandLine.ofArguments args
  let world ←
    match line? with
    | .ok line => Shell.picture line
    | .error _ => pure { files := .directory [], working := [], environment := [], input := [] }
  let outcome := Run.ofArguments world args
  if let .ok line := line? then Shell.store line world outcome
  Shell.finish outcome
