import Moorland.CommandLine
/-!
# The program

What a run needs from outside is gathered here: the words of the command line, the text of the
configuration file, a stream that nobody can foretell, and the time. The rest is
`Moorland.Request.parse?` and `Moorland.Options.report`.

The report goes to the standard output and failures to the standard error. The program ends with 0
after a report, with 1 if the run fails, and with 2 if its use is wrong.
-/

namespace Moorland

/-- What is found under a path. -/
def findFile (path : String) : IO FileContent := do
  try
    match String.fromUTF8? (← IO.FS.readBinFile path) with
    | some text => return .text text
    | none => return .unreadable "stream did not contain valid UTF-8"
  catch
    | .noFileOrDirectory .. => return .unreadable noSuchFile
    | fault => return .unreadable (toString fault)

/-- A stream whose seed comes from the system. -/
def freshStream : IO Stream := do
  let bytes ← IO.getRandomBytes 8
  return .ofSeed (bytes.foldl (fun seed byte => seed <<< 8 ||| byte.toUInt64) 0)

/-- **Run with some options**: print the report, or why there is none. -/
def execute (o : Options) : IO UInt32 := do
  let content ← match o.config with
    | some path => findFile path
    | none => pure (.unreadable noSuchFile)
  let stream ← freshStream
  let start ← IO.monoNanosNow
  match ← IO.lazyPure fun _ => o.report stream fun _ => content with
  | .error fault =>
    IO.eprintln fault.message
    return 1
  | .ok report =>
    let elapsed := durationText ((← IO.monoNanosNow) - start)
    IO.println (report.summary ++ ", elapsed " ++ elapsed)
    IO.println report.digest
    report.picture.forM IO.println
    return 0

end Moorland

open Moorland in
/-- **The program**: do what the command line asks for. -/
def main (args : List String) : IO UInt32 := do
  match Request.parse? args with
  | some (.run o) => execute o
  | some .help =>
    helpLines.forM IO.println
    return 0
  | some .version =>
    IO.println versionLine
    return 0
  | none =>
    helpLines.forM IO.eprintln
    return 2
