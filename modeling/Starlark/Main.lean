import Starlark.CommandLine.Check

/-! # The command line -/
namespace Starlark

def usage : String :=
  "usage: starlark-resolver [-h] [--build-file] [--allow-load-after-statement]\n"
  ++ "                         [--restrict-string-escapes] [--builtin NAME] [--cache-grammar]\n"
  ++ "                         [--verbose]\n"
  ++ "                         file\n"

/-- The absolute path of a file and what lies there. -/
def readContent (file : String) : IO (String × CommandLine.Content) := do
  let path := (← IO.currentDir) / file
  if !(← path.pathExists) then return (path.toString, .missing)
  let path ← IO.FS.realPath path
  if ← path.isDir then return (path.toString, .notFile)
  try
    let bytes ← IO.FS.readBinFile path
    return (path.toString, .bytes (bytes.toList.map (·.toNat)))
  catch e => return (path.toString, .unreadable e.toString)

def readDisplay : IO Display := do
  return {
    noColor := (← IO.getEnv "NO_COLOR").getD ""
    colorSetting := (← IO.getEnv "STARLARK_COLOR").getD ""
    isTerminal := ← (← IO.getStderr).isTty }

end Starlark

open Starlark in
def main (args : List String) : IO UInt32 := do
  match CommandLine.read args with
  | .help => IO.print usage; return 0
  | .reject => IO.eprint usage; return 2
  | .run options file =>
    let (path, content) ← readContent file
    match CommandLine.check options path content (← readDisplay) with
    | .error fault => throw (IO.userError fault.text)
    | .ok report =>
      IO.eprint report.stderr
      return report.exit.toUInt32
