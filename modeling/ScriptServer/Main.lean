import ScriptServer.CommandLine

/-!
# The program

Runs the command line in the environment of the process, with the files that starting up reads, and
writes what the run has printed.
-/

namespace ScriptServer.Main

/-- The variables in the environment of a process, each followed by a zero byte. -/
def environmentOf (block : Bytes) : Environment :=
  Dictionary.ofList ((Text.splitOn '\x00' (Utf8.toTextLossy block).toList).filterMap fun item =>
    (Text.splitOnce '=' item).map fun (name, value) =>
      (String.ofList name, Utf8.ofChars value))

def content? (path : String) : IO (Option Bytes) := do
  try
    return some (← IO.FS.readBinFile path).toList
  catch _ => return none

def readFiles (workDir : String) (paths : List String) : IO Files := do
  let names := (Path.parts workDir).filter (· != "")
  let mut fs : Files := Files.add ⟨[], names⟩ names .directory
  for path in paths do
    if let some content ← content? path then
      fs := fs.add (fs.namedPlace path) (.file content)
  return fs

/-- Waits for ever. -/
partial def wait : IO Unit := do
  IO.sleep 1000
  wait

end ScriptServer.Main

open ScriptServer in
def main (args : List String) : IO UInt32 := do
  let program := (← IO.appPath).toString
  let installation : CommandLine.Installation :=
    ⟨(Path.parent? program).getD ".", "unknown-target", "unknown-rustc"⟩
  let files ← Main.readFiles (← IO.currentDir).toString
    (CommandLine.startupPaths installation args)
  let env := Main.environmentOf ((← Main.content? "/proc/self/environ").getD [])
  let filter := (env.text? "LUME_LOG").bind Log.Level.filter?
  let (code, w) := CommandLine.run installation args (World.ofFiles files env filter)
  (← IO.getStdout).write ⟨w.stdout.toArray⟩
  (← IO.getStderr).putStr w.stderr
  match code with
  | some n => return n.toUInt32
  | none => do
    Main.wait
    return 0
