import Keybinding.CommandLine.Response

/-!
# The program

The files and folders that a request is about are looked at on the disk, and the response to the
request is printed. A watched file is looked at once a second. Where no home folder is told, the
working folder stands in for it.
-/

namespace Keybinding.CommandLine

/-- What a path names on the disk. What cannot be read counts as a folder. -/
def lookOnDisk (path : String) : IO PathState := do
  try
    return .file (← IO.FS.readBinFile path)
  catch
    | .noFileOrDirectory .. => return .missing
    | .inappropriateType _ _ "not a directory" => return .missing
    | _ => return .folder

/-- Why the folder of a path cannot be made on the disk. -/
def obstacleOnDisk (path : String) : IO (Option String) := do
  try
    IO.FS.createDirAll path
    return none
  catch e => return some (toString e)

/-- The files around the program as far as a request is about them. -/
def surroundingsOf (r : Request) (env : Environment) : IO Surroundings := do
  let obstacles ← (r.folders env).mapM fun f => return (f, ← obstacleOnDisk f)
  let states ← (r.files env).mapM fun f => return (f, ← lookOnDisk f)
  return ⟨fun path => (states.lookup path).getD .missing, fun path => (obstacles.lookup path).join⟩

/-- Prints to both sides. -/
def printBoth (out err : String) : IO Unit := do
  IO.print out
  (← IO.getStdout).flush
  IO.eprint err

/-- Loads the file of a keymap again whenever what its path names has changed. -/
partial def keepWatching (path : String) (keymap : Keymap) (before : PathState) : IO Unit := do
  IO.sleep 1000
  let now ← lookOnDisk path
  if now.isAlike before then keepWatching path keymap before
  else
    let (keymap, error) := keymap.reload fun _ => now
    let (out, err) := watchReport path error
    printBoth ("reloaded (version " ++ toString keymap.version ++ ")\n" ++ out) err
    keepWatching path keymap now

end Keybinding.CommandLine

open Keybinding CommandLine in
/-- Runs the program on the words of a command line. -/
def main (words : List String) : IO UInt32 := do
  let env : Environment := ⟨(← IO.getEnv "HOME").getD "", ← IO.getEnv "XDG_CONFIG_HOME"⟩
  let reading := Reading.ofWords words
  let response ← match reading with
    | .run r => do
      let sys ← surroundingsOf r env
      pure (reading.response env fun _ => sys)
    | _ => pure (reading.response env fun _ => ⟨fun _ => .missing, fun _ => none⟩)
  printBoth response.out response.err
  if let some keymap := response.watching then
    if let some path := keymap.userPath then
      keepWatching path keymap (← lookOnDisk path)
  return response.code.toUInt32
