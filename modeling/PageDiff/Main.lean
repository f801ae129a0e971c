import PageDiff.Command.Perform

/-!
# Command line

The program: it reads the directory that it is started in, carries out the request of its command
line on it, writes back what has changed and prints what the request prints.  No browser is built
in, so a launch is refused.
-/

namespace PageDiff.Main

open PageDiff.Browser PageDiff.Command PageDiff.Run

/-- A driver without a browser. -/
def noBrowser : Driver where
  reply _ e := if e.isLaunch then .fails (.browser "no browser is connected") else .done
  picture _ := .unreadable [] .noPicture

/-- What is in a directory and below it, given where the directory is. -/
partial def readTree (place : Disk.Place) (found : Array IO.FS.DirEntry) :
    IO (List (Disk.Place × Entry)) := do
  let below ← found.toList.mapM fun e => do
    let here := place ++ [e.fileName]
    if ← e.path.isDir then
      return (here, Entry.directory) :: (← readTree here (← e.path.readDir))
    else
      let data ← IO.FS.readBinFile e.path
      return [(here, Entry.file (.bytes data.toList))]
  return below.flatten

/-- A place and all places above it but the root. -/
def placesTo (place : Disk.Place) : List Disk.Place :=
  (List.range place.length).map fun n => place.take (n + 1)

/-- The disk as far as the current directory and the places below it. -/
def readDisk : IO Disk := do
  let here ← IO.currentDir
  let current := (Path.ofString here.toString).names
  let above := (placesTo current).map fun p => (p, Entry.directory)
  return { current, entries := above ++ (← readTree current (← here.readDir)) }

/-- The path of a place. -/
def pathTo (place : Disk.Place) : String := (Path.mk .root place).text

/-- Puts on the real disk what has been put on a disk, and takes away what has been taken away. -/
def writeBack (old new : Disk) : IO Unit := do
  for (place, e) in old.entries do
    if (new.find? place).isNone then
      match e with
      | .directory => pure ()
      | .file _ => IO.FS.removeFile (pathTo place)
  for (place, e) in new.entries.mergeSort fun a b => decide (a.1.length ≤ b.1.length) do
    if old.find? place != some e then
      match e with
      | .directory => IO.FS.createDirAll (pathTo place)
      | .file content => IO.FS.writeBinFile (pathTo place) (ByteArray.mk content.data.toArray)

/-- Asks on the terminal until a line answers or the lines run out. -/
partial def readAnswer (typed : List (List Char)) : IO (List (List Char)) := do
  IO.print (questionText overwriteQuestion)
  (← IO.getStdout).flush
  let line ← (← IO.getStdin).getLine
  let typed := typed ++ typedLines line
  if line.isEmpty then
    IO.println "\nAborted!"
    return typed
  else if (Dialogue.ask overwriteQuestion typed).answer.isSome then return typed
  else
    IO.println "Error: invalid input"
    readAnswer typed

/-- The lines that are typed for a request. -/
def readTyped (d : Disk) : Request → IO (List (List Char))
  | .init => if d.present defaultConfigPath then readAnswer [] else return []
  | _ => return []

def put : Printed → IO Unit
  | .line markup => IO.println markup
  | .table title rows => do
    IO.println title
    for row in rows do IO.println ("  ".intercalate row)

/-- Carries out a request and tells the code to exit with. -/
def runRequest (caches : Path) (request : Request) : IO UInt32 := do
  let disk ← readDisk
  let typed ← readTyped disk request
  let (ended, w) := perform { driver := noBrowser, caches } typed request { disk }
  writeBack disk w.disk
  for line in w.log do IO.eprintln s!"{line.level.name} {line.text}"
  w.console.forM put
  match ended with
  | .error (.fault f) => IO.eprintln s!"{f.kindName}: {f.message}"
  | _ => pure ()
  return (exitCode ended).toUInt32

def run (args : List String) : IO UInt32 := do
  match Invocation.read args with
  | .error e =>
    IO.eprintln s!"Error: {e.message}"
    return 2
  | .ok invocation =>
    let cache ← IO.getEnv "XDG_CACHE_HOME"
    let home ← IO.getEnv "HOME"
    match Config.cacheDirectory cache (home.getD "/") with
    | .error e =>
      IO.eprintln s!"Error: {e.message}"
      return 1
    | .ok caches => runRequest caches invocation.request

end PageDiff.Main

def main (args : List String) : IO UInt32 := PageDiff.Main.run args
