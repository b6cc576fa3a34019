import RepoAtlas.CommandLine.Run
import RepoAtlas.Service.Answer
import Std.Time.Format

/-!
The program on its command line. What lies in the folder where it runs is read
before a run and written back after it. There is no connection to a network, and
the service answers requests that it is given line by line.
-/
namespace RepoAtlas.Program

/-- A time of the file system in seconds. -/
def secondsOf (t : IO.FS.SystemTime) : Binary64 :=
  Binary64.ofRatio (t.sec < 0) (t.sec.natAbs * 1000000000 + t.nsec.toNat) 1000000000

/-- What stands behind a name in a folder. -/
partial def load (entry : IO.FS.DirEntry) : IO (String × DiskNode) := do
  let about ← entry.path.symlinkMetadata
  match about.type with
  | .dir =>
    let entries ← (← entry.path.readDir).toList.mapM load
    return (entry.fileName, .folder entries)
  | .symlink =>
    let target ← try (fun p => p.toString) <$> IO.FS.realPath entry.path
      catch _ => pure "/"
    return (entry.fileName, .link target)
  | _ =>
    let bytes ← IO.FS.readBinFile entry.path
    return (entry.fileName, .file bytes.toList (secondsOf about.modified))

/-- Writes what is new in a folder, and removes what is no longer there. -/
partial def save (path : String) (old new : Entries) : IO Unit := do
  for (name, node) in new do
    let place := path ++ "/" ++ name
    match node, Table.get? name old with
    | .folder entries, some (.folder before) => save place before entries
    | .folder entries, _ =>
      IO.FS.createDirAll place
      save place [] entries
    | .file bytes modified, some (.file before written) =>
      if bytes != before || modified != written then
        IO.FS.writeBinFile place (ByteArray.mk bytes.toArray)
    | .file bytes _, _ => IO.FS.writeBinFile place (ByteArray.mk bytes.toArray)
    | .link _, _ => pure ()
  for (name, node) in old do
    match node, Table.get? name new with
    | .file .., none => IO.FS.removeFile (path ++ "/" ++ name)
    | _, _ => pure ()

/-- The variables that the settings look at. -/
def variableNames : List String :=
  ["COMPGRAPH_CACHE_DIR", "COMPGRAPH_GITHUB_TOKEN", "GITHUB_TOKEN"]

/-- The time in seconds. -/
def now : IO Binary64 := do
  let time ← Std.Time.Timestamp.now
  let nanoseconds := time.toNanosecondsSinceUnixEpoch.val
  return Binary64.ofRatio (nanoseconds < 0) nanoseconds.natAbs 1000000000

/-- The folder where the program runs, and what else it finds around it. -/
def workplace : IO Workplace := do
  let here ← IO.currentDir
  let names := (PurePath.ofString here.toString).names
  let entries ← (← here.readDir).toList.mapM load
  let disk := (DiskNode.folder []).place (some (.folder entries)) names
  let home := (PurePath.ofString ((← IO.getEnv "HOME").getD "/")).names
  let environment ← variableNames.filterMapM fun name => do
    return (← IO.getEnv name).map fun value => (name, value)
  let time ← now
  return {
    session := { disk, current := names, home, environment }
    network := fun _ => .failed "no connection to the network"
    members := fun _ => none
    scratch := ["tmp", "repo-scratch"]
    context := { now := time, stamp := time, temporary := ".tmp-atlas.part" } }

/-- Writes the folder where the program runs back to the disk. -/
def store (place : Workplace) (disk : DiskNode) : IO Unit := do
  let names := place.session.current
  let entriesAt (root : DiskNode) : Entries := ((root.at? names).map DiskNode.entries).getD []
  save (DiskNode.pathText names) (entriesAt place.session.disk) (entriesAt disk)

/-- The request in a line: a method, a path, and perhaps a body. -/
def requestOf (line : String) : ServiceRequest :=
  match line.splitOn " " with
  | method :: path :: body => { method, path, body := Utf8.encode (" ".intercalate body) }
  | _ => { method := "GET", path := line }

/-- Answers requests until there are none left. -/
partial def serve (input output : IO.FS.Stream) : IO Unit := do
  let line ← input.getLine
  if line.isEmpty then return
  let place ← workplace
  let served := place.serve (requestOf (Text.trim line))
  store place served.disk
  output.putStrLn s!"{served.response.status} {served.response.body.mediaType}"
  output.putStrLn served.response.body.render
  output.flush
  serve input output

/-- Runs the program. Gives the code it ends with. -/
def run (args : List String) : IO UInt32 := do
  let place ← workplace
  let finish := place.run (Timestamp.logText place.context.now) args
  store place finish.disk
  IO.print finish.console.output
  IO.eprint finish.console.errors
  if finish.served.isSome then serve (← IO.getStdin) (← IO.getStdout)
  match finish.ending with
  | .exits code => return code.toUInt32
  | .escapes failure =>
    IO.eprintln failure.message
    return 1

end RepoAtlas.Program

def main (args : List String) : IO UInt32 :=
  RepoAtlas.Program.run args
