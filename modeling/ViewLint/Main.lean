import ViewLint.CommandLine.Run

/-!
# The program

The program reads what a request can reach into a file system value, answers the request on that
value, prints the answer and writes the files that were changed.

## Main definitions

* `Disk.read`: what a command can reach.
* `main`: the program.
-/

namespace ViewLint.Disk

/-- A file system in which nothing has been read. -/
def unread : FileSystem :=
  ⟨.directory [], []⟩

/-- The path of a place. -/
def pathOf (place : Location) : String :=
  "/" ++ String.intercalate "/" place

/-- The files that count in a directory besides its sources. -/
def settingFiles : List Location :=
  [[Config.fileName], [".gitignore"], [".ignore"], [".git", "HEAD"], [".git", "info", "exclude"]]

/-- The bytes of a file, if it can be read. -/
def bytes? (place : Location) : IO (Option ByteArray) := do
  try
    return some (← IO.FS.readBinFile (pathOf place))
  catch _ =>
    return none

/-- The file system with a file of the disk, if it can be read. -/
def addFile (fs : FileSystem) (place : Location) : IO FileSystem := do
  match ← bytes? place with
  | some bytes => return { fs with root := fs.root.put place (.file bytes) }
  | none => return fs

/-- The file system with the setting files of a directory and of those above it. -/
def addSettings (fs : FileSystem) (place : Location) : IO FileSystem :=
  (List.range (place.length + 1)).foldlM
    (fun fs depth =>
      settingFiles.foldlM (fun fs name => addFile fs (place.take depth ++ name)) fs)
    fs

/-- The sources and the setting files below a directory, and the directories that hold them. Links
are not followed, and the folders that are never searched are not read. -/
partial def addBelow (fs : FileSystem) (place : Location) : IO FileSystem := do
  let directory := (← IO.currentDir) / pathOf place
  let fs ← settingFiles.foldlM (fun fs name => addFile fs (place ++ name)) fs
  (← directory.readDir).foldlM
    (fun fs item => do
      let here := place ++ [item.fileName]
      match (← item.path.symlinkMetadata).type with
      | .dir => if Files.defaultFolders.contains item.fileName then return fs else addBelow fs here
      | .file => if isSource item.fileName then addFile fs here else return fs
      | _ => return fs)
    fs

/-- The file system with a file or a directory that is to be searched. -/
def addRoot (fs : FileSystem) (place : Location) : IO FileSystem := do
  let path := (← IO.currentDir) / pathOf place
  let fs ← addSettings fs place
  if ← path.isDir then
    let fs :=
      if (fs.root.at? place).isSome then fs
      else { fs with root := fs.root.put place (.directory []) }
    addBelow fs place
  else addFile fs place

/-- What a command can reach: the settings around the working directory, the paths with all that is
below them, and the model file. -/
def read (options : CommandLine.Options) : IO FileSystem := do
  let here := unread.locate (← IO.currentDir).toString
  let start : FileSystem := ⟨unread.root.put here (.directory []), here⟩
  let roots := if options.paths.isEmpty then ["."] else options.paths
  let fs ← (roots.map start.locate).foldlM addRoot (← addSettings start here)
  let config := Config.load fs (options.paths.headD ".")
  match options.model? <|> config.modelPath? with
  | some model => addFile fs (start.locate model)
  | none => return fs

/-- What a request can reach. Help reaches nothing. -/
def readFor : CommandLine.Request → IO FileSystem
  | .run _ options => read options
  | _ => return unread

/-- Writes the files that an answer changed. -/
def write (reply : CommandLine.Reply) : IO Unit :=
  reply.written.forM fun path =>
    match reply.files.read path with
    | .ok bytes => IO.FS.writeBinFile path bytes
    | .error _ => return ()

end ViewLint.Disk

open ViewLint CommandLine in
/-- Answers the arguments. -/
def main (arguments : List String) : IO UInt32 := do
  match Request.parse arguments with
  | .error e =>
    IO.eprintln ("error: " ++ e.message)
    return usageCode.toUInt32
  | .ok request =>
    match request.answer (← Disk.readFor request) with
    | .error e =>
      IO.eprintln ("Error: " ++ e.message)
      return 1
    | .ok reply =>
      Disk.write reply
      IO.print reply.output
      return reply.code.toUInt32
