import DocExamples.Cli.Outcome

namespace DocExamples

namespace Disk

/-- What reading a path of the project gave. -/
inductive Found where
  | file (bytes : List UInt8)
  | directory
  | missing

/-- Reads the path `path` below the directory `dir`. -/
def read (dir path : String) : IO Found := do
  try
    let bytes ← IO.FS.readBinFile (joinBelow dir path)
    pure (.file bytes.toList)
  catch e =>
    match e with
    | .inappropriateType _ _ _ => pure .directory
    | _ => pure .missing

/-- The path below the root with empty and `.` components dropped and `..` taken back; none for
a path that leaves the root. -/
def normalize (here : List String) : List String → Option String
  | [] => some ("/".intercalate here)
  | part :: rest =>
    if part.isEmpty || part == "." then normalize here rest
    else if part == ".." then (if here.isEmpty then none else normalize here.dropLast rest)
    else normalize (here ++ [part]) rest

/-- The project tree of the paths read. -/
def treeOf (found : List (String × Found)) : Tree :=
  ⟨Dict.ofList (found.filterMap fun (path, f) => match f with
      | .file bytes => some (path, bytes)
      | _ => none),
    found.filterMap fun (path, f) => match f with
      | .directory => some path
      | _ => none⟩

/-- The paths a check of the tree opens: its documents, and every path its layer opened. -/
def wanted (tree : Tree) : List String :=
  let root : Root := ⟨tree, some [], ""⟩
  match (Config.loadOrDefault root).1 with
  | .error _ => []
  | .ok config =>
    let opened := (Project.checkAll ⟨config, root⟩).2.filterMap fun event =>
      if event.message = "opening file on disk" then
        match event.fields.find? (·.1 = "path") with
        | some (_, .shown path) => some (String.ofList (path.toList.drop 1))
        | _ => none
      else none
    config.documents ++ opened

/-- Reads the paths not yet read, each once. -/
def readNew (dir : String) (found : List (String × Found)) (paths : List String) :
    IO (List (String × Found)) := do
  let mut found := found
  for path in paths do
    match normalize [] (path.splitOn "/") with
    | some key =>
      if !(found.any (·.1 = key)) then
        found := found ++ [(key, ← read dir key)]
    | none => pure ()
  pure found

/-- The tree of every path a check of the project below `dir` asks for. -/
def gather (dir : String) : IO Tree := do
  let mut found ← readNew dir [] Config.candidates
  for _ in List.range 1000 do
    let more ← readNew dir found (wanted (treeOf found))
    if more.length = found.length then break
    found := more
  pure (treeOf found)

end Disk

end DocExamples

open DocExamples in
/-- Runs the program on the command line's arguments and the project on disk. -/
def main (args : List String) : IO UInt32 := do
  let env ← [ "NO_COLOR", "HEBFMT_LOG"].filterMapM fun name => do
    pure ((← IO.getEnv name).map (name, ·))
  let path := match Cli.parse args with
    | .ok invocation => invocation.path
    | .error _ => none
  let shown ← match path with
    | some p => pure p
    | none => pure (toString (← IO.currentDir))
  let tree ← Disk.gather (path.getD ".")
  let outcome := Cli.run ⟨env, fun _ => ⟨tree, some [], shown⟩⟩ args
  let stdout ← IO.getStdout
  stdout.putStr outcome.stdout
  stdout.flush
  let stderr ← IO.getStderr
  stderr.putStr outcome.stderr
  stderr.flush
  pure outcome.status.toUInt32
