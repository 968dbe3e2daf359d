import DocExamples.Dict
import DocExamples.Log.Event

namespace DocExamples

/-- A failure of the operating system while opening or reading. -/
inductive IoFailure where
  | notFound
  | isDirectory
  | notDirectory
  | permissionDenied
  | invalidUtf8
  deriving DecidableEq, Repr

namespace IoFailure

/-- The text of the failure, as the operating system words it. -/
def message : IoFailure → String
  | .notFound => "No such file or directory (os error 2)"
  | .isDirectory => "Is a directory (os error 21)"
  | .notDirectory => "Not a directory (os error 20)"
  | .permissionDenied => "permission denied"
  | .invalidUtf8 => "stream did not contain valid UTF-8"

/-- The name of the kind of failure. -/
def kindName : IoFailure → String
  | .notFound => "NotFound"
  | .isDirectory => "IsADirectory"
  | .notDirectory => "NotADirectory"
  | .permissionDenied => "PermissionDenied"
  | .invalidUtf8 => "InvalidData"

end IoFailure

/-- An error of a file lookup. -/
inductive FsError where
  /-- No layer has the path. -/
  | notFound (path : String)
  /-- Opening or reading the path failed otherwise. -/
  | failed (path : String) (cause : IoFailure)
  /-- A layer failed to open the path; the search stopped there. -/
  | layer (index : Nat) (source : FsError)
  deriving DecidableEq, Repr

namespace FsError

/-- The wording of the error. -/
def message : FsError → String
  | .notFound path => s!"open {path}: file does not exist"
  | .failed path cause => s!"open {path}: " ++ cause.message
  | .layer index source => s!"layer {index}: " ++ source.message

/-- Whether the error says that the path is not there, so that the next layer is asked. A
failure of the operating system counts when its kind is "not found"; an error a layer was
tagged with never does. -/
def isNotFound : FsError → Bool
  | .notFound _ => true
  | .failed _ cause => cause == .notFound
  | .layer _ _ => false

/-- The error for a failure of the operating system at `path`: "not found" when that is what
the failure says. -/
def io (path : String) (cause : IoFailure) : FsError :=
  if cause = .notFound then .notFound path else .failed path cause

end FsError

/-- What opening a path gives: the bytes that reading it yields, or the failure of reading. -/
abbrev Opened := Except IoFailure (List UInt8)

/-- A source of files: opening a path gives the opened file or an error, and the events it
logged. -/
structure FileLayer where
  openPath : String → Except FsError Opened × List Log.Event

/-- The files held in memory, by path. -/
def FileLayer.memory (files : Dict (List UInt8)) : FileLayer :=
  ⟨fun path => match files.get? path with
    | some bytes => (.ok (.ok bytes), [])
    | none => (.error (.notFound path), [])⟩

/-- The project tree: file contents and directories by their paths below the root. -/
structure Tree where
  files : Dict (List UInt8)
  dirs : List String

/-- What a path names in the tree. -/
inductive Entry where
  | file (bytes : List UInt8)
  | directory
  | missing
  deriving DecidableEq, Repr

namespace Tree

/-- Whether `dir` names a directory: the root, a listed directory, or one that holds a listed
directory or file. -/
def isDir (tree : Tree) (dir : String) : Bool :=
  dir.isEmpty || tree.dirs.any (fun d => d == dir || d.startsWith (dir ++ "/")) ||
    tree.files.toList.any (fun (f, _) => f.startsWith (dir ++ "/"))

/-- What the path `dir` names. -/
def entry (tree : Tree) (path : String) : Entry :=
  match tree.files.get? path with
  | some bytes => .file bytes
  | none => if tree.isDir path then .directory else .missing

/-- The path made of the components. -/
def joinPath (parts : List String) : String :=
  "/".intercalate parts

/-- Walks the components of a path from `here`: what it leads to, or the failure of getting there.
Empty components are skipped. Any other component is looked up in `here`, which must then be a
directory that exists, even when the component is `.`, which stays in place, or `..`, which goes
up. -/
def walk (tree : Tree) (here : List String) : List String → Except (Option IoFailure) Entry
  | [] => .ok (tree.entry (joinPath here))
  | part :: rest =>
    if part.isEmpty then walk tree here rest
    else
      match tree.entry (joinPath here) with
      | .file _ => .error (some .notDirectory)
      | .missing => .error none
      | .directory =>
        if part == "." then walk tree here rest
        else if part == ".." then walk tree here.dropLast rest
        else walk tree (here ++ [part]) rest

/-- Opens `path` from the directory `base` of the tree: its contents, a directory (which
cannot be read), or the failure. A path that ends in a slash must name a directory. -/
def openAt (tree : Tree) (base : List String) (path : String) : Except FsError Opened :=
  match tree.walk [] (base ++ path.splitOn "/") with
  | .error none => .error (.notFound path)
  | .error (some cause) => .error (.failed path cause)
  | .ok .missing => .error (.notFound path)
  | .ok .directory => .ok (.error .isDirectory)
  | .ok (.file bytes) =>
    if path.endsWith "/" then .error (.failed path .notDirectory) else .ok (.ok bytes)

end Tree

/-- The path `path` below the directory written `root`. -/
def joinBelow (root path : String) : String :=
  if root.endsWith "/" then root ++ path else root ++ "/" ++ path

/-- The path with its leading slashes taken off. -/
def dropLeadingSlashes (path : String) : String :=
  String.ofList (path.toList.dropWhile (· == '/'))

/-- The directory of a project that paths are taken from: a directory of the tree, given by its
components below the tree's root, or none for a directory outside the tree, where nothing is
found; and how the log writes it. -/
structure Root where
  tree : Tree
  dir : Option (List String)
  shown : String

namespace Root

/-- Opens `path` below the root; a leading slash does not lead out of it. -/
def openAt (root : Root) (path : String) : Except FsError Opened :=
  match root.dir with
  | none => .error (.notFound path)
  | some base =>
    match root.tree.openAt base (dropLeadingSlashes path) with
    | .error (.notFound _) => .error (.notFound path)
    | .error (.failed _ cause) => .error (.failed path cause)
    | other => other

/-- Whether `path` below the root names a regular file. -/
def isFile (root : Root) (path : String) : Bool :=
  match root.openAt path with
  | .ok (.ok _) => true
  | _ => false

/-- The path as the log writes it, below the root. -/
def showPath (root : Root) (path : String) : String :=
  joinBelow root.shown (dropLeadingSlashes path)

/-- The root as a layer, logging each path it opens. -/
def layer (root : Root) : FileLayer :=
  ⟨fun path =>
    let event : Log.Event := ⟨.trace, Log.targetFiles, "opening file on disk",
      [("path", .shown (root.showPath path))]⟩
    (root.openAt path, [event])⟩

end Root

/-- Reads an opened file, a failure of reading being an error for `path`. -/
def readOpened (path : String) : Opened → Except FsError (List UInt8)
  | .ok bytes => .ok bytes
  | .error cause => .error (FsError.io path cause)

/-- Opens `path` in the first layer from `index` on that has it. -/
def overlayOpen (path : String) : Nat → List FileLayer → Except FsError Opened × List Log.Event
  | _, [] => (.error (.notFound path), [])
  | index, layer :: rest =>
    match layer.openPath path with
    | (.ok opened, log) =>
      (.ok opened, log ++ [⟨.trace, Log.targetFiles, "resolved through overlay layer",
        [("path", .quoted path), ("index", .count index)]⟩])
    | (.error e, log) =>
      if e.isNotFound then
        let (result, more) := overlayOpen path (index + 1) rest
        (result, log ++ more)
      else (.error (.layer index e), log)

/-- The layers, asked in order, as one layer. -/
def FileLayer.overlay (layers : List FileLayer) : FileLayer :=
  ⟨fun path => overlayOpen path 0 layers⟩

/-- Reads `path` through the layers in order. -/
def overlayRead (layers : List FileLayer) (path : String) :
    Except FsError (List UInt8) × List Log.Event :=
  match overlayOpen path 0 layers with
  | (.ok opened, log) => (readOpened path opened, log)
  | (.error e, log) => (.error e, log)

end DocExamples
