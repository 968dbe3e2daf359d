import DocExamples.Config.Toml
import DocExamples.Check.Error

namespace DocExamples

/-- How documentation examples are recognised. -/
structure Config where
  /-- The word an example's `$ ` line must contain to be run. -/
  program : String
  /-- The documents to check, below the project root. -/
  documents : List String
  /-- The info-string tags of example shell sessions. -/
  shellTags : List String
  /-- The info-string tag of each kind of quoted file, with its extension. -/
  fileTypes : Dict String
  deriving DecidableEq, Repr

namespace Config

/-- The defaults: program `hebfmt`, the document `README.md`, the tags `sh`, `shell` and
`console`, and text, JSON and template files. -/
def default : Config where
  program := "hebfmt"
  documents := ["README.md"]
  shellTags := ["sh", "shell", "console"]
  fileTypes := Dict.ofList [("text", ".txt"), ("json", ".json"), ("tmpl", ".tmpl")]

/-- Whether blocks with the tag are example shell sessions. -/
def isShellTag (config : Config) (tag : String) : Bool :=
  config.shellTags.contains tag

/-- The extension a quoted file of the tag must carry. -/
def extensionFor (config : Config) (tag : String) : Option String :=
  config.fileTypes.get? tag

/-- The config files looked for at the project root, the first found winning. -/
def candidates : List String :=
  ["hebfmt.toml", ".hebfmt.toml", ".config/hebfmt.toml"]

/-- A string of a TOML value. -/
def stringOf : Toml.Value → Except String String
  | .string s => pure s
  | _ => throw "expected a string"

/-- A list of strings of a TOML value. -/
def stringsOf : Toml.Value → Except String (List String)
  | .array items _ => items.mapM stringOf
  | _ => throw "expected an array"

/-- A field of a table, or its default when it is not given. -/
def field {α : Type} (entries : List (String × Toml.Value)) (key : String)
    (read : Toml.Value → Except String α) (fallback : α) : Except String α :=
  match Toml.lookup key entries with
  | none => pure fallback
  | some v => read v

/-- The extensions by tag of a TOML table. -/
def fileTypesOf : Toml.Value → Except String (Dict String)
  | .table _ entries => do
    let pairs ← entries.mapM fun (k, v) => do pure (k, ← stringOf v)
    pure (Dict.ofList pairs)
  | _ => throw "expected a table"

/-- The config of the `doccheck` table of a TOML document, defaults filling what is missing. -/
def ofToml (root : List (String × Toml.Value)) : Except String Config :=
  match Toml.lookup "doccheck" root with
  | none => pure default
  | some (.table _ entries) => do
    pure {
      program := ← field entries "program" stringOf default.program
      documents := ← field entries "documents" stringsOf default.documents
      shellTags := ← field entries "shell_tags" stringsOf default.shellTags
      fileTypes := ← field entries "file_types" fileTypesOf default.fileTypes }
  | some _ => throw "doccheck is not a table"

/-- The first config file found at the root. -/
def resolve? (root : Root) : Option String :=
  candidates.find? root.isFile

/-- Reads the config of a project: none when there is no config file, or the error of reading
it; and the events logged. -/
def load (root : Root) : Except DocError (Option Config) × List Log.Event :=
  match resolve? root with
  | none => (.ok none, [])
  | some path =>
    let event : Log.Event := ⟨.debug, Log.targetConfig, "loading config",
      [("path", .shown (root.showPath path))]⟩
    match root.openAt path with
    | .error e => (.error (.files e), [event])
    | .ok (.error cause) => (.error (.readFailed cause), [event])
    | .ok (.ok bytes) =>
      if !Utf8.isValid bytes then (.error (.readFailed .invalidUtf8), [event])
      else
        match Toml.parse (Utf8.lossy bytes) >>= ofToml with
        | .ok config => (.ok (some config), [event])
        | .error message => (.error (.configParse message), [event])

/-- The config of a project, or the defaults when it has no config file. -/
def loadOrDefault (root : Root) : Except DocError Config × List Log.Event :=
  match load root with
  | (.ok config, log) => (.ok (config.getD default), log)
  | (.error e, log) => (.error e, log)

end Config

end DocExamples
