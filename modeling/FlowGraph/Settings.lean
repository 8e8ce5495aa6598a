import FlowGraph.Engine.Config
import FlowGraph.Toml.Reader
import FlowGraph.Text.Blank

/-!
# Settings

The settings of an engine and of its executors: usual values, then those of a settings file, then
those of the environment. Values of the environment that cannot be read are passed over.
-/

namespace FlowGraph

/-- The resources that the built-in executors reach out to. -/
structure ExecutorSettings where
  /-- The directory that files and databases are confined to. -/
  storagePath : String := "./storage"
  databaseFile : String := "workflow.db"
  modelApiUrl : String := "http://localhost:3000"
  modelApiKey : String := ""
  httpTimeoutSeconds : Nat := 30
deriving DecidableEq, Repr, Inhabited

namespace ExecutorSettings

/-- The settings as a value. -/
def toJson (s : ExecutorSettings) : Json :=
  .obj [("storage_path", .str s.storagePath), ("database_file", .str s.databaseFile),
    ("model_api_url", .str s.modelApiUrl), ("model_api_key", .str s.modelApiKey),
    ("http_timeout_seconds", Json.ofNat s.httpTimeoutSeconds)]

/-- Read a path. -/
def pathOfDraft : Draft → Decoded String
  | .str s => .ok s
  | x => x.mismatch "path string"

/-- Read settings. What is missing has its usual value. -/
def ofDraft : Dialect → Draft → Decoded ExecutorSettings :=
  let usual : ExecutorSettings := {}
  (((Record.field "storage_path" (fun _ x => pathOfDraft x) (.anywhere usual.storagePath)).and
      ((Record.field "database_file" (fun _ x => x.toText) (.anywhere usual.databaseFile)).and
        ((Record.field "model_api_url" (fun _ x => x.toText) (.anywhere usual.modelApiUrl)).and
          ((Record.field "model_api_key" (fun _ x => x.toText)
              (.anywhere usual.modelApiKey)).and
            (Record.field "http_timeout_seconds" (fun _ x => x.toNat "u64")
              (.anywhere usual.httpTimeoutSeconds)))))).map
    fun (storagePath, databaseFile, modelApiUrl, modelApiKey, httpTimeoutSeconds) =>
      ExecutorSettings.mk storagePath databaseFile modelApiUrl modelApiKey
        httpTimeoutSeconds).decode "struct ExecutorSettings"

end ExecutorSettings

/-- All settings. -/
structure Settings where
  engine : EngineConfig := {}
  executors : ExecutorSettings := {}
deriving DecidableEq, Repr, Inhabited

/-- Why a settings text has no settings. -/
inductive SettingsFault where
  /-- It is not TOML. -/
  | notToml
  /-- It is TOML, but its data does not fit. -/
  | data (fault : DataFault)
deriving DecidableEq, Repr

/-- The fault in words. -/
def SettingsFault.message (floatText : Double → String) : SettingsFault → String
  | notToml => "TOML parse error"
  | data fault => fault.messageWith floatText

/-- Why settings could not be loaded. -/
inductive SettingsError where
  | read (path reason : String)
  | parse (path : String) (fault : SettingsFault)
deriving DecidableEq, Repr

namespace Settings

/-- The settings as a value. -/
def toJson (s : Settings) : Json :=
  .obj [("engine", s.engine.toJson), ("executors", s.executors.toJson)]

/-- Read settings. What is missing has its usual value. -/
def ofDraft : Dialect → Draft → Decoded Settings :=
  (((Record.field "engine" EngineConfig.ofDraft (.anywhere {})).and
      (Record.field "executors" ExecutorSettings.ofDraft (.anywhere {}))).map
    fun (engine, executors) => Settings.mk engine executors).decode "struct Settings"

/-- Floats in messages about settings files: all digits, always with a point. -/
def floatText (x : Double) : String :=
  match x.value with
  | .finite negative m e =>
    let sign := if negative then "-" else ""
    if m = 0 then sign ++ "0.0"
    else sign ++ DecimalLayout.write ⟨-400, 400, "", ""⟩ (BinaryFormat.double.shortest m e)
  | _ => x.text

/-- What is behind an error, in words. -/
def causeMessage : SettingsError → String
  | .read _ reason => reason
  | .parse _ fault => fault.message floatText

/-- An error in words. -/
def errorMessage : SettingsError → String
  | e@(.read path _) => "Failed to read config file " ++ path ++ ": " ++ causeMessage e
  | e@(.parse path _) => "Invalid config file " ++ path ++ ": " ++ causeMessage e

/-- Read the text of a settings file. -/
def ofToml (text : String) : Except SettingsFault Settings :=
  match Toml.read text with
  | none => .error .notToml
  | some x =>
    match ofDraft .table x with
    | .ok s => .ok s
    | .error (.data fault) => .error (.data fault)
    | .error (.text _) => .error .notToml

/-- A number of the environment, between blanks; `usual` when it cannot be read. -/
def override (usual : Nat) : Option String → Nat
  | none => usual
  | some raw => (Text.word64? (Text.trim raw.toList)).getD usual

/-- The settings with those of the environment put over them. -/
def applyEnvironment (lookup : String → Option String) (s : Settings) : Settings where
  engine := { s.engine with
    maxConcurrent := override s.engine.maxConcurrent
      (lookup "GRAPHFLOW_MAX_CONCURRENT_EXECUTIONS")
    timeoutSeconds := override s.engine.timeoutSeconds
      (lookup "GRAPHFLOW_EXECUTION_TIMEOUT_SECONDS") }
  executors := { s.executors with
    storagePath := (lookup "GRAPHFLOW_STORAGE_PATH").getD s.executors.storagePath
    modelApiUrl := (lookup "GRAPHFLOW_MODEL_API_URL").getD s.executors.modelApiUrl
    modelApiKey := (lookup "GRAPHFLOW_MODEL_API_KEY").getD s.executors.modelApiKey }

/-- The settings with at least one run at a time. -/
def normalize (s : Settings) : Settings :=
  { s with engine := { s.engine with maxConcurrent := max 1 s.engine.maxConcurrent } }

/-- Load settings: from the text of a file, if one is named, then from the environment.
`readFile` gives the text of a file or the reason why it cannot be read. -/
def load (readFile : String → Except String String) (lookup : String → Option String)
    (path : Option String) : Except SettingsError Settings := do
  let base ← match path with
    | none => .ok {}
    | some path => match readFile path with
      | .error reason => .error (.read path reason)
      | .ok text => match ofToml text with
        | .ok s => .ok s
        | .error fault => .error (.parse path fault)
  .ok (base.applyEnvironment lookup).normalize

end Settings

end FlowGraph
