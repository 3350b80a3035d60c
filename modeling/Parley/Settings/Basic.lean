import Parley.Provider.Store
import Parley.Settings.Address
import Parley.Settings.Reader
import Parley.Settings.Tree
import Parley.Toml.Parser

/-!
# Settings of the service

`Settings.load` lays the defaults, a file and the environment over each other and reads the result.
Where a setting is missing, the error names the variable that sets it (`missingPath?`).
-/

namespace Parley

open Floating (Single)
open Provider (Ability Binding Record Store)
open Toml (Value)

/-- The settings of the service. -/
structure Settings where
  /-- Where the service listens. -/
  host : String
  /-- The port it listens at. -/
  port : Nat
  /-- How often a model is asked in one turn. -/
  maxRounds : Nat
  /-- How freely models choose their words. -/
  temperature? : Option Single
  /-- How many seconds a model may take. -/
  timeout : Nat
  /-- Where the workspace lies. -/
  workspaceRoot : String
  /-- The providers. -/
  providers : List Record
  /-- The models, under the names of abilities. -/
  models : List (String × Binding)

namespace Settings

/-! ### Errors -/

/-- Why the service has no settings. -/
inductive LoadError where
  /-- A variable that must be set is not. -/
  | missingVariable (name : String)
  /-- A variable is set to something that it cannot be. -/
  | invalidValue (name reason : String)
  /-- The settings cannot be read. -/
  | unreadable
deriving DecidableEq, Repr

/-- The wording of an error. -/
def LoadError.message : LoadError → String
  | .missingVariable name => "Missing required environment variable: " ++ name
  | .invalidValue name reason => "Invalid value for " ++ name ++ ": " ++ reason
  | .unreadable => "Configuration error"

/-- The wording of a fault. -/
def Fault.message : Fault → String
  | .missing field => "missing field `" ++ field ++ "`"
  | .mismatch => "invalid type"

/-- The mark around names in messages. -/
def quote : Char := Char.ofNat 96

/-- The path of a missing setting, as a message tells it: the field, behind the path of its table
where the message has one. -/
def missingPath? (message : String) : Option String := do
  let rest ← Text.after? "missing field `" message
  let (field, rest) ← Text.splitOnce? quote rest
  match (Text.splitOnceText? "for key `" rest).bind fun (_, key) => Text.splitOnce? quote key with
  | some (key, _) => return if key.isEmpty then field else key ++ "." ++ field
  | none => return field

/-- The error that a fault leads to. -/
def LoadError.ofFault (f : Fault) : LoadError :=
  match missingPath? f.message with
  | some path => .missingVariable (variableOf path)
  | none => .unreadable

/-! ### Reading -/

/-- The defaults. -/
def defaults : Tree :=
  [(["server", "host"], .text "127.0.0.1"), (["server", "port"], .int 3000),
    (["agent", "max_loops"], .int 4), (["agent", "timeout_secs"], .int 120),
    (["agent", "workspace_root"], .text "./workspace")].foldl
    (fun t (path, (v : Value)) => Tree.set v path t) []

/-- Read a provider. -/
def provider (id : String) (v : Value) : Except Fault Record := do
  let apiFormat? ← optional v 0 "api_format" text
  let baseUrl? ← optional v 1 "base_url" text
  let apiKey? ← optional v 2 "api_key" text
  let maxTokens? ← optional v 3 "max_tokens" (natural 32)
  let headers? ← optional v 4 "headers" (map text)
  let apiFormat ← required v "api_format" apiFormat?
  return { id, apiFormat, baseUrl?, apiKey?, maxTokens?, headers := headers?.getD [] }

/-- Read a model. -/
def binding (v : Value) : Except Fault Binding := do
  let model? ← optional v 0 "model" text
  let provider? ← optional v 1 "provider" text
  return ⟨← required v "model" model?, ← required v "provider" provider?⟩

/-- Read all settings. -/
def read (t : Tree) : Except Fault Settings := do
  let part (name : String) : Value := (t.lookup name).getD (.table [])
  let server := part "server"
  let agent := part "agent"
  let host? ← optional server 0 "host" text
  let port? ← optional server 1 "port" (natural 16)
  let maxRounds? ← optional agent 0 "max_loops" word
  let temperature? ← optional agent 1 "temperature" single
  let timeout? ← optional agent 2 "timeout_secs" word
  let workspaceRoot? ← optional agent 3 "workspace_root" text
  let providers ← (← map .ok (part "providers")).mapM fun (id, v) => provider id v
  let models ← map binding (part "models")
  return {
    host := host?.getD "127.0.0.1", port := port?.getD 3000
    maxRounds := maxRounds?.getD 4, temperature?, timeout := timeout?.getD 120
    workspaceRoot := workspaceRoot?.getD "./workspace", providers, models }

/-- The variable that names a file. -/
def fileVariable : String := marker ++ "CONFIG"

/-- Read the settings from an environment, and from the text of a file when there is one. -/
def load (environment : List (String × String)) (file? : Option String) :
    Except LoadError Settings := do
  let entries ← match file?.map Toml.parse? with
    | none => .ok []
    | some (some entries) => .ok entries
    | some none => .error .unreadable
  ((read ((defaults.setFile entries).setVariables environment)).mapError .ofFault)

/-- Read the settings from an environment, which may name a file.  `files` tells the texts of
files. -/
def ofEnvironment (files : String → Option String) (environment : List (String × String)) :
    Except LoadError Settings :=
  match environment.lookup fileVariable with
  | none => load environment none
  | some path =>
    match files path with
    | some file => load environment (some file)
    | none => .error .unreadable

/-! ### What follows from settings -/

/-- The address to listen at. -/
def address (s : Settings) : Except LoadError String :=
  match socketAddress? s.host s.port with
  | some a => .ok a
  | none => .error (.invalidValue (variableOf "server.host") "invalid socket address syntax")

/-- The store of the providers and models. -/
def store (s : Settings) : Except LoadError Store :=
  s.models.foldlM (fun store (key, b) =>
    match Ability.ofName? key with
    | some ability => .ok (store.withBinding ability b)
    | none =>
      .error (.invalidValue (variableOf ("models." ++ key)) ("'" ++ key ++ "' is not an ability")))
    (s.providers.foldl Store.withProvider .empty)

end Settings

end Parley
