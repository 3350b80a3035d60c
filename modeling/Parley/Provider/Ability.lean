import Parley.Text.Casing

/-!
# Abilities and wire formats

An `Ability` is a class of work that a model is picked for, and an `ApiFormat` a protocol that a
provider speaks.  Both have lower-case names, which are read without regard to ASCII case
(`Ability.ofName?`, `ApiFormat.ofName?`).
-/

namespace Parley.Provider

open Text (eqIgnoringAsciiCase)

/-- A class of work that a model is picked for. -/
inductive Ability where
  | chat
  | vision
  | embedding
  | rerank
  | voice
  | tools
deriving DecidableEq, Repr

namespace Ability

/-- All abilities. -/
def all : List Ability := [.chat, .vision, .embedding, .rerank, .voice, .tools]

/-- The name of an ability. -/
def name : Ability → String
  | .chat => "chat"
  | .vision => "vision"
  | .embedding => "embedding"
  | .rerank => "rerank"
  | .voice => "voice"
  | .tools => "tools"

/-- The ability with a name, in letters of any case. -/
def ofName? (s : String) : Option Ability := all.find? fun a => eqIgnoringAsciiCase a.name s

/-- The ability whose name is spelled exactly so. -/
def ofExactName? (s : String) : Option Ability := all.find? fun a => a.name == s

end Ability

/-- A protocol that a provider speaks. -/
inductive ApiFormat where
  | openAi
  | anthropic
  | gemini
  | ollama
deriving DecidableEq, Repr

namespace ApiFormat

/-- All formats. -/
def all : List ApiFormat := [.openAi, .anthropic, .gemini, .ollama]

/-- The name of a format. -/
def name : ApiFormat → String
  | .openAi => "openai"
  | .anthropic => "anthropic"
  | .gemini => "gemini"
  | .ollama => "ollama"

/-- The format with a name, in letters of any case. -/
def ofName? (s : String) : Option ApiFormat := all.find? fun f => eqIgnoringAsciiCase f.name s

end ApiFormat

end Parley.Provider
