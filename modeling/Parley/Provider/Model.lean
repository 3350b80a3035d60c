import Parley.Wire.Completion
import Parley.Wire.Error

/-!
# Models that can be called

A `Model σ` is a language model as a turn sees it: it completes a history, at once or piece by
piece, and may embed texts or rank documents.  Calls work on a state of type `σ`, the surroundings
that the model shares with the tools.

A model without a stream of its own streams the whole text as one piece (`Model.wholeStream`).
-/

namespace Parley.Provider

open Chat (Message ToolSchema)
open Floating (Single)
open Wire (Chunk Completion Failure Options)

/-- A model. -/
structure Model (σ : Type) where
  /-- The id of its provider. -/
  provider : String
  /-- Its name. -/
  name : String
  /-- Answer a history. -/
  complete : List Message → List ToolSchema → Options → σ → Except Failure Completion × σ
  /-- Answer a history piece by piece. -/
  stream : List Message → List ToolSchema → Options → σ →
    Except Failure (List (Except Failure Chunk)) × σ
  /-- Embed texts. -/
  embed : List String → σ → Except Failure (List (List Single)) × σ :=
    fun _ s => (.error (.unsupported "embedding"), s)
  /-- Rank documents for a query. -/
  rerank : String → List String → σ → Except Failure (List Single) × σ :=
    fun _ _ s => (.error (.unsupported "rerank"), s)

namespace Model

variable {σ τ : Type}

/-- The stream of an answer that is known at once: its text as one piece, unless it is empty, and
then the answer. -/
def wholeStream (c : Completion) : List (Except Failure Chunk) :=
  (if c.message.text.isEmpty then [] else [.ok (.delta c.message.text)]) ++ [.ok (.done c)]

/-- A stream made of whole answers. -/
def streamOf
    (complete : List Message → List ToolSchema → Options → σ → Except Failure Completion × σ)
    (history : List Message) (tools : List ToolSchema) (options : Options) (s : σ) :
    Except Failure (List (Except Failure Chunk)) × σ :=
  let (answer, s) := complete history tools options s
  (answer.map wholeStream, s)

/-- A model that works on a part of a larger state. -/
def within (m : Model σ) (get : τ → σ) (set : σ → τ → τ) : Model τ where
  provider := m.provider
  name := m.name
  complete history tools options t :=
    let (answer, s) := m.complete history tools options (get t)
    (answer, set s t)
  stream history tools options t :=
    let (answer, s) := m.stream history tools options (get t)
    (answer, set s t)
  embed texts t :=
    let (answer, s) := m.embed texts (get t)
    (answer, set s t)
  rerank query documents t :=
    let (answer, s) := m.rerank query documents (get t)
    (answer, set s t)

end Model

end Parley.Provider
