import Parley.Proofs.Agent.Record
import Parley.Proofs.Prompt.System

/-!
# The prompt that every turn begins with

The template of the system prompt is rendered for the tools of an agent and the path of a request,
and a turn would begin without a prompt if that failed.  It never does (`prompt_opens_turns`): the
prompt says the path, the names and the descriptions as they are, whatever stands in them, and the
model never sees a history without it.
-/

namespace Parley.Agent

open Chat (Message ToolSchema)
open Prompt (approvalGuide location opening renderSystem renderSystem_eq system_congr system_eq
  toolGuide)

variable {σ : Type} {a : Agent σ} {mode : Mode} {ids : Nat → String} {request : Request} {world : σ}

/-- What a turn begins with when its prompt may fail to render. -/
def openingHistory (prompt : Except Prompt.TemplateError String) (messages : List Message) :
    List Message :=
  (match prompt with
    | .ok prompt => [.system prompt]
    | .error _ => []) ++ messages

theorem prompt_prefix_start (a : Agent σ) (request : Request) (world : σ) :
    [.system (Prompt.system a.registry.catalogue request.currentPath?)] <+:
      (a.start request world).history :=
  List.prefix_append _ _

/-- A history that the model is given goes on from what the turn began with. -/
theorem prefix_of_mem_histories {history : List Message}
    (h : history ∈ histories (a.play mode ids request world).log) :
    (a.start request world).history <+: history := by
  obtain ⟨s, hs, hasked⟩ := List.mem_filterMap.mp h
  cases s with
  | asked id asked =>
    obtain rfl : asked = history := Option.some.inj hasked
    obtain ⟨before, after, hlog⟩ := List.append_of_mem hs
    exact ⟨messages before, (history_eq_of_asked hlog).symm⟩
  | _ => exact nomatch hasked

/-- **The prompt always renders, and every turn begins with it.**  For all tools and every path, the
template renders to the first section, what is said about a path that is not blank, and what is said
about the tools if there are any, with a line for each of them; path, names and descriptions stand
there as they are, and nothing else of the tools matters.  So every turn begins with its prompt, and
so does every history that the model is given. -/
theorem prompt_opens_turns :
    (∀ (tools : List ToolSchema) (path? : Option String),
      renderSystem tools path? = .ok (Text.join "\n\n" (
        [opening] ++ (path?.toList.filter (!Text.allBlank ·)).map location ++
        if tools = [] then []
        else [toolGuide,
          Text.join "\n" (tools.map fun t => "- " ++ t.name ++ ": " ++ t.description),
          approvalGuide])) ∧
      ∀ tools' : List ToolSchema,
        tools'.map (fun t => (t.name, t.description)) =
          tools.map (fun t => (t.name, t.description)) →
          renderSystem tools' path? = renderSystem tools path?) ∧
    ∀ (σ : Type) (a : Agent σ) (mode : Mode) (ids : Nat → String) (request : Request) (world : σ),
      (a.start request world).history =
        openingHistory (renderSystem a.registry.catalogue request.currentPath?)
          (request.messages.map Message.normalizeIds) ∧
      ∃ prompt, renderSystem a.registry.catalogue request.currentPath? = .ok prompt ∧
        (∀ history ∈ histories (a.play mode ids request world).log, [.system prompt] <+: history) ∧
        [.system prompt] <+: (a.play mode ids request world).last.history := by
  refine ⟨fun tools path? => ⟨?_, fun tools' htools => ?_⟩,
    fun σ a mode ids request world => ⟨?_, _, renderSystem_eq _ _, fun history hhistory => ?_, ?_⟩⟩
  · rw [renderSystem_eq, system_eq]
  · rw [renderSystem_eq, renderSystem_eq, system_congr htools]
  · rw [renderSystem_eq]
    rfl
  · exact (prompt_prefix_start a request world).trans (prefix_of_mem_histories hhistory)
  · rw [(advances_play a mode ids request world).history]
    exact (prompt_prefix_start a request world).trans (List.prefix_append _ _)

/-- Templates in a name and in a description are said as they are, and parameters do not matter. -/
theorem prompt_opens_turns_braces :
    renderSystem [⟨"\x7b\x7b tools \x7d\x7d", "\x7b% endif %\x7d", .obj []⟩] (some " ") =
        .ok (Text.join "\n\n" [opening, toolGuide, "- \x7b\x7b tools \x7d\x7d: \x7b% endif %\x7d",
          approvalGuide]) ∧
      renderSystem [⟨"ls", "Lists files.", .null⟩] none =
        renderSystem [⟨"ls", "Lists files.", .obj []⟩] none :=
  ⟨(prompt_opens_turns.1 _ _).1, (prompt_opens_turns.1 _ _).2 _ rfl⟩

end Parley.Agent
