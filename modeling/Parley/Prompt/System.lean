import Parley.Chat.ToolCall
import Parley.Prompt.Template.Parser

/-!
# The prompt that opens every turn

The prompt says where the assistant works, what the user is looking at and which tools there are.
It is a list of sections with a blank line between neighbours; paths, names and descriptions stand
in it as they are (`system`).

The prompt is also kept as a template (`systemTemplate`), which `renderSystem` renders for the tools
and the path at hand.
-/

namespace Parley.Prompt

open Chat (ToolSchema)

/-- The first section. -/
def opening : String := "You are a helpful assistant working inside a shared file workspace."

/-- What the user is looking at. -/
def location (path : String) : String :=
  "The user is currently looking at `" ++ path ++
    "`. Relative requests such as \"this folder\" refer to it."

/-- How tools are to be used. -/
def toolGuide : String :=
  "You can use the following tools. Call a tool whenever it helps you answer accurately, " ++
    "and never invent file contents you have not read."

/-- The line of a tool. -/
def toolLine (t : ToolSchema) : String := "- " ++ t.name ++ ": " ++ t.description

/-- What the user decides about tools. -/
def approvalGuide : String :=
  "Some tools change the workspace and need the user's approval before they run. " ++
    "When such a call is rejected, do not retry it; explain what you would have done instead."

/-- The sections about tools; none when there are no tools. -/
def toolSections (tools : List ToolSchema) : List String :=
  if tools.isEmpty then []
  else [toolGuide, Text.join "\n" (tools.map toolLine), approvalGuide]

/-- The sections of the prompt.  A blank path is no path. -/
def sections (tools : List ToolSchema) (currentPath? : Option String) : List String :=
  [opening] ++ ((currentPath?.filter (!Text.allBlank ·)).map location).toList ++ toolSections tools

/-- The prompt. -/
def system (tools : List ToolSchema) (currentPath? : Option String) : String :=
  Text.join "\n\n" (sections tools currentPath?)

/-! ### The template -/

/-- The prompt as a template. -/
def systemTemplate : String :=
  Text.join "\n" [
    "You are a helpful assistant working inside a shared file workspace.",
    "\x7b% if current_path %\x7d",
    "The user is currently looking at `\x7b\x7b current_path \x7d\x7d`. " ++
      "Relative requests such as \"this folder\" refer to it.",
    "\x7b% endif %\x7d",
    "\x7b% if tools | length > 0 -%\x7d",
    "You can use the following tools. Call a tool whenever it helps you answer accurately, " ++
      "and never invent file contents you have not read.",
    "",
    "\x7b% for tool in tools -%\x7d",
    "- \x7b\x7b tool.name \x7d\x7d: \x7b\x7b tool.description \x7d\x7d",
    "\x7b% endfor %\x7d",
    "Some tools change the workspace and need the user's approval before they run. " ++
      "When such a call is rejected, do not retry it; explain what you would have done instead.",
    "\x7b%- endif %\x7d"]

/-- The scope that the template is rendered in. -/
def systemScope (tools : List ToolSchema) (currentPath? : Option String) : Json :=
  .object [("tools", .arr (tools.map ToolSchema.toJson)),
    ("current_path", Json.ofOption .str (currentPath?.filter (!Text.allBlank ·)))]

/-- The prompt that the template gives, without blanks around it. -/
def renderSystem (tools : List ToolSchema) (currentPath? : Option String) :
    Except TemplateError String :=
  (loadPrompt systemTemplate (systemScope tools currentPath?)).map Text.trim

end Parley.Prompt
