import Parley.Agent.Turn

/-!
# A small agent

An agent to try statements on: it has a tool that runs at once and one that requires confirmation,
and its model says what a script says, message by message.  `scripted` has the same tools, and its
model answers by a script that has no end and may fail.
-/

namespace Parley.Agent.Sample

open Chat (Message ToolCall)
open Provider (Model)
open Wire (Completion Failure)

/-- A tool that shows the arguments it receives. -/
def tool (name : String) (requiresConfirmation : Bool) : Tool (List Message) where
  schema := ⟨name, "", .obj []⟩
  requiresConfirmation
  handler arguments script := (.ok (.entries "" arguments), script)

/-- `ls` runs at once, and `rm` requires confirmation. -/
def registry : Registry (List Message) where
  tools := [tool "ls" false, tool "rm" true]
  index := [("ls", 0), ("rm", 1)]
  registered := rfl

/-- The model says the next message of the script, and nothing when there is none. -/
def model : Model (List Message) where
  provider := "sample"
  name := "sample"
  complete _ _ _ script := (.ok { message := script.headD .assistant }, script.tail)
  stream _ _ _ script := (.ok [.ok (.done { message := script.headD .assistant })], script.tail)

/-- The agent. -/
def agent : Agent (List Message) where
  model
  registry

/-- The model answers by a script, whose first reply has the number one, and counts its answers. -/
def scriptedModel (script : Nat → Except Failure Completion) : Model Nat where
  provider := "sample"
  name := "script"
  complete _ _ _ answers := (script (answers + 1), answers + 1)
  stream := Model.streamOf fun _ _ _ answers => (script (answers + 1), answers + 1)

/-- The agent whose model answers by a script. -/
def scripted (script : Nat → Except Failure Completion) : Agent Nat where
  model := scriptedModel script
  registry :=
    { tools := registry.tools.map (·.within (fun _ => []) fun _ answers => answers)
      index := registry.index
      registered := rfl }

/-- A call of a tool, without arguments. -/
def call (id name : String) : ToolCall := ⟨id, name, ""⟩

/-- A message of the assistant that calls tools. -/
def calling (calls : List ToolCall) : Message := { role := .assistant, toolCalls := calls }

end Parley.Agent.Sample
