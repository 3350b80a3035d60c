import Parley.Chat.Message

/-!
# Dialogues

Some formats do not take a list of messages but a system text and turns in which the user and the
model alternate.  The leading system messages make up the system text; every other message belongs
to a side and says something, in entries of the format's own, and what neighbouring messages of one
side say forms one turn.  Messages that say nothing leave no trace.

This is what translations into such formats have in common: `push` adds what a message says to the
turns so far, and `systemText?` joins the texts of the system.
-/

namespace Parley.Wire

open Chat (Block Message)

/-! ### Turns -/

/-- Who speaks in a dialogue. -/
inductive Side where
  | user
  | model
deriving DecidableEq, Repr

/-- What one side says before the other side speaks. -/
structure Turn (α : Type) where
  /-- Who speaks. -/
  side : Side
  /-- What is said. -/
  entries : List α
deriving DecidableEq, Repr

/-- Add what a message says to turns, which are listed from the latest on: nothing when it says
nothing, to the latest turn when that is of the same side, and as a turn of its own otherwise. -/
def push {α : Type} : List (Turn α) → Turn α → List (Turn α)
  | [], t => if t.entries.isEmpty then [] else [t]
  | last :: earlier, t =>
    if t.entries.isEmpty then last :: earlier
    else if last.side = t.side then ⟨last.side, last.entries ++ t.entries⟩ :: earlier
    else t :: last :: earlier

/-! ### What messages say -/

/-- Whether a message is of the system. -/
def isSystem (m : Message) : Bool := m.role = .system

/-- Whether a block holds anything: every block but an empty text does. -/
def hasContent : Block → Bool
  | .text t => !t.isEmpty
  | .image _ => true

/-- The system text of a list of texts: those that are not empty, with blank lines between them. -/
def systemText? (texts : List String) : Option String :=
  match texts.filter (!·.isEmpty) with
  | [] => none
  | texts => some (Text.join "\n\n" texts)

end Parley.Wire
