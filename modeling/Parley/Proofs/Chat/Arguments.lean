import Parley.Chat.ToolCall
import Parley.Proofs.Json.Texts

/-!
# The arguments of a call

A call has the arguments that its text is read as, where a blank text stands for the empty object
(`parseArguments_eq_ok_iff`).  So they depend on nothing else in the call.
-/

namespace Parley.Chat.ToolCall

variable {call : ToolCall} {members : Arguments}

theorem parseArguments_eq_ok_iff : call.parseArguments = .ok members ↔
    Json.parse (if Text.allBlank call.arguments then "\x7b\x7d" else call.arguments) =
      .ok (.obj members) := by
  unfold parseArguments
  by_cases hblank : Text.allBlank call.arguments = true
  · have hempty : Json.parse "\x7b\x7d" = .ok (.obj []) := by rfl
    rw [if_pos hblank, if_pos hblank, hempty]
    simp
  · rw [if_neg hblank, if_neg hblank]
    cases Json.parse call.arguments with
    | error e => simp
    | ok v => cases v <;> simp

/-- A text that is read as an object is not blank. -/
theorem parseArguments_of_parse {id name text : String} (h : Json.parse text = .ok (.obj members)) :
    parseArguments ⟨id, name, text⟩ = .ok members := by
  rw [parseArguments_eq_ok_iff, if_neg (by simp [Json.allBlank_eq_false_of_parse h])]
  exact h

theorem argumentsOrEmpty_eq (h : call.parseArguments = .ok members) :
    call.argumentsOrEmpty = members := by
  rw [argumentsOrEmpty, h]

end Parley.Chat.ToolCall
