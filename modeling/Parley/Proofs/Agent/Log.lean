import Parley.Agent.Step

/-!
# Views of a log

Every view of a log is taken step by step, so that the view of two logs one behind the other is the
two views one behind the other.  Beside the views of a turn there are two more that statements about
turns need: the calls that are held (`heldCalls`), and what becomes of the call at a place
(`fatesAt`).
-/

namespace Parley.Agent

open Chat (Arguments Event Message ToolCall)

/-! ### What a log says about calls -/

/-- The call that a step takes up, with its place. -/
def Step.taken? : Step → Option (Place × ToolCall)
  | .settled place call _ | .held place call => some (place, call)
  | _ => none

/-- The call that is held in a step, with its place. -/
def Step.held? : Step → Option (Place × ToolCall)
  | .held place call => some (place, call)
  | _ => none

/-- What becomes of the call at a place in a step. -/
def Step.fateAt? (place : Place) : Step → Option Fate
  | .settled p _ fate => if p = place then some fate else none
  | _ => none

/-- The tool message that a step records for the call at a place. -/
def Step.resultAt? (place : Place) : Step → Option Message
  | .settled p call fate => if p = place then some (result call fate) else none
  | _ => none

/-- The arguments that a tool receives. -/
def Fate.arguments? : Fate → Option Arguments
  | .ran arguments _ => some arguments
  | _ => none

/-- The calls that are held, with their places. -/
def heldCalls (log : List Step) : List (Place × ToolCall) := log.filterMap Step.held?

/-- What becomes of the call at a place. -/
def fatesAt (place : Place) (log : List Step) : List Fate := log.filterMap (Step.fateAt? place)

/-- The tool messages that are recorded for the call at a place. -/
def resultsAt (place : Place) (log : List Step) : List Message :=
  log.filterMap (Step.resultAt? place)

/-- The arguments that a tool receives for the call at a place, each time it is invoked. -/
def invocationsAt (place : Place) (log : List Step) : List Arguments :=
  (fatesAt place log).filterMap Fate.arguments?

/-! ### Logs one behind the other -/

@[simp] theorem messages_nil : messages [] = [] := rfl

@[simp] theorem messages_append (l₁ l₂ : List Step) :
    messages (l₁ ++ l₂) = messages l₁ ++ messages l₂ := List.filterMap_append

theorem messages_cons (s : Step) (log : List Step) :
    messages (s :: log) = s.message?.toList ++ messages log := by
  cases h : s.message? <;> simp [messages, h]

@[simp] theorem histories_nil : histories [] = [] := rfl

@[simp] theorem histories_append (l₁ l₂ : List Step) :
    histories (l₁ ++ l₂) = histories l₁ ++ histories l₂ := List.filterMap_append

theorem histories_cons (s : Step) (log : List Step) :
    histories (s :: log) = s.history?.toList ++ histories log := by
  cases h : s.history? <;> simp [histories, h]

@[simp] theorem invocations_append (l₁ l₂ : List Step) :
    invocations (l₁ ++ l₂) = invocations l₁ ++ invocations l₂ := List.filterMap_append

@[simp] theorem heldCalls_nil : heldCalls [] = [] := rfl

@[simp] theorem heldCalls_append (l₁ l₂ : List Step) :
    heldCalls (l₁ ++ l₂) = heldCalls l₁ ++ heldCalls l₂ := List.filterMap_append

theorem heldCalls_cons (s : Step) (log : List Step) :
    heldCalls (s :: log) = s.held?.toList ++ heldCalls log := by
  cases h : s.held? <;> simp [heldCalls, h]

@[simp] theorem fatesAt_nil (place : Place) : fatesAt place [] = [] := rfl

@[simp] theorem fatesAt_append (place : Place) (l₁ l₂ : List Step) :
    fatesAt place (l₁ ++ l₂) = fatesAt place l₁ ++ fatesAt place l₂ := List.filterMap_append

theorem fatesAt_cons (place : Place) (s : Step) (log : List Step) :
    fatesAt place (s :: log) = (s.fateAt? place).toList ++ fatesAt place log := by
  cases h : s.fateAt? place <;> simp [fatesAt, h]

theorem resultsAt_cons (place : Place) (s : Step) (log : List Step) :
    resultsAt place (s :: log) = (s.resultAt? place).toList ++ resultsAt place log := by
  cases h : s.resultAt? place <;> simp [resultsAt, h]

/-- A result is recorded whenever a call is settled. -/
theorem length_resultsAt (place : Place) (log : List Step) :
    (resultsAt place log).length = (fatesAt place log).length := by
  induction log with
  | nil => rfl
  | cons s rest ih =>
    have hstep : (s.resultAt? place).toList.length = (s.fateAt? place).toList.length := by
      cases s with
      | settled p call fate =>
        simp only [Step.resultAt?, Step.fateAt?]
        split <;> rfl
      | _ => rfl
    rw [resultsAt_cons, fatesAt_cons, List.length_append, List.length_append, hstep, ih]

@[simp] theorem events_nil : events [] = [] := rfl

@[simp] theorem events_append (l₁ l₂ : List Step) : events (l₁ ++ l₂) = events l₁ ++ events l₂ :=
  List.flatMap_append

@[simp] theorem events_cons (s : Step) (log : List Step) :
    events (s :: log) = s.events ++ events log :=
  rfl

@[simp] theorem items_nil : items [] = [] := rfl

@[simp] theorem items_append (l₁ l₂ : List Step) : items (l₁ ++ l₂) = items l₁ ++ items l₂ :=
  List.flatMap_append

@[simp] theorem items_cons (s : Step) (log : List Step) : items (s :: log) = s.items ++ items log :=
  rfl

/-- A client hears `done` when the turn is finished. -/
theorem done_mem_events_iff {produced : List Message} {pending? : Option (List Chat.PendingCall)}
    {log : List Step} :
    .done produced pending? ∈ events log ↔ .finished produced pending? ∈ log := by
  rw [events, List.mem_flatMap]
  constructor
  · rintro ⟨s, hs, hevent⟩
    cases s <;> simp [Step.events] at hevent
    obtain ⟨rfl, rfl⟩ := hevent
    exact hs
  · intro h
    exact ⟨_, h, List.mem_singleton_self _⟩

/-- A step that stands in a log and not in its second part stands in the first part. -/
theorem exists_eq_append_cons_of_not_mem {l₁ l₂ before after : List Step} {s : Step}
    (h : l₁ ++ l₂ = before ++ s :: after) (hs : s ∉ l₂) : ∃ rest, l₁ = before ++ s :: rest := by
  rcases List.append_eq_append_iff.mp h with ⟨between, -, htail⟩ | ⟨rest, hhead, htail⟩
  · refine absurd ?_ hs
    rw [htail]
    exact List.mem_append_right _ List.mem_cons_self
  · cases rest with
    | nil =>
      refine absurd ?_ hs
      rw [List.nil_append] at htail
      rw [← htail]
      exact List.mem_cons_self
    | cons x rest =>
      rw [List.cons_append, List.cons.injEq] at htail
      exact ⟨rest, by rw [hhead, htail.1]⟩

/-- A step that stands in a log and not in its first part stands in the second part. -/
theorem exists_eq_append_of_not_mem {l₁ l₂ before after : List Step} {s : Step}
    (h : l₁ ++ l₂ = before ++ s :: after) (hs : s ∉ l₁) :
    ∃ rest, before = l₁ ++ rest ∧ l₂ = rest ++ s :: after := by
  rcases List.append_eq_append_iff.mp h with ⟨rest, hbefore, hl₂⟩ | ⟨between, hl₁, htail⟩
  · exact ⟨rest, hbefore, hl₂⟩
  · cases between with
    | nil =>
      rw [List.append_nil] at hl₁
      exact ⟨[], by rw [hl₁, List.append_nil], htail.symm⟩
    | cons x between =>
      rw [List.cons_append, List.cons.injEq] at htail
      refine absurd ?_ hs
      rw [hl₁, htail.1]
      exact List.mem_append_right _ List.mem_cons_self

/-- A log in which the model is not asked has no step that asks it. -/
theorem asked_not_mem {log : List Step} (h : histories log = []) {id : String}
    {history : List Message} : .asked id history ∉ log := by
  intro hmem
  have hnone := List.filterMap_eq_nil_iff.mp h _ hmem
  cases hnone

/-! ### Pieces of text

While the model speaks, nothing is recorded, asked, held or settled. -/

section Heard

variable (id : String) (deltas : List String)

@[simp] theorem messages_heard : messages (deltas.map (.heard id)) = [] := by
  simp [messages, Step.message?]

@[simp] theorem histories_heard : histories (deltas.map (.heard id)) = [] := by
  simp [histories, Step.history?]

@[simp] theorem heldCalls_heard : heldCalls (deltas.map (.heard id)) = [] := by
  simp [heldCalls, Step.held?]

end Heard

end Parley.Agent
