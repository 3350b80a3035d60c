import Parley.Proofs.Agent.Asking
import Parley.Proofs.Agent.Protocol
import Parley.Proofs.Agent.Sample

/-!
# What events tell of the history

A turn keeps three accounts of what is said: the history that the model is given, the messages that
`done` tells of, and the messages that the client hears one by one.  They agree at every point of a
turn (`history_eq_carried`): the history is the prompt, the conversation of the request and what the
events so far carry (`carried`), and `done` tells of everything that was carried.  So nothing that
stands in the history is touched again, and a client that only listens knows it.

The conversation of the request is taken over with unique call ids and otherwise as it is
(`sameButIds_normalizeIds`).
-/

namespace Parley.Agent

open Chat (Event Message PendingCall)
open Chat.Message (SameButIds sameButIds_normalizeIds)

/-! ### Messages in events -/

/-- The message that an event carries: what the assistant said or what a tool returned. -/
def carried? : Event → Option Message
  | .assistantEnd _ m | .toolEnd _ _ m => some m
  | _ => none

/-- The messages that events carry, in the order of the events. -/
def carried (heard : List Event) : List Message := heard.filterMap carried?

theorem carried_append (l₁ l₂ : List Event) : carried (l₁ ++ l₂) = carried l₁ ++ carried l₂ :=
  List.filterMap_append

/-- What a client hears of a step carries the message that the step records. -/
theorem carried_step (s : Step) : carried s.events = s.message?.toList := by
  cases s <;> rfl

/-- What is recorded is carried, in the same order. -/
theorem carried_events (log : List Step) : carried (events log) = messages log := by
  induction log with
  | nil => rfl
  | cons s rest ih => rw [events_cons, carried_append, carried_step, ih, messages_cons]

variable {σ : Type} {a : Agent σ} {mode : Mode} {ids : Nat → String} {request : Request} {world : σ}

/-! ### The history -/

/-- The model is given what the turn began with and what it has recorded since. -/
theorem history_eq_of_asked {before after : List Step} {id : String} {history : List Message}
    (hlog : (a.play mode ids request world).log = before ++ .asked id history :: after) :
    history = (a.start request world).history ++ messages before := by
  obtain ⟨asked, t, rfl, hleads, rfl⟩ := exists_leadsTo_of_asked hlog
  exact ((advances_resolve a request world).trans hleads.advances).history

/-- A turn that is told by its events ends with what they carried. -/
theorem exists_events_eq_done (a : Agent σ) (ids : Nat → String) (request : Request) (world : σ) :
    ∃ before pending?, (a.play .streamed ids request world).events =
      before ++ [.done (carried (a.play .streamed ids request world).events) pending?] := by
  obtain ⟨asked, t, broken?, -, -, hevents⟩ := events_play_streamed a ids request world
  have hdone : .done (conclude .streamed t broken?).2.produced t.pending? ∈
      events (a.play .streamed ids request world).log := by
    show _ ∈ (a.play .streamed ids request world).events
    rw [hevents]
    exact List.mem_append_right _ List.mem_cons_self
  have hproduced : (conclude .streamed t broken?).2.produced =
      carried (a.play .streamed ids request world).events := by
    rw [Played.events, carried_events]
    exact (finished_of_mem_play (done_mem_events_iff.mp hdone)).1
  rw [hproduced] at hevents
  exact ⟨_, _, hevents⟩

/-- **The events tell the history.**  Whenever the model is asked, it is given the prompt, the
conversation of the request, changed in nothing but ids of calls, and the messages that the events
so far carry.  What it is given later, and what the turn leaves, begins with that and goes on with
what is carried in between.  `done` tells of the messages that all events carry, and a turn that is
told by its events ends with it. -/
theorem history_eq_carried (a : Agent σ) (mode : Mode) (ids : Nat → String) (request : Request)
    (world : σ) :
    (∀ before id history after,
      (a.play mode ids request world).log = before ++ .asked id history :: after →
      history = .system (Prompt.system a.registry.catalogue request.currentPath?) ::
        (request.messages.map Message.normalizeIds ++ carried (events before)) ∧
      (∀ between id' history' after', after = between ++ .asked id' history' :: after' →
        history' = history ++ carried (events between)) ∧
      (a.play mode ids request world).last.history = history ++ carried (events after)) ∧
    List.Forall₂ SameButIds request.messages (request.messages.map Message.normalizeIds) ∧
    (a.play mode ids request world).last.history =
      .system (Prompt.system a.registry.catalogue request.currentPath?) ::
        (request.messages.map Message.normalizeIds ++
          carried (a.play mode ids request world).events) ∧
    (∀ produced pending?, .done produced pending? ∈ (a.play mode ids request world).events →
      produced = carried (a.play mode ids request world).events) ∧
    ∃ before pending?, (a.play .streamed ids request world).events =
      before ++ [.done (carried (a.play .streamed ids request world).events) pending?] := by
  have hlast : (a.play mode ids request world).last.history =
      (a.start request world).history ++ messages (a.play mode ids request world).log :=
    (advances_play a mode ids request world).history
  refine ⟨?_, ?_, ?_, ?_, exists_events_eq_done a ids request world⟩
  · intro before id history after hlog
    have hhistory := history_eq_of_asked hlog
    -- what was carried before a later point was carried before this one or in between
    refine ⟨?_, ?_, ?_⟩
    · rw [hhistory, carried_events]
      rfl
    · intro between id' history' after' hafter
      have hsplit : before ++ .asked id history :: (between ++ .asked id' history' :: after') =
          (before ++ .asked id history :: between) ++ .asked id' history' :: after' := by
        rw [List.append_assoc, List.cons_append]
      rw [hafter, hsplit] at hlog
      rw [history_eq_of_asked hlog, hhistory, carried_events, messages_append, messages_cons,
        List.append_assoc]
      rfl
    · rw [hlast, hlog, hhistory, carried_events, messages_append, messages_cons, List.append_assoc]
      rfl
  · rw [List.forall₂_map_right_iff]
    exact List.forall₂_same.mpr fun m _ => sameButIds_normalizeIds m
  · rw [hlast, Played.events, carried_events]
    rfl
  · intro produced pending? hdone
    rw [Played.events, carried_events]
    exact (finished_of_mem_play (done_mem_events_iff.mp hdone)).1

/-- A request whose conversation has a call without an id. -/
def listingRequest : Request where
  messages := [Sample.calling [Sample.call "" "ls"], .tool "call_0" "[]"]

/-- What the model says in two rounds: it calls `ls`, and then it is done. -/
def listingScript : List Message := [Sample.calling [Sample.call "c1" "ls"], .assistant]

/-- The second time the model is given its own call and the result, which the client has heard. -/
theorem history_eq_carried_ls :
    ∃ before history after,
      (Sample.agent.play .streamed (fun _ => "a0") listingRequest listingScript).log =
        before ++ .asked "a0" history :: after ∧
      before ≠ [] ∧ (events before).length = 4 ∧
      history = .system (Prompt.system Sample.agent.registry.catalogue none) ::
        ([Sample.calling [Sample.call "call_0" "ls"], .tool "call_0" "[]"] ++
          carried (events before)) := by
  have hlog : (Sample.agent.play .streamed (fun _ => "a0") listingRequest listingScript).log =
      (Sample.agent.play .streamed (fun _ => "a0") listingRequest listingScript).log.take 3 ++
        .asked "a0" ((Sample.agent.start listingRequest listingScript).history ++
          [Sample.calling [Sample.call "c1" "ls"],
            Step.result (Sample.call "c1" "ls") (.ran [] (.ok (.entries "" [])))]) ::
        (Sample.agent.play .streamed (fun _ => "a0") listingRequest listingScript).log.drop 4 := rfl
  obtain ⟨hhistory, -⟩ := (history_eq_carried Sample.agent .streamed (fun _ => "a0") listingRequest
    listingScript).1 _ _ _ _ hlog
  exact ⟨_, _, _, hlog, List.cons_ne_nil _ _, rfl, hhistory⟩

end Parley.Agent
