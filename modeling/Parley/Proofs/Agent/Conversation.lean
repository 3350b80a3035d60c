import Mathlib.Data.List.Chain
import Parley.Proofs.Agent.Place
import Parley.Proofs.Agent.Sample

/-!
# Calls over a whole conversation

A conversation goes on from turn to turn: the client hands back what it sent before, with what the
turn added to it, and may say more (`Continues`).  Nothing is kept between turns but this.

* `length_fatesAt_le_one`: in one turn a call is settled at most once.
* `settled_at_most_once`: so it is over all turns of a conversation, with any agents, decisions of
  the client and answers of the model.

A call is taken up only while it is open (`takesOpen_play`), and its result answers it.  Histories
only grow and their ids stay as they are, so that the call stays answered in every later turn
(`GoesOn.isAnswered`).
-/

namespace Parley.Agent

open Chat (Event Message PendingCall ToolCall)
open Chat.Message (HasUniqueIds normalizeIds_eq_self)

/-! ### One turn -/

section

variable {history : List Message} {log : List Step} {place : Place}

/-- An answered call is not settled. -/
theorem fatesAt_eq_nil (h : TakesOpen history log) (hanswered : IsAnswered history place) :
    fatesAt place log = [] := by
  induction log generalizing history with
  | nil => rfl
  | cons s rest ih =>
    obtain ⟨hopen, hrest⟩ := h
    rw [fatesAt_cons, ih hrest (hanswered.append _), List.append_nil]
    cases s with
    | settled p call fate =>
      have hne : p ≠ place := by
        rintro rfl
        exact (hopen p call rfl).not_isAnswered hanswered
      simp [Step.fateAt?, hne]
    | _ => rfl

/-- A settled call is answered, and its place is where the log says. -/
theorem isAnswered_of_mem (h : TakesOpen history log) {call : ToolCall} {fate : Fate}
    (hmem : .settled place call fate ∈ log) :
    IsAnswered (history ++ messages log) place ∧
      callAt? (history ++ messages log) place = some call := by
  induction log generalizing history with
  | nil => exact absurd hmem List.not_mem_nil
  | cons s rest ih =>
    obtain ⟨hopen, hrest⟩ := h
    rw [messages_cons, ← List.append_assoc]
    rcases List.mem_cons.mp hmem with rfl | hmem
    · have hopen := hopen place call rfl
      exact ⟨(hopen.isAnswered_result fate).append _,
        callAt?_append (callAt?_append hopen.callAt _) _⟩
    · exact ih hrest hmem

theorem exists_mem_of_fatesAt_ne_nil (h : fatesAt place log ≠ []) :
    ∃ call fate, .settled place call fate ∈ log := by
  obtain ⟨fate, hfate⟩ := List.exists_mem_of_ne_nil _ h
  obtain ⟨s, hs, hfate⟩ := List.mem_filterMap.mp hfate
  cases s with
  | settled p call fate' =>
    rw [Step.fateAt?] at hfate
    split at hfate
    · rename_i hp
      exact ⟨call, fate', hp ▸ hs⟩
    · cases hfate
  | _ => cases hfate

/-- **At most once in a turn.** -/
theorem length_fatesAt_le_one (h : TakesOpen history log) : (fatesAt place log).length ≤ 1 := by
  induction log generalizing history with
  | nil => exact Nat.zero_le 1
  | cons s rest ih =>
    obtain ⟨hopen, hrest⟩ := h
    rw [fatesAt_cons, List.length_append]
    cases s with
    | settled p call fate =>
      by_cases hp : p = place
      · subst hp
        have hanswered := (hopen p call rfl).isAnswered_result fate
        rw [fatesAt_eq_nil hrest hanswered]
        simp [Step.fateAt?]
      · simpa [Step.fateAt?, hp] using ih hrest
    | _ => simpa [Step.fateAt?] using ih hrest

end

/-! ### From turn to turn -/

/-- Whether a history goes on from another one, under a prompt of its own. -/
def GoesOn (history history' : List Message) : Prop :=
  ∃ prompt prompt' rest more, prompt.toolCalls = [] ∧ prompt'.toolCalls = [] ∧
    history = prompt :: rest ∧ history' = prompt' :: (rest ++ more)

namespace GoesOn

variable {history history' : List Message} {place : Place} {call : ToolCall}

/-- A call keeps its place. -/
theorem callAt? (h : GoesOn history history') (hcall : callAt? history place = some call) :
    Agent.callAt? history' place = some call := by
  obtain ⟨prompt, prompt', rest, more, hprompt, -, rfl, rfl⟩ := h
  obtain ⟨n, i⟩ := place
  cases n with
  | zero =>
    have hnone : prompt.toolCalls[i]? = some call := hcall
    rw [hprompt] at hnone
    cases hnone
  | succ n =>
    have hrest : Agent.callAt? rest ⟨n, i⟩ = some call := hcall
    exact callAt?_append hrest more

/-- A call stays answered. -/
theorem isAnswered (h : GoesOn history history') (hanswered : IsAnswered history place) :
    IsAnswered history' place := by
  obtain ⟨call, hcall, hid⟩ := hanswered
  refine ⟨call, h.callAt? hcall, ?_⟩
  obtain ⟨prompt, prompt', rest, more, hprompt, -, rfl, rfl⟩ := h
  obtain ⟨n, i⟩ := place
  cases n with
  | zero =>
    have hnone : prompt.toolCalls[i]? = some call := hcall
    rw [hprompt] at hnone
    cases hnone
  | succ n =>
    have hrest : Agent.callAt? rest ⟨n, i⟩ = some call := hcall
    have hlt : n < rest.length := lt_length_of_callAt? hrest
    have hbehind : answeredBehind (rest ++ more) n = answeredBehind rest n ++ answeredIds more :=
      answeredBehind_append hlt more
    have hmem : call.id ∈ answeredBehind rest n := hid
    show call.id ∈ answeredBehind (rest ++ more) n
    rw [hbehind]
    exact List.mem_append_left _ hmem

end GoesOn

/-- A turn with everything that it was given. -/
structure Visit (σ : Type) where
  /-- The agent. -/
  agent : Agent σ
  /-- How the turn is told. -/
  mode : Mode
  /-- The ids of the messages that the model is asked for. -/
  ids : Nat → String
  /-- What the client submits. -/
  request : Request
  /-- What model and tools work on. -/
  world : σ

variable {σ : Type}

namespace Visit

/-- The state that the turn begins with. -/
def start (v : Visit σ) : Turn σ := v.agent.start v.request v.world

/-- The turn, played. -/
def played (v : Visit σ) : Played σ := v.agent.play v.mode v.ids v.request v.world

theorem history_last (v : Visit σ) :
    v.played.last.history = v.start.history ++ messages v.played.log :=
  (advances_play v.agent v.mode v.ids v.request v.world).history

theorem takesOpen (v : Visit σ) : TakesOpen v.start.history v.played.log :=
  takesOpen_play v.agent v.mode v.ids v.request v.world

end Visit

/-- Whether a turn continues the conversation of another one, which told that it was over: the
client hands back what it submitted then and what the turn added, and may say more. -/
def Continues (v w : Visit σ) : Prop :=
  ∃ produced pending? remarks, .done produced pending? ∈ v.played.events ∧
    w.request.messages = v.request.messages ++ produced ++ remarks

/-- What a turn says needs no other ids. -/
theorem hasUniqueIds_of_mem_messages {a : Agent σ} {mode : Mode} {ids : Nat → String}
    {request : Request} {world : σ} {m : Message}
    (h : m ∈ messages (a.play mode ids request world).log) : HasUniqueIds m.toolCalls := by
  have hnone : HasUniqueIds [] := ⟨List.nodup_nil, List.forall_mem_nil _⟩
  have htaking : ∀ {o t s t'}, Taking a request.autoExecute o t s t' → s.message? = some m →
      HasUniqueIds m.toolCalls := by
    intro o t s t' taking hm
    cases taking with
    | held => cases hm
    | canceled => exact Option.some.inj hm ▸ hnone
    | ran => exact Option.some.inj hm ▸ hnone
  obtain ⟨s, hs, hm⟩ := List.mem_filterMap.mp h
  cases ofTurn_play hs with
  | resolved taking => exact htaking taking hm
  | round hround =>
    cases hround with
    | asked => cases hm
    | heard => cases hm
    | failed => cases hm
    | said _ hunique => exact Option.some.inj hm ▸ hunique
    | taken _ taking => exact htaking taking hm
  | paused => cases hm
  | apology => exact Option.some.inj hm ▸ hnone
  | finished => cases hm

/-- **Nothing drifts.**  What a turn tells of when it is over needs no other ids. -/
theorem map_normalizeIds_produced {v : Visit σ} {produced : List Message}
    {pending? : Option (List PendingCall)} (h : .done produced pending? ∈ v.played.events) :
    produced.map Message.normalizeIds = produced := by
  have hid : produced.map Message.normalizeIds = produced.map id := by
    apply List.map_congr_left
    intro m hm
    rw [(finished_of_mem_play (done_mem_events_iff.mp h)).1] at hm
    exact normalizeIds_eq_self (hasUniqueIds_of_mem_messages hm)
  rw [hid, List.map_id]

/-- The conversation that a turn is given goes on from the one that the turn before it left. -/
theorem Continues.goesOn {v w : Visit σ} (h : Continues v w) :
    GoesOn v.played.last.history w.start.history := by
  obtain ⟨produced, pending?, remarks, hdone, hrequest⟩ := h
  refine ⟨.system (Prompt.system v.agent.registry.catalogue v.request.currentPath?),
    .system (Prompt.system w.agent.registry.catalogue w.request.currentPath?),
    v.request.messages.map Message.normalizeIds ++ produced, remarks.map Message.normalizeIds,
    rfl, rfl, ?_, ?_⟩
  · rw [v.history_last, (finished_of_mem_play (done_mem_events_iff.mp hdone)).1]
    rfl
  · show _ :: w.request.messages.map Message.normalizeIds = _
    rw [hrequest, List.map_append, List.map_append, map_normalizeIds_produced hdone]

/-! ### A whole conversation -/

/-- Everything that happens in some turns. -/
def logOf (visits : List (Visit σ)) : List Step := visits.flatMap (·.played.log)

theorem logOf_cons (v : Visit σ) (rest : List (Visit σ)) :
    logOf (v :: rest) = v.played.log ++ logOf rest := rfl

/-- A call is settled at most once, and not at all when the conversation begins with its answer. -/
theorem length_fatesAt_logOf {visits : List (Visit σ)} (h : visits.IsChain Continues)
    (place : Place) :
    (fatesAt place (logOf visits)).length ≤ 1 ∧
      ∀ v ∈ visits.head?, IsAnswered v.start.history place → fatesAt place (logOf visits) = [] := by
  induction visits with
  | nil => exact ⟨Nat.zero_le 1, fun _ h => by cases h⟩
  | cons v rest ih =>
    obtain ⟨hnext, hrest⟩ := List.isChain_cons.mp h
    obtain ⟨hle, hanswered⟩ := ih hrest
    -- an answer that this turn leaves reaches all later turns
    have hlater : IsAnswered v.played.last.history place → fatesAt place (logOf rest) = [] := by
      intro hlast
      cases rest with
      | nil => rfl
      | cons w rest => exact hanswered w rfl ((hnext w rfl).goesOn.isAnswered hlast)
    rw [logOf_cons, fatesAt_append]
    constructor
    · by_cases hfates : fatesAt place v.played.log = []
      · rw [hfates]
        exact hle
      · obtain ⟨call, fate, hmem⟩ := exists_mem_of_fatesAt_ne_nil hfates
        have hlast := (isAnswered_of_mem v.takesOpen hmem).1
        rw [← v.history_last] at hlast
        rw [hlater hlast, List.append_nil]
        exact length_fatesAt_le_one v.takesOpen
    · intro v' hv' hfirst
      obtain rfl : v = v' := Option.some.inj hv'
      have hlast : IsAnswered v.played.last.history place := by
        rw [v.history_last]
        exact hfirst.append _
      rw [fatesAt_eq_nil v.takesOpen hfirst, hlater hlast]
      rfl

/-- A call that stands at a place stands there in the end. -/
theorem callAt?_getLast? {v : Visit σ} {rest : List (Visit σ)} (h : (v :: rest).IsChain Continues)
    {place : Place} {call : ToolCall} (hcall : callAt? v.played.last.history place = some call) :
    ∀ w ∈ (v :: rest).getLast?, callAt? w.played.last.history place = some call := by
  induction rest generalizing v with
  | nil =>
    intro w hw
    obtain rfl : v = w := Option.some.inj hw
    exact hcall
  | cons w rest ih =>
    obtain ⟨hnext, hrest⟩ := List.isChain_cons_cons.mp h
    have hlast : callAt? w.played.last.history place = some call := by
      rw [w.history_last]
      exact callAt?_append (hnext.goesOn.callAt? hcall) _
    rw [List.getLast?_cons_cons]
    exact ih hrest hlast

/-- A settled call stands at its place in the conversation that the last turn leaves. -/
theorem callAt?_of_mem_logOf {visits : List (Visit σ)} (h : visits.IsChain Continues)
    {place : Place} {call : ToolCall} {fate : Fate}
    (hmem : .settled place call fate ∈ logOf visits) :
    ∀ w ∈ visits.getLast?, callAt? w.played.last.history place = some call := by
  induction visits with
  | nil => exact absurd hmem List.not_mem_nil
  | cons v rest ih =>
    rw [logOf_cons] at hmem
    rcases List.mem_append.mp hmem with hmem | hmem
    · have hcall := (isAnswered_of_mem v.takesOpen hmem).2
      rw [← v.history_last] at hcall
      exact callAt?_getLast? h hcall
    · cases rest with
      | nil => exact absurd hmem List.not_mem_nil
      | cons w rest =>
        rw [List.getLast?_cons_cons]
        exact ih (List.isChain_cons_cons.mp h).2 hmem

/-- **At most once over a conversation.**  However many turns a conversation has, whatever agents
play them, whatever the client decides in each and whatever the models answer, the call at a place
reaches its tool at most once, gets at most one result, and is not both canceled and run.  The place
stands for one call: the one that is found there in the end. -/
theorem settled_at_most_once {visits : List (Visit σ)} (h : visits.IsChain Continues)
    (place : Place) :
    (invocationsAt place (logOf visits)).length ≤ 1 ∧
      (resultsAt place (logOf visits)).length ≤ 1 ∧
      ¬ (.canceled ∈ fatesAt place (logOf visits) ∧
        ∃ fate ∈ fatesAt place (logOf visits), fate ≠ .canceled) ∧
      ∀ call fate, .settled place call fate ∈ logOf visits →
        ∀ w ∈ visits.getLast?, callAt? w.played.last.history place = some call := by
  have hle := (length_fatesAt_logOf h place).1
  refine ⟨?_, ?_, ?_, fun call fate hmem => callAt?_of_mem_logOf h hmem⟩
  · exact Nat.le_trans (List.length_filterMap_le ..) hle
  · rw [length_resultsAt]
    exact hle
  · rintro ⟨hcanceled, fate, hfate, hne⟩
    obtain ⟨only, honly⟩ := List.length_eq_one_iff.mp
      (Nat.le_antisymm hle (List.length_pos_of_mem hcanceled))
    rw [honly, List.mem_singleton] at hcanceled hfate
    exact hne (hfate.trans hcanceled.symm)

/-- A turn in which the model calls `ls`, which runs, and `rm`, which is held. -/
def callingVisit : Visit (List Message) where
  agent := Sample.agent
  mode := .streamed
  ids _ := "a0"
  request := { messages := [Message.user.withText "clean up"] }
  world := [Sample.calling [Sample.call "c1" "ls", Sample.call "" "rm"]]

/-- The turn after a turn, in which the client approves the call that has the generated id. -/
def approvingVisit (v : Visit (List Message)) : Visit (List Message) where
  agent := Sample.agent
  mode := .whole
  ids _ := "a0"
  request := { messages := v.request.messages ++ v.played.last.produced, approved := ["call_1"] }
  world := []

/-- However often the client approves it, `rm` is invoked once. -/
theorem settled_at_most_once_rm :
    [callingVisit, approvingVisit callingVisit,
        approvingVisit (approvingVisit callingVisit)].IsChain Continues ∧
      invocationsAt ⟨2, 1⟩ (logOf [callingVisit, approvingVisit callingVisit,
        approvingVisit (approvingVisit callingVisit)]) = [[]] ∧
      (invocationsAt ⟨2, 1⟩ (logOf [callingVisit, approvingVisit callingVisit,
        approvingVisit (approvingVisit callingVisit)])).length ≤ 1 := by
  have hcontinues : ∀ v : Visit (List Message),
      v.played.log.getLast? = some (.finished v.played.last.produced v.played.last.pending?) →
      Continues v (approvingVisit v) := by
    intro v h
    refine ⟨_, _, [], done_mem_events_iff.mpr (List.mem_of_getLast? h), ?_⟩
    exact (List.append_nil _).symm
  have hchain : [callingVisit, approvingVisit callingVisit,
      approvingVisit (approvingVisit callingVisit)].IsChain Continues :=
    List.isChain_cons_cons.mpr ⟨hcontinues _ rfl,
      List.isChain_cons_cons.mpr ⟨hcontinues _ rfl, List.isChain_singleton _⟩⟩
  exact ⟨hchain, rfl, (settled_at_most_once hchain ⟨2, 1⟩).1⟩

end Parley.Agent
