import Parley.Proofs.Agent.Conversation
import Parley.Proofs.Agent.Waiting

/-!
# Decisions about waiting calls

A turn that ends with calls that wait is followed up when the client hands back the conversation
with its decisions (`FollowsUp`).  The follow-up takes up exactly the calls that were shown, in
their order, and does about each what was decided (`Deciding`); the ones about which nothing was
decided go on waiting (`pending_decided`).

This holds as long as the calls stand in a message of the assistant.  The calls of a message that a
model gives in another role are shown as well, but nobody finds them open later
(`not_pending_again_of_user`).
-/

namespace Parley.Agent

open Chat (Arguments Message PendingCall ToolCall)

/-! ### The arguments that are shown -/

/-- Whether a text reads as arguments: blank text as none, and any other text as the object that it
is. -/
def ReadsAs (text : String) (arguments : Arguments) : Prop :=
  if Text.allBlank text then arguments = [] else Json.parse text = .ok (.obj arguments)

theorem readsAs_of_parseArguments {call : ToolCall} {arguments : Arguments}
    (h : call.parseArguments = .ok arguments) : ReadsAs call.arguments arguments := by
  unfold ToolCall.parseArguments at h
  unfold ReadsAs
  split at h
  · rename_i hblank
    rw [if_pos hblank]
    exact (Except.ok.inj h).symm
  · rename_i hblank
    rw [if_neg hblank]
    split at h
    · rename_i hparse
      rw [hparse, Except.ok.inj h]
    · cases h
    · cases h

theorem not_readsAs_of_parseArguments {call : ToolCall} {e : Chat.ToolError}
    (h : call.parseArguments = .error e) (arguments : Arguments) :
    ¬ ReadsAs call.arguments arguments := by
  unfold ToolCall.parseArguments at h
  unfold ReadsAs
  split at h
  · cases h
  · rename_i hblank
    rw [if_neg hblank]
    split at h
    · cases h
    · rename_i hother hparse
      rw [hparse]
      intro hobj
      exact hother _ (Except.ok.inj hobj)
    · rename_i hparse
      rw [hparse]
      intro hobj
      cases hobj

/-- A text reads as arguments when its call has them. -/
theorem readsAs_iff {call : ToolCall} {arguments : Arguments} :
    ReadsAs call.arguments arguments ↔ call.parseArguments = .ok arguments := by
  refine ⟨fun h => ?_, readsAs_of_parseArguments⟩
  cases hparse : call.parseArguments with
  | error e => exact absurd h (not_readsAs_of_parseArguments hparse arguments)
  | ok arguments' =>
    have h' := readsAs_of_parseArguments hparse
    unfold ReadsAs at h h'
    split at h
    · rename_i hblank
      rw [if_pos hblank] at h'
      rw [h, h']
    · rename_i hblank
      rw [if_neg hblank, h] at h'
      cases h'
      rfl

/-- A call is shown with the arguments that its tool would receive. -/
theorem arguments_ofCall {call : ToolCall} {arguments : Arguments}
    (h : call.parseArguments = .ok arguments) :
    (PendingCall.ofCall call).arguments = .obj arguments := by
  rw [PendingCall.ofCall, ToolCall.argumentsOrEmpty, h]

/-- A call whose arguments cannot be read is shown without any. -/
theorem arguments_ofCall_of_error {call : ToolCall} {e : Chat.ToolError}
    (h : call.parseArguments = .error e) : (PendingCall.ofCall call).arguments = .obj [] := by
  rw [PendingCall.ofCall, ToolCall.argumentsOrEmpty, h]

/-! ### What is decided -/

/-- **Decisions.**  A rejected call is canceled, one that is only approved runs, and any other
waits. -/
theorem decision_iff (request : Request) (call : ToolCall) :
    (decision request call = .cancel ↔ call.id ∈ request.rejected) ∧
      (decision request call = .execute ↔
        call.id ∉ request.rejected ∧ call.id ∈ request.approved) ∧
      (decision request call = .dispatch ↔
        call.id ∉ request.rejected ∧ call.id ∉ request.approved) := by
  unfold decision
  by_cases hrejected : call.id ∈ request.rejected
  · simp [hrejected]
  · by_cases happroved : call.id ∈ request.approved
    · simp [hrejected, happroved]
    · simp [hrejected, happroved]

/-- Whether the client left it open what is to be done about a call. -/
def isUndecided (request : Request) (p : PendingCall) : Bool :=
  !request.rejected.contains p.id && !request.approved.contains p.id

/-- How a turn takes up calls that wait, one after the other, each as the client decided: the steps,
and the surroundings before and after. -/
inductive Deciding {σ : Type} (registry : Registry σ) (request : Request) :
    List (Place × ToolCall) → σ → List Step → σ → Prop where
  /-- No call is left. -/
  | nil (world : σ) : Deciding registry request [] world [] world
  /-- A rejected call is canceled. -/
  | canceled {place : Place} {call : ToolCall} {rest : List (Place × ToolCall)} {world world' : σ}
    {steps : List Step} (hrejected : call.id ∈ request.rejected)
    (more : Deciding registry request rest world steps world') :
    Deciding registry request ((place, call) :: rest) world
      (.settled place call .canceled :: steps) world'
  /-- The tool of an approved call receives the arguments that were shown. -/
  | ran {place : Place} {call : ToolCall} {rest : List (Place × ToolCall)} {world world' : σ}
    {steps : List Step} {tool : Tool σ} {arguments : Arguments}
    (hrejected : call.id ∉ request.rejected) (happroved : call.id ∈ request.approved)
    (htool : registry.lookup call.name = some tool) (hread : ReadsAs call.arguments arguments)
    (hshown : (PendingCall.ofCall call).arguments = .obj arguments)
    (more : Deciding registry request rest (tool.handler arguments world).2 steps world') :
    Deciding registry request ((place, call) :: rest) world
      (.settled place call (.ran arguments (tool.handler arguments world).1) :: steps) world'
  /-- An approved call whose arguments cannot be read was shown without any, and reaches no tool. -/
  | refused {place : Place} {call : ToolCall} {rest : List (Place × ToolCall)} {world world' : σ}
    {steps : List Step} {e : Chat.ToolError}
    (hrejected : call.id ∉ request.rejected) (happroved : call.id ∈ request.approved)
    (hread : ∀ arguments, ¬ ReadsAs call.arguments arguments) (he : call.parseArguments = .error e)
    (hshown : (PendingCall.ofCall call).arguments = .obj [])
    (more : Deciding registry request rest world steps world') :
    Deciding registry request ((place, call) :: rest) world
      (.settled place call (.refused e) :: steps) world'
  /-- Any other call goes on waiting. -/
  | held {place : Place} {call : ToolCall} {rest : List (Place × ToolCall)} {world world' : σ}
    {steps : List Step} (hrejected : call.id ∉ request.rejected)
    (happroved : call.id ∉ request.approved)
    (more : Deciding registry request rest world steps world') :
    Deciding registry request ((place, call) :: rest) world (.held place call :: steps) world'

section

variable {σ : Type} {a : Agent σ} {mode : Mode} {ids : Nat → String} {request : Request}

theorem isGated_false (call : ToolCall) : a.isGated false call = a.needsConfirmation call := by
  rw [isGated, Bool.not_false, Bool.true_and]

/-- A tool that requires confirmation is known. -/
theorem exists_lookup {call : ToolCall} (h : a.needsConfirmation call = true) :
    ∃ tool, a.registry.lookup call.name = some tool := by
  rw [needsConfirmation] at h
  cases htool : a.registry.lookup call.name with
  | none =>
    rw [htool] at h
    cases h
  | some tool => exact ⟨tool, rfl⟩

/-- **Each call as decided.** -/
theorem deciding_takeAll {waiting : List (Place × ToolCall)}
    (hconfirm : ∀ held ∈ waiting, a.needsConfirmation held.2 = true) (t : Turn σ) :
    Deciding a.registry request waiting t.world
      (a.takeAll false (waiting.map (decided request)) t).1
      (a.takeAll false (waiting.map (decided request)) t).2.world := by
  induction waiting generalizing t with
  | nil => exact .nil t.world
  | cons held rest ih =>
    obtain ⟨place, call⟩ := held
    have hcall : a.needsConfirmation call = true := hconfirm _ List.mem_cons_self
    rw [List.map_cons, takeAll_cons]
    have htaking := taking_take a false (decided request (place, call)) t
    generalize (a.take false (decided request (place, call)) t).1 = s,
      (a.take false (decided request (place, call)) t).2 = t' at htaking ⊢
    have hmore := ih (fun held hmem => hconfirm held (List.mem_cons_of_mem _ hmem)) t'
    cases htaking with
    | canceled h => exact .canceled ((decision_iff request call).1.mp h) hmore
    | held h =>
      obtain ⟨hrejected, happroved⟩ := (decision_iff request call).2.2.mp h
      exact .held hrejected happroved hmore
    | @ran fate world hrun h =>
      -- the tool requires confirmation, so that the call would be held if it were dispatched
      have hexecute : decision request call = .execute := by
        rcases h with hexecute | ⟨-, hfree⟩
        · exact hexecute
        · rw [isGated_false] at hfree
          exact absurd (hcall.symm.trans hfree) (by decide)
      obtain ⟨hrejected, happroved⟩ := (decision_iff request call).2.1.mp hexecute
      have hrunning := running_runCall a call t.world
      replace hrun : a.runCall call t.world = (fate, world) := hrun
      rw [hrun] at hrunning
      cases hrunning with
      | unknown hnone =>
        obtain ⟨tool, htool⟩ := exists_lookup hcall
        rw [htool] at hnone
        cases hnone
      | unreadable _ hargs =>
        exact .refused hrejected happroved (not_readsAs_of_parseArguments hargs) hargs
          (arguments_ofCall_of_error hargs) hmore
      | invoked htool hargs =>
        exact .ran hrejected happroved htool (readsAs_of_parseArguments hargs)
          (arguments_ofCall hargs) hmore

/-- The calls about which nothing was decided are held again. -/
theorem heldCalls_decided {waiting : List (Place × ToolCall)}
    (hconfirm : ∀ held ∈ waiting, a.needsConfirmation held.2 = true) (t : Turn σ) :
    heldCalls (a.takeAll false (waiting.map (decided request)) t).1 =
      waiting.filter fun held => isUndecided request (.ofCall held.2) := by
  rw [heldCalls_takeAll, List.filter_map, List.map_map]
  have hplaced : OpenCall.placed ∘ decided request = id := rfl
  rw [hplaced, List.map_id]
  apply List.filter_congr
  intro held hmem
  have hdecision : decision request held.2 = .dispatch ↔
      isUndecided request (.ofCall held.2) = true := by
    rw [(decision_iff request held.2).2.2, isUndecided]
    simp [PendingCall.ofCall]
  show (decide (decision request held.2 = .dispatch) && a.isGated false held.2) = _
  rw [isGated_false, hconfirm held hmem, Bool.and_true]
  rw [Bool.eq_iff_iff, decide_eq_true_iff]
  exact hdecision

/-- A call that is held needs confirmation. -/
theorem needsConfirmation_of_held {world : σ} {held : Place × ToolCall}
    (h : held ∈ heldCalls (a.play mode ids request world).log) :
    a.needsConfirmation held.2 = true := by
  have htaking : ∀ {o t s t'}, Taking a request.autoExecute o t s t' → s.held? = some held →
      a.needsConfirmation held.2 = true := by
    intro o t s t' taking hs
    cases taking with
    | canceled => cases hs
    | ran => cases hs
    | held _ hgated =>
      rw [← Option.some.inj hs]
      exact ((Bool.and_eq_true _ _).mp hgated).2
  obtain ⟨s, hs, hheld⟩ := List.mem_filterMap.mp h
  cases ofTurn_play hs with
  | resolved taking => exact htaking taking hheld
  | round hround =>
    cases hround with
    | taken _ taking => exact htaking taking hheld
    | _ => cases hheld
  | _ => cases hheld

end

/-! ### The turn that follows up -/

variable {σ : Type} {v w : Visit σ} {shown : List PendingCall}

/-- What a turn does first: it takes up the calls that it finds open. -/
def Visit.resolved (v : Visit σ) : List Step × Turn σ := v.agent.resolve v.request v.world

/-- The turn with other decisions of the client. -/
def Visit.deciding (v : Visit σ) (approved rejected : List String) : Visit σ :=
  { v with request := { v.request with approved, rejected } }

/-- Whether a turn follows up one that was over with calls shown as waiting: the client hands back
the conversation, the tools are the same, and none runs without confirmation. -/
structure FollowsUp (v w : Visit σ) (shown : List PendingCall) : Prop where
  /-- The tools are the same. -/
  registry : w.agent.registry = v.agent.registry
  /-- Tools do not run without confirmation. -/
  confirming : w.request.autoExecute = false
  /-- The conversation is the one before, with what the turn added to it. -/
  handedBack : ∃ produced, .done produced (some shown) ∈ v.played.events ∧
    w.request.messages = v.request.messages ++ produced

namespace FollowsUp

theorem pending_last (h : FollowsUp v w shown) : v.played.last.pending = shown ∧ shown ≠ [] := by
  obtain ⟨produced, hdone, -⟩ := h.handedBack
  exact pending?_eq_some_iff.mp (finished_of_mem_play (done_mem_events_iff.mp hdone)).2.symm

/-- The calls that are shown are the ones that were held. -/
theorem shown_eq (h : FollowsUp v w shown) :
    shown = (heldCalls v.played.log).map fun held => .ofCall held.2 :=
  h.pending_last.1.symm.trans (advances_play v.agent v.mode v.ids v.request v.world).pending

/-- The conversation that is handed back waits for the calls that were held. -/
theorem awaits (h : FollowsUp v w shown)
    (hrole : HeldByAssistant v.played.last.history v.played.log) :
    Awaits w.start.history (heldCalls v.played.log) := by
  obtain ⟨produced, hdone, hrequest⟩ := h.handedBack
  have hpending : v.played.last.pending ≠ [] := h.pending_last.1 ▸ h.pending_last.2
  have hleft := awaits_play hrole hpending
  have hv : (v.agent.play v.mode v.ids v.request v.world).last.history =
      .system (Prompt.system v.agent.registry.catalogue v.request.currentPath?) ::
        (v.request.messages.map Message.normalizeIds ++ produced) := by
    rw [(finished_of_mem_play (done_mem_events_iff.mp hdone)).1]
    exact v.history_last
  have hw : w.start.history =
      .system (Prompt.system w.agent.registry.catalogue w.request.currentPath?) ::
        (v.request.messages.map Message.normalizeIds ++ produced) := by
    show _ :: w.request.messages.map Message.normalizeIds = _
    rw [hrequest, List.map_append, map_normalizeIds_produced hdone]
  rw [hv] at hleft
  rw [hw]
  exact hleft.prompt rfl

theorem needsConfirmation (h : FollowsUp v w shown) :
    ∀ held ∈ heldCalls v.played.log, w.agent.needsConfirmation held.2 = true := by
  intro held hheld
  have hconfirm := needsConfirmation_of_held hheld
  unfold Agent.needsConfirmation at hconfirm ⊢
  rw [h.registry]
  exact hconfirm

theorem resolved_eq (h : FollowsUp v w shown)
    (hrole : HeldByAssistant v.played.last.history v.played.log) :
    w.resolved =
      w.agent.takeAll false ((heldCalls v.played.log).map (decided w.request)) w.start := by
  have hopen := (h.awaits hrole).openCalls_eq w.request
  rw [Visit.resolved, resolve, h.confirming]
  show w.agent.takeAll false (openCalls w.request w.start.history) w.start = _
  rw [hopen]

/-- What was not decided goes on waiting. -/
theorem pending_resolved (h : FollowsUp v w shown)
    (hrole : HeldByAssistant v.played.last.history v.played.log) :
    w.resolved.2.pending = shown.filter (isUndecided w.request) := by
  rw [h.resolved_eq hrole, (advances_takeAll ..).pending, heldCalls_decided h.needsConfirmation,
    h.shown_eq, List.filter_map]
  rfl

theorem deciding (h : FollowsUp v w shown) (approved rejected : List String) :
    FollowsUp v (w.deciding approved rejected) shown :=
  ⟨h.registry, h.confirming, h.handedBack⟩

/-- Only the decisions about the calls that were shown matter. -/
theorem played_deciding (h : FollowsUp v w shown)
    (hrole : HeldByAssistant v.played.last.history v.played.log) {approved rejected : List String}
    (hagree : ∀ p ∈ shown, (p.id ∈ approved ↔ p.id ∈ w.request.approved) ∧
      (p.id ∈ rejected ↔ p.id ∈ w.request.rejected)) :
    (w.deciding approved rejected).played = w.played := by
  -- the decisions reach the turn through the calls that it finds open, and nowhere else
  have hsame : (heldCalls v.played.log).map (decided (w.deciding approved rejected).request) =
      (heldCalls v.played.log).map (decided w.request) := by
    apply List.map_congr_left
    intro held hheld
    have hp : PendingCall.ofCall held.2 ∈ shown := by
      rw [h.shown_eq]
      exact List.mem_map.mpr ⟨held, hheld, rfl⟩
    obtain ⟨happroved, hrejected⟩ := hagree _ hp
    replace happroved : approved.contains held.2.id = w.request.approved.contains held.2.id := by
      rw [Bool.eq_iff_iff, List.contains_iff_mem, List.contains_iff_mem]
      exact happroved
    replace hrejected : rejected.contains held.2.id = w.request.rejected.contains held.2.id := by
      rw [Bool.eq_iff_iff, List.contains_iff_mem, List.contains_iff_mem]
      exact hrejected
    show decided { w.request with approved, rejected } held = decided w.request held
    rw [decided, decided, decision, decision]
    show _ = OpenCall.mk held.1 held.2 _
    rw [happroved, hrejected]
  have hresolved : (w.deciding approved rejected).resolved = w.resolved := by
    rw [(h.deciding approved rejected).resolved_eq hrole, h.resolved_eq hrole, hsame]
    rfl
  show w.agent.play w.mode w.ids { w.request with approved, rejected } w.world =
    w.agent.play w.mode w.ids w.request w.world
  replace hresolved : w.agent.resolve { w.request with approved, rejected } w.world =
    w.agent.resolve w.request w.world := hresolved
  unfold play
  rw [hresolved]

end FollowsUp

/-- A turn without decisions does nothing about calls that wait. -/
theorem Deciding.silent {registry : Registry σ} {request : Request}
    {waiting : List (Place × ToolCall)} {world world' : σ} {steps : List Step}
    (h : Deciding registry request waiting world steps world') (happroved : request.approved = [])
    (hrejected : request.rejected = []) :
    messages steps = [] ∧ invocations steps = [] ∧ items steps = [] := by
  induction h with
  | nil => exact ⟨rfl, rfl, rfl⟩
  | canceled hmem =>
    rw [hrejected] at hmem
    exact absurd hmem List.not_mem_nil
  | ran _ hmem =>
    rw [happroved] at hmem
    exact absurd hmem List.not_mem_nil
  | refused _ hmem =>
    rw [happroved] at hmem
    exact absurd hmem List.not_mem_nil
  | held _ _ _ ih => exact ih

/-- **The handshake.**  The calls that a turn shows as waiting stand in messages of the assistant,
and another turn follows it up.  Then that turn begins with the calls that were shown, in their
order: it cancels the rejected ones, runs the approved ones with the arguments that were shown, and
leaves the others waiting.  The model is asked when none is left, and otherwise the turn is over.
Ids of other calls make no difference, and without a decision nothing happens. -/
theorem pending_decided (h : FollowsUp v w shown)
    (hrole : HeldByAssistant v.played.last.history v.played.log) :
    shown = (heldCalls v.played.log).map (fun held => .ofCall held.2) ∧
    (shown.map (·.id)).Nodup ∧
    w.resolved.1 <+: w.played.log ∧
    Deciding w.agent.registry w.request (heldCalls v.played.log) w.world w.resolved.1
      w.resolved.2.world ∧
    w.resolved.2.pending = shown.filter (isUndecided w.request) ∧
    (histories w.played.log ≠ [] ↔ shown.filter (isUndecided w.request) = []) ∧
    (shown.filter (isUndecided w.request) ≠ [] →
      w.played.log = w.resolved.1 ++ [.paused (shown.filter (isUndecided w.request)),
        .finished (messages w.resolved.1) (some (shown.filter (isUndecided w.request)))]) ∧
    (∀ approved rejected, (∀ p ∈ shown, (p.id ∈ approved ↔ p.id ∈ w.request.approved) ∧
      (p.id ∈ rejected ↔ p.id ∈ w.request.rejected)) →
      (w.deciding approved rejected).played = w.played) ∧
    (w.request.approved = [] → w.request.rejected = [] →
      messages w.played.log = [] ∧ invocations w.played.log = [] ∧ histories w.played.log = [] ∧
        w.played.outcome = .ok ⟨[], shown⟩) := by
  have hpending := h.pending_resolved hrole
  have hdeciding : Deciding w.agent.registry w.request (heldCalls v.played.log) w.world w.resolved.1
      w.resolved.2.world := by
    rw [h.resolved_eq hrole]
    exact deciding_takeAll h.needsConfirmation w.start
  have hasked : histories w.played.log = [] ↔ shown.filter (isUndecided w.request) ≠ [] := by
    rw [← hpending]
    exact histories_play_eq_nil_iff
  have hover : shown.filter (isUndecided w.request) ≠ [] →
      w.played.log = w.resolved.1 ++ [.paused (shown.filter (isUndecided w.request)),
        .finished (messages w.resolved.1) (some (shown.filter (isUndecided w.request)))] := by
    intro hleft
    have hproduced : w.resolved.2.produced = messages w.resolved.1 :=
      (advances_resolve w.agent w.request w.world).produced
    rw [← hpending] at hleft
    have hsome : w.resolved.2.pending? = some w.resolved.2.pending :=
      pending?_eq_some_iff.mpr ⟨rfl, hleft⟩
    rw [← hproduced, ← hpending, ← hsome]
    exact play_of_pending hleft
  refine ⟨h.shown_eq, ?_, ⟨_, (List.append_assoc _ _ _).symm⟩, hdeciding, hpending, ?_, hover,
    fun _ _ => h.played_deciding hrole, ?_⟩
  · rw [h.shown_eq, List.map_map]
    exact (h.awaits hrole).nodup
  · rw [Ne, hasked, Classical.not_not]
  · -- without decisions all calls go on waiting
    intro happroved hrejected
    have hall : shown.filter (isUndecided w.request) = shown := by
      apply List.filter_eq_self.mpr
      intro p _
      rw [isUndecided, happroved, hrejected]
      rfl
    obtain ⟨hmessages, hinvocations, hitems⟩ := hdeciding.silent happroved hrejected
    rw [hall] at hover hasked
    have hlog := hover h.pending_last.2
    refine ⟨?_, ?_, hasked.mpr h.pending_last.2, ?_⟩
    · rw [hlog, messages_append, hmessages]
      rfl
    · rw [hlog, invocations, List.filterMap_append]
      show invocations w.resolved.1 ++ [] = []
      rw [hinvocations]
      rfl
    · rw [Played.outcome, hlog, items_append, hitems, hmessages]
      rfl

/-- A turn in which the model calls `ls`, which runs, and four times `rm`, once with arguments that
cannot be read. -/
def waitingVisit : Visit (List Message) :=
  { callingVisit with
    world := [Sample.calling [Sample.call "c1" "ls", Sample.call "" "rm", Sample.call "c2" "rm",
      ⟨"c3", "rm", "["⟩, Sample.call "c4" "rm"]] }

/-- The client approves three of the four calls, one of which it rejects as well. -/
def decidingVisit : Visit (List Message) :=
  (approvingVisit waitingVisit).deciding ["call_1", "c2", "c3"] ["c2"]

/-- One call runs, one is canceled, one cannot be read and one goes on waiting. -/
theorem pending_decided_rm :
    FollowsUp waitingVisit decidingVisit waitingVisit.played.last.pending ∧
      HeldByAssistant waitingVisit.played.last.history waitingVisit.played.log ∧
      decidingVisit.resolved.2.pending = [.ofCall (Sample.call "c4" "rm")] ∧
      histories decidingVisit.played.log = [] ∧
      decidingVisit.played.log.map Step.isSettled = [true, true, true, false, false, false] ∧
      invocations decidingVisit.played.log = [(Sample.call "call_1" "rm", [])] := by
  have hfollows : FollowsUp waitingVisit decidingVisit waitingVisit.played.last.pending := by
    refine ⟨rfl, rfl, waitingVisit.played.last.produced, ?_, rfl⟩
    exact done_mem_events_iff.mpr (List.mem_of_getLast? rfl)
  have hrole : HeldByAssistant waitingVisit.played.last.history waitingVisit.played.log := by decide
  obtain ⟨-, -, -, -, hpending, hasked, -, -, -⟩ := pending_decided hfollows hrole
  have hleft : waitingVisit.played.last.pending.filter (isUndecided decidingVisit.request) =
      [.ofCall (Sample.call "c4" "rm")] := rfl
  rw [hleft] at hpending hasked
  refine ⟨hfollows, hrole, hpending, ?_, rfl, rfl⟩
  by_contra hne
  exact List.cons_ne_nil _ _ (hasked.mp hne)

/-- A turn in which the model answers as if it were the user, and calls `rm`. -/
def userVisit : Visit (List Message) :=
  { callingVisit with world := [{ role := .user, toolCalls := [Sample.call "c1" "rm"] }] }

/-- Calls that do not stand in a message of the assistant are shown, but they are not open later.
The turn that follows up asks the model although the client decided nothing. -/
theorem not_pending_again_of_user :
    FollowsUp userVisit ((approvingVisit userVisit).deciding [] [])
      [.ofCall (Sample.call "c1" "rm")] ∧
      histories ((approvingVisit userVisit).deciding [] []).played.log ≠ [] ∧
      ((approvingVisit userVisit).deciding [] []).played.outcome = .ok ⟨[.assistant], []⟩ := by
  have hfollows : FollowsUp userVisit ((approvingVisit userVisit).deciding [] [])
      [.ofCall (Sample.call "c1" "rm")] := by
    refine ⟨rfl, rfl, userVisit.played.last.produced, ?_, rfl⟩
    exact done_mem_events_iff.mpr (List.mem_of_getLast? rfl)
  exact ⟨hfollows, List.cons_ne_nil _ _, rfl⟩

end Parley.Agent
