import Parley.Proofs.Agent.Confirmation
import Parley.Proofs.Agent.Modes
import Parley.Proofs.Agent.Waiting

/-!
# Which decisions matter

A request names ids that are approved and ids that are rejected.  They are looked at once, when the
turn takes up the calls that the conversation left open, and only for these calls.

* `resolving_resolve`: what is done about each of these calls, in their order (`Resolving`).
* `play_eq_of_decidesAlike`: two requests that decide the same about them (`DecidesAlike`) begin the
  same turn.
* `play_unnamed_eq`: nor do the ids of the messages that the model is asked for make a difference,
  but for the steps that carry them.

So decisions are local (`decisions_local`): ids of other calls, ids that are named again and
approvals of what is rejected change nothing in any round, although later calls may well have the
same ids.
-/

namespace Parley.Agent

open Chat (Event Message ToolCall)
open Chat.Message (HasUniqueIds uniqueIds_hasUniqueIds)
open Wire (Failure)

variable {σ : Type} {a : Agent σ} {mode : Mode} {auto : Bool} {ids ids' : Nat → String}
  {request : Request} {later : List Message}

/-! ### What is done about an open call -/

/-- How a turn takes up the calls that the messages `later` do not answer, one after the other: the
steps, and the surroundings before and after. -/
inductive Resolving (a : Agent σ) (request : Request) (later : List Message) :
    List (Place × ToolCall) → σ → List Step → σ → Prop where
  /-- No call is left. -/
  | nil (world : σ) : Resolving a request later [] world [] world
  /-- A rejected call is canceled, whether or not it is approved as well. -/
  | canceled {place : Place} {call : ToolCall} {rest : List (Place × ToolCall)} {world world' : σ}
    {steps : List Step} (hrejected : call.id ∈ request.rejected)
    (more : Resolving a request later rest world steps world') :
    Resolving a request later ((place, call) :: rest) world (.settled place call .canceled :: steps)
      world'
  /-- An approved call runs. -/
  | approved {place : Place} {call : ToolCall} {rest : List (Place × ToolCall)}
    {world between world' : σ} {steps : List Step} {fate : Fate}
    (hrejected : call.id ∉ request.rejected) (happroved : call.id ∈ request.approved)
    (running : Running a call world fate between)
    (more : Resolving a request later rest between steps world') :
    Resolving a request later ((place, call) :: rest) world (.settled place call fate :: steps)
      world'
  /-- While nothing but results follows, any other call runs, unless it is gated. -/
  | free {place : Place} {call : ToolCall} {rest : List (Place × ToolCall)}
    {world between world' : σ} {steps : List Step} {fate : Fate}
    (hrejected : call.id ∉ request.rejected) (happroved : call.id ∉ request.approved)
    (hresults : ∀ x ∈ later, x.role = .tool) (hfree : a.isGated request.autoExecute call = false)
    (running : Running a call world fate between)
    (more : Resolving a request later rest between steps world') :
    Resolving a request later ((place, call) :: rest) world (.settled place call fate :: steps)
      world'
  /-- A gated one is held. -/
  | held {place : Place} {call : ToolCall} {rest : List (Place × ToolCall)} {world world' : σ}
    {steps : List Step} (hrejected : call.id ∉ request.rejected)
    (happroved : call.id ∉ request.approved) (hresults : ∀ x ∈ later, x.role = .tool)
    (hgated : a.isGated request.autoExecute call = true)
    (more : Resolving a request later rest world steps world') :
    Resolving a request later ((place, call) :: rest) world (.held place call :: steps) world'
  /-- When something else follows, a call about which nothing was decided is left alone. -/
  | leftAlone {place : Place} {call : ToolCall} {rest : List (Place × ToolCall)} {world world' : σ}
    {steps : List Step} (hrejected : call.id ∉ request.rejected)
    (happroved : call.id ∉ request.approved) (hother : ∃ x ∈ later, x.role ≠ .tool)
    (more : Resolving a request later rest world steps world') :
    Resolving a request later ((place, call) :: rest) world steps world'

theorem isResult_iff {m : Message} : isResult m = true ↔ m.role = .tool := decide_eq_true_iff

/-- What is to be done about a call, case by case. -/
theorem resolution?_iff (request : Request) (later : List Message) (call : ToolCall) :
    (resolution? request later call = some .cancel ↔ call.id ∈ request.rejected) ∧
    (resolution? request later call = some .execute ↔
      call.id ∉ request.rejected ∧ call.id ∈ request.approved) ∧
    (resolution? request later call = some .dispatch ↔
      call.id ∉ request.rejected ∧ call.id ∉ request.approved ∧ ∀ x ∈ later, x.role = .tool) ∧
    (resolution? request later call = none ↔
      call.id ∉ request.rejected ∧ call.id ∉ request.approved ∧ ∃ x ∈ later, x.role ≠ .tool) := by
  have hall : later.all isResult = true ↔ ∀ x ∈ later, x.role = .tool := by
    simp only [List.all_eq_true, isResult_iff]
  unfold resolution?
  by_cases hrejected : call.id ∈ request.rejected
  · simp [hrejected]
  · by_cases happroved : call.id ∈ request.approved
    · simp [hrejected, happroved]
    · by_cases hresults : ∀ x ∈ later, x.role = .tool
      · simp [hrejected, happroved, hall.mpr hresults]
        exact hresults
      · have hother : ∃ x ∈ later, x.role ≠ .tool := by
          simpa using hresults
        simp [hrejected, happroved, mt hall.mp hresults, hother]

/-- **Each call as its request wants.**  Calls that are answered are passed over, and the others are
taken up in this way. -/
theorem resolving_takeAll (opens : List OpenCall) (t : Turn σ) :
    Resolving a request later
      ((opens.map OpenCall.placed).filter fun held => !(answeredIds later).contains held.2.id)
      t.world (a.takeAll request.autoExecute (opens.filterMap (resolved? request later)) t).1
      (a.takeAll request.autoExecute (opens.filterMap (resolved? request later)) t).2.world := by
  rw [filterMap_resolved?, List.filter_map]
  -- both sides skip the answered calls
  change Resolving a request later ((opens.filter fun o =>
    !(answeredIds later).contains o.call.id).map OpenCall.placed) _ _ _
  generalize opens.filter (fun o => !(answeredIds later).contains o.call.id) = opens
  induction opens generalizing t with
  | nil => exact .nil t.world
  | cons o rest ih =>
    rw [List.map_cons]
    obtain ⟨hcancel, hexecute, hdispatch, hnothing⟩ := resolution?_iff request later o.call
    cases hres : resolution? request later o.call with
    | none =>
      rw [List.filterMap_cons_none (by rw [hres]; rfl)]
      obtain ⟨hrejected, happroved, hother⟩ := hnothing.mp hres
      exact .leftAlone hrejected happroved hother (ih t)
    | some resolution =>
      rw [List.filterMap_cons_some (by rw [hres]; rfl), takeAll_cons]
      have htaking := taking_take a request.autoExecute { o with resolution } t
      generalize (a.take request.autoExecute { o with resolution } t).1 = s,
        (a.take request.autoExecute { o with resolution } t).2 = t' at htaking ⊢
      have hmore := ih t'
      cases htaking with
      | canceled h =>
        obtain rfl : resolution = .cancel := h
        exact .canceled (hcancel.mp hres) hmore
      | held h hgated =>
        obtain rfl : resolution = .dispatch := h
        obtain ⟨hrejected, happroved, hresults⟩ := hdispatch.mp hres
        exact .held hrejected happroved hresults hgated hmore
      | @ran fate world hrun h =>
        have hrunning := running_runCall a o.call t.world
        replace hrun : a.runCall o.call t.world = (fate, world) := hrun
        rw [hrun] at hrunning
        rcases h with h | ⟨h, hfree⟩
        · obtain rfl : resolution = .execute := h
          obtain ⟨hrejected, happroved⟩ := hexecute.mp hres
          exact .approved hrejected happroved hrunning hmore
        · obtain rfl : resolution = .dispatch := h
          obtain ⟨hrejected, happroved, hresults⟩ := hdispatch.mp hres
          exact .free hrejected happroved hresults hfree hrunning hmore

/-- Each call is taken up at most once, and in its turn. -/
theorem Resolving.taken {calls : List (Place × ToolCall)} {world world' : σ} {steps : List Step}
    (h : Resolving a request later calls world steps world') :
    (steps.filterMap Step.taken?).Sublist calls := by
  induction h with
  | nil => exact .slnil
  | canceled _ _ ih => exact ih.cons_cons _
  | approved _ _ _ _ ih => exact ih.cons_cons _
  | free _ _ _ _ _ _ ih => exact ih.cons_cons _
  | held _ _ _ _ _ ih => exact ih.cons_cons _
  | leftAlone _ _ _ _ ih => exact ih.cons _

/-- **The calls that a conversation left open.**  They are the ones of its last calling message that
nothing behind it answers.  The system prompt stands in front of the conversation. -/
theorem resolving_resolve {earlier : List Message} {m : Message}
    (h : LastCalling (request.messages.map Message.normalizeIds) earlier m later) (world : σ) :
    Resolving a request later (unanswered (earlier.length + 1) m.toolCalls later) world
      (a.resolve request world).1 (a.resolve request world).2.world := by
  have hlast : LastCalling (a.start request world).history (_ :: earlier) m later := h.cons _
  rw [resolve, hlast.openCalls_eq]
  exact resolving_takeAll _ (a.start request world)

theorem resolve_eq_nil (h : ∀ m ∈ request.messages.map Message.normalizeIds, isCalling m = false)
    (world : σ) :
    a.resolve request world = ([], a.start request world) := by
  have hopen : openCalls request (a.start request world).history = [] :=
    openCalls_eq_nil (List.forall_mem_cons.mpr ⟨rfl, h⟩) request
  rw [resolve, hopen]
  rfl

/-! ### Requests that decide the same -/

/-- Whether a conversation left a call open. -/
def LeavesOpen (messages : List Message) (call : ToolCall) : Prop :=
  ∃ earlier m later, LastCalling (messages.map Message.normalizeIds) earlier m later ∧
    call ∈ m.toolCalls ∧ call.id ∉ answeredIds later

/-- Whether two requests decide the same about the calls that their conversation left open.  They
may name other ids or the same ones in another order or more often, and they may differ in what they
approve of the rejected calls. -/
structure DecidesAlike (r r' : Request) : Prop where
  /-- The conversation is the same. -/
  messages : r'.messages = r.messages
  /-- So is the permission to run tools. -/
  autoExecute : r'.autoExecute = r.autoExecute
  /-- So is what the client looks at. -/
  currentPath? : r'.currentPath? = r.currentPath?
  /-- They reject the same calls that were left open. -/
  rejected : ∀ call, LeavesOpen r.messages call → (call.id ∈ r'.rejected ↔ call.id ∈ r.rejected)
  /-- They approve the same of the others. -/
  approved : ∀ call, LeavesOpen r.messages call → call.id ∉ r.rejected →
    (call.id ∈ r'.approved ↔ call.id ∈ r.approved)

namespace DecidesAlike

variable {r r' : Request}

theorem start_eq (h : DecidesAlike r r') (world : σ) : a.start r' world = a.start r world := by
  unfold start
  rw [h.messages, h.currentPath?]

/-- The same is to be done about a call. -/
theorem resolution?_eq (h : DecidesAlike r r') {call : ToolCall}
    (hopen : LeavesOpen r.messages call) (later : List Message) :
    resolution? r' later call = resolution? r later call := by
  have hrejected : r'.rejected.contains call.id = r.rejected.contains call.id := by
    rw [Bool.eq_iff_iff, List.contains_iff_mem, List.contains_iff_mem]
    exact h.rejected call hopen
  unfold resolution?
  rw [hrejected]
  by_cases hmem : call.id ∈ r.rejected
  · rw [if_pos (List.contains_iff_mem.mpr hmem), if_pos (List.contains_iff_mem.mpr hmem)]
  · have happroved : r'.approved.contains call.id = r.approved.contains call.id := by
      rw [Bool.eq_iff_iff, List.contains_iff_mem, List.contains_iff_mem]
      exact h.approved call hopen hmem
    rw [happroved]

/-- The same calls are open, and the same is to be done about them. -/
theorem openCalls_eq (h : DecidesAlike r r') (world : σ) :
    openCalls r' (a.start r' world).history = openCalls r (a.start r world).history := by
  rw [h.start_eq]
  by_cases hcalling : ∃ x ∈ (a.start r world).history, isCalling x = true
  · obtain ⟨earlier, m, later, hlast⟩ := exists_lastCalling hcalling
    obtain ⟨earlier', -, hlast'⟩ := hlast.of_cons rfl
    rw [hlast.openCalls_eq, hlast.openCalls_eq]
    apply List.filterMap_congr
    intro o ho
    unfold resolved?
    by_cases hanswered : o.call.id ∈ answeredIds later
    · rw [if_pos (List.contains_iff_mem.mpr hanswered),
        if_pos (List.contains_iff_mem.mpr hanswered)]
    · have hopen : LeavesOpen r.messages o.call :=
        ⟨earlier', m, later, hlast', List.mem_of_getElem? (mem_dispatched.mp ho).2.1, hanswered⟩
      rw [h.resolution?_eq hopen]
  · have hnone : ∀ x ∈ (a.start r world).history, isCalling x = false :=
      fun x hx => Bool.eq_false_iff.mpr fun hx' => hcalling ⟨x, hx, hx'⟩
    rw [openCalls_eq_nil hnone, openCalls_eq_nil hnone]

end DecidesAlike

/-- **The same turn.**  Decisions reach a turn through the calls that it finds open, and nowhere
else. -/
theorem play_eq_of_decidesAlike {r r' : Request} (h : DecidesAlike r r') (a : Agent σ) (mode : Mode)
    (ids : Nat → String) (world : σ) : a.play mode ids r' world = a.play mode ids r world := by
  have hresolve : a.resolve r' world = a.resolve r world := by
    rw [resolve, resolve, h.openCalls_eq, h.start_eq, h.autoExecute]
  unfold play
  rw [hresolve, h.autoExecute]

/-! ### Ids of messages -/

/-- A step without the id of the message that the model is asked for. -/
def Step.unnamed : Step → Step
  | .asked _ history => .asked "" history
  | .heard _ delta => .heard "" delta
  | .said _ m => .said "" m
  | s => s

/-- An event without the id of a message of the assistant. -/
def unnamed : Event → Event
  | .assistantStart _ => .assistantStart ""
  | .assistantDelta _ delta => .assistantDelta "" delta
  | .assistantEnd _ m => .assistantEnd "" m
  | e => e

/-- A round goes the same way with other ids. -/
theorem Rounding.unnamed_eq {t t₁ t₂ : Turn σ} {steps₁ steps₂ : List Step}
    {verdict₁ verdict₂ : Verdict} (h₁ : Rounding a mode auto ids t steps₁ t₁ verdict₁)
    (h₂ : Rounding a mode auto ids' t steps₂ t₂ verdict₂) :
    steps₁.filterMap (some ·.unnamed) = steps₂.filterMap (some ·.unnamed) ∧ t₁ = t₂ ∧
      verdict₁.plain = verdict₂.plain := by
  rw [List.filterMap_eq_map']
  cases h₁ with
  | broke hask =>
    cases h₂ with
    | broke hask' =>
      rw [hask] at hask'
      cases hask'
      exact ⟨by simp [Step.unnamed, Function.comp_def], rfl, rfl⟩
    | spoke hask' =>
      rw [hask] at hask'
      cases hask'
  | spoke hask hm hspoken =>
    cases h₂ with
    | broke hask' =>
      rw [hask] at hask'
      cases hask'
    | spoke hask' hm' hspoken' =>
      rw [hask] at hask'
      cases hask'
      subst hm hm' hspoken hspoken'
      exact ⟨by simp [Step.unnamed, Function.comp_def], rfl, rfl⟩

/-- So does the end of a turn, if the model failed with the same failure. -/
theorem conclude_unnamed_eq (mode : Mode) (t : Turn σ) {broken₁ broken₂ : Option (String × Failure)}
    (h : broken₁.map (·.2) = broken₂.map (·.2)) :
    (conclude mode t broken₁).1.map Step.unnamed = (conclude mode t broken₂).1.map Step.unnamed ∧
      (conclude mode t broken₁).2 = (conclude mode t broken₂).2 := by
  cases broken₁ with
  | none =>
    cases broken₂ with
    | none => exact ⟨rfl, rfl⟩
    | some _ => cases h
  | some broken₁ =>
    cases broken₂ with
    | none => cases h
    | some broken₂ =>
      obtain ⟨id₁, e₁⟩ := broken₁
      obtain ⟨id₂, e₂⟩ := broken₂
      obtain rfl : e₁ = e₂ := Option.some.inj h
      cases mode <;> exact ⟨rfl, rfl⟩

/-- **Ids of messages are mere names.** -/
theorem play_unnamed_eq (a : Agent σ) (mode : Mode) (ids ids' : Nat → String) (request : Request)
    (world : σ) :
    (a.play mode ids request world).log.map Step.unnamed =
        (a.play mode ids' request world).log.map Step.unnamed ∧
      (a.play mode ids request world).last = (a.play mode ids' request world).last := by
  obtain ⟨asked, t, broken?, h, hlog, hlast⟩ := exists_conversing_play a mode ids request world
  obtain ⟨asked', t', broken?', h', hlog', hlast'⟩ :=
    exists_conversing_play a mode ids' request world
  obtain ⟨hasked, rfl, hbroken⟩ := h.view_eq (fun round round' => round.unnamed_eq round') h'
  obtain ⟨hend, hstate⟩ := conclude_unnamed_eq mode t hbroken
  rw [List.filterMap_eq_map'] at hasked
  refine ⟨?_, by rw [hlast, hlast', hstate]⟩
  rw [hlog, hlog', List.map_append, List.map_append, List.map_append, List.map_append, hasked, hend]

/-! ### What is seen of a log without ids -/

theorem events_unnamed (log : List Step) :
    (events (log.map Step.unnamed)).map unnamed = (events log).map unnamed := by
  induction log with
  | nil => rfl
  | cons s rest ih =>
    have hstep : s.unnamed.events.map unnamed = s.events.map unnamed := by cases s <;> rfl
    rw [List.map_cons, events_cons, events_cons, List.map_append, List.map_append, hstep, ih]

theorem histories_unnamed (log : List Step) : histories (log.map Step.unnamed) = histories log := by
  rw [histories, List.filterMap_map]
  congr 1
  funext s
  cases s <;> rfl

theorem invocations_unnamed (log : List Step) :
    invocations (log.map Step.unnamed) = invocations log := by
  rw [invocations, List.filterMap_map]
  congr 1
  funext s
  cases s <;> rfl

/-- The outcome of a turn does not tell of such ids. -/
theorem outcomeOf?_unnamed (log : List Step) :
    outcomeOf? (items (log.map Step.unnamed)) = outcomeOf? (items log) := by
  induction log with
  | nil => rfl
  | cons s rest ih =>
    rw [List.map_cons, items_cons, items_cons]
    cases s with
    | failed => rfl
    | finished => rfl
    | _ => exact ih

/-- **Decisions are local.**  A turn begins with the calls that the last calling message of the
conversation made and that nothing behind it answers.  It takes them up in their order, each at most
once: a rejected call is canceled, even if it is approved, one that is only approved runs, and any
other runs or is held while nothing but results follows the message, and is left alone otherwise.

Requests that decide the same about these calls begin the same turn.  Whatever other ids they name,
in whatever order and how often, and whatever they approve of the calls that both reject, the client
hears the same events, the tools receive the same calls and the model the same questions; the ids of
the messages that the model is asked for make no difference either. -/
theorem decisions_local (a : Agent σ) (mode : Mode) (request : Request) (world : σ) :
    (∀ ids, (a.resolve request world).1 <+: (a.play mode ids request world).log) ∧
    ((∀ m ∈ request.messages.map Message.normalizeIds, isCalling m = false) →
      a.resolve request world = ([], a.start request world)) ∧
    (∀ earlier m later, LastCalling (request.messages.map Message.normalizeIds) earlier m later →
      Resolving a request later (unanswered (earlier.length + 1) m.toolCalls later) world
        (a.resolve request world).1 (a.resolve request world).2.world ∧
      ((a.resolve request world).1.filterMap Step.taken?).Sublist
        (unanswered (earlier.length + 1) m.toolCalls later) ∧
      (((a.resolve request world).1.filterMap Step.taken?).map (·.2.id)).Nodup) ∧
    ∀ request', DecidesAlike request request' →
      (∀ ids, a.play mode ids request' world = a.play mode ids request world) ∧
      ∀ ids ids',
        (a.play mode ids' request' world).events.map unnamed =
          (a.play mode ids request world).events.map unnamed ∧
        invocations (a.play mode ids' request' world).log =
          invocations (a.play mode ids request world).log ∧
        histories (a.play mode ids' request' world).log =
          histories (a.play mode ids request world).log ∧
        (a.play mode ids' request' world).outcome = (a.play mode ids request world).outcome ∧
        (a.play mode ids' request' world).last = (a.play mode ids request world).last := by
  refine ⟨fun ids => ⟨_, (List.append_assoc _ _ _).symm⟩, fun h => resolve_eq_nil h world, ?_, ?_⟩
  · intro earlier m later hlast
    have hresolving := resolving_resolve (a := a) hlast world
    have hunique : HasUniqueIds m.toolCalls := by
      have hmem : m ∈ request.messages.map Message.normalizeIds := by
        rw [hlast.split]
        exact List.mem_append_right _ List.mem_cons_self
      obtain ⟨m', -, rfl⟩ := List.mem_map.mp hmem
      exact uniqueIds_hasUniqueIds m'.toolCalls
    exact ⟨hresolving, hresolving.taken,
      (hresolving.taken.map _).nodup (nodup_unanswered _ hunique later)⟩
  · intro request' halike
    refine ⟨fun ids => play_eq_of_decidesAlike halike a mode ids world, fun ids ids' => ?_⟩
    rw [play_eq_of_decidesAlike halike]
    obtain ⟨hlog, hlast⟩ := play_unnamed_eq a mode ids' ids request world
    refine ⟨?_, ?_, ?_, ?_, hlast⟩
    · rw [Played.events, Played.events, ← events_unnamed, hlog, events_unnamed]
    · rw [← invocations_unnamed, hlog, invocations_unnamed]
    · rw [← histories_unnamed, hlog, histories_unnamed]
    · rw [Played.outcome, Played.outcome, ← outcomeOf?_unnamed, hlog, outcomeOf?_unnamed]

/-- The decision of `approvingRequest` among others: `ls` has its answer, and nobody made the call
`c9`. -/
def noisyRequest : Request :=
  { approvingRequest with approved := ["c9", "call_1", "c1", "call_1"], rejected := ["c1", "c9"] }

/-- Its conversation left open the call of `rm`. -/
theorem eq_of_leavesOpen_approving {call : ToolCall}
    (h : LeavesOpen approvingRequest.messages call) :
    call = Sample.call "call_1" "rm" := by
  obtain ⟨earlier, m, later, hlast, hcall, hfree⟩ := h
  have hfound : lastCalling? 0 (approvingRequest.messages.map Message.normalizeIds) =
      some (0, [Sample.call "c1" "ls", Sample.call "call_1" "rm"], [.tool "c1" "[]"]) := by decide
  rw [hlast.lastCalling?_eq, Option.some.injEq, Prod.mk.injEq, Prod.mk.injEq] at hfound
  obtain ⟨-, hcalls, rfl⟩ := hfound
  rw [hcalls] at hcall
  rcases List.mem_cons.mp hcall with rfl | hcall
  · exact absurd List.mem_cons_self hfree
  · exact List.mem_singleton.mp hcall

/-- Both requests let the same call run, and the turns are the same. -/
theorem decisions_local_noisy :
    DecidesAlike approvingRequest noisyRequest ∧
    LastCalling (approvingRequest.messages.map Message.normalizeIds) []
      (Sample.calling [Sample.call "c1" "ls", Sample.call "call_1" "rm"]) [.tool "c1" "[]"] ∧
    (((Sample.agent.resolve approvingRequest []).1.filterMap Step.taken?).map (·.2.id)).Nodup ∧
    invocations (Sample.agent.play .streamed (fun _ => "a1") noisyRequest []).log =
      [(Sample.call "call_1" "rm", [])] ∧
    (Sample.agent.play .streamed (fun _ => "a1") noisyRequest []).events.map unnamed =
      (Sample.agent.play .streamed (fun _ => "a0") approvingRequest []).events.map unnamed := by
  have halike : DecidesAlike approvingRequest noisyRequest := by
    refine ⟨rfl, rfl, rfl, fun call hopen => ?_, fun call hopen _ => ?_⟩
    · rw [eq_of_leavesOpen_approving hopen]
      decide
    · rw [eq_of_leavesOpen_approving hopen]
      decide
  have hlast : LastCalling (approvingRequest.messages.map Message.normalizeIds) []
      (Sample.calling [Sample.call "c1" "ls", Sample.call "call_1" "rm"]) [.tool "c1" "[]"] :=
    ⟨by decide, by decide, by decide⟩
  obtain ⟨-, -, hresolve, hsame⟩ := decisions_local Sample.agent .streamed approvingRequest []
  obtain ⟨-, hturns⟩ := hsame noisyRequest halike
  obtain ⟨hevents, hinvocations, -⟩ := hturns (fun _ => "a0") (fun _ => "a1")
  exact ⟨halike, hlast, (hresolve _ _ _ hlast).2.2, hinvocations.trans rfl, hevents⟩

end Parley.Agent
