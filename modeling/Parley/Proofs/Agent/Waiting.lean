import Parley.Proofs.Agent.Place

/-!
# Calls that wait

A turn that ends with calls that wait leaves a conversation that tells of them: they are the calls
of its last calling message that nothing answers, and nothing but results stands behind that message
(`Awaits`). So the next turn finds them all open, and no others (`Awaits.openCalls_eq`).

* `Awaits.takeAll`: when waiting calls are taken up, the ones that are held again are the ones that
  still wait.
* `awaits_play`: the calls that are held in a turn wait when it is over, if they stand in a message
  of the assistant.
-/

namespace Parley.Agent

open Chat (Message PendingCall ToolCall)
open Chat.Message (HasUniqueIds uniqueIds_hasUniqueIds)
open Wire (Failure)

/-! ### What a history tells of waiting calls -/

/-- An open call with its place. -/
def OpenCall.placed (o : OpenCall) : Place × ToolCall := (o.place, o.call)

/-- The calls of a message at a position, with their places, that the messages `later` do not
answer. -/
def unanswered (position : Nat) (calls : List ToolCall) (later : List Message) :
    List (Place × ToolCall) :=
  ((dispatched position calls).map OpenCall.placed).filter fun held =>
    !(answeredIds later).contains held.2.id

/-- Whether the calls that a conversation waits for are these. -/
def Awaits (history : List Message) (waiting : List (Place × ToolCall)) : Prop :=
  ∃ earlier m later, LastCalling history earlier m later ∧ HasUniqueIds m.toolCalls ∧
    (∀ x ∈ later, isResult x = true) ∧ waiting = unanswered earlier.length m.toolCalls later

/-- What is done about a call that waits. -/
def decision (request : Request) (call : ToolCall) : Resolution :=
  if request.rejected.contains call.id then .cancel
  else if request.approved.contains call.id then .execute
  else .dispatch

/-- A waiting call with what is done about it. -/
def decided (request : Request) (held : Place × ToolCall) : OpenCall :=
  ⟨held.1, held.2, decision request held.2⟩

@[simp] theorem unanswered_nil (position : Nat) (calls : List ToolCall) :
    unanswered position calls [] = (dispatched position calls).map OpenCall.placed :=
  List.filter_eq_self.mpr fun _ _ => rfl

theorem unanswered_append (position : Nat) (calls : List ToolCall) (later more : List Message) :
    unanswered position calls (later ++ more) =
      (unanswered position calls later).filter fun held =>
        !(answeredIds more).contains held.2.id := by
  rw [unanswered, unanswered, List.filter_filter, answeredIds_append]
  congr 1
  funext held
  rw [List.contains_append, Bool.not_or, Bool.and_comm]

theorem nodup_unanswered (position : Nat) {calls : List ToolCall} (h : HasUniqueIds calls)
    (later : List Message) : ((unanswered position calls later).map (·.2.id)).Nodup := by
  have hall : (((dispatched position calls).map OpenCall.placed).map (·.2.id)).Nodup := by
    rw [List.map_map]
    exact nodup_dispatched position h
  exact (List.filter_sublist.map _).nodup hall

/-- The ids of waiting calls tell them apart. -/
theorem Awaits.nodup {history : List Message} {waiting : List (Place × ToolCall)}
    (h : Awaits history waiting) : (waiting.map (·.2.id)).Nodup := by
  obtain ⟨earlier, m, later, -, hunique, -, rfl⟩ := h
  exact nodup_unanswered _ hunique _

theorem resolution?_eq_decision {request : Request} {later : List Message}
    (h : ∀ x ∈ later, isResult x = true) (call : ToolCall) :
    resolution? request later call = some (decision request call) := by
  have hall : later.all isResult = true := List.all_eq_true.mpr h
  unfold resolution? decision
  rw [hall]
  split
  · rfl
  · split <;> rfl

/-- **Waiting calls are open.**  A turn finds open the calls that its conversation waits for, and
does about each what the client decided. -/
theorem Awaits.openCalls_eq {history : List Message} {waiting : List (Place × ToolCall)}
    (h : Awaits history waiting) (request : Request) :
    openCalls request history = waiting.map (decided request) := by
  obtain ⟨earlier, m, later, hlast, -, hresults, rfl⟩ := h
  rw [hlast.openCalls_eq, filterMap_resolved?, unanswered, List.filter_map, List.map_map]
  -- no call is left alone where only results follow
  have hdecided : (fun o => (resolution? request later o.call).map fun resolution =>
      { o with resolution }) = some ∘ decided request ∘ OpenCall.placed := by
    funext o
    rw [resolution?_eq_decision hresults]
    rfl
  rw [hdecided, List.filterMap_eq_map]
  rfl

/-- A conversation waits for the same calls under another prompt. -/
theorem Awaits.prompt {prompt prompt' : Message} {history : List Message}
    {waiting : List (Place × ToolCall)} (hprompt : isCalling prompt = false)
    (h : Awaits (prompt :: history) waiting) : Awaits (prompt' :: history) waiting := by
  obtain ⟨earlier, m, later, hlast, hunique, hresults, rfl⟩ := h
  obtain ⟨earlier', rfl, hlast'⟩ := hlast.of_cons hprompt
  exact ⟨prompt' :: earlier', m, later, hlast'.cons prompt', hunique, hresults, rfl⟩

/-! ### Taking up calls -/

variable {σ : Type} {a : Agent σ} {mode : Mode} {auto : Bool} {ids : Nat → String}

/-- Whether a call is held when it is taken up. -/
def holds (a : Agent σ) (auto : Bool) (o : OpenCall) : Bool :=
  decide (o.resolution = .dispatch) && a.isGated auto o.call

/-- A call that is taken up is held or settled. -/
theorem Taking.held_or_settled {o : OpenCall} {t t' : Turn σ} {s : Step}
    (h : Taking a auto o t s t') :
    (a.holds auto o = true ∧ s = .held o.place o.call) ∨
      (a.holds auto o = false ∧ ∃ fate, s = .settled o.place o.call fate) := by
  cases h with
  | canceled hcancel =>
    refine Or.inr ⟨?_, _, rfl⟩
    rw [holds, hcancel]
    rfl
  | held hdispatch hgated =>
    refine Or.inl ⟨?_, rfl⟩
    rw [holds, hdispatch, hgated]
    rfl
  | ran _ hres =>
    refine Or.inr ⟨?_, _, rfl⟩
    rcases hres with hexecute | ⟨-, hfree⟩
    · rw [holds, hexecute]
      rfl
    · rw [holds, hfree, Bool.and_false]

section TakeAll

variable (a auto)

/-- The calls that are held are the ones that are to be held, in their order. -/
theorem heldCalls_takeAll (opens : List OpenCall) (t : Turn σ) :
    heldCalls (a.takeAll auto opens t).1 = (opens.filter (a.holds auto)).map OpenCall.placed := by
  induction opens generalizing t with
  | nil => rfl
  | cons o rest ih =>
    rw [takeAll_cons, heldCalls_cons, ih, List.filter_cons]
    rcases (taking_take a auto o t).held_or_settled with ⟨hholds, hs⟩ | ⟨hholds, fate, hs⟩
    · rw [hs, hholds]
      rfl
    · rw [hs, hholds]
      rfl

/-- The messages that are recorded carry the ids of the other ones, in their order. -/
theorem map_toolCallId?_takeAll (opens : List OpenCall) (t : Turn σ) :
    (messages (a.takeAll auto opens t).1).map (·.toolCallId?) =
      (opens.filter (!a.holds auto ·)).map (some ·.call.id) := by
  induction opens generalizing t with
  | nil => rfl
  | cons o rest ih =>
    rw [takeAll_cons, messages_cons, List.map_append, ih, List.filter_cons]
    rcases (taking_take a auto o t).held_or_settled with ⟨hholds, hs⟩ | ⟨hholds, fate, hs⟩
    · rw [hs, hholds]
      rfl
    · rw [hs, hholds]
      rfl

/-- A call is settled unless all are to be held. -/
theorem any_isSettled_takeAll (opens : List OpenCall) (t : Turn σ) :
    (a.takeAll auto opens t).1.any Step.isSettled = opens.any (!a.holds auto ·) := by
  induction opens generalizing t with
  | nil => rfl
  | cons o rest ih =>
    rw [takeAll_cons, List.any_cons, List.any_cons, ih]
    rcases (taking_take a auto o t).held_or_settled with ⟨hholds, hs⟩ | ⟨hholds, fate, hs⟩
    · rw [hs, hholds]
      rfl
    · rw [hs, hholds]
      rfl

/-- Nothing but results is recorded. -/
theorem isResult_of_mem_takeAll {opens : List OpenCall} {t : Turn σ} {x : Message}
    (h : x ∈ messages (a.takeAll auto opens t).1) : isResult x = true ∧ isCalling x = false := by
  obtain ⟨s, hs, hx⟩ := List.mem_filterMap.mp h
  obtain ⟨o, -, t₀, t₁, taking⟩ := exists_taking_of_mem_takeAll a auto hs
  rcases taking.held_or_settled with ⟨-, rfl⟩ | ⟨-, fate, rfl⟩
  · cases hx
  · rw [← Option.some.inj hx]
    exact ⟨rfl, rfl⟩

/-- They answer the other ones. -/
theorem answeredIds_takeAll (opens : List OpenCall) (t : Turn σ) :
    answeredIds (messages (a.takeAll auto opens t).1) =
      (opens.filter (!a.holds auto ·)).map (·.call.id) := by
  have hall : (messages (a.takeAll auto opens t).1).filter isResult =
      messages (a.takeAll auto opens t).1 :=
    List.filter_eq_self.mpr fun x hx => (isResult_of_mem_takeAll a auto hx).1
  have hids := congrArg (List.filterMap id) (map_toolCallId?_takeAll a auto opens t)
  rw [List.filterMap_map, List.filterMap_map] at hids
  rw [answeredIds, hall]
  exact hids.trans (congrFun List.filterMap_eq_map' _)

/-- A call that is dispatched is held when it is gated. -/
theorem map_holds_dispatched (position : Nat) (calls : List ToolCall) :
    (dispatched position calls).map (a.holds auto) = calls.map (a.isGated auto) := by
  have hholds : (dispatched position calls).map (a.holds auto) =
      (dispatched position calls).map fun o => a.isGated auto o.call := by
    apply List.map_congr_left
    intro o ho
    rw [holds, (mem_dispatched.mp ho).2.2]
    rfl
  rw [hholds, ← map_call_dispatched position calls, List.map_map, map_call_dispatched]
  rfl

end TakeAll

/-- Among calls with different ids, the ones that have not the id of a settled call are the ones
that are held. -/
theorem filter_not_settled {opens : List OpenCall} (hids : (opens.map (·.call.id)).Nodup) :
    (opens.map OpenCall.placed).filter
        (fun held => !((opens.filter (!a.holds auto ·)).map (·.call.id)).contains held.2.id) =
      (opens.filter (a.holds auto)).map OpenCall.placed := by
  rw [List.filter_map]
  congr 1
  apply List.filter_congr
  intro o ho
  have hmem : ((opens.filter (!a.holds auto ·)).map (·.call.id)).contains o.call.id = true ↔
      a.holds auto o = false := by
    rw [List.contains_iff_mem, List.mem_map]
    constructor
    · rintro ⟨o', ho', hid⟩
      obtain ⟨ho', hholds⟩ := List.mem_filter.mp ho'
      have heq : o' = o := List.inj_on_of_nodup_map hids ho' ho hid
      rw [heq] at hholds
      exact (Bool.not_eq_true' _).mp hholds
    · intro hholds
      exact ⟨o, List.mem_filter.mpr ⟨ho, by rw [hholds]; rfl⟩, rfl⟩
  show (!((opens.filter (!a.holds auto ·)).map (·.call.id)).contains o.call.id) = a.holds auto o
  cases hholds : a.holds auto o with
  | false => rw [hmem.mpr hholds]; rfl
  | true =>
    have hfree := Bool.eq_false_iff.mpr fun h => Bool.false_ne_true ((hmem.mp h).symm.trans hholds)
    rw [hfree]
    rfl

/-- **What waits after calls were taken up.**  When all calls that wait are taken up, the held ones
wait again. -/
theorem Awaits.takeAll {t : Turn σ} {waiting : List (Place × ToolCall)}
    (h : Awaits t.history waiting) {opens : List OpenCall}
    (hopens : opens.map OpenCall.placed = waiting) :
    Awaits (a.takeAll auto opens t).2.history (heldCalls (a.takeAll auto opens t).1) := by
  have hids : (opens.map (·.call.id)).Nodup := by
    have hnodup := h.nodup
    rw [← hopens, List.map_map] at hnodup
    exact hnodup
  obtain ⟨earlier, m, later, ⟨hsplit, hcalling, hlast⟩, hunique, hresults, hwaiting⟩ := h
  refine ⟨earlier, m, later ++ messages (a.takeAll auto opens t).1, ⟨?_, hcalling, ?_⟩,
    hunique, ?_, ?_⟩
  · rw [(advances_takeAll a auto opens t).history, hsplit, List.append_assoc, List.cons_append]
  · intro x hx
    rcases List.mem_append.mp hx with hx | hx
    · exact hlast x hx
    · exact (isResult_of_mem_takeAll a auto hx).2
  · intro x hx
    rcases List.mem_append.mp hx with hx | hx
    · exact hresults x hx
    · exact (isResult_of_mem_takeAll a auto hx).1
  · rw [unanswered_append, ← hwaiting, ← hopens, answeredIds_takeAll, filter_not_settled hids,
      heldCalls_takeAll]

/-! ### A whole turn -/

/-- A call that is held was to be dispatched. -/
theorem mem_heldCalls_takeAll {opens : List OpenCall} {t : Turn σ} {held : Place × ToolCall}
    (h : held ∈ heldCalls (a.takeAll auto opens t).1) :
    ∃ o ∈ opens, o.resolution = .dispatch ∧ o.placed = held := by
  rw [heldCalls_takeAll] at h
  obtain ⟨o, ho, rfl⟩ := List.mem_map.mp h
  obtain ⟨ho, hholds⟩ := List.mem_filter.mp ho
  exact ⟨o, ho, of_decide_eq_true ((Bool.and_eq_true _ _).mp hholds).1, rfl⟩

/-- The calls that are held when the open calls of a conversation are taken up wait from then on. -/
theorem awaits_resolve {request : Request} {world : σ}
    (h : heldCalls (a.resolve request world).1 ≠ []) :
    Awaits (a.resolve request world).2.history (heldCalls (a.resolve request world).1) := by
  obtain ⟨held, hheld⟩ := List.exists_mem_of_ne_nil _ h
  obtain ⟨o, ho, hdispatch, -⟩ := mem_heldCalls_takeAll hheld
  obtain ⟨earlier, m, later, hlast, -, -, -, hresolution⟩ := mem_openCalls_iff.mp ho
  rw [hdispatch] at hresolution
  have hmem : m ∈ (a.start request world).history := by
    rw [hlast.split]
    exact List.mem_append_right _ List.mem_cons_self
  have hunique : HasUniqueIds m.toolCalls := hasUniqueIds_start hmem
  have hawaits : Awaits (a.start request world).history _ :=
    ⟨earlier, m, later, hlast, hunique, resolution?_eq_dispatch hresolution, rfl⟩
  apply hawaits.takeAll
  rw [hawaits.openCalls_eq, List.map_map]
  exact List.map_id _

/-- Whether the calls that a log holds stand in messages of the assistant. -/
def HeldByAssistant (history : List Message) (log : List Step) : Prop :=
  ∀ held ∈ heldCalls log, ∀ m ∈ history[held.1.message]?, m.role = .assistant

instance (history : List Message) (log : List Step) : Decidable (HeldByAssistant history log) :=
  inferInstanceAs (Decidable (∀ held ∈ heldCalls log, ∀ m ∈ history[held.1.message]?, _))

theorem HeldByAssistant.of_append {history : List Message} {l₁ l₂ : List Step}
    (h : HeldByAssistant history (l₁ ++ l₂)) :
    HeldByAssistant history l₁ ∧ HeldByAssistant history l₂ := by
  unfold HeldByAssistant at h ⊢
  rw [heldCalls_append] at h
  exact List.forall_mem_append.mp h

/-- The calls that are held in a round wait from then on. -/
theorem Rounding.awaits {t t' : Turn σ} {steps : List Step} {verdict : Verdict}
    (h : Rounding a mode auto ids t steps t' verdict) (hrole : HeldByAssistant t'.history steps)
    (hheld : heldCalls steps ≠ []) : Awaits t'.history (heldCalls steps) := by
  cases h with
  | broke =>
    rw [heldCalls_append, heldCalls_cons, heldCalls_heard] at hheld
    exact absurd rfl hheld
  | @spoke deltas completion world m spoken _ hm hspoken =>
    have hhistory : spoken.history = t.history ++ [m] := by
      rw [hspoken]
      rfl
    have hlast := (advances_takeAll a auto (dispatched t.history.length m.toolCalls) spoken).history
    rw [hhistory, List.append_assoc] at hlast
    unfold HeldByAssistant at hrole
    rw [heldCalls_append, heldCalls_cons, heldCalls_heard, heldCalls_cons] at hrole hheld ⊢
    -- the held calls stand in the message of this round
    have hassistant : m.role = .assistant ∧ m.toolCalls ≠ [] := by
      obtain ⟨held, hmem⟩ := List.exists_mem_of_ne_nil _ hheld
      obtain ⟨o, ho, -, hplaced⟩ := mem_heldCalls_takeAll hmem
      obtain ⟨hposition, hcall, -⟩ := mem_dispatched.mp ho
      refine ⟨hrole held hmem m ?_, ?_⟩
      · rw [← hplaced, hlast]
        show _[o.place.message]? = some m
        rw [hposition, List.getElem?_append_right (Nat.le_refl _), Nat.sub_self]
        rfl
      · intro hnil
        rw [hnil] at hcall
        cases hcall
    have hawaits : Awaits spoken.history (unanswered t.history.length m.toolCalls []) := by
      refine ⟨t.history, m, [], ⟨hhistory, ?_, List.forall_mem_nil _⟩,
        hm ▸ uniqueIds_hasUniqueIds _, List.forall_mem_nil _, rfl⟩
      simp [isCalling, Message.hasToolCalls, hassistant]
    exact hawaits.takeAll (unanswered_nil _ _).symm

/-- The calls that are held in the rounds wait when they are over. -/
theorem Conversing.awaits {n : Nat} {t t' : Turn σ} {log : List Step}
    {broken? : Option (String × Failure)} (h : Conversing a mode auto ids n t log t' broken?)
    (hrole : HeldByAssistant t'.history log) (hheld : heldCalls log ≠ []) :
    Awaits t'.history (heldCalls log) := by
  induction h with
  | exhausted => exact absurd rfl hheld
  | waits => exact absurd rfl hheld
  | broke _ round => exact round.awaits hrole hheld
  | rests _ round => exact round.awaits hrole hheld
  | @goesOn n t t' t'' steps more broken? hnone round rest ih =>
    -- another round follows only when none of the calls of this one is held
    by_cases hpending : t'.pending = []
    · have hsteps : heldCalls steps = [] := (round.advances.pending_eq_nil_iff hnone).mp hpending
      rw [heldCalls_append, hsteps, List.nil_append] at hheld ⊢
      exact ih hrole.of_append.2 hheld
    · obtain ⟨rfl, rfl, -⟩ := rest.eq_of_pending hpending
      rw [List.append_nil] at hrole hheld ⊢
      exact round.awaits hrole hheld

/-- **What a turn waits for.**  The calls that are held in a turn wait when it is over. -/
theorem awaits_play {request : Request} {world : σ}
    (hrole : HeldByAssistant (a.play mode ids request world).last.history
      (a.play mode ids request world).log)
    (hpending : (a.play mode ids request world).last.pending ≠ []) :
    Awaits (a.play mode ids request world).last.history
      (heldCalls (a.play mode ids request world).log) := by
  obtain ⟨asked, t, broken?, hasked, hlog, hlast⟩ := exists_conversing_play a mode ids request world
  rw [hlog, hlast] at hrole ⊢
  rw [hlast] at hpending
  cases broken? with
  | some broken =>
    have hnone : (conclude mode t (some broken)).2.pending = [] := by
      cases mode <;> exact hasked.pending_eq_nil
    exact absurd hnone hpending
  | none =>
    rw [heldCalls_append, heldCalls_conclude, List.append_nil, heldCalls_append]
    replace hpending : t.pending ≠ [] := hpending
    show Awaits t.history _
    replace hrole := hrole.of_append.1
    have hresolve := (advances_resolve a request world).pending_eq_nil_iff rfl
    -- the calls were open before, or they were held in a round
    by_cases hresolved : (a.resolve request world).2.pending = []
    · have hheld : heldCalls asked ≠ [] := fun hnil =>
        hpending ((hasked.advances.pending_eq_nil_iff hresolved).mpr hnil)
      rw [hresolve.mp hresolved, List.nil_append]
      exact hasked.awaits hrole.of_append.2 hheld
    · obtain ⟨rfl, rfl, -⟩ := hasked.eq_of_pending hresolved
      rw [heldCalls_nil, List.append_nil]
      exact awaits_resolve fun hnil => hresolved (hresolve.mpr hnil)

end Parley.Agent
