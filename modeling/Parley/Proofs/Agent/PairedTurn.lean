import Parley.Proofs.Agent.Asking
import Parley.Proofs.Agent.Pairing
import Parley.Proofs.Agent.Sample

/-!
# Paired histories in a turn

When the conversation of a request is paired, or lacks results of its last calls alone, the model is
given paired histories as long as it calls tools in messages of the assistant
(`paired_iff_callsAsAssistant`).

Taking up calls records a result of each call that is not held, and while a call is held the model
is not asked.  So the open calls of the request get the results that they lack (`paired_resolve`),
and each round that another one follows adds calls with all their results
(`Rounding.exists_exchange`).  A model that calls tools in a message of another role gets the
results all the same, but they belong to no message of the assistant: from then on no history is
paired.
-/

namespace Parley.Agent

open Chat (Message)

variable {σ : Type} {a : Agent σ} {mode : Mode} {auto : Bool} {ids : Nat → String}

/-! ### Who calls tools -/

/-- What the model says in a step. -/
def Step.said? : Step → Option Message
  | .said _ m => some m
  | _ => none

/-- Whether the messages of the model that call tools are messages of the assistant. -/
def CallsAsAssistant (log : List Step) : Prop :=
  ∀ m ∈ log.filterMap Step.said?, m.toolCalls ≠ [] → m.role = .assistant

instance (log : List Step) : Decidable (CallsAsAssistant log) :=
  inferInstanceAs (Decidable (∀ m ∈ log.filterMap Step.said?, _))

theorem callsAsAssistant_append {l₁ l₂ : List Step} :
    CallsAsAssistant (l₁ ++ l₂) ↔ CallsAsAssistant l₁ ∧ CallsAsAssistant l₂ := by
  rw [CallsAsAssistant, List.filterMap_append, List.forall_mem_append]
  rfl

theorem callsAsAssistant_cons {s : Step} {log : List Step} :
    CallsAsAssistant (s :: log) ↔
      (∀ m ∈ s.said?, m.toolCalls ≠ [] → m.role = .assistant) ∧ CallsAsAssistant log := by
  unfold CallsAsAssistant
  cases h : s.said? <;> simp [h]

/-- Where the model says nothing, it calls no tool. -/
theorem callsAsAssistant_of_forall {log : List Step} (h : ∀ s ∈ log, s.said? = none) :
    CallsAsAssistant log := by
  rw [CallsAsAssistant, List.filterMap_eq_nil_iff.mpr h]
  exact List.forall_mem_nil _

theorem callsAsAssistant_takeAll (a : Agent σ) (auto : Bool) (opens : List OpenCall) (t : Turn σ) :
    CallsAsAssistant (a.takeAll auto opens t).1 := by
  refine callsAsAssistant_of_forall fun s hs => ?_
  obtain ⟨o, -, t₀, t₁, taking⟩ := exists_taking_of_mem_takeAll a auto hs
  cases taking <;> rfl

/-- In a round one message of the model matters. -/
theorem callsAsAssistant_spoke (a : Agent σ) (auto : Bool) (id : String) (history : List Message)
    (deltas : List String) (m : Message) (opens : List OpenCall) (t : Turn σ) :
    CallsAsAssistant
        (.asked id history :: deltas.map (.heard id) ++ .said id m :: (a.takeAll auto opens t).1) ↔
      (m.toolCalls ≠ [] → m.role = .assistant) := by
  have hopening : CallsAsAssistant (.asked id history :: deltas.map (.heard id)) :=
    callsAsAssistant_of_forall (by simp [Step.said?])
  rw [callsAsAssistant_append, and_iff_right hopening, callsAsAssistant_cons,
    and_iff_left (callsAsAssistant_takeAll a auto opens t)]
  simp [Step.said?]

/-! ### Results of all calls -/

/-- When no call is held, the messages that are recorded are the results of all calls. -/
theorem answers_takeAll {opens : List OpenCall} {t : Turn σ}
    (h : heldCalls (a.takeAll auto opens t).1 = []) :
    Answers (messages (a.takeAll auto opens t).1) (opens.map (·.call.id)) where
  isResult x hx := (isResult_of_mem_takeAll a auto hx).1
  perm := by
    rw [heldCalls_takeAll, List.map_eq_nil_iff, List.filter_eq_nil_iff] at h
    have hall : opens.filter (!a.holds auto ·) = opens := by
      refine List.filter_eq_self.mpr fun o ho => ?_
      rw [Bool.eq_false_iff.mpr (h o ho)]
      rfl
    rw [map_toolCallId?_takeAll, hall, List.map_map]
    rfl

/-- **The conversation of a request.**  When it is paired, or would be with results of its last
calls, then it is so after the open calls are taken up, unless one of them is held. -/
theorem paired_resolve {request : Request} {world : σ}
    (h : Paired (request.messages.map Message.normalizeIds) ∨
      AnsweredInPart (request.messages.map Message.normalizeIds))
    (hnone : (a.resolve request world).2.pending = []) :
    Paired (a.resolve request world).2.history := by
  have hadvances := advances_resolve a request world
  have hanswers := answers_takeAll ((hadvances.pending_eq_nil_iff rfl).mp hnone)
  rw [hadvances.history]
  refine paired_append_of_answers ?_ (fun m hm => hasUniqueIds_start hm) hanswers
  exact h.imp (.plain rfl rfl) (AnsweredInPart.cons rfl rfl)

/-- A round that another one follows adds a message that calls tools, and the results of all
calls. -/
theorem Rounding.exists_exchange {t t' : Turn σ} {steps : List Step}
    (h : Rounding a mode auto ids t steps t' .goesOn) (hnone : t.pending = [])
    (hnone' : t'.pending = []) :
    ∃ m r results, messages steps = m :: r :: results ∧
      Answers (r :: results) (m.toolCalls.map (·.id)) ∧
      (CallsAsAssistant steps ↔ isCalling m = true) := by
  have hheld := (h.advances.pending_eq_nil_iff hnone).mp hnone'
  generalize hverdict : Verdict.goesOn = verdict at h
  cases h with
  | broke => cases hverdict
  | @spoke deltas completion world m spoken _ _ _ =>
    split at hverdict
    case isFalse => cases hverdict
    rename_i hsettled
    rw [heldCalls_append, heldCalls_cons, heldCalls_heard, heldCalls_cons] at hheld
    have hanswers := answers_takeAll hheld
    rw [map_id_dispatched] at hanswers
    -- a call was settled, so that there is one
    have hcalls : m.toolCalls ≠ [] := by
      intro hnil
      rw [hnil] at hsettled
      cases hsettled
    obtain ⟨r, results, hresults⟩ : ∃ r results,
        messages (a.takeAll auto (dispatched t.history.length m.toolCalls) spoken).1 =
          r :: results := by
      refine List.exists_cons_of_ne_nil fun hnil => hcalls ?_
      rw [hnil, answers_nil_iff] at hanswers
      exact List.map_eq_nil_iff.mp hanswers
    rw [hresults] at hanswers
    refine ⟨m, r, results, ?_, hanswers, ?_⟩
    · rw [messages_append, messages_cons, messages_heard, messages_cons, hresults]
      rfl
    · rw [callsAsAssistant_spoke]
      simp [isCalling, Message.hasToolCalls, hcalls]

/-! ### Histories that the model is given -/

theorem Rounding.paired {t t' : Turn σ} {steps : List Step}
    (h : Rounding a mode auto ids t steps t' .goesOn) (hnone : t.pending = [])
    (hnone' : t'.pending = []) (hpaired : Paired t.history) (hcalls : CallsAsAssistant steps) :
    Paired t'.history := by
  obtain ⟨m, r, results, hmessages, hanswers, hrole⟩ := h.exists_exchange hnone hnone'
  have hexchange : Paired (m :: ((r :: results) ++ [])) := .exchange (hrole.mp hcalls) hanswers .nil
  rw [List.append_nil] at hexchange
  rw [h.advances.history, hmessages]
  exact hpaired.append hexchange

theorem Rounding.due?_eq_none {t t' : Turn σ} {steps : List Step}
    (h : Rounding a mode auto ids t steps t' .goesOn) (hnone : t.pending = [])
    (hnone' : t'.pending = []) (hpaired : Paired t.history) (hcalls : ¬ CallsAsAssistant steps) :
    due? [] t'.history = none := by
  obtain ⟨m, r, results, hmessages, hanswers, hrole⟩ := h.exists_exchange hnone hnone'
  rw [h.advances.history, hmessages]
  exact hpaired.due?_append_result (Bool.eq_false_iff.mpr fun h => hcalls (hrole.mpr h))
    (hanswers.isResult r List.mem_cons_self)

/-- Rounds lead from a paired history to a paired one when the model calls tools as the assistant,
and never otherwise. -/
theorem LeadsTo.paired_iff {t t' : Turn σ} {log : List Step} (h : LeadsTo a mode auto ids t log t')
    (hpaired : Paired t.history) : Paired t'.history ↔ CallsAsAssistant log := by
  induction h with
  | here => exact iff_of_true hpaired (List.forall_mem_nil _)
  | @after t t' t'' steps more hnone round rest ih =>
    rw [callsAsAssistant_append]
    -- a round that breaks the pairing breaks it for good
    by_cases hcalls : CallsAsAssistant steps
    · rw [ih (round.paired hnone rest.pending_eq_nil hpaired hcalls), and_iff_right hcalls]
    · refine iff_of_false ?_ fun h => hcalls h.1
      rw [rest.advances.history]
      exact not_paired_append (round.due?_eq_none hnone rest.pending_eq_nil hpaired hcalls) _

/-- **Paired histories.**  When the conversation of a request is paired, or would be with results of
its last calls, then what the model is given is paired exactly as long as the model has called tools
in messages of the assistant alone. -/
theorem paired_iff_callsAsAssistant {request : Request} {world : σ}
    (hrequest : Paired (request.messages.map Message.normalizeIds) ∨
      AnsweredInPart (request.messages.map Message.normalizeIds))
    {before after : List Step} {id : String} {history : List Message}
    (hlog : (a.play mode ids request world).log = before ++ .asked id history :: after) :
    Paired history ↔ CallsAsAssistant before := by
  obtain ⟨asked, t, rfl, hleads, rfl⟩ := exists_leadsTo_of_asked hlog
  rw [hleads.paired_iff (paired_resolve hrequest hleads.pending_eq_nil), callsAsAssistant_append]
  have hresolve : CallsAsAssistant (a.resolve request world).1 :=
    callsAsAssistant_takeAll a request.autoExecute _ _
  exact (and_iff_right hresolve).symm

/-- A request whose conversation lacks the result of a call. -/
def halfAnsweredRequest : Request where
  messages := [Sample.calling [Sample.call "c1" "ls", Sample.call "c2" "ls"], .tool "c2" "[]"]

/-- What the model says in two rounds: it calls `ls` once more, and then it is done. -/
def callingScript : List Message := [Sample.calling [Sample.call "c3" "ls"], .assistant]

/-- The turn runs the call that lacks its result, and the one that the model makes: the second time
too the model is given a paired history. -/
theorem paired_iff_callsAsAssistant_ls :
    ∃ before history after,
      (Sample.agent.play .whole (fun _ => "a0") halfAnsweredRequest callingScript).log =
        before ++ .asked "a0" history :: after ∧
      (histories before).length = 1 ∧ Paired history := by
  have hanswers : Answers [.tool "c2" "[]"] ["c2"] := ⟨by decide, .refl _⟩
  have hrequest : AnsweredInPart (halfAnsweredRequest.messages.map Message.normalizeIds) :=
    ⟨[], _, _, _, rfl, .nil, rfl, hanswers, by decide, by decide⟩
  have hlog : (Sample.agent.play .whole (fun _ => "a0") halfAnsweredRequest callingScript).log =
      (Sample.agent.play .whole (fun _ => "a0") halfAnsweredRequest callingScript).log.take 4 ++
        .asked "a0" (Sample.agent.play .whole (fun _ => "a0") halfAnsweredRequest
          callingScript).last.history.dropLast ::
        (Sample.agent.play .whole (fun _ => "a0") halfAnsweredRequest callingScript).log.drop 5 :=
    rfl
  have hpaired := (paired_iff_callsAsAssistant (Or.inr hrequest) hlog).mpr (by decide)
  exact ⟨_, _, _, hlog, rfl, hpaired⟩

/-- A request without calls. -/
def plainRequest : Request where
  messages := [{ role := .user }]

/-- What a model says that calls `ls` in a message of the user. -/
def userScript : List Message :=
  [{ role := .user, toolCalls := [Sample.call "c1" "ls"] }, .assistant]

/-- A call in a message of the user runs, and its result belongs to no message of the assistant. -/
theorem not_paired_of_user :
    Paired (plainRequest.messages.map Message.normalizeIds) ∧
      ∃ history ∈ histories (Sample.agent.play .whole (fun _ => "a0") plainRequest userScript).log,
        ¬ Paired history := by
  decide

end Parley.Agent
