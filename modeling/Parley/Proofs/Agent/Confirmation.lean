import Parley.Proofs.Agent.Place
import Parley.Proofs.Agent.Sample

/-!
# The confirmation gate

While tools do not run without confirmation, a tool that requires it receives only the calls that
the client approved (`approved_of_invoked`).  Two facts close the two ways around:

* `Conversing.isGated_eq_false`: a call of the model's own answers is never approved, it is
  dispatched, and a call that is dispatched runs only if it is not gated.
* `exists_lastCalling_of_resolved`: a call that the conversation left open and that runs although it
  is gated was not dispatched, so its id is among the approved ones.
-/

namespace Parley.Agent

open Chat (Arguments Message PendingCall ToolCall)
open Wire (Completion Failure)

variable {σ : Type} {a : Agent σ} {mode : Mode} {auto : Bool} {ids : Nat → String}

/-! ### Calls of the model -/

/-- A call that is settled in a round is not gated. -/
theorem Conversing.isGated_eq_false {n : Nat} {t t' : Turn σ} {log : List Step}
    {broken? : Option (String × Failure)} (h : Conversing a mode auto ids n t log t' broken?)
    {place : Place} {call : ToolCall} {fate : Fate} (hmem : .settled place call fate ∈ log) :
    a.isGated auto call = false := by
  cases h.ofRound _ hmem with
  | taken hdispatch taking =>
    cases taking with
    | canceled hcancel => exact absurd (hcancel.symm.trans hdispatch) (by decide)
    | ran _ hres =>
      rcases hres with hexecute | ⟨-, hgated⟩
      · exact absurd (hexecute.symm.trans hdispatch) (by decide)
      · exact hgated

/-- The end of a turn settles no call. -/
theorem settled_not_mem_conclude {t : Turn σ} {broken? : Option (String × Failure)} {place : Place}
    {call : ToolCall} {fate : Fate} : .settled place call fate ∉ (conclude mode t broken?).1 := by
  intro hmem
  rcases mem_conclude hmem with ⟨calls, h⟩ | ⟨id, e, h⟩ | h <;> cases h

/-! ### Calls of the client's conversation -/

/-- A gated call that the conversation left open runs only if it was approved. -/
theorem exists_lastCalling_of_resolved {request : Request} {world : σ} {place : Place}
    {call : ToolCall} {arguments : Arguments} {result : Except Chat.ToolError Tool.Output}
    (hgated : a.isGated request.autoExecute call = true)
    (h : .settled place call (.ran arguments result) ∈ (a.resolve request world).1) :
    ∃ earlier m later,
      LastCalling (request.messages.map Message.normalizeIds) earlier m later ∧
      place.message = earlier.length + 1 ∧ m.toolCalls[place.call]? = some call ∧
      call.id ∈ request.approved ∧ call.id ∉ request.rejected ∧ call.id ∉ answeredIds later := by
  obtain ⟨o, ho, t₀, t₁, taking⟩ := exists_taking_of_mem_takeAll a _ h
  obtain ⟨earlier, m, later, hlast, hposition, hcall, hfree, hresolution⟩ := mem_openCalls_iff.mp ho
  obtain ⟨earlier', rfl, hlast'⟩ := hlast.of_cons rfl
  cases taking with
  | ran _ hres =>
    have hexecute : o.resolution = .execute := by
      rcases hres with hexecute | ⟨-, hfree⟩
      · exact hexecute
      · rw [hgated] at hfree
        cases hfree
    rw [hexecute] at hresolution
    obtain ⟨happroved, hrejected⟩ := resolution?_eq_execute hresolution
    exact ⟨earlier', m, later, hlast', hposition, hcall, happroved, hrejected, hfree⟩

/-! ### The gate -/

/-- **The confirmation gate.**  While tools do not run without confirmation, a tool that requires it
is invoked only when a turn takes up what the conversation left open, before the model is asked, and
only for a call of the last message of the conversation that calls tools, whose id is approved, not
rejected and answered by no tool message behind it. -/
theorem approved_of_invoked (a : Agent σ) (mode : Mode) (ids : Nat → String) (request : Request)
    (world : σ) (hauto : request.autoExecute = false) {before after : List Step} {place : Place}
    {call : ToolCall} {arguments : Arguments} {result : Except Chat.ToolError Tool.Output}
    (hlog : (a.play mode ids request world).log =
      before ++ .settled place call (.ran arguments result) :: after)
    (hconfirm : a.needsConfirmation call = true) :
    (∃ rest, (a.resolve request world).1 =
      before ++ .settled place call (.ran arguments result) :: rest) ∧
    histories before = [] ∧
    ∃ earlier m later,
      LastCalling (request.messages.map Message.normalizeIds) earlier m later ∧
      place.message = earlier.length + 1 ∧ m.toolCalls[place.call]? = some call ∧
      call.id ∈ request.approved ∧ call.id ∉ request.rejected ∧
      ∀ r ∈ later, r.role = .tool → r.toolCallId? ≠ some call.id := by
  have hgated : a.isGated request.autoExecute call = true := by
    rw [isGated, hauto, hconfirm]
    rfl
  obtain ⟨asked, t, broken?, hasked, hplay, -⟩ := exists_conversing_play a mode ids request world
  -- the step stands among those that take up open calls
  have hlater :
      .settled place call (.ran arguments result) ∉ asked ++ (conclude mode t broken?).1 := by
    intro hmem
    rcases List.mem_append.mp hmem with hmem | hmem
    · rw [hasked.isGated_eq_false hmem] at hgated
      cases hgated
    · exact settled_not_mem_conclude hmem
  rw [hplay, List.append_assoc] at hlog
  obtain ⟨rest, hrest⟩ := exists_eq_append_cons_of_not_mem hlog hlater
  refine ⟨⟨rest, hrest⟩, ?_, ?_⟩
  · have hnone := histories_resolve a request world
    rw [hrest, histories_append] at hnone
    exact (List.append_eq_nil_iff.mp hnone).1
  · have hmem : .settled place call (.ran arguments result) ∈ (a.resolve request world).1 := by
      rw [hrest]
      exact List.mem_append_right _ List.mem_cons_self
    obtain ⟨earlier, m, later, hlast, hposition, hcall, happroved, hrejected, hfree⟩ :=
      exists_lastCalling_of_resolved hgated hmem
    refine ⟨earlier, m, later, hlast, hposition, hcall, happroved, hrejected, ?_⟩
    intro r hr hrole hid
    exact hfree (mem_answeredIds.mpr ⟨r, hr, hrole, hid⟩)

/-- A conversation in which `ls` has its answer and `rm` waits, is approved, and is about to run. -/
def approvingRequest : Request where
  messages := [Sample.calling [Sample.call "c1" "ls", Sample.call "" "rm"], .tool "c1" "[]"]
  approved := ["call_1"]

/-- The gate opens for the call whose generated id is approved. -/
theorem approved_of_invoked_rm :
    ∃ before after,
      (Sample.agent.play .streamed (fun _ => "a0") approvingRequest []).log =
        before ++ .settled ⟨1, 1⟩ (Sample.call "call_1" "rm") (.ran [] (.ok (.entries "" []))) ::
          after ∧
      Sample.agent.needsConfirmation (Sample.call "call_1" "rm") = true ∧ histories before = [] ∧
      "call_1" ∈ approvingRequest.approved := by
  have hlog : (Sample.agent.play .streamed (fun _ => "a0") approvingRequest []).log =
      [] ++ .settled ⟨1, 1⟩ (Sample.call "call_1" "rm") (.ran [] (.ok (.entries "" []))) ::
        (Sample.agent.play .streamed (fun _ => "a0") approvingRequest []).log.tail := rfl
  obtain ⟨-, hbefore, -, -, -, -, -, -, happroved, -⟩ :=
    approved_of_invoked Sample.agent .streamed (fun _ => "a0") approvingRequest
      [] rfl hlog (by decide)
  exact ⟨[], _, hlog, by decide, hbefore, happroved⟩

end Parley.Agent
