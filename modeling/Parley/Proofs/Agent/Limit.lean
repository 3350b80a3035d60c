import Mathlib.Order.Bounds.Defs
import Parley.Proofs.Agent.Modes
import Parley.Proofs.Agent.Waiting

/-!
# How often the model is asked

Three things stop the rounds of a turn: the limit, a reply that is no message or calls no tool that
runs, and a call that is held.  Which of them comes first decides how often the model is asked
(`length_histories_play`): a reply ends the rounds or does not (`EndsRounds`), and for a model that
answers by a script (`FollowsScript`) the count is the number of the first reply that does, or the
limit.
-/

namespace Parley.Agent

open Chat (Message ToolCall)
open Chat.Message (map_uniqueIds)
open Provider (Model)
open Wire (Completion Failure)

variable {σ : Type} {a : Agent σ} {mode : Mode} {auto : Bool} {ids : Nat → String}

/-! ### Replies that end the rounds -/

/-- The replies of the model behind which it is not asked again. -/
inductive EndsRounds (a : Agent σ) (auto : Bool) : Except Failure Completion → Prop where
  /-- A failure. -/
  | failed (e : Failure) : EndsRounds a auto (.error e)
  /-- A message that calls no tool. -/
  | silent {c : Completion} (h : c.message.toolCalls = []) : EndsRounds a auto (.ok c)
  /-- A message with a call that waits for the client. -/
  | gated {c : Completion} {call : ToolCall} (hcall : call ∈ c.message.toolCalls)
    (hauto : auto = false) (hconfirm : a.needsConfirmation call = true) : EndsRounds a auto (.ok c)

theorem isGated_eq_true_iff {call : ToolCall} :
    a.isGated auto call = true ↔ auto = false ∧ a.needsConfirmation call = true := by
  rw [isGated, Bool.and_eq_true, Bool.not_eq_true']

/-- A message ends the rounds unless it calls tools and all of its calls run. -/
theorem endsRounds_ok_iff {c : Completion} :
    EndsRounds a auto (.ok c) ↔
      c.message.toolCalls = [] ∨ true ∈ c.message.toolCalls.map (a.isGated auto) := by
  constructor
  · intro h
    cases h with
    | silent h => exact Or.inl h
    | gated hcall hauto hconfirm =>
      exact Or.inr (List.mem_map.mpr ⟨_, hcall, isGated_eq_true_iff.mpr ⟨hauto, hconfirm⟩⟩)
  · rintro (h | h)
    · exact .silent h
    · obtain ⟨call, hcall, hgated⟩ := List.mem_map.mp h
      obtain ⟨hauto, hconfirm⟩ := isGated_eq_true_iff.mp hgated
      exact .gated hcall hauto hconfirm

/-- Of the calls of a message none is held when none is gated. -/
theorem heldCalls_dispatched_eq_nil_iff {position : Nat} {calls : List ToolCall} {t : Turn σ} :
    heldCalls (a.takeAll auto (dispatched position calls) t).1 = [] ↔
      true ∉ calls.map (a.isGated auto) := by
  rw [heldCalls_takeAll, List.map_eq_nil_iff, List.filter_eq_nil_iff,
    ← map_holds_dispatched a auto position, List.mem_map]
  push Not
  rfl

/-- Of the calls of a message one is settled when one is not gated. -/
theorem any_isSettled_dispatched_iff {position : Nat} {calls : List ToolCall} {t : Turn σ} :
    (a.takeAll auto (dispatched position calls) t).1.any Step.isSettled = true ↔
      false ∈ calls.map (a.isGated auto) := by
  rw [any_isSettled_takeAll, List.any_eq_true, ← map_holds_dispatched a auto position, List.mem_map]
  simp only [Bool.not_eq_true']

/-- Another round follows exactly when the reply does not end them. -/
theorem Rounding.not_endsRounds_iff {t t' : Turn σ} {steps : List Step} {verdict : Verdict}
    (h : Rounding a mode auto ids t steps t' verdict) (hnone : t.pending = []) :
    ¬ EndsRounds a auto (a.ask mode t.history t.world).1.result ↔
      verdict = .goesOn ∧ t'.pending = [] := by
  cases h with
  | broke hask =>
    rw [hask]
    exact ⟨fun h => absurd (.failed _) h, fun h => nomatch h.1⟩
  | @spoke deltas completion world m spoken hask hm hspoken =>
    have hspokenNone : spoken.pending = [] := by
      rw [hspoken]
      exact hnone
    -- ids make no difference to which calls are gated
    have hgates : m.toolCalls.map (a.isGated auto) =
        completion.message.toolCalls.map (a.isGated auto) := by
      rw [hm]
      exact map_uniqueIds (fun _ _ => rfl) _
    rw [hask, endsRounds_ok_iff, Verdict.ite_eq_goesOn_iff, any_isSettled_dispatched_iff,
      (advances_takeAll a auto _ spoken).pending_eq_nil_iff hspokenNone,
      heldCalls_dispatched_eq_nil_iff, hgates, ← List.map_eq_nil_iff (f := a.isGated auto), not_or]
    refine and_congr_left fun hfree => ?_
    constructor
    · intro hne
      obtain ⟨b, hb⟩ := List.exists_mem_of_ne_nil _ hne
      cases b with
      | false => exact hb
      | true => exact absurd hb hfree
    · exact List.ne_nil_of_mem

/-! ### Scripts -/

/-- Whether the model of an agent answers by a script: the first reply has the number one, `answers`
counts the replies that were given, and no tool changes the count. -/
structure FollowsScript (a : Agent σ) (mode : Mode) (script : Nat → Except Failure Completion)
    (answers : σ → Nat) : Prop where
  /-- The model gives the reply that is next. -/
  reply : ∀ history world, (a.ask mode history world).1.result = script (answers world + 1)
  /-- A reply that was given counts. -/
  counts : ∀ history world, answers (a.ask mode history world).2 = answers world + 1
  /-- Tools leave the script alone. -/
  handler : ∀ tool ∈ a.registry.tools, ∀ arguments world,
    answers (tool.handler arguments world).2 = answers world

/-- One round that does not end the rounds puts the count one up. -/
theorem isLeast_succ {P : Nat → Prop} {n count : Nat} (hfirst : ¬ P 1) (hn : 0 < n)
    (h : IsLeast {k | 1 ≤ k ∧ (k = n ∨ P (1 + k))} count) :
    IsLeast {k | 1 ≤ k ∧ (k = n + 1 ∨ P k)} (count + 1) := by
  obtain ⟨⟨-, hends⟩, hleast⟩ := h
  refine ⟨⟨Nat.le_add_left 1 count, ?_⟩, ?_⟩
  · rw [Nat.add_comm 1] at hends
    exact hends.imp_left (congrArg (· + 1))
  · rintro k ⟨hk, hends⟩
    obtain ⟨k, rfl⟩ := Nat.exists_eq_add_of_le hk
    have hpos : k ≠ 0 := by
      rintro rfl
      rcases hends with hlimit | hends
      · omega
      · exact hfirst hends
    have hmem : k ∈ {k | 1 ≤ k ∧ (k = n ∨ P (1 + k))} :=
      ⟨Nat.pos_of_ne_zero hpos, hends.imp_left fun hlimit => by omega⟩
    have hle := hleast hmem
    omega

namespace FollowsScript

variable {script : Nat → Except Failure Completion} {answers : σ → Nat}

theorem taking (h : FollowsScript a mode script answers) {o : OpenCall} {t t' : Turn σ} {s : Step}
    (taking : Taking a auto o t s t') : answers t'.world = answers t.world := by
  cases taking with
  | canceled => rfl
  | held => rfl
  | @ran fate world hrun =>
    have hrunning := running_runCall a o.call t.world
    rw [hrun] at hrunning
    show answers world = answers t.world
    cases hrunning with
    | unknown => rfl
    | unreadable => rfl
    | invoked htool => exact h.handler _ (Registry.mem_of_lookup htool) _ _

/-- Calls are taken up without the model. -/
theorem takeAll (h : FollowsScript a mode script answers) (opens : List OpenCall) (t : Turn σ) :
    answers (a.takeAll auto opens t).2.world = answers t.world := by
  induction opens generalizing t with
  | nil => rfl
  | cons o rest ih =>
    rw [takeAll_cons, ih]
    exact h.taking (taking_take a auto o t)

/-- A round takes one reply. -/
theorem rounding (h : FollowsScript a mode script answers) {t t' : Turn σ} {steps : List Step}
    {verdict : Verdict} (round : Rounding a mode auto ids t steps t' verdict) :
    answers t'.world = answers t.world + 1 := by
  have hcounts := h.counts t.history t.world
  cases round with
  | broke hask =>
    rw [hask] at hcounts
    exact hcounts
  | spoke hask _ hspoken =>
    rw [hask] at hcounts
    rw [h.takeAll, hspoken]
    exact hcounts

/-- **The count of rounds.**  The model is asked until its reply ends the rounds or the limit is
reached. -/
theorem isLeast_histories (h : FollowsScript a mode script answers) {n : Nat} {t t' : Turn σ}
    {log : List Step} {broken? : Option (String × Failure)}
    (hrounds : Conversing a mode auto ids n t log t' broken?) (hn : 0 < n)
    (hnone : t.pending = []) :
    IsLeast {k | 1 ≤ k ∧ (k = n ∨ EndsRounds a auto (script (answers t.world + k)))}
      (histories log).length := by
  -- a round that none follows
  have hone : ∀ {n : Nat} {t t' : Turn σ} {steps : List Step} {verdict : Verdict}, t.pending = [] →
      Rounding a mode auto ids t steps t' verdict → ¬ (verdict = .goesOn ∧ t'.pending = []) →
      IsLeast {k | 1 ≤ k ∧ (k = n ∨ EndsRounds a auto (script (answers t.world + k)))}
        (histories steps).length := by
    intro n t t' steps verdict hnone round hstops
    rw [← round.not_endsRounds_iff hnone, Classical.not_not, h.reply] at hstops
    rw [round.histories]
    exact ⟨⟨Nat.le_refl 1, Or.inr hstops⟩, fun k hk => hk.1⟩
  induction hrounds with
  | exhausted => exact absurd hn (Nat.lt_irrefl 0)
  | waits hheld => exact absurd hnone hheld
  | broke _ round => exact hone hnone round fun hgoes => nomatch hgoes.1
  | rests _ round => exact hone hnone round fun hgoes => nomatch hgoes.1
  | @goesOn n t t' t'' steps more broken? _ round rest ih =>
    by_cases hpending : t'.pending = []
    · have hfirst : ¬ EndsRounds a auto (script (answers t.world + 1)) := by
        rw [← h.reply t.history]
        exact (round.not_endsRounds_iff hnone).mpr ⟨rfl, hpending⟩
      rw [histories_append, round.histories, List.length_append, List.length_singleton,
        Nat.add_comm 1 (histories more).length]
      by_cases hlast : n = 0
      · -- the limit is reached
        subst hlast
        cases rest
        exact ⟨⟨Nat.le_refl 1, Or.inl rfl⟩, fun k hk => hk.1⟩
      · -- the script goes on where this round left it
        have hmore := ih (Nat.pos_of_ne_zero hlast) hpending
        simp only [h.rounding round, Nat.add_assoc] at hmore
        exact isLeast_succ (P := fun k => EndsRounds a auto (script (answers t.world + k))) hfirst
          (Nat.pos_of_ne_zero hlast) hmore
    · -- calls ran, but one is held
      obtain ⟨rfl, -, -⟩ := rest.eq_of_pending hpending
      rw [List.append_nil]
      exact hone hnone round fun hgoes => hpending hgoes.2

end FollowsScript

/-- A scripted agent answers by its script, however it is asked. -/
theorem followsScript_scripted (script : Nat → Except Failure Completion) (mode : Mode) :
    FollowsScript (Sample.scripted script) mode script id := by
  have halike : StreamsAlike (Sample.scripted script).model := streamsAs_streamOf _
  refine ⟨fun history answers => ?_, fun history answers => ?_,
    fun tool htool arguments answers => ?_⟩
  · cases mode with
    | whole => rfl
    | streamed => exact (ask_streamed_eq halike history answers).1
  · cases mode with
    | whole => rfl
    | streamed => exact (ask_streamed_eq halike history answers).2
  · obtain ⟨tool, -, rfl⟩ := List.mem_map.mp htool
    rfl

/-- **How often the model is asked.**  A turn asks the model not at all while a call that was open
waits, and never more often than the limit says.  If the model answers by a script, and no call
waits, it is asked until a reply ends the rounds, or as often as the limit says: the count is the
least number that is the limit or the number of such a reply. -/
theorem length_histories_play (a : Agent σ) (mode : Mode) (ids : Nat → String) (request : Request)
    (world : σ) :
    ((a.resolve request world).2.pending ≠ [] →
      (histories (a.play mode ids request world).log).length = 0) ∧
    (histories (a.play mode ids request world).log).length ≤ a.maxRounds ∧
    ∀ script answers, FollowsScript a mode script answers → answers world = 0 →
      (a.resolve request world).2.pending = [] →
      IsLeast {n | 1 ≤ n ∧ (n = a.maxRounds ∨ EndsRounds a request.autoExecute (script n))}
        (histories (a.play mode ids request world).log).length := by
  obtain ⟨asked, t, broken?, hasked, hlog, -⟩ := exists_conversing_play a mode ids request world
  have hhistories : histories (a.play mode ids request world).log = histories asked := by
    rw [hlog, histories_eq]
  refine ⟨?_, ?_, ?_⟩
  · intro hpending
    rw [histories_play_eq_nil_iff.mpr hpending]
    rfl
  · rw [hhistories]
    exact hasked.speeches.1
  · intro script answers hscript hfirst hnone
    have hcount := hscript.isLeast_histories hasked a.maxRounds_pos hnone
    have hresolved : answers (a.resolve request world).2.world = 0 :=
      (hscript.takeAll _ _).trans hfirst
    simp only [hresolved, Nat.zero_add] at hcount
    rw [hhistories]
    exact hcount

/-- A script by which the model calls `ls` at first, and from then on `ls` and `rm`. -/
def removingScript : Nat → Except Failure Completion
  | 1 => .ok { message := Sample.calling [Sample.call "c1" "ls"] }
  | _ => .ok { message := Sample.calling [Sample.call "c1" "ls", Sample.call "c2" "rm"] }

/-- A request whose conversation waits for the client. -/
def removingRequest : Request where
  messages := [Sample.calling [Sample.call "c1" "rm"]]

/-- The model is asked twice, because the call of `rm` in its second reply is held; and it is not
asked while such a call waits from before. -/
theorem length_histories_play_rm :
    ((Sample.scripted removingScript).resolve removingRequest 0).2.pending ≠ [] ∧
      (histories ((Sample.scripted removingScript).play .streamed (fun _ => "a0")
        removingRequest 0).log).length = 0 ∧
      FollowsScript (Sample.scripted removingScript) .streamed removingScript id ∧
      ((Sample.scripted removingScript).resolve { messages := [] } 0).2.pending = [] ∧
      IsLeast {n | 1 ≤ n ∧
        (n = 4 ∨ EndsRounds (Sample.scripted removingScript) false (removingScript n))} 2 := by
  have hscript := followsScript_scripted removingScript .streamed
  have hpending : ((Sample.scripted removingScript).resolve removingRequest 0).2.pending ≠ [] :=
    List.cons_ne_nil _ _
  refine ⟨hpending, ?_, hscript, rfl, ?_⟩
  · exact (length_histories_play (Sample.scripted removingScript) .streamed (fun _ => "a0")
      removingRequest 0).1 hpending
  · exact (length_histories_play (Sample.scripted removingScript) .streamed (fun _ => "a0")
      { messages := [] } 0).2.2 removingScript id hscript rfl rfl

end Parley.Agent
