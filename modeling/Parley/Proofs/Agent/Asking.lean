import Parley.Proofs.Agent.State

/-!
# When the model is asked

The model is asked in states that whole rounds lead to (`LeadsTo`): each of these rounds has run
calls and left none waiting.  So the steps before a question are known (`exists_leadsTo_of_asked`),
and what such rounds keep holds whenever the model is asked.
-/

namespace Parley.Agent

open Chat (Message)
open Wire (Failure)

variable {σ : Type} {a : Agent σ} {mode : Mode} {auto : Bool} {ids : Nat → String}

/-! ### Rounds that another one follows -/

/-- How rounds lead to a state in which the model is asked: the steps, and the states before and
after them. -/
inductive LeadsTo (a : Agent σ) (mode : Mode) (auto : Bool) (ids : Nat → String) :
    Turn σ → List Step → Turn σ → Prop where
  /-- The model is asked at once. -/
  | here {t : Turn σ} (h : t.pending = []) : LeadsTo a mode auto ids t [] t
  /-- A round in which calls run comes before. -/
  | after {t t' t'' : Turn σ} {steps more : List Step} (h : t.pending = [])
    (round : Rounding a mode auto ids t steps t' .goesOn)
    (rest : LeadsTo a mode auto ids t' more t'') : LeadsTo a mode auto ids t (steps ++ more) t''

theorem LeadsTo.advances {t t' : Turn σ} {log : List Step} (h : LeadsTo a mode auto ids t log t') :
    Advances t log t' := by
  induction h with
  | here => exact .refl _
  | after _ round _ ih => exact round.advances.trans ih

/-- No call waits when such rounds begin. -/
theorem LeadsTo.pending_eq_nil {t t' : Turn σ} {log : List Step}
    (h : LeadsTo a mode auto ids t log t') : t.pending = [] := by
  cases h with
  | here hnone => exact hnone
  | after hnone => exact hnone

/-- No call waits when the model is asked. -/
theorem LeadsTo.pending_last {t t' : Turn σ} {log : List Step}
    (h : LeadsTo a mode auto ids t log t') :
    t'.pending = [] := by
  induction h with
  | here hnone => exact hnone
  | after _ _ _ ih => exact ih

/-! ### Questions -/

/-- A round begins with its question, and has no other. -/
theorem Rounding.exists_eq_cons {t t' : Turn σ} {steps : List Step} {verdict : Verdict}
    (h : Rounding a mode auto ids t steps t' verdict) :
    ∃ rest, steps = .asked (ids t.rounds) t.history :: rest ∧ Agent.histories rest = [] := by
  have hone := h.histories
  cases h
  all_goals
    refine ⟨_, rfl, ?_⟩
    rw [List.cons_append, histories_cons] at hone
    exact (List.cons.inj hone).2

/-- A question in a round or behind it is the one that the round begins with, or it comes behind the
whole round. -/
theorem Rounding.asked_or {t t' : Turn σ} {steps more before after : List Step} {verdict : Verdict}
    {id : String} {history : List Message} (h : Rounding a mode auto ids t steps t' verdict)
    (hlog : steps ++ more = before ++ .asked id history :: after) :
    (before = [] ∧ history = t.history) ∨
      ∃ rest, before = steps ++ rest ∧ more = rest ++ .asked id history :: after := by
  obtain ⟨rest, rfl, hrest⟩ := h.exists_eq_cons
  cases before with
  | nil =>
    rw [List.nil_append, List.cons_append, List.cons.injEq, Step.asked.injEq] at hlog
    exact Or.inl ⟨rfl, hlog.1.2.symm⟩
  | cons s before =>
    rw [List.cons_append, List.cons_append, List.cons.injEq] at hlog
    obtain ⟨rfl, hlog⟩ := hlog
    obtain ⟨rest', rfl, hmore⟩ := exists_eq_append_of_not_mem hlog (asked_not_mem hrest)
    exact Or.inr ⟨rest', rfl, hmore⟩

/-- Rounds begin with a question unless a call is held. -/
theorem Conversing.exists_eq_cons {n : Nat} {t t' : Turn σ} {log : List Step}
    {broken? : Option (String × Failure)} (h : Conversing a mode auto ids n t log t' broken?)
    (hn : 0 < n) (hnone : t.pending = []) :
    ∃ rest, log = .asked (ids t.rounds) t.history :: rest := by
  cases h with
  | exhausted => exact absurd hn (Nat.lt_irrefl 0)
  | waits hheld => exact absurd hnone hheld
  | broke _ round => exact round.exists_eq_cons.imp fun _ h => h.1
  | rests _ round => exact round.exists_eq_cons.imp fun _ h => h.1
  | goesOn _ round _ =>
    obtain ⟨rest, rfl, -⟩ := round.exists_eq_cons
    exact ⟨_, rfl⟩

/-- What follows a round in a turn that has `left` more: other rounds if it goes on, and nothing
else. -/
inductive Follows (a : Agent σ) (mode : Mode) (auto : Bool) (ids : Nat → String) (left : Nat)
    (t : Turn σ) :
    Verdict → List Step → Turn σ → Option (String × Failure) → Prop where
  /-- The model has results to read. -/
  | goesOn {more : List Step} {t' : Turn σ} {broken? : Option (String × Failure)}
    (rest : Conversing a mode auto ids left t more t' broken?) :
    Follows a mode auto ids left t .goesOn more t' broken?
  /-- No call ran. -/
  | rests : Follows a mode auto ids left t .rests [] t none
  /-- The model failed. -/
  | broke {id : String} {e : Failure} :
    Follows a mode auto ids left t (.broke id e) [] t (some (id, e))

/-- Behind a round the model is asked again when results are there to read, no call waits and a
round is left. -/
theorem Follows.asked_iff {left : Nat} {t t' : Turn σ} {verdict : Verdict} {more : List Step}
    {broken? : Option (String × Failure)}
    (h : Follows a mode auto ids left t verdict more t' broken?) :
    (∃ id later, more ++ (conclude mode t' broken?).1 = .asked id t.history :: later) ↔
      verdict = .goesOn ∧ t.pending = [] ∧ 0 < left := by
  -- nothing is asked at the end of the turn
  have hend : ∀ {id : String} {later : List Step} {broken? : Option (String × Failure)},
      (conclude mode t' broken?).1 ≠ .asked id t.history :: later := by
    intro id later broken? heq
    have hnone : histories (conclude mode t' broken?).1 = [] := histories_conclude t' broken?
    rw [heq] at hnone
    cases hnone
  cases h with
  | rests => exact ⟨fun ⟨_, _, heq⟩ => absurd heq hend, fun h => nomatch h.1⟩
  | broke => exact ⟨fun ⟨_, _, heq⟩ => absurd heq hend, fun h => nomatch h.1⟩
  | goesOn rest =>
    constructor
    · rintro ⟨id, later, heq⟩
      refine ⟨rfl, ?_, ?_⟩
      · by_contra hheld
        obtain ⟨rfl, rfl, rfl⟩ := rest.eq_of_pending hheld
        exact hend heq
      · cases rest with
        | exhausted => exact absurd heq hend
        | _ => exact Nat.succ_pos _
    · rintro ⟨-, hnone, hleft⟩
      obtain ⟨later, rfl⟩ := rest.exists_eq_cons hleft hnone
      exact ⟨_, _, rfl⟩

/-- The rounds of a turn lead to each of their questions, with which a round begins. -/
theorem Conversing.exists_rounding {n : Nat} {t t' : Turn σ} {log : List Step}
    {broken? : Option (String × Failure)} (h : Conversing a mode auto ids n t log t' broken?)
    {before after : List Step} {id : String} {history : List Message}
    (hlog : log = before ++ .asked id history :: after) :
    ∃ t₁ steps t₂ verdict more left, LeadsTo a mode auto ids t before t₁ ∧ history = t₁.history ∧
      Rounding a mode auto ids t₁ steps t₂ verdict ∧ .asked id history :: after = steps ++ more ∧
      Follows a mode auto ids left t₂ verdict more t' broken? ∧
      (histories before).length + 1 + left = n := by
  -- a round that none follows has one question, its first step
  have honly : ∀ {n : Nat} {t t' : Turn σ} {steps before : List Step} {verdict : Verdict}
      {broken? : Option (String × Failure)}, t.pending = [] →
      Rounding a mode auto ids t steps t' verdict →
      Follows a mode auto ids n t' verdict [] t' broken? →
      steps = before ++ .asked id history :: after →
      ∃ t₁ steps t₂ verdict more left, LeadsTo a mode auto ids t before t₁ ∧ history = t₁.history ∧
        Rounding a mode auto ids t₁ steps t₂ verdict ∧ .asked id history :: after = steps ++ more ∧
        Follows a mode auto ids left t₂ verdict more t' broken? ∧
        (histories before).length + 1 + left = n + 1 := by
    intro n t t' steps before verdict broken? hnone round follows hsteps
    rw [← List.append_nil steps] at hsteps
    rcases round.asked_or hsteps with ⟨rfl, hhistory⟩ | ⟨rest, -, hrest⟩
    · exact ⟨t, steps, t', verdict, [], n, .here hnone, hhistory, round, hsteps.symm, follows,
        Nat.add_comm (0 + 1) n⟩
    · cases rest <;> cases hrest
  induction h generalizing before with
  | exhausted => cases before <;> cases hlog
  | waits => cases before <;> cases hlog
  | broke hnone round => exact honly hnone round .broke hlog
  | rests hnone round => exact honly hnone round .rests hlog
  | @goesOn n _ _ _ _ _ _ hnone round rest ih =>
    rcases round.asked_or hlog with ⟨rfl, hhistory⟩ | ⟨rest', rfl, hmore⟩
    · exact ⟨_, _, _, _, _, n, .here hnone, hhistory, round, hlog.symm, .goesOn rest,
        Nat.add_comm (0 + 1) n⟩
    · obtain ⟨t₁, steps, t₂, verdict, more, left, hleads, hhistory, hround, hsteps, hfollows,
          hleft⟩ := ih hmore
      refine ⟨t₁, steps, t₂, verdict, more, left, .after hnone round hleads, hhistory, hround,
        hsteps, hfollows, ?_⟩
      rw [histories_append, round.histories, List.length_append, List.length_singleton]
      omega

/-- **Around a question.**  When a turn asks the model, it has taken up the calls that were open and
has played whole rounds since.  The next round begins, and what follows it comes before the end of
the turn. -/
theorem exists_follows_of_asked {request : Request} {world : σ} {before after : List Step}
    {id : String} {history : List Message}
    (hlog : (a.play mode ids request world).log = before ++ .asked id history :: after) :
    ∃ asked t steps t' verdict more left t'' broken?,
      before = (a.resolve request world).1 ++ asked ∧
      LeadsTo a mode request.autoExecute ids (a.resolve request world).2 asked t ∧
      history = t.history ∧
      Rounding a mode request.autoExecute ids t steps t' verdict ∧
      .asked id history :: after = steps ++ (more ++ (conclude mode t'' broken?).1) ∧
      Follows a mode request.autoExecute ids left t' verdict more t'' broken? ∧
      (histories before).length + 1 + left = a.maxRounds := by
  obtain ⟨rounds, t, broken?, hrounds, hplay, -⟩ := exists_conversing_play a mode ids request world
  rw [hplay, List.append_assoc] at hlog
  obtain ⟨asked, rfl, hrest⟩ :=
    exists_eq_append_of_not_mem hlog (asked_not_mem (histories_resolve a request world))
  -- nor is the model asked at the end of the turn
  obtain ⟨rest, hasked⟩ :=
    exists_eq_append_cons_of_not_mem hrest (asked_not_mem (histories_conclude t broken?))
  obtain ⟨t₁, steps, t₂, verdict, more, left, hleads, hhistory, hround, hsteps, hfollows, hleft⟩ :=
    hrounds.exists_rounding hasked
  refine ⟨asked, t₁, steps, t₂, verdict, more, left, t, broken?, rfl, hleads, hhistory, hround, ?_,
    hfollows, ?_⟩
  · rw [hasked, List.append_assoc] at hrest
    rw [← List.append_assoc, ← hsteps]
    exact (List.append_cancel_left hrest).symm
  · rw [histories_append, histories_resolve]
    exact hleft

/-- When a turn asks the model, a round begins. -/
theorem exists_rounding_of_asked {request : Request} {world : σ} {before after : List Step}
    {id : String} {history : List Message}
    (hlog : (a.play mode ids request world).log = before ++ .asked id history :: after) :
    ∃ asked t steps t' verdict more, before = (a.resolve request world).1 ++ asked ∧
      LeadsTo a mode request.autoExecute ids (a.resolve request world).2 asked t ∧
      history = t.history ∧
      Rounding a mode request.autoExecute ids t steps t' verdict ∧
      .asked id history :: after = steps ++ more := by
  obtain ⟨asked, t, steps, t', verdict, more, -, t'', broken?, hbefore, hleads, hhistory,
    hround, hsteps, -⟩ :=
    exists_follows_of_asked hlog
  exact ⟨asked, t, steps, t', verdict, _, hbefore, hleads, hhistory, hround, hsteps⟩

/-- **Before a question.**  When a turn asks the model, it has taken up the calls that were open and
has played whole rounds since. -/
theorem exists_leadsTo_of_asked {request : Request} {world : σ} {before after : List Step}
    {id : String} {history : List Message}
    (hlog : (a.play mode ids request world).log = before ++ .asked id history :: after) :
    ∃ asked t, before = (a.resolve request world).1 ++ asked ∧
      LeadsTo a mode request.autoExecute ids (a.resolve request world).2 asked t ∧
      history = t.history := by
  obtain ⟨asked, t, -, -, -, -, hbefore, hleads, hhistory, -⟩ := exists_rounding_of_asked hlog
  exact ⟨asked, t, hbefore, hleads, hhistory⟩

end Parley.Agent
