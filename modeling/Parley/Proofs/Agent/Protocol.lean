import Parley.Proofs.Agent.State

/-!
# What a client hears of a turn

A client that listens to a turn hears a word of a small language: runs of tools, then messages of
the assistant with the runs of tools that follow each, then the calls that wait, if any do, and
`done` (`events_protocol`).  A message that breaks off because the model fails is closed by the
apology, so that the word is complete whatever the model does.

A turn that is told by its outcome is read up to the first failure or `done`.  There is always one,
and a failure is one that the model gave.
-/

namespace Parley.Agent

open Chat (Event Message PendingCall ToolCall)
open Wire (Failure)

variable {σ : Type} {a : Agent σ} {mode : Mode} {auto : Bool} {ids : Nat → String}

/-! ### The language -/

/-- Runs of tools: each has its start and its end, which tell the same call and the message with its
result. -/
inductive ToolRuns : List Event → Prop where
  /-- No run. -/
  | nil : ToolRuns []
  /-- A run before others. -/
  | cons (id name : String) {result : Message} {rest : List Event} (hrole : result.role = .tool)
    (hid : result.toolCallId? = some id) (more : ToolRuns rest) :
    ToolRuns (.toolStart id name :: .toolEnd id name result :: rest)

/-- A message of the assistant, in pieces that tell the same id, and the runs of tools that follow
it. -/
inductive Speech : List Event → Prop where
  /-- The message and the runs. -/
  | mk (id : String) (deltas : List String) (m : Message) {runs : List Event}
    (hruns : ToolRuns runs) :
    Speech (.assistantStart id :: deltas.map (.assistantDelta id) ++ .assistantEnd id m :: runs)

/-- A number of messages of the assistant, each with the runs that follow it. -/
inductive Speeches : Nat → List Event → Prop where
  /-- No message. -/
  | zero : Speeches 0 []
  /-- A message before others. -/
  | succ {n : Nat} {first more : List Event} (speech : Speech first) (rest : Speeches n more) :
    Speeches (n + 1) (first ++ more)

theorem ToolRuns.append {l₁ l₂ : List Event} (h₁ : ToolRuns l₁) (h₂ : ToolRuns l₂) :
    ToolRuns (l₁ ++ l₂) := by
  induction h₁ with
  | nil => exact h₂
  | cons id name hrole hid _ ih => exact .cons id name hrole hid ih

theorem Speech.speeches {l : List Event} (h : Speech l) : Speeches 1 l := by
  have hone := Speeches.succ h .zero
  rw [List.append_nil] at hone
  exact hone

theorem ToolRuns.isTerminal_eq_false {l : List Event} (h : ToolRuns l) :
    ∀ e ∈ l, e.isTerminal = false := by
  induction h with
  | nil => exact List.forall_mem_nil _
  | cons id name _ _ _ ih =>
    intro e he
    rcases List.mem_cons.mp he with rfl | he
    · rfl
    · rcases List.mem_cons.mp he with rfl | he
      · rfl
      · exact ih e he

theorem Speech.isTerminal_eq_false {l : List Event} (h : Speech l) :
    ∀ e ∈ l, e.isTerminal = false := by
  obtain ⟨id, deltas, m, hruns⟩ := h
  intro e he
  rcases List.mem_append.mp he with he | he
  · rcases List.mem_cons.mp he with rfl | he
    · rfl
    · obtain ⟨d, -, rfl⟩ := List.mem_map.mp he
      rfl
  · rcases List.mem_cons.mp he with rfl | he
    · rfl
    · exact hruns.isTerminal_eq_false e he

theorem Speeches.isTerminal_eq_false {n : Nat} {l : List Event} (h : Speeches n l) :
    ∀ e ∈ l, e.isTerminal = false := by
  induction h with
  | zero => exact List.forall_mem_nil _
  | succ speech _ ih => exact List.forall_mem_append.mpr ⟨speech.isTerminal_eq_false, ih⟩

/-! ### Calls and rounds -/

/-- A call that is taken up is heard as one run, or not at all. -/
theorem Taking.toolRuns {o : OpenCall} {t t' : Turn σ} {s : Step} (h : Taking a auto o t s t') :
    ToolRuns s.events := by
  cases h with
  | canceled => exact .cons _ _ rfl rfl .nil
  | held => exact .nil
  | ran => exact .cons _ _ rfl rfl .nil

theorem toolRuns_takeAll (a : Agent σ) (auto : Bool) (opens : List OpenCall) (t : Turn σ) :
    ToolRuns (events (a.takeAll auto opens t).1) := by
  induction opens generalizing t with
  | nil => exact .nil
  | cons o rest ih =>
    rw [takeAll_cons, events_cons]
    exact (taking_take a auto o t).toolRuns.append (ih _)

theorem events_opening (id : String) (history : List Message) (deltas : List String) :
    events (.asked id history :: deltas.map (.heard id)) =
      .assistantStart id :: deltas.map (.assistantDelta id) := by
  have hheard : events (deltas.map (.heard id)) = deltas.map (.assistantDelta id) := by
    induction deltas with
    | nil => rfl
    | cons d rest ih => rw [List.map_cons, events_cons, ih]; rfl
  rw [events_cons, hheard]
  rfl

/-- How the client hears a message end that the model failed to give. -/
def closing (broken? : Option (String × Failure)) : List Event :=
  (broken?.map fun broken => .assistantEnd broken.1 (apology broken.2)).toList

@[simp] theorem closing_none : closing none = [] := rfl

/-- What the verdict of a round says of the failure of the model. -/
def Verdict.broken? : Verdict → Option (String × Failure)
  | .broke id e => some (id, e)
  | _ => none

/-- No round in which the model gives a message ends with a failure. -/
theorem Verdict.broken?_ite (b : Bool) :
    Verdict.broken? (if b = true then .goesOn else .rests) = none := by
  cases b <;> rfl

/-- A round is heard as one message, if a failure is made up for. -/
theorem Rounding.speech {t t' : Turn σ} {steps : List Step} {verdict : Verdict}
    (h : Rounding a mode auto ids t steps t' verdict) :
    Speech (events steps ++ closing verdict.broken?) := by
  cases h with
  | @broke deltas e world =>
    rw [events_append, events_opening, List.append_assoc]
    exact .mk (ids t.rounds) deltas (apology e) .nil
  | @spoke deltas completion world m spoken =>
    have hruns := toolRuns_takeAll a auto (dispatched t.history.length m.toolCalls) spoken
    generalize
      (a.takeAll auto (dispatched t.history.length m.toolCalls) spoken).1 = steps at hruns ⊢
    rw [Verdict.broken?_ite, closing_none, List.append_nil, events_append, events_opening,
      events_cons]
    exact .mk (ids t.rounds) deltas m hruns

/-- **The rounds of a turn** are heard as one message each, and there are at most as many as the
limit says. -/
theorem Conversing.speeches {n : Nat} {t t' : Turn σ} {log : List Step}
    {broken? : Option (String × Failure)} (h : Conversing a mode auto ids n t log t' broken?) :
    (histories log).length ≤ n ∧
      Speeches (histories log).length (events log ++ closing broken?) := by
  induction h with
  | exhausted => exact ⟨Nat.zero_le _, .zero⟩
  | waits => exact ⟨Nat.zero_le _, .zero⟩
  | broke _ round =>
    rw [round.histories]
    exact ⟨Nat.succ_le_succ (Nat.zero_le _), round.speech.speeches⟩
  | rests _ round =>
    rw [round.histories]
    exact ⟨Nat.succ_le_succ (Nat.zero_le _), round.speech.speeches⟩
  | goesOn _ round _ ih =>
    -- nothing is to be closed after a round that another one follows
    have hspeech := round.speech
    rw [show Verdict.goesOn.broken? = none from rfl, closing_none, List.append_nil] at hspeech
    rw [histories_append, round.histories, List.length_append, List.length_singleton,
      Nat.add_comm 1, events_append, List.append_assoc]
    exact ⟨Nat.succ_le_succ ih.1, .succ hspeech ih.2⟩

/-! ### Failures -/

theorem failed_not_mem_takeAll {opens : List OpenCall} {t : Turn σ} {e : Failure} :
    .failed e ∉ (a.takeAll auto opens t).1 := by
  intro hmem
  obtain ⟨o, -, t₀, t₁, taking⟩ := exists_taking_of_mem_takeAll a auto hmem
  cases taking

theorem failed_not_mem_opening {id : String} {history : List Message} {deltas : List String}
    {e : Failure} : .failed e ∉ Step.asked id history :: deltas.map (.heard id) := by
  intro hmem
  rcases List.mem_cons.mp hmem with h | hmem
  · cases h
  · obtain ⟨d, -, h⟩ := List.mem_map.mp hmem
    cases h

/-- The step that tells of a failure. -/
def failing (broken? : Option (String × Failure)) : List Step :=
  (broken?.map fun broken => .failed broken.2).toList

@[simp] theorem failing_none : failing none = [] := rfl

/-- When the model fails in a round, that is the last that happens in it. -/
theorem Rounding.failing {t t' : Turn σ} {steps : List Step} {verdict : Verdict}
    (h : Rounding a mode auto ids t steps t' verdict) :
    ∃ before, steps = before ++ Agent.failing verdict.broken? ∧ ∀ e, .failed e ∉ before := by
  cases h with
  | broke => exact ⟨_, rfl, fun _ => failed_not_mem_opening⟩
  | @spoke deltas completion world m spoken =>
    have hnone :
        ∀ e, .failed e ∉ (a.takeAll auto (dispatched t.history.length m.toolCalls) spoken).1 :=
      fun _ => failed_not_mem_takeAll
    generalize
      (a.takeAll auto (dispatched t.history.length m.toolCalls) spoken).1 = steps at hnone ⊢
    refine ⟨_, by rw [Verdict.broken?_ite, failing_none, List.append_nil], fun e hmem => ?_⟩
    rcases List.mem_append.mp hmem with hmem | hmem
    · exact failed_not_mem_opening hmem
    · rcases List.mem_cons.mp hmem with h | hmem
      · cases h
      · exact hnone e hmem

/-- When the model fails, that is the last that happens in the rounds. -/
theorem Conversing.failing {n : Nat} {t t' : Turn σ} {log : List Step}
    {broken? : Option (String × Failure)} (h : Conversing a mode auto ids n t log t' broken?) :
    ∃ before, log = before ++ Agent.failing broken? ∧ ∀ e, .failed e ∉ before := by
  induction h with
  | exhausted => exact ⟨[], rfl, fun _ => List.not_mem_nil⟩
  | waits => exact ⟨[], rfl, fun _ => List.not_mem_nil⟩
  | broke _ round => exact round.failing
  | rests _ round => exact round.failing
  | goesOn _ round _ ih =>
    obtain ⟨first, hfirst, hnone⟩ := round.failing
    replace hfirst := hfirst.trans (List.append_nil first)
    obtain ⟨before, hbefore, hnone'⟩ := ih
    refine ⟨first ++ before, by rw [hfirst, hbefore, List.append_assoc], fun e hmem => ?_⟩
    rcases List.mem_append.mp hmem with hmem | hmem
    · exact hnone e hmem
    · exact hnone' e hmem

/-- A failure of the model is told. -/
theorem Conversing.failed_mem {n : Nat} {t t' : Turn σ} {log : List Step} {id : String}
    {e : Failure} (h : Conversing a mode auto ids n t log t' (some (id, e))) : .failed e ∈ log := by
  obtain ⟨before, rfl, -⟩ := h.failing
  exact List.mem_append_right _ List.mem_cons_self

/-- The failure is one that the model gave when it was asked. -/
theorem Conversing.exists_ask {n : Nat} {t t' : Turn σ} {log : List Step} {id : String}
    {e : Failure} (h : Conversing a mode auto ids n t log t' (some (id, e))) :
    ∃ history ∈ histories log, ∃ world, (a.ask mode history world).1.result = .error e := by
  generalize hbroken : some (id, e) = broken? at h
  induction h with
  | exhausted => cases hbroken
  | waits => cases hbroken
  | rests => cases hbroken
  | @broke n t t' steps id' e' _ round =>
    cases hbroken
    refine ⟨t.history, by rw [round.histories]; exact List.mem_cons_self, t.world, ?_⟩
    generalize hverdict : Verdict.broke id e = verdict at round
    cases round with
    | broke hask =>
      cases hverdict
      rw [hask]
    | spoke => split at hverdict <;> cases hverdict
  | goesOn _ _ _ ih =>
    obtain ⟨history, hmem, hask⟩ := ih hbroken
    refine ⟨history, ?_, hask⟩
    rw [histories_append]
    exact List.mem_append_right _ hmem

/-! ### The outcome -/

/-- What is told of a turn without a failure is what a client hears. -/
theorem items_eq_map_events {log : List Step} (h : ∀ e, .failed e ∉ log) :
    items log = (events log).map .ok := by
  induction log with
  | nil => rfl
  | cons s rest ih =>
    have hrest := ih fun e hmem => h e (List.mem_cons_of_mem s hmem)
    rw [items_cons, events_cons, List.map_append, hrest]
    cases s with
    | failed e => exact absurd List.mem_cons_self (h e)
    | _ => rfl

/-- Events before the end of a turn say nothing of its outcome. -/
theorem outcomeOf?_append {l : List Event} (h : ∀ e ∈ l, e.isTerminal = false)
    (rest : List (Except Failure Event)) : outcomeOf? (l.map .ok ++ rest) = outcomeOf? rest := by
  induction l with
  | nil => rfl
  | cons e l ih =>
    have hmore := ih fun x hx => h x (List.mem_cons_of_mem e hx)
    have he := h e List.mem_cons_self
    rw [List.map_cons, List.cons_append]
    cases e with
    | done => cases he
    | _ => exact hmore

/-- After the rounds the outcome is the failure of the model, if it failed. -/
theorem Conversing.outcomeOf?_eq {n : Nat} {t t' : Turn σ} {log : List Step}
    {broken? : Option (String × Failure)} (h : Conversing a mode auto ids n t log t' broken?)
    (rest : List (Except Failure Event)) :
    outcomeOf? (items log ++ rest) =
      (broken?.map fun broken => Except.error broken.2).or (outcomeOf? rest) := by
  obtain ⟨before, hlog, hnone⟩ := h.failing
  have hquiet : ∀ e ∈ events before, e.isTerminal = false := by
    intro e he
    apply h.speeches.2.isTerminal_eq_false
    rw [hlog, events_append]
    exact List.mem_append_left _ (List.mem_append_left _ he)
  rw [hlog, items_append, items_eq_map_events hnone, List.append_assoc, outcomeOf?_append hquiet]
  cases broken? with
  | none => rfl
  | some broken => rfl

/-! ### Whole turns -/

/-- How a turn ends for a client that listens: a message that broke off is closed, the calls that
wait are shown, and `done` tells of them. -/
theorem events_conclude (t : Turn σ) (broken? : Option (String × Failure))
    (hpending : broken? ≠ none → t.pending = []) :
    events (conclude .streamed t broken?).1 =
      closing broken? ++ (t.pending?.map Event.pending).toList ++
        [.done (conclude .streamed t broken?).2.produced t.pending?] := by
  cases broken? with
  | none =>
    show events ((t.pending?.map Step.paused).toList ++ [.finished t.produced t.pending?]) =
      [] ++ (t.pending?.map Event.pending).toList ++ [.done t.produced t.pending?]
    generalize t.pending? = pending?
    cases pending? <;> rfl
  | some broken =>
    have hnone : t.pending? = none := by
      rw [Turn.pending?, hpending (Option.some_ne_none _)]
      rfl
    rw [hnone]
    show [_, Event.done _ t.pending?] = _
    rw [hnone]
    rfl

/-- A turn that does not fail comes to what its end tells. -/
theorem outcomeOf?_conclude (t : Turn σ) :
    outcomeOf? (items (conclude mode t none).1) = some (.ok ⟨t.produced, t.pending?.getD []⟩) := by
  show outcomeOf?
    (items ((t.pending?.map Step.paused).toList ++ [.finished t.produced t.pending?])) = _
  generalize t.pending? = pending?
  cases pending? <;> rfl

/-- A turn tells of a failure when its rounds do. -/
theorem eq_some_of_failed_mem {request : Request} {world : σ} {asked : List Step} {t : Turn σ}
    {broken? : Option (String × Failure)} {n : Nat} {e : Failure}
    (hasked : Conversing a mode auto ids n (a.resolve request world).2 asked t broken?)
    (h : .failed e ∈ (a.resolve request world).1 ++ asked ++ (conclude mode t broken?).1) :
    ∃ id, broken? = some (id, e) := by
  rcases List.mem_append.mp h with h | h
  · rcases List.mem_append.mp h with h | h
    · exact absurd h failed_not_mem_takeAll
    · obtain ⟨before, hlog, hnone⟩ := hasked.failing
      rw [hlog] at h
      rcases List.mem_append.mp h with h | h
      · exact absurd h (hnone e)
      · obtain ⟨⟨id, e'⟩, hbroken, heq⟩ := Option.map_eq_some_iff.mp (Option.mem_toList.mp h)
        cases heq
        exact ⟨id, hbroken⟩
  · rcases mem_conclude h with ⟨calls, h⟩ | ⟨id, e, h⟩ | h <;> cases h

/-- What a client hears of a turn: of the open calls, of the rounds, and of the end. -/
theorem events_play_streamed (a : Agent σ) (ids : Nat → String) (request : Request) (world : σ) :
    ∃ asked t broken?,
      Conversing a .streamed request.autoExecute ids a.maxRounds (a.resolve request world).2 asked t
        broken? ∧
      (a.play .streamed ids request world).log =
        (a.resolve request world).1 ++ asked ++ (conclude .streamed t broken?).1 ∧
      (a.play .streamed ids request world).events =
        events (a.resolve request world).1 ++ (events asked ++ closing broken?) ++
          (t.pending?.map Event.pending).toList ++
          [.done (conclude .streamed t broken?).2.produced t.pending?] := by
  obtain ⟨asked, t, broken?, hasked, hlog, -⟩ :=
    exists_conversing_play a .streamed ids request world
  have hpending : broken? ≠ none → t.pending = [] := by
    intro hne
    obtain ⟨broken, rfl⟩ := Option.ne_none_iff_exists'.mp hne
    exact hasked.pending_eq_nil
  refine ⟨asked, t, broken?, hasked, hlog, ?_⟩
  rw [Played.events, hlog, events_append, events_append, events_conclude t broken? hpending]
  simp only [List.append_assoc]

/-- A turn that is told by its outcome comes to what it has added and the calls
that wait, or to the failure of the model. -/
theorem outcomeOf?_play {request : Request} {world : σ} {asked : List Step} {t : Turn σ}
    {broken? : Option (String × Failure)} {n : Nat}
    (hasked :
      Conversing a .whole request.autoExecute ids n (a.resolve request world).2 asked t broken?)
    (hlog : (a.play .whole ids request world).log =
      (a.resolve request world).1 ++ asked ++ (conclude .whole t broken?).1) :
    outcomeOf? (items (a.play .whole ids request world).log) =
      some ((broken?.map fun broken => Except.error broken.2).getD
        (.ok ⟨t.produced, t.pending?.getD []⟩)) := by
  have hitems : items (a.resolve request world).1 = (events (a.resolve request world).1).map .ok :=
    items_eq_map_events fun _ => failed_not_mem_takeAll
  have hruns : ToolRuns (events (a.resolve request world).1) := toolRuns_takeAll a _ _ _
  rw [hlog, items_append, items_append, hitems, List.append_assoc,
    outcomeOf?_append hruns.isTerminal_eq_false, hasked.outcomeOf?_eq]
  cases broken? with
  | none => exact outcomeOf?_conclude t
  | some broken => rfl

/-- **There is an outcome.**  A turn that is told by its outcome comes to an end that tells one, or
to a failure that the model gave when it was asked. -/
theorem exists_outcome (a : Agent σ) (ids : Nat → String) (request : Request) (world : σ) :
    ∃ result, outcomeOf? (items (a.play .whole ids request world).log) = some result ∧
      ∀ e, result = .error e → ∃ history ∈ histories (a.play .whole ids request world).log,
        ∃ world, (a.model.complete history a.registry.catalogue a.options world).1 = .error e := by
  obtain ⟨asked, t, broken?, hasked, hlog, -⟩ := exists_conversing_play a .whole ids request world
  refine ⟨_, outcomeOf?_play hasked hlog, ?_⟩
  cases broken? with
  | none =>
    intro e he
    cases he
  | some broken =>
    obtain ⟨id, e⟩ := broken
    rintro _ ⟨⟩
    obtain ⟨history, hmem, world', hask⟩ := hasked.exists_ask
    refine ⟨history, ?_, world', hask⟩
    rw [hlog, histories_append, histories_append]
    exact List.mem_append_left _ (List.mem_append_right _ hmem)

/-- **The protocol of a turn.**  A client that listens hears runs of tools, then as many messages of
the assistant as the model was asked for, each with its runs of tools, then the calls that wait, and
`done`.  The model is asked at most as often as the limit says, and not at all when calls that were
open before are held.  When it fails no call waits, and the last message is the apology.

A turn that is told by its outcome has one: what `done` tells, or a failure that the model gave when
it was asked. -/
theorem events_protocol (a : Agent σ) (ids : Nat → String) (request : Request) (world : σ) :
    (∃ runs speeches produced pending?, ∃ k,
      (a.play .streamed ids request world).events =
        runs ++ speeches ++ (pending?.map Event.pending).toList ++ [.done produced pending?] ∧
      ToolRuns runs ∧ Speeches k speeches ∧
      (∀ e ∈ runs ++ speeches ++ (pending?.map Event.pending).toList, e.isTerminal = false) ∧
      k = (histories (a.play .streamed ids request world).log).length ∧ k ≤ a.maxRounds ∧
      (k = 0 ↔ (a.resolve request world).2.pending ≠ []) ∧ pending? ≠ some [] ∧
      ∀ e, .failed e ∈ (a.play .streamed ids request world).log → pending? = none ∧
        ∃ before id, (a.play .streamed ids request world).events =
          before ++ [.assistantEnd id (apology e), .done produced none]) ∧
    ∃ result, outcomeOf? (items (a.play .whole ids request world).log) = some result ∧
      (a.play .whole ids request world).outcome = result ∧
      ∀ e, result = .error e → ∃ history ∈ histories (a.play .whole ids request world).log,
        ∃ world, (a.model.complete history a.registry.catalogue a.options world).1 = .error e := by
  constructor
  · have hruns : ToolRuns (events (a.resolve request world).1) := toolRuns_takeAll a _ _ _
    obtain ⟨asked, t, broken?, hasked, hlog, hevents⟩ := events_play_streamed a ids request world
    obtain ⟨hlimit, hspeeches⟩ := hasked.speeches
    have hhistories : histories (a.play .streamed ids request world).log = histories asked := by
      rw [hlog, histories_append, histories_append, histories_resolve, histories_conclude,
        List.nil_append, List.append_nil]
    have hzero : (histories asked).length = 0 ↔ (a.resolve request world).2.pending ≠ [] := by
      rw [List.length_eq_zero_iff, ← hhistories]
      exact histories_play_eq_nil_iff
    refine ⟨_, _, _, _, _, hevents, hruns, hspeeches, ?_, by rw [hhistories], hlimit, hzero,
      fun hnil => (pending?_eq_some_iff.mp hnil).2 rfl, ?_⟩
    · -- `done` stands nowhere but at the end
      intro e he
      rcases List.mem_append.mp he with he | he
      · rcases List.mem_append.mp he with he | he
        · exact hruns.isTerminal_eq_false e he
        · exact hspeeches.isTerminal_eq_false e he
      · obtain ⟨calls, -, rfl⟩ := Option.map_eq_some_iff.mp (Option.mem_toList.mp he)
        rfl
    · -- a failure leaves no call waiting
      intro e he
      rw [hlog] at he
      obtain ⟨id, rfl⟩ := eq_some_of_failed_mem hasked he
      have hnone : t.pending? = none := by
        rw [Turn.pending?, hasked.pending_eq_nil]
        rfl
      refine ⟨hnone, events (a.resolve request world).1 ++ events asked, id, ?_⟩
      rw [hevents, hnone]
      simp only [closing, Option.map_some, Option.map_none, Option.toList_some, Option.toList_none,
        List.append_assoc, List.nil_append, List.cons_append]
  · obtain ⟨result, hresult, hfailed⟩ := exists_outcome a ids request world
    refine ⟨result, hresult, ?_, hfailed⟩
    rw [Played.outcome, hresult]
    rfl

end Parley.Agent
