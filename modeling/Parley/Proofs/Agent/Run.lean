import Parley.Agent.Turn
import Parley.Proofs.Agent.Log
import Parley.Proofs.Chat.CallIds

/-!
# What a turn can do

Each function of a turn has a relation beside it that says all it can do, one case for each way it
can go: `Taking` for a call that is taken up, `Rounding` for one round and `Conversing` for the
rounds. Facts about turns are proved by cases and induction on these relations, and no proof looks
into the functions again.

For statements about one step at a time there are the kinds of steps that the rounds consist of
(`Conversing.ofRound`) and that a whole turn consists of (`ofTurn_play`).
-/

namespace Parley.Agent

open Chat (Event Message PendingCall ToolCall)
open Chat.Message (HasUniqueIds uniqueIds_hasUniqueIds)
open Wire (Completion Failure)

variable {σ : Type} {a : Agent σ} {mode : Mode} {auto : Bool} {ids : Nat → String}

/-! ### Taking up a call -/

section Taking

variable (a auto)

/-- How a call can be taken up: the step, and the state after it. -/
inductive Taking (o : OpenCall) (t : Turn σ) : Step → Turn σ → Prop where
  /-- It is rejected. -/
  | canceled (h : o.resolution = .cancel) :
    Taking o t (.settled o.place o.call .canceled) (t.record (Step.result o.call .canceled))
  /-- It waits. -/
  | held (h : o.resolution = .dispatch) (hgated : a.isGated auto o.call = true) :
    Taking o t (.held o.place o.call) (t.hold o.call)
  /-- It runs. -/
  | ran {fate : Fate} {world : σ} (hrun : a.runCall o.call t.world = (fate, world))
    (h : o.resolution = .execute ∨ (o.resolution = .dispatch ∧ a.isGated auto o.call = false)) :
    Taking o t (.settled o.place o.call fate) ({ t with world }.record (Step.result o.call fate))

theorem taking_take (o : OpenCall) (t : Turn σ) :
    Taking a auto o t (a.take auto o t).1 (a.take auto o t).2 := by
  unfold take
  split
  · rename_i h
    exact .canceled h
  · rename_i hcancel
    split
    · rename_i h
      exact .held h.1 h.2
    · rename_i hheld
      refine .ran rfl ?_
      cases hres : o.resolution with
      | cancel => exact absurd hres hcancel
      | execute => exact Or.inl rfl
      | dispatch => exact Or.inr ⟨rfl, Bool.eq_false_iff.mpr fun hgated => hheld ⟨hres, hgated⟩⟩

@[simp] theorem takeAll_nil (t : Turn σ) : a.takeAll auto [] t = ([], t) := rfl

theorem takeAll_cons (o : OpenCall) (rest : List OpenCall) (t : Turn σ) :
    a.takeAll auto (o :: rest) t =
      ((a.take auto o t).1 :: (a.takeAll auto rest (a.take auto o t).2).1,
        (a.takeAll auto rest (a.take auto o t).2).2) := rfl

/-- Each step of a list of calls that are taken up takes up one of them. -/
theorem exists_taking_of_mem_takeAll {opens : List OpenCall} {t : Turn σ} {s : Step}
    (h : s ∈ (a.takeAll auto opens t).1) : ∃ o ∈ opens, ∃ t₀ t₁, Taking a auto o t₀ s t₁ := by
  induction opens generalizing t with
  | nil => simp at h
  | cons o rest ih =>
    rw [takeAll_cons] at h
    rcases List.mem_cons.mp h with rfl | h
    · exact ⟨o, List.mem_cons_self, t, _, taking_take a auto o t⟩
    · obtain ⟨o', ho', taking⟩ := ih h
      exact ⟨o', List.mem_cons_of_mem _ ho', taking⟩

end Taking

/-! ### Running the tool of a call -/

/-- What can become of a call whose tool is to run, and what the surroundings are then. -/
inductive Running (a : Agent σ) (call : ToolCall) (world : σ) : Fate → σ → Prop where
  /-- There is no such tool. -/
  | unknown (h : a.registry.lookup call.name = none) :
    Running a call world (.refused (.notFound call.name)) world
  /-- The arguments cannot be read. -/
  | unreadable {tool : Tool σ} {e : Chat.ToolError}
    (htool : a.registry.lookup call.name = some tool) (h : call.parseArguments = .error e) :
    Running a call world (.refused e) world
  /-- The tool receives the arguments. -/
  | invoked {tool : Tool σ} {arguments : Chat.Arguments}
    (htool : a.registry.lookup call.name = some tool) (h : call.parseArguments = .ok arguments) :
    Running a call world (.ran arguments (tool.handler arguments world).1)
      (tool.handler arguments world).2

theorem running_runCall (a : Agent σ) (call : ToolCall) (world : σ) :
    Running a call world (a.runCall call world).1 (a.runCall call world).2 := by
  unfold runCall
  cases htool : a.registry.lookup call.name with
  | none => exact .unknown htool
  | some tool =>
    cases hargs : call.parseArguments with
    | error e => exact .unreadable htool hargs
    | ok arguments => exact .invoked htool hargs

/-! ### A round -/

section Rounding

variable (a mode auto ids)

/-- How a round can go: its steps, the state after it and how it ends. -/
inductive Rounding (t : Turn σ) : List Step → Turn σ → Verdict → Prop where
  /-- The model gives no message. -/
  | broke {deltas : List String} {e : Failure} {world : σ}
    (hask : a.ask mode t.history t.world = (⟨deltas, .error e⟩, world)) :
    Rounding t
      (.asked (ids t.rounds) t.history :: deltas.map (.heard (ids t.rounds)) ++ [.failed e])
      { t with rounds := t.rounds + 1, world } (.broke (ids t.rounds) e)
  /-- The model gives a message, and its calls are taken up. -/
  | spoke {deltas : List String} {completion : Completion} {world : σ} {m : Message}
    {spoken : Turn σ} (hask : a.ask mode t.history t.world = (⟨deltas, .ok completion⟩, world))
    (hm : m = completion.message.normalizeIds)
    (hspoken : spoken = Turn.record m { t with rounds := t.rounds + 1, world }) :
    Rounding t
      (.asked (ids t.rounds) t.history :: deltas.map (.heard (ids t.rounds)) ++
        .said (ids t.rounds) m ::
          (a.takeAll auto (dispatched t.history.length m.toolCalls) spoken).1)
      (a.takeAll auto (dispatched t.history.length m.toolCalls) spoken).2
      (if (a.takeAll auto (dispatched t.history.length m.toolCalls) spoken).1.any Step.isSettled
        then .goesOn else .rests)

theorem rounding_round (t : Turn σ) :
    Rounding a mode auto ids t (a.round mode auto ids t).1 (a.round mode auto ids t).2.1
      (a.round mode auto ids t).2.2 := by
  unfold round
  rcases hask : a.ask mode t.history t.world with ⟨⟨deltas, result⟩, world⟩
  cases result with
  | error e => exact .broke hask
  | ok completion => exact .spoke hask rfl rfl

/-- The verdict on a round in which the model gives a message. -/
theorem Verdict.ite_eq_goesOn_iff {b : Bool} :
    (if b = true then Verdict.goesOn else .rests) = .goesOn ↔ b = true := by
  cases b <;> simp

variable {a mode auto ids}

/-- A round in which the model fails ends with the failure. -/
theorem Rounding.of_broke {t t' : Turn σ} {steps : List Step} {id : String} {e : Failure}
    (h : Rounding a mode auto ids t steps t' (.broke id e)) :
    id = ids t.rounds ∧ ∃ (deltas : List String) (world : σ),
      steps = .asked id t.history :: deltas.map (.heard id) ++ [.failed e] ∧
      t' = { t with rounds := t.rounds + 1, world } := by
  generalize hverdict : Verdict.broke id e = verdict at h
  cases h with
  | @broke deltas e' world hask =>
    cases hverdict
    exact ⟨rfl, deltas, world, rfl, rfl⟩
  | spoke => split at hverdict <;> cases hverdict

end Rounding

/-! ### The rounds of a turn -/

section Conversing

variable (a mode auto ids)

/-- How at most `limit` rounds can go: their steps, the state after them, and the failure of the
model if it fails. -/
inductive Conversing : Nat → Turn σ → List Step → Turn σ → Option (String × Failure) → Prop where
  /-- No round is left. -/
  | exhausted (t : Turn σ) : Conversing 0 t [] t none
  /-- A call is held. -/
  | waits {n : Nat} {t : Turn σ} (h : t.pending ≠ []) : Conversing (n + 1) t [] t none
  /-- The model fails. -/
  | broke {n : Nat} {t t' : Turn σ} {steps : List Step} {id : String} {e : Failure}
    (h : t.pending = []) (round : Rounding a mode auto ids t steps t' (.broke id e)) :
    Conversing (n + 1) t steps t' (some (id, e))
  /-- No call runs. -/
  | rests {n : Nat} {t t' : Turn σ} {steps : List Step}
    (h : t.pending = []) (round : Rounding a mode auto ids t steps t' .rests) :
    Conversing (n + 1) t steps t' none
  /-- Another round may follow. -/
  | goesOn {n : Nat} {t t' t'' : Turn σ} {steps more : List Step}
    {broken? : Option (String × Failure)} (h : t.pending = [])
    (round : Rounding a mode auto ids t steps t' .goesOn)
    (rest : Conversing n t' more t'' broken?) : Conversing (n + 1) t (steps ++ more) t'' broken?

theorem conversing_rounds (limit : Nat) (t : Turn σ) :
    Conversing a mode auto ids limit t (a.rounds mode auto ids limit t).1
      (a.rounds mode auto ids limit t).2.1 (a.rounds mode auto ids limit t).2.2 := by
  induction limit generalizing t with
  | zero => exact .exhausted t
  | succ n ih =>
    unfold rounds
    split
    · rename_i hpending
      have hpending : t.pending = [] := List.isEmpty_iff.mp hpending
      have hround := rounding_round a mode auto ids t
      generalize a.round mode auto ids t = played at hround ⊢
      obtain ⟨steps, t', verdict⟩ := played
      cases verdict with
      | broke id e => exact .broke hpending hround
      | rests => exact .rests hpending hround
      | goesOn => exact .goesOn hpending hround (ih t')
    · rename_i hpending
      exact .waits fun h => hpending (List.isEmpty_iff.mpr h)

end Conversing

/-! ### The steps of the rounds -/

theorem mem_dispatched {position : Nat} {calls : List ToolCall} {o : OpenCall} :
    o ∈ dispatched position calls ↔
      o.place.message = position ∧ calls[o.place.call]? = some o.call ∧
      o.resolution = .dispatch := by
  obtain ⟨⟨n, i⟩, call, resolution⟩ := o
  simp only [dispatched, List.mem_map, Prod.exists, List.mem_zipIdx_iff_getElem?]
  constructor
  · rintro ⟨call', i', h, heq⟩
    cases heq
    exact ⟨rfl, h, rfl⟩
  · rintro ⟨rfl, h, rfl⟩
    exact ⟨call, i, h, rfl⟩

/-- The kinds of steps that rounds consist of. -/
inductive OfRound (a : Agent σ) (auto : Bool) : Step → Prop where
  /-- The model is asked. -/
  | asked (id : String) (history : List Message) : OfRound a auto (.asked id history)
  /-- A piece of text arrives. -/
  | heard (id delta : String) : OfRound a auto (.heard id delta)
  /-- The model fails. -/
  | failed (e : Failure) : OfRound a auto (.failed e)
  /-- The model says a message, whose calls have been given unique ids. -/
  | said (id : String) {m : Message} (hm : HasUniqueIds m.toolCalls) : OfRound a auto (.said id m)
  /-- A call of that message is dispatched. -/
  | taken {o : OpenCall} {t t' : Turn σ} {s : Step} (h : o.resolution = .dispatch)
    (taking : Taking a auto o t s t') : OfRound a auto s

theorem Rounding.ofRound {t t' : Turn σ} {steps : List Step} {verdict : Verdict}
    (h : Rounding a mode auto ids t steps t' verdict) : ∀ s ∈ steps, OfRound a auto s := by
  intro s hs
  cases h with
  | broke =>
    rcases List.mem_append.mp hs with hs | hs
    · rcases List.mem_cons.mp hs with rfl | hs
      · exact .asked _ _
      · obtain ⟨d, -, rfl⟩ := List.mem_map.mp hs
        exact .heard _ d
    · rw [List.mem_singleton.mp hs]
      exact .failed _
  | spoke _ hm _ =>
    rcases List.mem_append.mp hs with hs | hs
    · rcases List.mem_cons.mp hs with rfl | hs
      · exact .asked _ _
      · obtain ⟨d, -, rfl⟩ := List.mem_map.mp hs
        exact .heard _ d
    · rcases List.mem_cons.mp hs with rfl | hs
      · exact .said _ (hm ▸ uniqueIds_hasUniqueIds _)
      · obtain ⟨o, ho, t₀, t₁, taking⟩ := exists_taking_of_mem_takeAll a auto hs
        exact .taken (mem_dispatched.mp ho).2.2 taking

/-- Every step of the rounds is of one of these kinds. -/
theorem Conversing.ofRound {n : Nat} {t t' : Turn σ} {log : List Step}
    {broken? : Option (String × Failure)} (h : Conversing a mode auto ids n t log t' broken?) :
    ∀ s ∈ log, OfRound a auto s := by
  induction h with
  | exhausted => exact List.forall_mem_nil _
  | waits => exact List.forall_mem_nil _
  | broke _ round => exact round.ofRound
  | rests _ round => exact round.ofRound
  | goesOn _ round _ ih =>
    intro s hs
    rcases List.mem_append.mp hs with hs | hs
    · exact round.ofRound s hs
    · exact ih s hs

/-! ### A whole turn -/

/-- A turn takes up the calls that are open, converses with the model and comes to its end. -/
theorem exists_conversing_play (a : Agent σ) (mode : Mode) (ids : Nat → String) (request : Request)
    (world : σ) :
    ∃ asked t broken?,
      Conversing a mode request.autoExecute ids a.maxRounds (a.resolve request world).2
        asked t broken? ∧
      (a.play mode ids request world).log =
        (a.resolve request world).1 ++ asked ++ (conclude mode t broken?).1 ∧
      (a.play mode ids request world).last = (conclude mode t broken?).2 :=
  ⟨_, _, _, conversing_rounds a mode request.autoExecute ids a.maxRounds _, rfl, rfl⟩

/-- What the end of a turn consists of: the pause and `done`, or the apology and `done`. -/
theorem mem_conclude {t : Turn σ} {broken? : Option (String × Failure)} {s : Step}
    (h : s ∈ (conclude mode t broken?).1) :
    (∃ calls, s = .paused calls) ∨ (∃ id e, s = .said id (apology e)) ∨
      s = (conclude mode t broken?).2.finish := by
  cases broken? with
  | none =>
    rcases List.mem_append.mp h with h | h
    · obtain ⟨calls, -, rfl⟩ := Option.map_eq_some_iff.mp (Option.mem_toList.mp h)
      exact Or.inl ⟨calls, rfl⟩
    · exact Or.inr (Or.inr (List.mem_singleton.mp h))
  | some broken =>
    cases mode with
    | whole => exact absurd h List.not_mem_nil
    | streamed =>
      rcases List.mem_cons.mp h with rfl | h
      · exact Or.inr (Or.inl ⟨broken.1, broken.2, rfl⟩)
      · exact Or.inr (Or.inr (List.mem_singleton.mp h))

/-- The kinds of steps that a turn consists of. -/
inductive OfTurn (a : Agent σ) (auto : Bool) : Step → Prop where
  /-- A call that was open is taken up. -/
  | resolved {o : OpenCall} {t t' : Turn σ} {s : Step} (taking : Taking a auto o t s t') :
    OfTurn a auto s
  /-- A step of the rounds. -/
  | round {s : Step} (h : OfRound a auto s) : OfTurn a auto s
  /-- The turn stops for calls. -/
  | paused (calls : List PendingCall) : OfTurn a auto (.paused calls)
  /-- The client hears that the model failed. -/
  | apology (id : String) (e : Failure) : OfTurn a auto (.said id (apology e))
  /-- The turn is over. -/
  | finished (t : Turn σ) : OfTurn a auto t.finish

/-- Every step of a turn is of one of these kinds. -/
theorem ofTurn_play {request : Request} {world : σ} {s : Step}
    (h : s ∈ (a.play mode ids request world).log) : OfTurn a request.autoExecute s := by
  obtain ⟨asked, t, broken?, hasked, hlog, -⟩ := exists_conversing_play a mode ids request world
  rw [hlog] at h
  rcases List.mem_append.mp h with h | h
  · rcases List.mem_append.mp h with h | h
    · obtain ⟨o, -, t₀, t₁, taking⟩ := exists_taking_of_mem_takeAll a _ h
      exact .resolved taking
    · exact .round (hasked.ofRound s h)
  · rcases mem_conclude h with ⟨calls, rfl⟩ | ⟨id, e, rfl⟩ | rfl
    · exact .paused calls
    · exact .apology id e
    · exact .finished _

end Parley.Agent
