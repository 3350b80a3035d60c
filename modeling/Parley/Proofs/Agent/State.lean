import Parley.Proofs.Agent.Run

/-!
# What a turn does to its state

The state of a turn can be read off its log.

* `advances_play`: the messages of the log are added to the conversation, its held calls to those
  that wait, and each question to the model is counted (`Advances`).
* `histories_play_eq_nil_iff`: when the model is asked at all.
* `finished_of_mem_play`: a turn that is over tells of the messages of its log and of the calls that
  wait.
-/

namespace Parley.Agent

open Chat (Message PendingCall)
open Wire (Failure)

variable {σ : Type} {a : Agent σ} {mode : Mode} {auto : Bool} {ids : Nat → String}

/-! ### The state of a turn -/

/-- What a stretch of a turn does to its state. -/
structure Advances (t : Turn σ) (log : List Step) (t' : Turn σ) : Prop where
  /-- The conversation grows by the messages of the log. -/
  history : t'.history = t.history ++ messages log
  /-- So does what the turn has added to it. -/
  produced : t'.produced = t.produced ++ messages log
  /-- The held calls wait. -/
  pending : t'.pending = t.pending ++ (heldCalls log).map fun held => .ofCall held.2
  /-- The questions to the model are counted. -/
  rounds : t'.rounds = t.rounds + (histories log).length

namespace Advances

theorem refl (t : Turn σ) : Advances t [] t := ⟨by simp, by simp, by simp, by simp⟩

theorem trans {t t' t'' : Turn σ} {l l' : List Step} (h : Advances t l t')
    (h' : Advances t' l' t'') :
    Advances t (l ++ l') t'' where
  history := by rw [h'.history, h.history, messages_append, List.append_assoc]
  produced := by rw [h'.produced, h.produced, messages_append, List.append_assoc]
  pending := by
    rw [h'.pending, h.pending, heldCalls_append, List.map_append, List.append_assoc]
  rounds := by rw [h'.rounds, h.rounds, histories_append, List.length_append, Nat.add_assoc]

/-- A stretch that begins while no call waits ends so unless a call is held in it. -/
theorem pending_eq_nil_iff {t t' : Turn σ} {log : List Step} (h : Advances t log t')
    (hpending : t.pending = []) : t'.pending = [] ↔ heldCalls log = [] := by
  rw [h.pending, hpending, List.nil_append, List.map_eq_nil_iff]

end Advances

theorem Taking.advances {o : OpenCall} {t t' : Turn σ} {s : Step} (h : Taking a auto o t s t') :
    Advances t [s] t' := by
  cases h with
  | canceled => exact ⟨rfl, rfl, (List.append_nil _).symm, rfl⟩
  | held => exact ⟨(List.append_nil _).symm, (List.append_nil _).symm, rfl, rfl⟩
  | ran => exact ⟨rfl, rfl, (List.append_nil _).symm, rfl⟩

theorem advances_takeAll (a : Agent σ) (auto : Bool) (opens : List OpenCall) (t : Turn σ) :
    Advances t (a.takeAll auto opens t).1 (a.takeAll auto opens t).2 := by
  induction opens generalizing t with
  | nil => exact .refl t
  | cons o rest ih =>
    rw [takeAll_cons]
    exact (taking_take a auto o t).advances.trans (ih _)

theorem advances_resolve (a : Agent σ) (request : Request) (world : σ) :
    Advances (a.start request world) (a.resolve request world).1 (a.resolve request world).2 :=
  advances_takeAll ..

/-- The state of a turn when the model is asked and has answered, before anything is recorded. -/
theorem advances_opening (t : Turn σ) (id : String) (deltas : List String) (world : σ) :
    Advances t (.asked id t.history :: deltas.map (.heard id))
      { t with rounds := t.rounds + 1, world } where
  history := by simp [messages_cons, Step.message?]
  produced := by simp [messages_cons, Step.message?]
  pending := by simp [heldCalls_cons, Step.held?]
  rounds := by simp [histories_cons, Step.history?]

theorem advances_said (t : Turn σ) (id : String) (m : Message) :
    Advances t [.said id m] (t.record m) :=
  ⟨rfl, rfl, (List.append_nil _).symm, rfl⟩

theorem advances_failed (t : Turn σ) (e : Failure) : Advances t [.failed e] t :=
  ⟨(List.append_nil _).symm, (List.append_nil _).symm, (List.append_nil _).symm, rfl⟩

theorem Rounding.advances {t t' : Turn σ} {steps : List Step} {verdict : Verdict}
    (h : Rounding a mode auto ids t steps t' verdict) : Advances t steps t' := by
  cases h with
  | broke => exact (advances_opening ..).trans (advances_failed ..)
  | spoke _ _ hspoken =>
    subst hspoken
    exact (advances_opening ..).trans ((advances_said ..).trans (advances_takeAll ..))

theorem Conversing.advances {n : Nat} {t t' : Turn σ} {log : List Step}
    {broken? : Option (String × Failure)} (h : Conversing a mode auto ids n t log t' broken?) :
    Advances t log t' := by
  induction h with
  | exhausted t => exact .refl t
  | waits => exact .refl _
  | broke _ round => exact round.advances
  | rests _ round => exact round.advances
  | goesOn _ round _ ih => exact round.advances.trans ih

theorem advances_conclude (t : Turn σ) (broken? : Option (String × Failure)) :
    Advances t (conclude mode t broken?).1 (conclude mode t broken?).2 := by
  cases broken? with
  | none =>
    have hsilent :
        ∀ pending?, Advances t ((Option.map Step.paused pending?).toList ++ [t.finish]) t := by
      intro pending?
      cases pending? <;> exact ⟨(List.append_nil _).symm, (List.append_nil _).symm,
        (List.append_nil _).symm, rfl⟩
    exact hsilent t.pending?
  | some broken =>
    cases mode with
    | whole => exact .refl t
    | streamed => exact ⟨rfl, rfl, (List.append_nil _).symm, rfl⟩

/-- **The log is the history.**  A turn adds the messages of its log to the conversation that it
began with, and nothing else. -/
theorem advances_play (a : Agent σ) (mode : Mode) (ids : Nat → String) (request : Request)
    (world : σ) :
    Advances (a.start request world) (a.play mode ids request world).log
      (a.play mode ids request world).last := by
  obtain ⟨asked, t, broken?, hasked, hlog, hlast⟩ := exists_conversing_play a mode ids request world
  rw [hlog, hlast]
  exact ((advances_resolve ..).trans hasked.advances).trans (advances_conclude t broken?)

/-! ### When the model is asked -/

/-- A turn tells of the calls that wait when there are any. -/
theorem pending?_eq_some_iff {t : Turn σ} {calls : List PendingCall} :
    t.pending? = some calls ↔ t.pending = calls ∧ calls ≠ [] := by
  unfold Turn.pending?
  split
  · rename_i hempty
    rw [List.isEmpty_iff.mp hempty]
    simp [eq_comm]
  · rename_i hne
    rw [Option.some.injEq]
    constructor
    · intro h
      exact ⟨h, fun hnil => hne (List.isEmpty_iff.mpr (h.trans hnil))⟩
    · intro h
      exact h.1

/-- The model is not asked while calls are taken up. -/
theorem histories_takeAll (a : Agent σ) (auto : Bool) (opens : List OpenCall) (t : Turn σ) :
    histories (a.takeAll auto opens t).1 = [] := by
  apply List.filterMap_eq_nil_iff.mpr
  intro s hs
  obtain ⟨o, -, t₀, t₁, taking⟩ := exists_taking_of_mem_takeAll a auto hs
  cases taking <;> rfl

theorem histories_resolve (a : Agent σ) (request : Request) (world : σ) :
    histories (a.resolve request world).1 = [] := histories_takeAll ..

/-- While a call is held the model is not asked. -/
theorem Conversing.eq_of_pending {n : Nat} {t t' : Turn σ} {log : List Step}
    {broken? : Option (String × Failure)} (h : Conversing a mode auto ids n t log t' broken?)
    (hpending : t.pending ≠ []) : log = [] ∧ t' = t ∧ broken? = none := by
  cases h with
  | exhausted => exact ⟨rfl, rfl, rfl⟩
  | waits => exact ⟨rfl, rfl, rfl⟩
  | broke hnone => exact absurd hnone hpending
  | rests hnone => exact absurd hnone hpending
  | goesOn hnone => exact absurd hnone hpending

/-- No call waits when the model has failed. -/
theorem Conversing.pending_eq_nil {n : Nat} {t t' : Turn σ} {log : List Step}
    {broken : String × Failure} (h : Conversing a mode auto ids n t log t' (some broken)) :
    t'.pending = [] := by
  generalize hbroken : some broken = broken? at h
  induction h with
  | exhausted => cases hbroken
  | waits => cases hbroken
  | rests => cases hbroken
  | broke hnone round =>
    obtain ⟨-, deltas, world, -, rfl⟩ := round.of_broke
    exact hnone
  | goesOn _ _ _ ih => exact ih hbroken

/-- A turn in which open calls are held ends with them. -/
theorem play_of_pending {request : Request} {world : σ}
    (h : (a.resolve request world).2.pending ≠ []) :
    (a.play mode ids request world).log =
      (a.resolve request world).1 ++
        [.paused (a.resolve request world).2.pending, (a.resolve request world).2.finish] := by
  obtain ⟨asked, t, broken?, hasked, hlog, -⟩ := exists_conversing_play a mode ids request world
  obtain ⟨rfl, rfl, rfl⟩ := hasked.eq_of_pending h
  rw [hlog, List.append_nil, conclude, pending?_eq_some_iff.mpr ⟨rfl, h⟩]
  rfl

/-- The model is asked once in a round. -/
theorem Rounding.histories {t t' : Turn σ} {steps : List Step} {verdict : Verdict}
    (h : Rounding a mode auto ids t steps t' verdict) : histories steps = [t.history] := by
  cases h with
  | broke => rw [histories_append, histories_cons, histories_heard]; rfl
  | spoke =>
    rw [histories_append, histories_cons, histories_heard, histories_cons, histories_takeAll]
    rfl

/-- Unless a call is held the model is asked. -/
theorem Conversing.histories_ne_nil {n : Nat} {t t' : Turn σ} {log : List Step}
    {broken? : Option (String × Failure)} (h : Conversing a mode auto ids n t log t' broken?)
    (hn : 0 < n) (hpending : t.pending = []) : histories log ≠ [] := by
  cases h with
  | exhausted => exact absurd hn (Nat.lt_irrefl 0)
  | waits hne => exact absurd hpending hne
  | broke _ round => rw [round.histories]; exact List.cons_ne_nil _ _
  | rests _ round => rw [round.histories]; exact List.cons_ne_nil _ _
  | goesOn _ round => rw [histories_append, round.histories]; exact List.cons_ne_nil _ _

/-- **When the model is asked.**  A turn asks the model unless it holds a call that was open
before. -/
theorem histories_play_eq_nil_iff {request : Request} {world : σ} :
    histories (a.play mode ids request world).log = [] ↔
    (a.resolve request world).2.pending ≠ [] := by
  obtain ⟨asked, t, broken?, hasked, hlog, -⟩ := exists_conversing_play a mode ids request world
  constructor
  · intro hnone hpending
    rw [hlog, histories_append, histories_append] at hnone
    have hasked' := (List.append_eq_nil_iff.mp (List.append_eq_nil_iff.mp hnone).1).2
    exact hasked.histories_ne_nil a.maxRounds_pos hpending hasked'
  · intro hpending
    rw [play_of_pending hpending, histories_append, histories_resolve]
    rfl

/-! ### The end of a turn -/

/-- The model is not asked at the end of a turn. -/
theorem histories_conclude (t : Turn σ) (broken? : Option (String × Failure)) :
    histories (conclude mode t broken?).1 = [] := by
  apply List.filterMap_eq_nil_iff.mpr
  intro s hs
  rcases mem_conclude hs with ⟨calls, rfl⟩ | ⟨id, e, rfl⟩ | rfl <;> rfl

/-- The model is asked in the rounds of a turn alone. -/
theorem histories_eq {request : Request} {world : σ} {asked : List Step} {t : Turn σ}
    {broken? : Option (String × Failure)} :
    histories ((a.resolve request world).1 ++ asked ++ (conclude mode t broken?).1) =
      histories asked := by
  rw [histories_append, histories_append, histories_resolve, histories_conclude, List.nil_append,
    List.append_nil]

/-- No tool is invoked at the end of a turn. -/
theorem invocations_conclude (t : Turn σ) (broken? : Option (String × Failure)) :
    invocations (conclude mode t broken?).1 = [] := by
  apply List.filterMap_eq_nil_iff.mpr
  intro s hs
  rcases mem_conclude hs with ⟨calls, rfl⟩ | ⟨id, e, rfl⟩ | rfl <;> rfl

/-- No call is held at the end of a turn. -/
theorem heldCalls_conclude (t : Turn σ) (broken? : Option (String × Failure)) :
    heldCalls (conclude mode t broken?).1 = [] := by
  apply List.filterMap_eq_nil_iff.mpr
  intro s hs
  rcases mem_conclude hs with ⟨calls, rfl⟩ | ⟨id, e, rfl⟩ | rfl <;> rfl

/-- Nothing but its end finishes a turn. -/
theorem finished_mem_conclude {request : Request} {world : σ} {asked : List Step} {t : Turn σ}
    {broken? : Option (String × Failure)} {n : Nat} {produced : List Message}
    {pending? : Option (List PendingCall)}
    (hasked : Conversing a mode auto ids n (a.resolve request world).2 asked t broken?)
    (h : .finished produced pending? ∈
      (a.resolve request world).1 ++ asked ++ (conclude mode t broken?).1) :
    .finished produced pending? ∈ (conclude mode t broken?).1 := by
  rcases List.mem_append.mp h with h | h
  · rcases List.mem_append.mp h with h | h
    · obtain ⟨o, -, t₀, t₁, taking⟩ := exists_taking_of_mem_takeAll a _ h
      cases taking
    · cases hasked.ofRound _ h with
      | taken _ taking => cases taking
  · exact h

/-- **The outcome of a turn.**  A turn that is over tells of the messages of its log and of the
calls that wait in its last state. -/
theorem finished_of_mem_play {request : Request} {world : σ} {produced : List Message}
    {pending? : Option (List PendingCall)}
    (h : .finished produced pending? ∈ (a.play mode ids request world).log) :
    produced = messages (a.play mode ids request world).log ∧
      pending? = (a.play mode ids request world).last.pending? := by
  obtain ⟨asked, t, broken?, hasked, hlog, hlast⟩ := exists_conversing_play a mode ids request world
  rw [hlog] at h
  rcases mem_conclude (finished_mem_conclude hasked h) with ⟨calls, h⟩ | ⟨id, e, h⟩ | h
  · cases h
  · cases h
  · rw [Turn.finish, Step.finished.injEq, ← hlast] at h
    exact ⟨h.1.trans (advances_play a mode ids request world).produced, h.2⟩

end Parley.Agent
