import Mathlib.Data.List.Basic
import Parley.Proofs.Agent.State

/-!
# Open and answered calls

A call at a place of a history is *answered* when a tool message behind its own message carries its
id (`IsAnswered`), and *open* otherwise (`IsOpen`).  An answer never goes away, because histories
only grow (`IsAnswered.append`).

* `mem_openCalls_iff`: which calls a turn finds open, said without the search for the last message
  that calls tools.
* `takesOpen_play`: every call that a turn takes up is open at that moment, whether the client's
  messages or the model brought it.  Its result answers it, so that it is taken up no more.
-/

namespace Parley.Agent

open Chat (Message ToolCall)
open Chat.Message (HasUniqueIds uniqueIds_hasUniqueIds)

/-! ### Places in a history -/

/-- The call at a place of a history. -/
def callAt? (history : List Message) (place : Place) : Option ToolCall :=
  history[place.message]?.bind fun m => m.toolCalls[place.call]?

/-- The ids that are answered behind a position of a history. -/
def answeredBehind (history : List Message) (position : Nat) : List String :=
  answeredIds (history.drop (position + 1))

/-- A call at a place that no message answers yet. -/
structure IsOpen (history : List Message) (place : Place) (call : ToolCall) : Prop where
  /-- It stands at the place. -/
  callAt : callAt? history place = some call
  /-- No message behind its own has its id. -/
  unanswered : call.id ∉ answeredBehind history place.message

/-- Whether the call at a place has its answer. -/
def IsAnswered (history : List Message) (place : Place) : Prop :=
  ∃ call, callAt? history place = some call ∧ call.id ∈ answeredBehind history place.message

theorem lt_length_of_callAt? {history : List Message} {place : Place} {call : ToolCall}
    (h : callAt? history place = some call) : place.message < history.length := by
  by_contra hge
  rw [callAt?, List.getElem?_eq_none (by omega)] at h
  cases h

theorem callAt?_append {history : List Message} {place : Place} {call : ToolCall}
    (h : callAt? history place = some call) (more : List Message) :
    callAt? (history ++ more) place = some call := by
  rw [callAt?, List.getElem?_append_left (lt_length_of_callAt? h)]
  exact h

theorem callAt?_length (history : List Message) (m : Message) (more : List Message) (i : Nat) :
    callAt? (history ++ m :: more) ⟨history.length, i⟩ = m.toolCalls[i]? := by
  simp [callAt?]

@[simp] theorem answeredIds_append (l₁ l₂ : List Message) :
    answeredIds (l₁ ++ l₂) = answeredIds l₁ ++ answeredIds l₂ := by
  simp [answeredIds, List.filter_append]

@[simp] theorem answeredIds_nil : answeredIds [] = [] := rfl

@[simp] theorem answeredIds_result (call : ToolCall) (fate : Fate) :
    answeredIds [Step.result call fate] = [call.id] := rfl

theorem mem_answeredIds {messages : List Message} {id : String} :
    id ∈ answeredIds messages ↔ ∃ m ∈ messages, m.role = .tool ∧ m.toolCallId? = some id := by
  simp [answeredIds, isResult, and_assoc]

theorem answeredBehind_append {history : List Message} {position : Nat}
    (h : position < history.length) (more : List Message) :
    answeredBehind (history ++ more) position =
      answeredBehind history position ++ answeredIds more := by
  rw [answeredBehind, List.drop_append_of_le_length h, answeredIds_append]
  rfl

theorem answeredBehind_length (history : List Message) (m : Message) (more : List Message) :
    answeredBehind (history ++ m :: more) history.length = answeredIds more := by
  simp [answeredBehind]

theorem IsOpen.not_isAnswered {history : List Message} {place : Place} {call : ToolCall}
    (h : IsOpen history place call) : ¬ IsAnswered history place := by
  rintro ⟨call', hcall', hid⟩
  rw [h.callAt] at hcall'
  cases hcall'
  exact h.unanswered hid

/-- **Answers stay.** -/
theorem IsAnswered.append {history : List Message} {place : Place} (h : IsAnswered history place)
    (more : List Message) : IsAnswered (history ++ more) place := by
  obtain ⟨call, hcall, hid⟩ := h
  refine ⟨call, callAt?_append hcall more, ?_⟩
  rw [answeredBehind_append (lt_length_of_callAt? hcall)]
  exact List.mem_append_left _ hid

/-- The result of a call answers it. -/
theorem IsOpen.isAnswered_result {history : List Message} {place : Place} {call : ToolCall}
    (h : IsOpen history place call) (fate : Fate) :
    IsAnswered (history ++ [Step.result call fate]) place := by
  refine ⟨call, callAt?_append h.callAt _, ?_⟩
  rw [answeredBehind_append (lt_length_of_callAt? h.callAt), answeredIds_result]
  exact List.mem_append_right _ List.mem_cons_self

/-- The result of a call leaves calls with other ids open. -/
theorem IsOpen.append_result {history : List Message} {place : Place} {call other : ToolCall}
    (h : IsOpen history place call) (hne : call.id ≠ other.id) (fate : Fate) :
    IsOpen (history ++ [Step.result other fate]) place call := by
  refine ⟨callAt?_append h.callAt _, ?_⟩
  rw [answeredBehind_append (lt_length_of_callAt? h.callAt), answeredIds_result]
  intro hmem
  rcases List.mem_append.mp hmem with hmem | hmem
  · exact h.unanswered hmem
  · exact hne (List.mem_singleton.mp hmem)

/-! ### The last message that calls tools -/

/-- The last message of a history that calls tools, with what comes before and behind it. -/
structure LastCalling (history earlier : List Message) (m : Message) (later : List Message) :
    Prop where
  /-- Where it stands. -/
  split : history = earlier ++ m :: later
  /-- It calls tools. -/
  calling : isCalling m = true
  /-- No message behind it does. -/
  last : ∀ x ∈ later, isCalling x = false

theorem lastCalling?_eq_none {history : List Message} (h : ∀ x ∈ history, isCalling x = false)
    (position : Nat) : lastCalling? position history = none := by
  induction history generalizing position with
  | nil => rfl
  | cons m rest ih =>
    have hrest := fun x hx => h x (List.mem_cons_of_mem m hx)
    rw [lastCalling?, ih hrest, h m List.mem_cons_self]
    rfl

theorem LastCalling.lastCalling?_eq {history earlier later : List Message} {m : Message}
    (h : LastCalling history earlier m later) (position : Nat) :
    lastCalling? position history = some (position + earlier.length, m.toolCalls, later) := by
  obtain ⟨rfl, hcalling, hlast⟩ := h
  induction earlier generalizing position with
  | nil =>
    rw [List.nil_append, lastCalling?, lastCalling?_eq_none hlast, if_pos hcalling]
    rfl
  | cons x earlier ih =>
    rw [List.cons_append, lastCalling?, ih, Option.some_or, List.length_cons]
    congr 2
    omega

theorem exists_lastCalling {history : List Message} (h : ∃ x ∈ history, isCalling x = true) :
    ∃ earlier m later, LastCalling history earlier m later := by
  induction history with
  | nil => simp at h
  | cons m rest ih =>
    by_cases hrest : ∃ x ∈ rest, isCalling x = true
    · obtain ⟨earlier, m', later, hsplit, hcalling, hlast⟩ := ih hrest
      exact ⟨m :: earlier, m', later, by rw [hsplit]; rfl, hcalling, hlast⟩
    · have hlast : ∀ x ∈ rest, isCalling x = false :=
        fun x hx => Bool.eq_false_iff.mpr fun hx' => hrest ⟨x, hx, hx'⟩
      obtain ⟨x, hx, hcalling⟩ := h
      rcases List.mem_cons.mp hx with rfl | hx
      · exact ⟨[], x, rest, rfl, hcalling, hlast⟩
      · exact absurd ⟨x, hx, hcalling⟩ hrest

theorem LastCalling.cons {history earlier later : List Message} {m : Message}
    (h : LastCalling history earlier m later) (x : Message) :
    LastCalling (x :: history) (x :: earlier) m later :=
  ⟨by rw [h.split]; rfl, h.calling, h.last⟩

/-- The system prompt calls no tools, so that it can be left out of the search. -/
theorem LastCalling.of_cons {x : Message} {history earlier later : List Message} {m : Message}
    (hx : isCalling x = false) (h : LastCalling (x :: history) earlier m later) :
    ∃ earlier', earlier = x :: earlier' ∧ LastCalling history earlier' m later := by
  obtain ⟨hsplit, hcalling, hlast⟩ := h
  cases earlier with
  | nil =>
    rw [List.nil_append] at hsplit
    cases hsplit
    rw [hx] at hcalling
    cases hcalling
  | cons y earlier =>
    rw [List.cons_append, List.cons.injEq] at hsplit
    obtain ⟨rfl, hsplit⟩ := hsplit
    exact ⟨earlier, rfl, hsplit, hcalling, hlast⟩

/-! ### The calls that a turn finds open -/

/-- A call runs when it is approved and not rejected. -/
theorem resolution?_eq_execute {request : Request} {later : List Message} {call : ToolCall}
    (h : resolution? request later call = some .execute) :
    call.id ∈ request.approved ∧ call.id ∉ request.rejected := by
  unfold resolution? at h
  split at h
  · cases h
  · rename_i hrejected
    split at h
    · rename_i happroved
      exact ⟨List.contains_iff_mem.mp happroved,
        fun hmem => hrejected (List.contains_iff_mem.mpr hmem)⟩
    · split at h <;> cases h

/-- A call is dispatched only while nothing but results follows its message. -/
theorem resolution?_eq_dispatch {request : Request} {later : List Message} {call : ToolCall}
    (h : resolution? request later call = some .dispatch) : ∀ x ∈ later, isResult x = true := by
  unfold resolution? at h
  split at h
  · cases h
  · split at h
    · cases h
    · split at h
      · rename_i hall
        exact List.all_eq_true.mp hall
      · cases h

@[simp] theorem map_call_dispatched (position : Nat) (calls : List ToolCall) :
    (dispatched position calls).map (·.call) = calls := by
  simp [dispatched, Function.comp_def]

/-- What is to be done about a call of the last message that calls tools, if it is open. -/
def resolved? (request : Request) (later : List Message) (o : OpenCall) : Option OpenCall :=
  if (answeredIds later).contains o.call.id then none
  else (resolution? request later o.call).map fun resolution => { o with resolution }

theorem resolved?_eq_some_iff {request : Request} {later : List Message} {o o' : OpenCall} :
    resolved? request later o = some o' ↔
      o'.place = o.place ∧ o'.call = o.call ∧ o.call.id ∉ answeredIds later ∧
        resolution? request later o.call = some o'.resolution := by
  obtain ⟨place, call, resolution⟩ := o'
  unfold resolved?
  split
  · rename_i h
    simp only [List.contains_iff_mem] at h
    simp [h]
  · rename_i h
    simp only [List.contains_iff_mem] at h
    simp only [Option.map_eq_some_iff, OpenCall.mk.injEq]
    constructor
    · rintro ⟨r, hr, rfl, rfl, rfl⟩
      exact ⟨rfl, rfl, h, hr⟩
    · rintro ⟨rfl, rfl, -, hr⟩
      exact ⟨_, hr, rfl, rfl, rfl⟩

/-- Answered calls are skipped, and each of the others is resolved. -/
theorem filterMap_resolved? (request : Request) (later : List Message) (opens : List OpenCall) :
    opens.filterMap (resolved? request later) =
      (opens.filter fun o => !(answeredIds later).contains o.call.id).filterMap fun o =>
        (resolution? request later o.call).map fun resolution => { o with resolution } := by
  rw [List.filterMap_filter]
  congr 1
  funext o
  rw [resolved?]
  cases (answeredIds later).contains o.call.id <;> rfl

theorem LastCalling.openCalls_eq {history earlier later : List Message} {m : Message}
    (h : LastCalling history earlier m later) (request : Request) :
    openCalls request history =
      (dispatched earlier.length m.toolCalls).filterMap (resolved? request later) := by
  rw [openCalls, h.lastCalling?_eq, Nat.zero_add]
  rfl

theorem openCalls_eq_nil {history : List Message} (h : ∀ x ∈ history, isCalling x = false)
    (request : Request) : openCalls request history = [] := by
  rw [openCalls, lastCalling?_eq_none h]

/-- **Open calls.**  A turn finds open the calls of the last message that calls tools to which
nothing behind it answers and about which something is to be done. -/
theorem mem_openCalls_iff {request : Request} {history : List Message} {o : OpenCall} :
    o ∈ openCalls request history ↔
      ∃ earlier m later, LastCalling history earlier m later ∧ o.place.message = earlier.length ∧
        m.toolCalls[o.place.call]? = some o.call ∧ o.call.id ∉ answeredIds later ∧
        resolution? request later o.call = some o.resolution := by
  constructor
  · intro ho
    by_cases hcalling : ∃ x ∈ history, isCalling x = true
    · obtain ⟨earlier, m, later, h⟩ := exists_lastCalling hcalling
      rw [h.openCalls_eq] at ho
      obtain ⟨d, hd, hres⟩ := List.mem_filterMap.mp ho
      obtain ⟨hposition, hcall, -⟩ := mem_dispatched.mp hd
      obtain ⟨hplace, hcall', hfree, hresolution⟩ := resolved?_eq_some_iff.mp hres
      rw [hplace, hcall']
      exact ⟨earlier, m, later, h, hposition, hcall, hfree, hresolution⟩
    · rw [openCalls_eq_nil fun x hx => Bool.eq_false_iff.mpr fun h => hcalling ⟨x, hx, h⟩] at ho
      exact absurd ho List.not_mem_nil
  · rintro ⟨earlier, m, later, h, hposition, hcall, hfree, hresolution⟩
    rw [h.openCalls_eq]
    exact List.mem_filterMap.mpr ⟨{ o with resolution := .dispatch },
      mem_dispatched.mpr ⟨hposition, hcall, rfl⟩,
      resolved?_eq_some_iff.mpr ⟨rfl, rfl, hfree, hresolution⟩⟩

theorem isOpen_of_mem_openCalls {request : Request} {history : List Message} {o : OpenCall}
    (h : o ∈ openCalls request history) : IsOpen history o.place o.call := by
  obtain ⟨earlier, m, later, ⟨rfl, -, -⟩, hposition, hcall, hfree, -⟩ := mem_openCalls_iff.mp h
  obtain ⟨⟨n, i⟩, call, resolution⟩ := o
  cases hposition
  exact ⟨by rw [callAt?_length]; exact hcall, by rw [answeredBehind_length]; exact hfree⟩

theorem map_id_dispatched (position : Nat) (calls : List ToolCall) :
    (dispatched position calls).map (·.call.id) = calls.map (·.id) := by
  rw [← map_call_dispatched position calls, List.map_map, map_call_dispatched]
  rfl

theorem nodup_dispatched (position : Nat) {calls : List ToolCall} (h : HasUniqueIds calls) :
    ((dispatched position calls).map (·.call.id)).Nodup := by
  rw [map_id_dispatched]
  exact h.nodup

/-- The ids of the calls that a turn finds open tell them apart. -/
theorem nodup_openCalls {request : Request} {history : List Message}
    (h : ∀ m ∈ history, HasUniqueIds m.toolCalls) :
    ((openCalls request history).map (·.call.id)).Nodup := by
  by_cases hcalling : ∃ x ∈ history, isCalling x = true
  · obtain ⟨earlier, m, later, hlast⟩ := exists_lastCalling hcalling
    have hm : HasUniqueIds m.toolCalls := h m (by rw [hlast.split]; simp)
    have hsub : ∀ opens : List OpenCall,
        ((opens.filterMap (resolved? request later)).map (·.call.id)).Sublist
        (opens.map (·.call.id)) := by
      intro opens
      induction opens with
      | nil => simp
      | cons o rest ih =>
        cases hres : resolved? request later o with
        | none =>
          rw [List.filterMap_cons_none hres]
          exact ih.cons _
        | some o' =>
          obtain ⟨-, hcall, -⟩ := resolved?_eq_some_iff.mp hres
          rw [List.filterMap_cons_some hres, List.map_cons, List.map_cons, hcall]
          exact ih.cons_cons _
    rw [hlast.openCalls_eq]
    exact (hsub _).nodup (nodup_dispatched _ hm)
  · rw [openCalls_eq_nil fun x hx => Bool.eq_false_iff.mpr fun hx' => hcalling ⟨x, hx, hx'⟩]
    exact List.nodup_nil

/-! ### Calls are taken up while they are open -/

/-- Every call of a log is open when it is taken up: the log begins at a history, and each step goes
on from the history that the steps before it left. -/
def TakesOpen (history : List Message) : List Step → Prop
  | [] => True
  | s :: rest =>
    (∀ place call, s.taken? = some (place, call) → IsOpen history place call) ∧
      TakesOpen (history ++ s.message?.toList) rest

theorem takesOpen_append {history : List Message} {l₁ l₂ : List Step} :
    TakesOpen history (l₁ ++ l₂) ↔
    TakesOpen history l₁ ∧ TakesOpen (history ++ messages l₁) l₂ := by
  induction l₁ generalizing history with
  | nil => simp [TakesOpen]
  | cons s rest ih =>
    rw [List.cons_append, TakesOpen, TakesOpen, ih, messages_cons, List.append_assoc, and_assoc]

/-- A log that takes no call up takes every call up while it is open. -/
theorem takesOpen_of_forall {history : List Message} {log : List Step}
    (h : ∀ s ∈ log, s.taken? = none) : TakesOpen history log := by
  induction log generalizing history with
  | nil => trivial
  | cons s rest ih =>
    refine ⟨fun place call htaken => ?_, ih fun x hx => h x (List.mem_cons_of_mem _ hx)⟩
    rw [h s List.mem_cons_self] at htaken
    cases htaken

section

variable {σ : Type} {a : Agent σ} {mode : Mode} {auto : Bool} {ids : Nat → String}

theorem Taking.taken? {o : OpenCall} {t t' : Turn σ} {s : Step} (h : Taking a auto o t s t') :
    s.taken? = some (o.place, o.call) := by
  cases h <;> rfl

/-- Open calls with different ids stay open until it is their turn. -/
theorem takesOpen_takeAll (a : Agent σ) (auto : Bool) {opens : List OpenCall} {t : Turn σ}
    (hopen : ∀ o ∈ opens, IsOpen t.history o.place o.call)
    (hids : (opens.map (·.call.id)).Nodup) : TakesOpen t.history (a.takeAll auto opens t).1 := by
  induction opens generalizing t with
  | nil => trivial
  | cons o rest ih =>
    rw [takeAll_cons]
    have htaking := taking_take a auto o t
    generalize (a.take auto o t).1 = s, (a.take auto o t).2 = t' at htaking ⊢
    have hhistory : t'.history = t.history ++ s.message?.toList := by
      rw [htaking.advances.history, messages_cons, messages_nil, List.append_nil]
    rw [List.map_cons, List.nodup_cons] at hids
    refine ⟨fun place call htaken => ?_, ?_⟩
    · rw [htaking.taken?] at htaken
      cases htaken
      exact hopen o List.mem_cons_self
    · rw [← hhistory]
      refine ih (fun o' ho' => ?_) hids.2
      have hopen' := hopen o' (List.mem_cons_of_mem _ ho')
      have hne : o'.call.id ≠ o.call.id := fun h => hids.1 (List.mem_map.mpr ⟨o', ho', h⟩)
      -- only a recorded result could have answered it
      rw [hhistory]
      cases htaking with
      | canceled => exact hopen'.append_result hne _
      | held => exact (List.append_nil t.history).symm ▸ hopen'
      | ran => exact hopen'.append_result hne _

theorem isOpen_of_mem_dispatched {history : List Message} {m : Message} {o : OpenCall}
    (h : o ∈ dispatched history.length m.toolCalls) : IsOpen (history ++ [m]) o.place o.call := by
  obtain ⟨hposition, hcall, -⟩ := mem_dispatched.mp h
  obtain ⟨⟨n, i⟩, call, resolution⟩ := o
  cases hposition
  refine ⟨by rw [callAt?_length]; exact hcall, ?_⟩
  rw [answeredBehind_length]
  exact List.not_mem_nil

theorem takesOpen_opening (history : List Message) (t : Turn σ) (id : String)
    (deltas : List String) :
    TakesOpen history (.asked id t.history :: deltas.map (.heard id)) := by
  apply takesOpen_of_forall
  intro s hs
  rcases List.mem_cons.mp hs with rfl | hs
  · rfl
  · obtain ⟨d, -, rfl⟩ := List.mem_map.mp hs
    rfl

theorem Rounding.takesOpen {t t' : Turn σ} {steps : List Step} {verdict : Verdict}
    (h : Rounding a mode auto ids t steps t' verdict) : TakesOpen t.history steps := by
  cases h with
  | broke =>
    refine takesOpen_append.mpr ⟨takesOpen_opening .., ?_⟩
    exact takesOpen_of_forall fun s hs => by rw [List.mem_singleton.mp hs]; rfl
  | @spoke deltas completion world m spoken _ hm hspoken =>
    have hunique : HasUniqueIds m.toolCalls := hm ▸ uniqueIds_hasUniqueIds _
    have hhistory : spoken.history = t.history ++ [m] := by
      rw [hspoken]
      rfl
    refine takesOpen_append.mpr ⟨takesOpen_opening .., ?_⟩
    rw [← (advances_opening t (ids t.rounds) deltas world).history]
    refine ⟨fun _ _ h => (nomatch h), ?_⟩
    show TakesOpen (t.history ++ [m]) _
    rw [← hhistory]
    refine takesOpen_takeAll a auto (fun o ho => ?_) (nodup_dispatched t.history.length hunique)
    rw [hhistory]
    exact isOpen_of_mem_dispatched ho

theorem Conversing.takesOpen {n : Nat} {t t' : Turn σ} {log : List Step}
    {broken? : Option (String × Wire.Failure)} (h : Conversing a mode auto ids n t log t' broken?) :
    TakesOpen t.history log := by
  induction h with
  | exhausted => trivial
  | waits => trivial
  | broke _ round => exact round.takesOpen
  | rests _ round => exact round.takesOpen
  | goesOn _ round _ ih =>
    rw [round.advances.history] at ih
    exact takesOpen_append.mpr ⟨round.takesOpen, ih⟩

/-- Every message that a turn begins with has calls with unique ids. -/
theorem hasUniqueIds_start {request : Request} {world : σ} {m : Message}
    (h : m ∈ (a.start request world).history) : HasUniqueIds m.toolCalls := by
  rcases List.mem_cons.mp h with rfl | h
  · exact ⟨List.nodup_nil, fun _ h => absurd h List.not_mem_nil⟩
  · obtain ⟨m', -, rfl⟩ := List.mem_map.mp h
    exact uniqueIds_hasUniqueIds m'.toolCalls

theorem takesOpen_resolve (a : Agent σ) (request : Request) (world : σ) :
    TakesOpen (a.start request world).history (a.resolve request world).1 :=
  takesOpen_takeAll a _ (fun _ ho => isOpen_of_mem_openCalls ho)
    (nodup_openCalls fun _ hm => hasUniqueIds_start hm)

/-- **No call is taken up twice.**  Every call that a turn takes up is open at that moment. -/
theorem takesOpen_play (a : Agent σ) (mode : Mode) (ids : Nat → String) (request : Request)
    (world : σ) :
    TakesOpen (a.start request world).history (a.play mode ids request world).log := by
  obtain ⟨asked, t, broken?, hasked, hlog, -⟩ := exists_conversing_play a mode ids request world
  have hresolve := (advances_resolve a request world).history
  have hconversing := hasked.takesOpen
  rw [hresolve] at hconversing
  rw [hlog]
  refine takesOpen_append.mpr ⟨takesOpen_append.mpr ⟨takesOpen_resolve a request world,
    hconversing⟩, ?_⟩
  apply takesOpen_of_forall
  intro s hs
  rcases mem_conclude hs with ⟨calls, rfl⟩ | ⟨id, e, rfl⟩ | rfl
  · rfl
  · rfl
  · rfl

end

end Parley.Agent
