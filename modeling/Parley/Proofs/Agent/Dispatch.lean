import Parley.Proofs.Agent.Asking
import Parley.Proofs.Agent.Handshake
import Parley.Proofs.Agent.Limit
import Parley.Proofs.Chat.Frames

/-!
# What becomes of the calls of a message

The calls of a message that the model gives are taken up one after the other (`Dispatching`).  The
gated ones are held.  Each of the others gets one tool message, which tells of a failure or of what
the tool produced.

* `fails_iff`: a call fails for one of four reasons (`Fails`), and the reason decides what the model
  is told.
* `told_runCall`: the two kinds of texts are different, so that the text of a tool message says
  whether its call failed (`Told`).
* `calls_partitioned`: in a turn, behind every question to the model.  What the tools answered has
  no part in whether another call is taken up or the model is asked again.
-/

namespace Parley.Agent

open Chat (Arguments Message PendingCall ToolCall ToolError)
open Json (Within Number.Legible maxDepth)
open Tool (Output)

variable {σ : Type} {a : Agent σ} {mode : Mode} {auto : Bool} {ids : Nat → String}

/-! ### Two kinds of texts -/

/-- The text that tells of a failure. -/
def failureText (e : String) : String :=
  (Json.object [("ok", .bool false), ("error", .str e)]).print

/-- The text that tells what a tool produced. -/
def successText (summary view : String) (data : Json) : String :=
  (Json.object [("ok", .bool true), ("summary", .str summary), ("view", .str view),
    ("data", data)]).print

theorem parse_failureText (e : String) :
    Json.parse (failureText e) = .ok (.object [("ok", .bool false), ("error", .str e)]) := by
  have hwithin : (Json.object [("ok", .bool false), ("error", .str e)]).Within Number.Legible 1 :=
    Chat.within_object (by simp [Within.str, Within.bool])
  exact Json.parse_print_of_within (hwithin.mono (by decide))

/-- A text of a failure tells which one it is. -/
theorem failureText_injective : Function.Injective failureText := by
  intro e e' heq
  have hparse := parse_failureText e
  rw [heq, parse_failureText] at hparse
  have herror : Option.some (Json.str e') = some (.str e) :=
    congrArg (fun v : Except Json.ParseError Json => v.toOption.bind (·.get? "error")) hparse
  cases herror
  rfl

/-- The members of an object are printed in the order of their names, and so the texts differ
early. -/
theorem failureText_ne_successText (e summary view : String) (data : Json) :
    failureText e ≠ successText summary view data := by
  intro heq
  have hthird : some 'e' = some 'd' := by
    have hfailure : (failureText e).toList[2]? = some 'e' := by
      rw [failureText, Json.print, String.toList_ofList]
      rfl
    have hsuccess : (successText summary view data).toList[2]? = some 'd' := by
      rw [successText, Json.print, String.toList_ofList]
      rfl
    rw [← hfailure, heq, hsuccess]
  cases hthird

/-! ### Failures -/

/-- Whether a call reaches a tool, with arguments that can be read. -/
structure Reaches (a : Agent σ) (call : ToolCall) (tool : Tool σ) (arguments : Arguments) :
    Prop where
  /-- The tool is known. -/
  known : tool ∈ a.registry.tools
  /-- The call names it. -/
  name : tool.name = call.name
  /-- The text of the arguments is blank or an object. -/
  reads : ReadsAs call.arguments arguments

/-- Why a call fails, and with which words. -/
inductive Fails (a : Agent σ) (call : ToolCall) (world : σ) : String → Prop where
  /-- No tool has the name. -/
  | unknown (h : ∀ tool ∈ a.registry.tools, tool.name ≠ call.name) :
    Fails a call world (ToolError.notFound call.name).message
  /-- The text of the arguments is neither blank nor an object. -/
  | unreadable {tool : Tool σ} {e : ToolError} (htool : tool ∈ a.registry.tools)
    (hname : tool.name = call.name) (hread : ∀ arguments, ¬ ReadsAs call.arguments arguments)
    (h : call.parseArguments = .error e) :
    Fails a call world e.message
  /-- The tool fails. -/
  | failed {tool : Tool σ} {arguments : Arguments} {e : ToolError}
    (hreaches : Reaches a call tool arguments) (h : (tool.handler arguments world).1 = .error e) :
    Fails a call world e.message
  /-- The tool reports a failure as its result. -/
  | reported {tool : Tool σ} {arguments : Arguments} {text : String}
    (hreaches : Reaches a call tool arguments)
    (h : (tool.handler arguments world).1 = .ok (.error text)) : Fails a call world text

/-- What a call failed with. -/
def Fate.error? : Fate → Option String
  | .refused e | .ran _ (.error e) => some e.message
  | .ran _ (.ok (.error text)) => some text
  | .canceled | .ran _ (.ok _) => none

theorem reaches_iff {call : ToolCall} {tool : Tool σ} {arguments : Arguments} :
    Reaches a call tool arguments ↔
      a.registry.lookup call.name = some tool ∧ call.parseArguments = .ok arguments := by
  rw [Registry.lookup_eq_some_iff, ← readsAs_iff]
  exact ⟨fun h => ⟨⟨h.known, h.name⟩, h.reads⟩, fun h => ⟨h.1.1, h.1.2, h.2⟩⟩

/-- A call that reaches a tool runs it with its arguments. -/
theorem Reaches.runCall_eq {call : ToolCall} {tool : Tool σ} {arguments : Arguments}
    (h : Reaches a call tool arguments) (world : σ) :
    a.runCall call world =
      (.ran arguments (tool.handler arguments world).1, (tool.handler arguments world).2) := by
  obtain ⟨htool, hparse⟩ := reaches_iff.mp h
  simp only [runCall, htool, hparse]

/-- **Failures.**  A call fails for the reasons that are given, and for each it fails with these
words. -/
theorem fails_iff {call : ToolCall} {world : σ} {e : String} :
    Fails a call world e ↔ (a.runCall call world).1.error? = some e := by
  constructor
  · intro h
    cases h with
    | unknown h =>
      rw [runCall, Registry.lookup_eq_none_iff.mpr h]
      rfl
    | unreadable htool hname _ h =>
      simp only [runCall, Registry.lookup_eq_some_iff.mpr ⟨htool, hname⟩, h]
      rfl
    | failed hreaches h =>
      rw [hreaches.runCall_eq, h]
      rfl
    | reported hreaches h =>
      rw [hreaches.runCall_eq, h]
      rfl
  · intro h
    have hrunning := running_runCall a call world
    generalize (a.runCall call world).1 = fate, (a.runCall call world).2 = world' at hrunning h
    cases hrunning with
    | unknown hnone =>
      rw [← Option.some.inj h]
      exact .unknown (Registry.lookup_eq_none_iff.mp hnone)
    | unreadable htool hparse =>
      obtain ⟨hknown, hname⟩ := Registry.lookup_eq_some_iff.mp htool
      rw [← Option.some.inj h]
      exact .unreadable hknown hname (not_readsAs_of_parseArguments hparse) hparse
    | @invoked tool arguments htool hparse =>
      have hreaches : Reaches a call tool arguments := reaches_iff.mpr ⟨htool, hparse⟩
      cases hresult : (tool.handler arguments world).1 with
      | error e' =>
        rw [hresult] at h
        rw [← Option.some.inj h]
        exact .failed hreaches hresult
      | ok output =>
        rw [hresult] at h
        cases output with
        | error text =>
          rw [← Option.some.inj h]
          exact .reported hreaches hresult
        | _ => cases h

/-! ### What the model is told -/

theorem text_of_error?_eq_some {fate : Fate} {e : String} (h : fate.error? = some e) :
    fate.text = failureText e := by
  match fate, h with
  | .refused _, rfl => rfl
  | .ran _ (.error _), rfl => rfl
  | .ran _ (.ok (.error _)), rfl => rfl

theorem exists_text_of_error?_eq_none {arguments : Arguments} {result : Except ToolError Output}
    (h : (Fate.ran arguments result).error? = none) :
    ∃ summary view data, (Fate.ran arguments result).text = successText summary view data := by
  match result, h with
  | .ok (.text t), _ => exact ⟨Output.summarize t, "text", .str t, rfl⟩
  | .ok (.list summary items), _ => exact ⟨summary, "list", .arr items, rfl⟩
  | .ok (.entries summary members), _ => exact ⟨summary, "kv", .obj members, rfl⟩

/-- A call that does not fail has reached its tool. -/
theorem exists_reaches_of_error?_eq_none {call : ToolCall} {world : σ}
    (h : (a.runCall call world).1.error? = none) :
    ∃ tool arguments, Reaches a call tool arguments := by
  have hrunning := running_runCall a call world
  generalize (a.runCall call world).1 = fate, (a.runCall call world).2 = world' at hrunning h
  cases hrunning with
  | unknown => cases h
  | unreadable => cases h
  | invoked htool hparse => exact ⟨_, _, reaches_iff.mpr ⟨htool, hparse⟩⟩

/-- Whether the model is told the truth about a call that is not held, and its tool runs at most
once. -/
structure Told (a : Agent σ) (call : ToolCall) (world : σ) (fate : Fate) (world' : σ) : Prop where
  /-- The model reads of a failure when there is one. -/
  failure : ∀ e, fate.text = failureText e ↔ Fails a call world e
  /-- Otherwise it reads what the tool produced. -/
  success : (∃ summary view data, fate.text = successText summary view data) ↔
    ∀ e, ¬ Fails a call world e
  /-- No tool runs unless the call reaches one. -/
  unreached : (∀ tool arguments, ¬ Reaches a call tool arguments) →
    fate.arguments? = none ∧ world' = world
  /-- The tool that it reaches runs with its arguments. -/
  reached : ∀ tool arguments, Reaches a call tool arguments →
    fate = .ran arguments (tool.handler arguments world).1 ∧
    world' = (tool.handler arguments world).2

/-- **What the model is told of a call.** -/
theorem told_runCall (a : Agent σ) (call : ToolCall) (world : σ) :
    Told a call world (a.runCall call world).1 (a.runCall call world).2 := by
  have hunreached : (∀ tool arguments, ¬ Reaches a call tool arguments) →
      (a.runCall call world).1.arguments? = none ∧ (a.runCall call world).2 = world := by
    intro hnone
    have hrunning := running_runCall a call world
    generalize (a.runCall call world).1 = fate, (a.runCall call world).2 = world' at hrunning ⊢
    cases hrunning with
    | unknown => exact ⟨rfl, rfl⟩
    | unreadable => exact ⟨rfl, rfl⟩
    | invoked htool hparse => exact absurd (reaches_iff.mpr ⟨htool, hparse⟩) (hnone _ _)
  have hreached : ∀ tool arguments, Reaches a call tool arguments →
      (a.runCall call world).1 = .ran arguments (tool.handler arguments world).1 ∧
        (a.runCall call world).2 = (tool.handler arguments world).2 := by
    intro tool arguments h
    rw [h.runCall_eq]
    exact ⟨rfl, rfl⟩
  cases herror : (a.runCall call world).1.error? with
  | some e =>
    have htext := text_of_error?_eq_some herror
    refine ⟨fun e' => ?_, ⟨?_, fun hnone => absurd (fails_iff.mpr herror) (hnone e)⟩,
      hunreached, hreached⟩
    · rw [fails_iff, herror, htext, failureText_injective.eq_iff, Option.some.injEq]
    · rintro ⟨summary, view, data, hsuccess⟩
      exact absurd (htext.symm.trans hsuccess) (failureText_ne_successText e summary view data)
  | none =>
    have hnofail : ∀ e, ¬ Fails a call world e := by
      intro e hfails
      rw [fails_iff, herror] at hfails
      cases hfails
    obtain ⟨tool, arguments, hreaches⟩ := exists_reaches_of_error?_eq_none herror
    rw [(hreached tool arguments hreaches).1] at herror
    obtain ⟨summary, view, data, htext⟩ := exists_text_of_error?_eq_none herror
    rw [← (hreached tool arguments hreaches).1] at htext
    refine ⟨fun e => ⟨fun hfailure => ?_, fun hfails => absurd hfails (hnofail e)⟩,
      ⟨fun _ => hnofail, fun _ => ⟨summary, view, data, htext⟩⟩, hunreached, hreached⟩
    exact absurd (hfailure.symm.trans htext) (failureText_ne_successText e summary view data)

/-! ### The calls of a message -/

/-- How the calls of a message are taken up, one after the other, whatever became of the ones
before: the steps, and the surroundings before and after. -/
inductive Dispatching (a : Agent σ) (auto : Bool) :
    List (Place × ToolCall) → σ → List Step → σ → Prop where
  /-- No call is left. -/
  | nil (world : σ) : Dispatching a auto [] world [] world
  /-- A gated call is held. -/
  | held {place : Place} {call : ToolCall} {rest : List (Place × ToolCall)} {world world' : σ}
    {steps : List Step} (hgated : a.isGated auto call = true)
    (more : Dispatching a auto rest world steps world') :
    Dispatching a auto ((place, call) :: rest) world (.held place call :: steps) world'
  /-- Any other call is settled, and the model is told. -/
  | settled {place : Place} {call : ToolCall} {rest : List (Place × ToolCall)}
    {world between world' : σ} {steps : List Step} {fate : Fate}
    (hfree : a.isGated auto call = false) (told : Told a call world fate between)
    (more : Dispatching a auto rest between steps world') :
    Dispatching a auto ((place, call) :: rest) world (.settled place call fate :: steps) world'

/-- **Dispatch.**  Calls that are to be dispatched are taken up in this way. -/
theorem dispatching_takeAll (a : Agent σ) (auto : Bool) {opens : List OpenCall}
    (h : ∀ o ∈ opens, o.resolution = .dispatch) (t : Turn σ) :
    Dispatching a auto (opens.map OpenCall.placed) t.world (a.takeAll auto opens t).1
      (a.takeAll auto opens t).2.world := by
  induction opens generalizing t with
  | nil => exact .nil t.world
  | cons o rest ih =>
    rw [List.map_cons, takeAll_cons]
    have htaking := taking_take a auto o t
    generalize (a.take auto o t).1 = s, (a.take auto o t).2 = t' at htaking ⊢
    have hmore := ih (fun o ho => h o (List.mem_cons_of_mem _ ho)) t'
    have hdispatch := h o List.mem_cons_self
    cases htaking with
    | canceled hcancel =>
      rw [hdispatch] at hcancel
      cases hcancel
    | held _ hgated => exact .held hgated hmore
    | @ran fate world hrun hres =>
      have hfree : a.isGated auto o.call = false := by
        rcases hres with hexecute | ⟨-, hfree⟩
        · rw [hdispatch] at hexecute
          cases hexecute
        · exact hfree
      have htold := told_runCall a o.call t.world
      rw [hrun] at htold
      exact .settled hfree htold hmore

namespace Dispatching

variable {calls : List (Place × ToolCall)} {world world' : σ} {steps : List Step}

/-- The gated calls are held, in their order. -/
theorem map_heldCalls (h : Dispatching a auto calls world steps world') :
    (heldCalls steps).map (·.2) = (calls.map (·.2)).filter (a.isGated auto) := by
  induction h with
  | nil => rfl
  | held hgated _ ih =>
    rw [List.map_cons, List.filter_cons_of_pos hgated, ← ih]
    rfl
  | settled hfree _ _ ih =>
    rw [List.map_cons, List.filter_cons_of_neg (Bool.eq_false_iff.mp hfree), ← ih]
    rfl

/-- Each of the others has one tool message, in their order. -/
theorem messages (h : Dispatching a auto calls world steps world') :
    List.Forall₂ (fun call r => ∃ text, r = Message.tool call.id text)
      ((calls.map (·.2)).filter (!a.isGated auto ·)) (Agent.messages steps) := by
  induction h with
  | nil => exact .nil
  | @held _ call _ _ _ _ hgated _ ih =>
    rw [List.map_cons, List.filter_cons_of_neg (by rw [hgated]; decide)]
    exact ih
  | @settled _ call _ _ _ _ _ fate hfree _ _ ih =>
    rw [List.map_cons, List.filter_cons_of_pos (by rw [hfree]; rfl)]
    exact .cons ⟨fate.text, rfl⟩ ih

end Dispatching

/-! ### In a turn -/

/-- A message whose calls are dispatched goes on when it has calls and none is gated. -/
theorem goesOn_dispatched_iff (a : Agent σ) (auto : Bool) (position : Nat) (calls : List ToolCall)
    {t : Turn σ} (hnone : t.pending = []) :
    ((if (a.takeAll auto (dispatched position calls) t).1.any Step.isSettled then Verdict.goesOn
        else .rests) = .goesOn ∧
      (a.takeAll auto (dispatched position calls) t).2.pending = []) ↔
      calls ≠ [] ∧ ∀ call ∈ calls, a.isGated auto call = false := by
  rw [Verdict.ite_eq_goesOn_iff, any_isSettled_dispatched_iff,
    (advances_takeAll a auto _ t).pending_eq_nil_iff hnone, heldCalls_dispatched_eq_nil_iff]
  simp only [List.mem_map, not_exists, not_and, Bool.not_eq_true]
  constructor
  · rintro ⟨⟨call, hcall, -⟩, hfree⟩
    exact ⟨List.ne_nil_of_mem hcall, hfree⟩
  · rintro ⟨hne, hfree⟩
    obtain ⟨call, hcall⟩ := List.exists_mem_of_ne_nil _ hne
    exact ⟨⟨call, hcall, hfree call hcall⟩, hfree⟩

/-- **Dispatch partitions the calls.**  Whenever a turn asks the model, it hears pieces of text and
then that the model failed, or a message.  The calls of the message are taken up at once: the gated
ones are held, in their order, and wait in front of those that are held later; each of the others
has one tool message with its id, in their order, and these stand directly behind the message.  Each
tool message tells truthfully whether its call failed.  The model is asked again, with all of them
to read, exactly when there are calls, none is gated and the limit is not reached: whether calls
fail makes no difference. -/
theorem calls_partitioned (a : Agent σ) (mode : Mode) (ids : Nat → String)
    (request : Request) (world : σ) {before after : List Step} {id : String}
    {history : List Message}
    (hlog : (a.play mode ids request world).log = before ++ .asked id history :: after) :
    ∃ world₀ world₁ deltas,
      (∃ e rest, a.ask mode history world₀ = (⟨deltas, .error e⟩, world₁) ∧
        after = deltas.map (.heard id) ++ .failed e :: rest) ∨
      ∃ completion m steps rest world₂,
        a.ask mode history world₀ = (⟨deltas, .ok completion⟩, world₁) ∧
        m = completion.message.normalizeIds ∧
        after = deltas.map (.heard id) ++ .said id m :: (steps ++ rest) ∧
        Dispatching a request.autoExecute
          ((dispatched history.length m.toolCalls).map OpenCall.placed) world₁ steps world₂ ∧
        (heldCalls steps).map (·.2) = m.toolCalls.filter (a.isGated request.autoExecute) ∧
        List.Forall₂ (fun call r => ∃ text, r = Message.tool call.id text)
          (m.toolCalls.filter (!a.isGated request.autoExecute ·)) (messages steps) ∧
        (a.play mode ids request world).last.history =
          history ++ m :: (messages steps ++ messages rest) ∧
        (a.play mode ids request world).last.pending =
          (m.toolCalls.filter (a.isGated request.autoExecute)).map .ofCall ++
            (heldCalls rest).map (fun held => .ofCall held.2) ∧
        ((∃ id' later, rest = .asked id' (history ++ m :: messages steps) :: later) ↔
          m.toolCalls ≠ [] ∧ (∀ call ∈ m.toolCalls, a.isGated request.autoExecute call = false) ∧
            (histories before).length + 1 < a.maxRounds) := by
  obtain ⟨asked, t, steps, t', verdict, more, left, t'', broken?, hbefore, hleads, rfl, hround,
    hsteps, hfollows, hleft⟩ := exists_follows_of_asked hlog
  have hadvances : Advances (a.start request world) before t := by
    rw [hbefore]
    exact (advances_resolve a request world).trans hleads.advances
  have hnone : t.pending = [] := hleads.pending_last
  cases hround with
  | @broke deltas e world₁ hask =>
    rw [List.append_assoc, List.cons_append, List.cons.injEq, Step.asked.injEq] at hsteps
    obtain ⟨⟨rfl, -⟩, rfl⟩ := hsteps
    exact ⟨t.world, world₁, deltas, Or.inl ⟨e, _, hask, rfl⟩⟩
  | @spoke deltas completion world₁ m spoken hask hm hspoken =>
    rw [List.append_assoc, List.cons_append, List.cons.injEq, Step.asked.injEq,
      List.cons_append] at hsteps
    obtain ⟨⟨rfl, -⟩, rfl⟩ := hsteps
    have hspokenNone : spoken.pending = [] := by rw [hspoken]; exact hnone
    have hspokenHistory : spoken.history = t.history ++ [m] := by rw [hspoken]; rfl
    have hspokenWorld : spoken.world = world₁ := by rw [hspoken]; rfl
    have hdispatch : ∀ o ∈ dispatched t.history.length m.toolCalls, o.resolution = .dispatch :=
      fun o ho => (mem_dispatched.mp ho).2.2
    have hdispatching := dispatching_takeAll a request.autoExecute hdispatch spoken
    rw [hspokenWorld] at hdispatching
    have hcalls : ((dispatched t.history.length m.toolCalls).map OpenCall.placed).map (·.2) =
        m.toolCalls := by
      rw [List.map_map]
      exact map_call_dispatched t.history.length m.toolCalls
    have hheld := hdispatching.map_heldCalls
    have hanswered := hdispatching.messages
    rw [hcalls] at hheld hanswered
    have hgoesOn :=
      goesOn_dispatched_iff a request.autoExecute t.history.length m.toolCalls hspokenNone
    have htaken :=
      advances_takeAll a request.autoExecute (dispatched t.history.length m.toolCalls) spoken
    have hasked := hfollows.asked_iff
    rw [htaken.history, hspokenHistory, List.append_assoc] at hasked
    generalize
      (a.takeAll request.autoExecute (dispatched t.history.length m.toolCalls) spoken).1 = steps,
      (a.takeAll request.autoExecute (dispatched t.history.length m.toolCalls) spoken).2 = t' at *
    have hplay := advances_play a mode ids request world
    refine ⟨t.world, world₁, deltas,
      Or.inr ⟨completion, m, steps, more ++ (conclude mode t'' broken?).1, t'.world, hask, hm,
        rfl, hdispatching, hheld, hanswered, ?_, ?_, ?_⟩⟩
    · rw [hplay.history, hlog, messages_append, ← List.append_assoc, ← hadvances.history,
        messages_cons, messages_append, messages_heard, messages_cons, messages_append]
      rfl
    · have hheldBefore : heldCalls before = [] := (hadvances.pending_eq_nil_iff rfl).mp hnone
      rw [hplay.pending, hlog, heldCalls_append, hheldBefore, heldCalls_cons, heldCalls_append,
        heldCalls_heard, heldCalls_cons, heldCalls_append, ← hheld]
      show [] ++ List.map _ (heldCalls steps ++ _) = _
      rw [List.nil_append, List.map_append, List.map_map]
      rfl
    · refine hasked.trans ?_
      rw [← and_assoc, hgoesOn, and_assoc]
      refine and_congr_right fun _ => and_congr_right fun _ => ?_
      omega

/-- A tool that always answers the same. -/
def answering (name : String) (answer : Except ToolError Output) : Tool (List Message) where
  schema := ⟨name, "", .obj []⟩
  handler _ script := (answer, script)

/-- `ls` runs at once, `rm` requires confirmation, `cat` fails, and `head` reports a failure. -/
def falteringRegistry : Registry (List Message) where
  tools :=
    [Sample.tool "ls" false, Sample.tool "rm" true,
      answering "cat" (.error (.executionFailed "gone")),
    answering "head" (.ok (.error "empty"))]
  index := [("cat", 2), ("head", 3), ("ls", 0), ("rm", 1)]
  registered := rfl

/-- The sample agent with these tools. -/
def falteringAgent : Agent (List Message) := { Sample.agent with registry := falteringRegistry }

/-- A message with calls of all kinds: `rm` is gated, nobody knows `rmdir`, and an array is no
arguments. -/
def mixedMessage : Message :=
  Sample.calling [Sample.call "c1" "cat", Sample.call "c2" "rm", Sample.call "c3" "rmdir",
    ⟨"c4", "ls", "[]"⟩, Sample.call "c5" "head", Sample.call "c6" "ls"]

/-- What a turn does behind its question when the model answers with this message. -/
def mixedSteps : List Step :=
  (falteringAgent.play .whole (fun _ => "a0") { messages := [] } [mixedMessage]).log.tail

/-- One call waits and four fail, each in its own way, but the last one still runs. -/
theorem calls_partitioned_mixed :
    (falteringAgent.play .whole (fun _ => "a0") { messages := [] } [mixedMessage]).log =
      [] ++ .asked "a0" (falteringAgent.start { messages := [] } [mixedMessage]).history ::
        mixedSteps ∧
    ∃ steps rest, mixedSteps = .said "a0" mixedMessage :: (steps ++ rest) ∧
      (heldCalls steps).map (·.2) = [Sample.call "c2" "rm"] ∧
      List.Forall₂ (fun call r => ∃ text, r = Message.tool call.id text)
        [Sample.call "c1" "cat", Sample.call "c3" "rmdir", ⟨"c4", "ls", "[]"⟩,
          Sample.call "c5" "head", Sample.call "c6" "ls"] (messages steps) ∧
      (messages mixedSteps).map (·.content.text) =
        ["", failureText "Tool execution failed: gone", failureText "Tool not found: rmdir",
          failureText "Invalid parameters: Arguments for 'ls' must be a JSON object, got: []",
          failureText "empty", successText "" "kv" (.obj [])] := by
  have hlog : (falteringAgent.play .whole (fun _ => "a0") { messages := [] } [mixedMessage]).log =
      [] ++ .asked "a0" (falteringAgent.start { messages := [] } [mixedMessage]).history ::
        mixedSteps := rfl
  have hsaid : ∃ rest, mixedSteps = .said "a0" mixedMessage :: rest := ⟨_, rfl⟩
  have hgated : mixedMessage.toolCalls.filter (falteringAgent.isGated false) =
      [Sample.call "c2" "rm"] := by decide
  have hfree : mixedMessage.toolCalls.filter (!falteringAgent.isGated false ·) =
      [Sample.call "c1" "cat", Sample.call "c3" "rmdir", ⟨"c4", "ls", "[]"⟩,
        Sample.call "c5" "head", Sample.call "c6" "ls"] := by decide
  refine ⟨hlog, ?_⟩
  obtain ⟨rest, hrest⟩ := hsaid
  obtain ⟨_, _, deltas, ⟨e, _, _, hsteps⟩ | ⟨_, m, steps, later, _, _, _, hsteps, -, hheld,
      htold, -⟩⟩ :=
    calls_partitioned falteringAgent .whole (fun _ => "a0") { messages := [] } [mixedMessage] hlog
  · rw [hrest] at hsteps
    cases deltas <;> cases hsteps
  · rw [hrest] at hsteps
    cases deltas with
    | cons => cases hsteps
    | nil =>
      rw [List.map_nil, List.nil_append, List.cons.injEq, Step.said.injEq] at hsteps
      obtain ⟨⟨-, rfl⟩, rfl⟩ := hsteps
      exact ⟨steps, later, hrest, hheld.trans hgated, hfree ▸ htold, by decide⟩

end Parley.Agent
