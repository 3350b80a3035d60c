import Parley.Proofs.Json.Members
import Parley.Proofs.Prompt.Rendering
import Parley.Proofs.Prompt.Written
import Parley.Proofs.Text.Pieces
import Parley.Prompt.System

/-!
# The template of the system prompt

The template is written down part by part (`systemParts`), so its nodes are known
(`ofTemplate?_systemTemplate`), and what they render to is put together node by node.
`renderSystem_eq`: for all tools and every path, the template renders to the prompt that says them
as they are.
-/

namespace Parley

/-! ### Texts without blanks at their ends -/

namespace Text

/-- A literal that is cut in two. -/
theorem ofList_eq_append {cs as bs : List Char} (h : cs = as ++ bs) :
    String.ofList cs = String.ofList as ++ String.ofList bs := by rw [h, String.ofList_append]

theorem not_mem_ofList {c : Char} {cs : List Char} (h : c ∉ cs) :
    c ∉ (String.ofList cs).toList := by
  rwa [String.toList_ofList]

theorem not_mem_append {c : Char} {s t : String} (hs : c ∉ s.toList) (ht : c ∉ t.toList) :
    c ∉ (s ++ t).toList := by
  rw [String.toList_append, List.mem_append]
  exact not_or.mpr ⟨hs, ht⟩

/-- Whether a text begins with a character that is not blank. -/
def IsFlushStart (s : String) : Prop := ∃ c cs, isBlank c = false ∧ s.toList = c :: cs

/-- Whether a text ends in a character that is not blank. -/
def IsFlushEnd (s : String) : Prop := ∃ c cs, isBlank c = false ∧ s.toList = cs ++ [c]

theorem isFlushStart_ofList {c : Char} (h : isBlank c = false) (cs : List Char) :
    IsFlushStart (String.ofList (c :: cs)) := ⟨c, cs, h, String.toList_ofList⟩

theorem isFlushEnd_ofList {c : Char} {cs : List Char} (hlast : cs.getLast? = some c)
    (h : isBlank c = false) :
    IsFlushEnd (String.ofList cs) := by
  obtain ⟨ds, hds⟩ := List.getLast?_eq_some_iff.mp hlast
  exact ⟨c, ds, h, String.toList_ofList.trans hds⟩

variable {s t : String}

theorem IsFlushStart.append (h : IsFlushStart s) (t : String) : IsFlushStart (s ++ t) := by
  obtain ⟨c, cs, hc, hs⟩ := h
  exact ⟨c, cs ++ t.toList, hc, by rw [String.toList_append, hs, List.cons_append]⟩

theorem IsFlushEnd.append (h : IsFlushEnd t) (s : String) : IsFlushEnd (s ++ t) := by
  obtain ⟨c, cs, hc, ht⟩ := h
  exact ⟨c, s.toList ++ cs, hc, by rw [String.toList_append, ht, List.append_assoc]⟩

theorem IsFlushStart.dropWhile_append (h : IsFlushStart s) (hblank : allBlank t = true) :
    (t ++ s).toList.dropWhile isBlank = s.toList := by
  obtain ⟨c, cs, hc, hs⟩ := h
  rw [String.toList_append, hs, List.dropWhile_append_of_pos (List.all_eq_true.mp hblank),
    List.dropWhile_cons_of_neg (by simp [hc])]

theorem IsFlushEnd.dropEndWhile_append (h : IsFlushEnd s) (hblank : allBlank t = true) :
    dropEndWhile isBlank (s ++ t).toList = s.toList := by
  obtain ⟨c, cs, hc, hs⟩ := h
  rw [String.toList_append, hs, List.append_assoc, List.singleton_append,
    dropEndWhile_append_cons hc, dropEndWhile_eq_nil_iff.mpr (List.all_eq_true.mp hblank)]

/-- Only the blanks behind a text are cut off. -/
theorem trim_append (hstart : IsFlushStart s) (hend : IsFlushEnd s) (hblank : allBlank t = true) :
    trim (s ++ t) = s := by
  have hfront := (hstart.append t).dropWhile_append (t := "") (by decide)
  rw [String.empty_append] at hfront
  rw [trim, hfront, hend.dropEndWhile_append hblank, String.ofList_toList]

/-- Joined texts are the first one and, behind it, the others with separators in front. -/
theorem join_cons (separator s : String) (texts : List String) :
    join separator (s :: texts) = s ++ String.join (texts.map (separator ++ ·)) := by
  induction texts generalizing s with
  | nil => simp [join]
  | cons t texts ih =>
    have htail :
        separator.intercalate (t :: texts) = t ++ String.join (texts.map (separator ++ ·)) := ih t
    rw [join, String.intercalate_cons_cons, htail, List.map_cons, String.join_cons]
    simp only [String.append_assoc]

theorem isFlushStart_join (separator : String) (h : IsFlushStart s) (texts : List String) :
    IsFlushStart (join separator (s :: texts)) := by
  rw [join_cons]
  exact h.append _

theorem isFlushEnd_join {texts : List String} {last : String} (separator : String)
    (hlast : texts.getLast? = some last) (h : IsFlushEnd last) :
    IsFlushEnd (join separator texts) := by
  induction texts with
  | nil => exact nomatch hlast
  | cons s texts ih =>
    cases texts with
    | nil =>
      obtain rfl : s = last := Option.some.inj hlast
      rwa [join, String.intercalate_singleton]
    | cons t texts =>
      rw [join, String.intercalate_cons_cons]
      exact (ih hlast).append _

end Text

namespace Prompt

open Chat (ToolSchema)

/-! ### The template part by part -/

/-- What is said before the path. -/
def beforePath : String := "The user is currently looking at `"

/-- What is said behind the path. -/
def afterPath : String := "`. Relative requests such as \"this folder\" refer to it."

def ifPath : Mark := { kind := .tag, inside := "if current_path" }

def pathValue : Mark := { kind := .value, inside := "current_path" }

def endIf : Mark := { kind := .tag, inside := "endif" }

def ifTools : Mark := { kind := .tag, inside := "if tools | length > 0", trimsAfter := true }

def forTool : Mark := { kind := .tag, inside := "for tool in tools", trimsAfter := true }

def nameValue : Mark := { kind := .value, inside := "tool.name" }

def descriptionValue : Mark := { kind := .value, inside := "tool.description" }

def endFor : Mark := { kind := .tag, inside := "endfor" }

def endIfTools : Mark := { kind := .tag, inside := "endif", trimsBefore := true }

/-- The texts of the template with the marks behind them. -/
def systemParts : List (String × Mark) := [
  (opening ++ "\n", ifPath), ("\n" ++ beforePath, pathValue), (afterPath ++ "\n", endIf),
  ("\n", ifTools), ("\n" ++ (toolGuide ++ ("\n" ++ "\n")), forTool), ("\n" ++ "- ", nameValue),
  (": ", descriptionValue), ("\n", endFor), ("\n" ++ approvalGuide ++ "\n", endIfTools)]

/-- The lines of the template. -/
theorem systemTemplate_eq : systemTemplate = Text.join "\n" [opening, String.ofList ifPath.chars,
    beforePath ++ String.ofList pathValue.chars ++ afterPath, String.ofList endIf.chars,
    String.ofList ifTools.chars, toolGuide, "", String.ofList forTool.chars,
    "- " ++ (String.ofList nameValue.chars ++ (": " ++ String.ofList descriptionValue.chars)),
    String.ofList endFor.chars, approvalGuide, String.ofList endIfTools.chars] := by
  -- Only the two lines with values in them have to be cut at the marks.
  have hpath : "The user is currently looking at `\x7b\x7b current_path \x7d\x7d`. " ++
      "Relative requests such as \"this folder\" refer to it." =
        beforePath ++ String.ofList pathValue.chars ++ afterPath := by
    have hfront : "The user is currently looking at `\x7b\x7b current_path \x7d\x7d`. " =
        "The user is currently looking at `" ++ "\x7b\x7b current_path \x7d\x7d`. " :=
      Text.ofList_eq_append (by rfl)
    have hmark : "\x7b\x7b current_path \x7d\x7d`. " = String.ofList pathValue.chars ++ "`. " :=
      Text.ofList_eq_append (by rfl)
    have hback : "`. Relative requests such as \"this folder\" refer to it." =
        "`. " ++ "Relative requests such as \"this folder\" refer to it." :=
      Text.ofList_eq_append (by rfl)
    rw [beforePath, afterPath, hfront, hmark, hback]
    simp only [String.append_assoc]
  have hline : "- \x7b\x7b tool.name \x7d\x7d: \x7b\x7b tool.description \x7d\x7d" =
      "- " ++ (String.ofList nameValue.chars ++
        (": " ++ String.ofList descriptionValue.chars)) := by rfl
  rw [systemTemplate, hpath, hline]
  rfl

theorem toList_systemTemplate : systemTemplate.toList = written systemParts "" := by
  rw [systemTemplate_eq, Text.join]
  simp only [written, systemParts, String.intercalate_cons_cons, String.intercalate_singleton,
    List.flatMap_cons, List.flatMap_nil, String.toList_append, String.toList_ofList,
    String.toList_empty, List.append_assoc, List.append_nil, List.nil_append, -String.reduceToList,
    -String.reduceAppend]

/-- Nothing in the template could be taken for a mark that is none. -/
theorem isPlain_systemParts : IsPlain systemParts "" := by
  have hopening : '\x7b' ∉ opening.toList := Text.not_mem_ofList (by decide)
  have htools : '\x7b' ∉ toolGuide.toList :=
    Text.not_mem_append (Text.not_mem_ofList (by decide)) (Text.not_mem_ofList (by decide))
  have happroval : '\x7b' ∉ approvalGuide.toList :=
    Text.not_mem_append (Text.not_mem_ofList (by decide)) (Text.not_mem_ofList (by decide))
  have hbefore : '\x7b' ∉ beforePath.toList := Text.not_mem_ofList (by decide)
  have hafter : '\x7b' ∉ afterPath.toList := Text.not_mem_ofList (by decide)
  have hbreak : '\x7b' ∉ "\n".toList := by decide
  refine ⟨?_, by decide, by decide⟩
  simp only [systemParts, List.forall_mem_cons, String.toList_append, List.mem_append, not_or]
  exact ⟨⟨hopening, hbreak⟩, ⟨hbreak, hbefore⟩, ⟨hafter, hbreak⟩, hbreak,
    ⟨hbreak, htools, hbreak, hbreak⟩, ⟨hbreak, by decide⟩, by decide, hbreak,
    ⟨⟨hbreak, happroval⟩, hbreak⟩, by simp⟩

/-! ### Its nodes -/

section

variable {r : Reader} {before nodes : List Node} {blocks : List Open} {condition : Expr}

/-- Whether there are tools. -/
def hasTools : Expr :=
  .compare .gt (.filter (.name "tools") "length" none) (.literal (.num (.int 0)))

/-- A member of the tool at hand. -/
def toolPart (key : String) : Expr := .part (.name "tool") (.literal (.str key))

theorem take_ifPath :
    r.take ifPath.piece = some ⟨[], .choice r.nodes [] (.name "current_path") :: r.blocks⟩ :=
  Reader.take_tag [.name "if", .name "current_path"] rfl (by decide) r

theorem take_pathValue :
    r.take pathValue.piece = some { r with nodes := .output (.name "current_path") :: r.nodes } :=
  Reader.take_value [.name "current_path"] rfl (by decide) rfl r

theorem take_endIf : Reader.take ⟨nodes, .choice before [] condition :: blocks⟩ endIf.piece =
    some ⟨.branch condition nodes.reverse [] :: before, blocks⟩ :=
  Reader.take_tag [.name "endif"] rfl (by decide) _

theorem take_ifTools : r.take ifTools.piece = some ⟨[], .choice r.nodes [] hasTools :: r.blocks⟩ :=
  Reader.take_tag [.name "if", .name "tools", .mark "|", .name "length", .mark ">",
    .number (.int 0)] rfl (by decide) r

theorem take_forTool :
    r.take forTool.piece = some ⟨[], .repeated r.nodes none "tool" (.name "tools") :: r.blocks⟩ :=
  Reader.take_tag [.name "for", .name "tool", .name "in", .name "tools"] rfl (by decide) r

theorem take_nameValue :
    r.take nameValue.piece = some { r with nodes := .output (toolPart "name") :: r.nodes } :=
  Reader.take_value [.name "tool", .member "name"] rfl (by decide) rfl r

theorem take_descriptionValue :
    r.take descriptionValue.piece =
      some { r with nodes := .output (toolPart "description") :: r.nodes } :=
  Reader.take_value [.name "tool", .member "description"] rfl (by decide) rfl r

theorem take_endFor :
    Reader.take ⟨nodes, .repeated before none "tool" (.name "tools") :: blocks⟩ endFor.piece =
    some ⟨.each none "tool" (.name "tools") nodes.reverse [] :: before, blocks⟩ :=
  Reader.take_tag [.name "endfor"] rfl (by decide) _

theorem take_endIfTools :
    Reader.take ⟨nodes, .choice before [] condition :: blocks⟩ endIfTools.piece =
    some ⟨.branch condition nodes.reverse [] :: before, blocks⟩ :=
  Reader.take_tag [.name "endif"] rfl (by decide) _

end

/-- What is said about the path. -/
def pathNodes : List Node :=
  [.text ("\n" ++ beforePath), .output (.name "current_path"), .text (afterPath ++ "\n")]

/-- The line of a tool. -/
def toolNodes : List Node :=
  [.text "- ", .output (toolPart "name"), .text ": ", .output (toolPart "description"), .text "\n"]

/-- What is said about the tools. -/
def guideNodes : List Node :=
  [.text (toolGuide ++ ("\n" ++ "\n")), .each none "tool" (.name "tools") toolNodes [],
    .text ("\n" ++ approvalGuide)]

/-- The nodes of the template. -/
def systemNodes : List Node :=
  [.text (opening ++ "\n"), .branch (.name "current_path") pathNodes [], .text "\n",
    .branch hasTools guideNodes [], .text ""]

theorem isFlushStart_opening : Text.IsFlushStart opening := Text.isFlushStart_ofList (by decide) _

theorem isFlushStart_toolGuide : Text.IsFlushStart toolGuide :=
  Text.IsFlushStart.append (Text.isFlushStart_ofList (by decide) _) _

theorem isFlushEnd_opening : Text.IsFlushEnd opening := Text.isFlushEnd_ofList rfl (by decide)

theorem isFlushEnd_afterPath : Text.IsFlushEnd afterPath := Text.isFlushEnd_ofList rfl (by decide)

theorem isFlushEnd_approvalGuide : Text.IsFlushEnd approvalGuide :=
  Text.IsFlushEnd.append (Text.isFlushEnd_ofList rfl (by decide)) _

theorem ofTemplate?_systemTemplate : Node.ofTemplate? systemTemplate = some systemNodes := by
  refine ofTemplate?_written toList_systemTemplate isPlain_systemParts ?_
  have hkept (s : String) : cutText false false s = s := String.ofList_toList
  have hguide : cutText true false ("\n" ++ (toolGuide ++ ("\n" ++ "\n"))) =
      toolGuide ++ ("\n" ++ "\n") := by
    have hcut :=
      (isFlushStart_toolGuide.append ("\n" ++ "\n")).dropWhile_append (t := "\n") (by decide)
    rw [cutText, if_pos rfl, if_neg Bool.false_ne_true, hcut, String.ofList_toList]
  have hline : cutText true false ("\n" ++ "- ") = "- " := by decide
  have happroval : cutText false true ("\n" ++ approvalGuide ++ "\n") = "\n" ++ approvalGuide := by
    have hcut := (isFlushEnd_approvalGuide.append "\n").dropEndWhile_append (t := "\n") (by decide)
    rw [cutText, if_neg Bool.false_ne_true, if_pos rfl, hcut, String.ofList_toList]
  simp only [systemParts, Reader.takeParts, take_ifPath, take_pathValue, take_endIf, take_ifTools,
    take_forTool, take_nameValue, take_descriptionValue, take_endFor, take_endIfTools,
    Option.bind_eq_bind, Option.bind_some]
  simp only [ifPath, pathValue, endIf, ifTools, forTool, nameValue, descriptionValue, endFor,
    endIfTools, hkept, hguide, hline, happroval, -String.reduceAppend]
  rfl

/-! ### What it renders to -/

section

variable (tools : List ToolSchema) (path? : Option String)

/-- The names that the template may use. -/
def systemBindings : Scope :=
  Entries.ofList [("tools", .arr (tools.map ToolSchema.toJson)),
    ("current_path", Json.ofOption .str (path?.filter (!Text.allBlank ·)))]

theorem eval_tools :
    (Expr.name "tools").eval (systemBindings tools path?) =
      .ok (.arr (tools.map ToolSchema.toJson)) := by
  rw [Expr.eval, systemBindings, Entries.lookup_ofList]
  rfl

theorem eval_currentPath : (Expr.name "current_path").eval (systemBindings tools path?) =
    .ok (Json.ofOption .str (path?.filter (!Text.allBlank ·))) := by
  rw [Expr.eval, systemBindings, Entries.lookup_ofList]
  rfl

/-- A blank path is no path. -/
theorem verdict_currentPath : (Expr.name "current_path").verdict
    ((Expr.name "current_path").eval (systemBindings tools path?)) =
      .ok (path?.filter (!Text.allBlank ·)).isSome := by
  rw [eval_currentPath]
  cases hpath : path?.filter (!Text.allBlank ·) with
  | none => rfl
  | some path =>
    have hsolid := (Option.filter_eq_some_iff.mp hpath).2
    have hne : path.isEmpty = false := by
      rw [Bool.eq_false_iff]
      intro hempty
      rw [String.isEmpty_iff.mp hempty] at hsolid
      exact Bool.false_ne_true hsolid
    simp [Expr.verdict, Json.ofOption, isTrue, hne]

theorem verdict_hasTools :
    hasTools.verdict (hasTools.eval (systemBindings tools path?)) = .ok (!tools.isEmpty) := by
  have hlength : (Expr.filter (.name "tools") "length" none).eval (systemBindings tools path?) =
      .ok (.nat tools.length) := by
    rw [Expr.eval, Expr.evalArgument, eval_tools, ← List.length_map (f := ToolSchema.toJson)]
    rfl
  have hholds : holds .gt (.nat tools.length) (.num (.int 0)) = .ok (!tools.isEmpty) := by
    simp only [holds, Json.nat, numberOf, quotientOf, bind, Except.bind]
    cases tools <;> simp [pure, Except.pure]
  rw [hasTools, Expr.eval, hlength, Expr.eval]
  simp only [bind, Except.bind, hholds]
  rfl

/-- A tool has the parts that its line says. -/
theorem eval_toolPart {t : ToolSchema} {s : Scope} {key : String} {v : Json}
    (hv : t.toJson.get? key = some v) :
    (toolPart key).eval (("tool", t.toJson) :: s) = .ok v := by
  have htool : (Expr.name "tool").eval (("tool", t.toJson) :: s) = .ok t.toJson := by
    rw [Expr.eval, List.lookup_cons_self]
  have hpart : partOf? t.toJson (.str key) = some v := hv
  rw [toolPart, Expr.eval, htool, Expr.eval]
  simp only [bind, Except.bind, hpart]

/-- The name and the description of a tool stand in its line as they are. -/
theorem renderAll_toolNodes (t : ToolSchema) (s : Scope) :
    Node.renderAll (("tool", t.toJson) :: s) toolNodes = .ok (toolLine t ++ "\n") := by
  have hname : t.toJson.get? "name" = some (.str t.name) := Json.get?_object _ _
  have hdescription : t.toJson.get? "description" = some (.str t.description) :=
    Json.get?_object _ _
  have hline := Node.renderAll_cons (Node.render_text "- ") <|
    Node.renderAll_cons (Node.render_output (eval_toolPart (s := s) hname)) <|
    Node.renderAll_cons (Node.render_text ": ") <|
    Node.renderAll_cons (Node.render_output (eval_toolPart (s := s) hdescription)) <|
    Node.renderAll_cons (Node.render_text "\n") Node.renderAll_nil
  rw [toolNodes, hline, toolLine]
  simp only [valueText, String.append_assoc, String.append_empty]

/-- What is said about the path, with the breaks around it. -/
def pathText : String :=
  ((path?.filter (!Text.allBlank ·)).map fun path => "\n" ++ location path ++ "\n").getD ""

/-- What is said about the tools. -/
def guideText : String :=
  if tools.isEmpty then ""
  else toolGuide ++ "\n\n" ++ String.join (tools.map fun t => toolLine t ++ "\n") ++ "\n" ++
    approvalGuide

/-- The path stands in the prompt as it is. -/
theorem render_path :
    (Node.branch (.name "current_path") pathNodes []).render (systemBindings tools path?) =
    .ok (pathText path?) := by
  rw [Node.render_branch (verdict_currentPath tools path?), pathText]
  have hpath := eval_currentPath tools path?
  cases hfilter : path?.filter (!Text.allBlank ·) with
  | none => exact Node.renderAll_nil
  | some path =>
    rw [hfilter] at hpath
    have htext := Node.renderAll_cons (Node.render_text ("\n" ++ beforePath)) <|
      Node.renderAll_cons (Node.render_output hpath) <|
      Node.renderAll_cons (Node.render_text (afterPath ++ "\n")) Node.renderAll_nil
    have hlocation : location path = beforePath ++ path ++ afterPath := rfl
    rw [Option.isSome_some, if_pos rfl, pathNodes, htext, Option.map_some,
      Option.getD_some, hlocation]
    simp only [Json.ofOption, valueText, String.append_assoc, String.append_empty]

/-- All tools are listed, in order. -/
theorem render_guide : (Node.branch hasTools guideNodes []).render (systemBindings tools path?) =
    .ok (guideText tools) := by
  rw [Node.render_branch (verdict_hasTools tools path?), guideText]
  cases htools : tools.isEmpty with
  | true => exact Node.renderAll_nil
  | false =>
    have hlines :
        (Node.each none "tool" (.name "tools") toolNodes []).render (systemBindings tools path?) =
        .ok (String.join (tools.map fun t => toolLine t ++ "\n")) :=
      Node.render_each (eval_tools tools path?) fun t _ info => renderAll_toolNodes t _
    have htext := Node.renderAll_cons (Node.render_text (toolGuide ++ ("\n" ++ "\n"))) <|
      Node.renderAll_cons hlines <|
      Node.renderAll_cons (Node.render_text ("\n" ++ approvalGuide)) Node.renderAll_nil
    have hbreaks : "\n\n" = "\n" ++ "\n" := rfl
    rw [Bool.not_false, if_pos rfl, guideNodes, htext, hbreaks]
    simp only [Bool.false_eq_true, if_false, String.append_assoc, String.append_empty]

/-- Lines with a break behind each of them are lines with a break between neighbours, and a last
one. -/
theorem join_lines {α : Type} (line : α → String) {as : List α} (h : as ≠ []) :
    String.join (as.map fun a => line a ++ "\n") = Text.join "\n" (as.map line) ++ "\n" := by
  induction as with
  | nil => exact absurd rfl h
  | cons a as ih =>
    cases as with
    | nil => simp [Text.join]
    | cons b as =>
      have hjoin :
          Text.join "\n" ((a :: b :: as).map line) =
            line a ++ "\n" ++ Text.join "\n" ((b :: as).map line) :=
        String.intercalate_cons_cons
      rw [List.map_cons, String.join_cons, ih (List.cons_ne_nil b as), hjoin]
      simp only [String.append_assoc]

/-- What the nodes say is the prompt, but for breaks behind it where there are no tools. -/
theorem texts_eq : opening ++ "\n" ++ (pathText path? ++ ("\n" ++ guideText tools)) =
    system tools path? ++ if tools.isEmpty then "\n\n" else "" := by
  have hbreaks : "\n\n" = "\n" ++ "\n" := rfl
  have hpath : "\n" ++ pathText path? ++ "\n" =
      String.join (((path?.filter (!Text.allBlank ·)).map location).toList.map ("\n\n" ++ ·)) ++
        "\n\n" := by
    rw [pathText, hbreaks]
    cases path?.filter (!Text.allBlank ·) with
    | none => rfl
    | some path =>
      rw [Option.map_some, Option.map_some, Option.getD_some, Option.toList_some,
        List.map_singleton, String.join_cons, String.join_nil]
      simp only [String.append_assoc, String.append_empty]
  have hguide : "\n\n" ++ guideText tools =
      String.join ((toolSections tools).map ("\n\n" ++ ·)) ++ if tools.isEmpty then "\n\n"
      else "" := by
    rw [guideText, toolSections]
    cases tools with
    | nil => rfl
    | cons t tools =>
      rw [join_lines toolLine (List.cons_ne_nil t tools)]
      simp only [List.isEmpty_cons, Bool.false_eq_true, if_false, List.map_cons, List.map_nil,
        String.join_cons, String.join_nil, String.append_assoc, String.append_empty, hbreaks,
        -String.reduceAppend]
  -- The breaks around the path and in front of the guide are the separators of the sections.
  calc opening ++ "\n" ++ (pathText path? ++ ("\n" ++ guideText tools))
      = opening ++ ("\n" ++ pathText path? ++ "\n") ++ guideText tools := by
        simp only [String.append_assoc]
    _ = opening ++ String.join (((path?.filter (!Text.allBlank ·)).map location).toList.map
          ("\n\n" ++ ·)) ++
          ("\n\n" ++ guideText tools) := by rw [hpath]; simp only [String.append_assoc]
    _ = system tools path? ++ if tools.isEmpty then "\n\n" else "" := by
      rw [hguide, system, sections, List.append_assoc, List.singleton_append, Text.join_cons,
        List.map_append, String.join_append]
      simp only [String.append_assoc]

/-- The prompt begins with its first section. -/
theorem isFlushStart_system : Text.IsFlushStart (system tools path?) :=
  Text.isFlushStart_join "\n\n" isFlushStart_opening _

/-- It ends in a full stop, whatever the last section is. -/
theorem isFlushEnd_system : Text.IsFlushEnd (system tools path?) := by
  cases tools with
  | nil =>
    rw [system, sections, toolSections, List.isEmpty_nil, if_pos rfl, List.append_nil]
    cases path?.filter (!Text.allBlank ·) with
    | none => exact Text.isFlushEnd_join "\n\n" rfl isFlushEnd_opening
    | some path => exact Text.isFlushEnd_join "\n\n" rfl (isFlushEnd_afterPath.append _)
  | cons t tools =>
    refine Text.isFlushEnd_join "\n\n" ?_ isFlushEnd_approvalGuide
    rw [sections, toolSections, List.isEmpty_cons, if_neg Bool.false_ne_true,
      List.getLast?_append_of_ne_nil _ (List.cons_ne_nil _ _)]
    rfl

/-- The template renders to the prompt, for all tools and every path. -/
theorem renderSystem_eq : renderSystem tools path? = .ok (system tools path?) := by
  have hnodes := Node.renderAll_cons (Node.render_text (opening ++ "\n")) <|
    Node.renderAll_cons (render_path tools path?) <|
    Node.renderAll_cons (Node.render_text "\n") <|
    Node.renderAll_cons (render_guide tools path?) <|
    Node.renderAll_cons (Node.render_text "") Node.renderAll_nil
  have hscope : systemScope tools path? = .obj (systemBindings tools path?) := rfl
  have hblank : Text.allBlank (if tools.isEmpty then "\n\n" else "") = true := by split <;> decide
  rw [renderSystem, hscope, loadPrompt_eq ofTemplate?_systemTemplate, systemNodes, hnodes,
    String.append_empty, String.append_empty, texts_eq, Except.map,
      Text.trim_append (isFlushStart_system tools path?) (isFlushEnd_system tools path?) hblank]

end

/-- The prompt section by section. -/
theorem system_eq (tools : List ToolSchema) (path? : Option String) :
    system tools path? = Text.join "\n\n" (
      [opening] ++ (path?.toList.filter (!Text.allBlank ·)).map location ++
      if tools = [] then []
      else [toolGuide, Text.join "\n" (tools.map fun t => "- " ++ t.name ++ ": " ++ t.description),
          approvalGuide]) := by
  have hpath : ((path?.filter (!Text.allBlank ·)).map location).toList =
      (path?.toList.filter (!Text.allBlank ·)).map location := by
    cases path? with
    | none => rfl
    | some path => cases hblank : Text.allBlank path <;> simp [Option.filter, hblank]
  have htools : toolSections tools = if tools = [] then []
      else [toolGuide, Text.join "\n" (tools.map fun t => "- " ++ t.name ++ ": " ++ t.description),
          approvalGuide] := by
    cases tools <;> rfl
  rw [system, sections, hpath, htools]

/-- Of the tools, only names and descriptions matter. -/
theorem system_congr {tools tools' : List ToolSchema}
    (h : tools'.map (fun t => (t.name, t.description)) = tools.map fun t => (t.name, t.description))
    (path? : Option String) : system tools' path? = system tools path? := by
  have hlines (ts : List ToolSchema) :
      ts.map toolLine = (ts.map fun t => (t.name, t.description)).map fun p =>
        "- " ++ p.1 ++ ": " ++ p.2 := by
    rw [List.map_map]
    rfl
  have hempty : tools'.isEmpty = tools.isEmpty := by simpa using congrArg List.isEmpty h
  rw [system, system, sections, sections, toolSections, toolSections, hempty, hlines, hlines, h]

end Prompt

end Parley
