import Parley.Proofs.Json.Members
import Parley.Proofs.Text.Pieces
import Parley.Provider.Remote

/-!
# Addresses do not depend on how the host is spelled

A host may be written with slashes behind it, with or without the version of the format, and in the
Gemini format a model with or without the collection it is in (`Spells`, `copies`).
`spelling_does_not_matter`: all of these lead to the same address, and to models that do the same.

What is cut off is said by what stays: a text is the same text with slashes behind it, or with
copies of a prefix in front (`exists_eq_append_slashes`, `exists_eq_copies_append`), and a text that
has none stays as it is.
-/

namespace Parley

/-! ### Ends and beginnings of texts -/

namespace Text

/-- Whether a text ends in another. -/
def EndsIn (stop s : String) : Prop := stop.toList <:+ s.toList

/-- Whether a text begins with another. -/
def BeginsWith (start s : String) : Prop := start.toList <+: s.toList

instance (stop s : String) : Decidable (EndsIn stop s) := inferInstanceAs (Decidable (_ <:+ _))

instance (start s : String) : Decidable (BeginsWith start s) :=
  inferInstanceAs (Decidable (_ <+: _))

/-- A text again and again. -/
def copies (n : Nat) (s : String) : String := String.ofList (List.replicate n s.toList).flatten

@[simp] theorem copies_zero (s : String) : copies 0 s = "" := rfl

theorem copies_succ (n : Nat) (s : String) : copies (n + 1) s = s ++ copies n s := by
  simp [copies, List.replicate_succ, String.ofList_append]

variable {α : Type} [BEq α] [LawfulBEq α] {mark xs : List α}

theorem dropCopies_append (hmark : mark ≠ []) (xs : List α) :
    dropCopies mark (mark ++ xs) = dropCopies mark xs := by
  rw [dropCopies, dif_pos ⟨by simpa using hmark, by simp, by simp⟩, List.drop_left]

theorem dropCopies_eq_self (h : ¬ mark <+: xs) : dropCopies mark xs = xs := by
  rw [dropCopies, dif_neg fun hdrop => h (List.isPrefixOf_iff_prefix.mp hdrop.2.1)]

/-- What is left when copies of a text are taken off. -/
theorem withoutLeading_copies_append {start s : String} (hstart : start ≠ "")
    (hs : ¬ BeginsWith start s) (n : Nat) : withoutLeading start (copies n start ++ s) = s := by
  induction n with
  | zero => rw [copies_zero, String.empty_append, withoutLeading, dropCopies_eq_self hs,
      String.ofList_toList]
  | succ n ih =>
    rw [copies_succ, String.append_assoc, withoutLeading, String.toList_append,
      dropCopies_append (by simpa using hstart)]
    exact ih

theorem withoutLeading_eq_self {start s : String} (hs : ¬ BeginsWith start s) :
    withoutLeading start s = s := by
  rw [withoutLeading, dropCopies_eq_self hs, String.ofList_toList]

/-- Every text has so many copies of another in front, and no more. -/
theorem exists_eq_copies_append {start : String} (hstart : start ≠ "") (s : String) :
    ∃ n rest, s = copies n start ++ rest ∧ ¬ BeginsWith start rest := by
  -- what is left behind a copy is shorter, because a copy is not empty
  induction hlength : s.length using Nat.strong_induction_on generalizing s with
  | _ length ih =>
  by_cases hs : BeginsWith start s
  · obtain ⟨rest, hrest⟩ := hs
    have hsplit : s = start ++ String.ofList rest := by
      rw [← String.toList_inj, String.toList_append, String.toList_ofList, hrest]
    have hshorter : (String.ofList rest).length < length := by
      have hpos : 0 < start.length := by
        rw [← String.length_toList]
        exact List.length_pos_iff.mpr (by simpa using hstart)
      rw [← hlength, hsplit, String.length_append]
      omega
    obtain ⟨n, rest', heq, hnone⟩ := ih _ hshorter _ rfl
    exact ⟨n + 1, rest', by rw [hsplit, heq, copies_succ, String.append_assoc], hnone⟩
  · exact ⟨0, s, by rw [copies_zero, String.empty_append], hs⟩

end Text

namespace Provider.Endpoint

open Text (BeginsWith EndsIn copies)

/-! ### Slashes -/

/-- So many slashes. -/
def slashes (n : Nat) : String := copies n "/"

@[simp] theorem slashes_zero : slashes 0 = "" := rfl

theorem toList_slashes (n : Nat) : (slashes n).toList = List.replicate n '/' := by
  induction n with
  | zero => rfl
  | succ n ih =>
    rw [slashes, Text.copies_succ, String.toList_append, ← slashes, ih, List.replicate_succ]
    rfl

theorem slashes_succ (n : Nat) : slashes (n + 1) = slashes n ++ "/" := by
  rw [← String.toList_inj, String.toList_append, toList_slashes, toList_slashes,
    List.replicate_succ']
  rfl

theorem endsIn_slash_iff {s : String} : EndsIn "/" s ↔ ∃ cs, s.toList = cs ++ ['/'] :=
  ⟨fun ⟨cs, h⟩ => ⟨cs, h.symm⟩, fun ⟨cs, h⟩ => ⟨cs, h.symm⟩⟩

/-- Every text has so many slashes behind it, and no more. -/
theorem exists_eq_append_slashes (s : String) :
    ∃ rest n, s = rest ++ slashes n ∧ ¬ EndsIn "/" rest := by
  induction hs : s.toList using List.reverseRecOn generalizing s with
  | nil => exact ⟨s, 0, String.append_empty.symm, by simp [endsIn_slash_iff, hs]⟩
  | append_singleton cs c ih =>
    by_cases hc : c = '/'
    · obtain ⟨rest, n, hrest, hends⟩ := ih (String.ofList cs) String.toList_ofList
      refine ⟨rest, n + 1, ?_, hends⟩
      rw [slashes_succ, ← String.append_assoc, ← hrest, ← String.toList_inj, hs, hc,
        String.toList_append, String.toList_ofList]
      rfl
    · refine ⟨s, 0, String.append_empty.symm, ?_⟩
      rintro ⟨ds, hds⟩
      rw [hs] at hds
      exact hc (List.singleton_inj.mp (List.append_inj' hds rfl).2).symm

theorem withoutEndSlashes_append_slashes {s : String} (h : ¬ EndsIn "/" s) (n : Nat) :
    withoutEndSlashes (s ++ slashes n) = s := by
  have hall : (List.replicate n '/').dropWhile (· = '/') = [] := by simp
  rw [withoutEndSlashes, String.toList_append, toList_slashes, List.reverse_append,
    List.reverse_replicate, List.dropWhile_append, hall, List.isEmpty_nil, if_pos rfl]
  obtain hnil | ⟨cs, c, hconcat⟩ := List.eq_nil_or_concat s.toList
  · rw [hnil]
    exact (String.toList_eq_nil_iff.mp hnil).symm
  · rw [List.concat_eq_append] at hconcat
    have hc : decide (c = '/') = false := by
      rw [decide_eq_false_iff_not]
      rintro rfl
      exact h (endsIn_slash_iff.mpr ⟨cs, hconcat⟩)
    have hkept := Text.dropEndWhile_concat (p := (· = '/')) hc cs
    rw [Text.dropEndWhile] at hkept
    rw [hconcat, hkept, ← hconcat, String.ofList_toList]

/-- To cut slashes off in front is to take off copies of one slash. -/
theorem withoutStartSlashes_eq (s : String) :
    withoutStartSlashes s = Text.withoutLeading "/" s := by
  have hdrop (cs : List Char) : cs.dropWhile (· = '/') = Text.dropCopies ['/'] cs := by
    induction cs with
    | nil => rw [Text.dropCopies_eq_self (by simp)]; rfl
    | cons c cs ih =>
      by_cases hc : c = '/'
      · subst hc
        exact ih.trans (Text.dropCopies_append (List.cons_ne_nil _ _) cs).symm
      · rw [List.dropWhile_cons_of_neg (by simpa using hc), Text.dropCopies_eq_self]
        simpa [eq_comm] using hc
  rw [withoutStartSlashes, hdrop, Text.withoutLeading]
  rfl

theorem withoutStartSlashes_slashes_append {s : String} (h : ¬ BeginsWith "/" s) (n : Nat) :
    withoutStartSlashes (slashes n ++ s) = s :=
  (withoutStartSlashes_eq _).trans (Text.withoutLeading_copies_append (by decide) h n)

/-! ### Addresses -/

section

variable {e : Endpoint} {h path : String}

/-- An address is the host and the path with one slash between them. -/
theorem url_eq {n k : Nat} (hhost : e.host = h ++ slashes n) (hends : ¬ EndsIn "/" h)
    (hbegins : ¬ BeginsWith "/" path) : e.url (slashes k ++ path) = h ++ "/" ++ path := by
  rw [url, hhost, withoutEndSlashes_append_slashes hends,
    withoutStartSlashes_slashes_append hbegins]

theorem hostEndsIn_iff {n : Nat} (hhost : e.host = h ++ slashes n) (hends : ¬ EndsIn "/" h)
    (stop : String) :
    e.hostEndsIn stop = true ↔ EndsIn stop h := by
  rw [hostEndsIn, hhost, withoutEndSlashes_append_slashes hends, List.isSuffixOf_iff_suffix, EndsIn]

/-- Slashes behind the host and in front of the path do not matter. -/
theorem url_slashes (e : Endpoint) (h path : String) (n k : Nat) :
    { e with host := h ++ slashes n }.url (slashes k ++ path) = { e with host := h }.url path := by
  obtain ⟨rest, m, rfl, hends⟩ := exists_eq_append_slashes h
  obtain ⟨j, tail, rfl, hbegins⟩ := Text.exists_eq_copies_append (by decide : "/" ≠ "") path
  have hbehind : rest ++ slashes m ++ slashes n = rest ++ slashes (m + n) := by
    rw [String.append_assoc, ← String.toList_inj]
    simp [toList_slashes, List.replicate_append_replicate]
  have hfront : slashes k ++ (copies j "/" ++ tail) = slashes (k + j) ++ tail := by
    rw [← slashes, ← String.append_assoc, ← String.toList_inj]
    simp [toList_slashes, List.replicate_append_replicate]
  rw [hbehind, hfront, url_eq rfl hends hbegins, ← slashes, url_eq rfl hends hbegins]

end

/-! ### Hosts with and without a version -/

/-- Whether a host is spelled as another one, perhaps with a version behind it, and with any number
of slashes behind that. -/
inductive Spells (h version : String) : String → Prop where
  | bare (n : Nat) : Spells h version (h ++ slashes n)
  | versioned (n : Nat) : Spells h version (h ++ version ++ slashes n)

/-- A host is spelled as it is. -/
theorem Spells.self (h version : String) : Spells h version h := by
  have hbare : Spells h version (h ++ slashes 0) := .bare 0
  rwa [slashes_zero, String.append_empty] at hbare

theorem endsIn_append (stop s : String) : EndsIn stop (s ++ stop) := by
  rw [EndsIn, String.toList_append]
  exact List.suffix_append _ _

theorem not_endsIn_slash_append {t : String} (ht : t ≠ "") (h : ¬ EndsIn "/" t) (s : String) :
    ¬ EndsIn "/" (s ++ t) := by
  rw [EndsIn, String.toList_append]
  intro hends
  exact h (List.suffix_of_suffix_length_le hends (List.suffix_append _ _)
    (List.length_pos_iff.mpr (by simpa using ht)))

theorem not_beginsWith_slash_append {s : String} (hs : s ≠ "") (h : ¬ BeginsWith "/" s)
    (t : String) :
    ¬ BeginsWith "/" (s ++ t) := by
  rw [BeginsWith, String.toList_append]
  intro hbegins
  exact h (List.prefix_of_prefix_length_le hbegins (List.prefix_append _ _)
    (List.length_pos_iff.mpr (by simpa using hs)))

section OpenAi

variable {e : Endpoint} {h host path : String}

/-- A path that has no slashes in front stands behind the host as it is. -/
theorem url_eq_append {n : Nat} (hhost : e.host = h ++ slashes n) (hends : ¬ EndsIn "/" h)
    (hbegins : ¬ BeginsWith "/" path) : e.url path = h ++ "/" ++ path := by
  have hurl := url_eq (k := 0) hhost hends hbegins
  rwa [slashes_zero, String.empty_append] at hurl

/-- With or without its version, a host leads to the same address of a path. -/
theorem openAiUrl_eq (hends : ¬ EndsIn "/" h) (hversion : ¬ EndsIn "/v1" h)
    (hhost : Spells h "/v1" host) (hbegins : ¬ BeginsWith "/" path) :
    { e with host }.openAiUrl path = h ++ "/v1/" ++ path := by
  cases hhost with
  | bare n =>
    have hbare : { e with host := h ++ slashes n }.hostEndsIn "/v1" = false := by
      rw [← Bool.not_eq_true, hostEndsIn_iff rfl hends]
      exact hversion
    have hfront := not_beginsWith_slash_append (s := "v1/") (by decide) (by decide) path
    have hjoin : h ++ "/" ++ "v1/" = h ++ "/v1/" := String.append_assoc
    rw [openAiUrl, hbare, if_neg Bool.false_ne_true, url_eq_append rfl hends hfront,
      ← String.append_assoc, hjoin]
  | versioned n =>
    have hends' : ¬ EndsIn "/" (h ++ "/v1") := not_endsIn_slash_append (by decide) (by decide) h
    have hfull : { e with host := h ++ "/v1" ++ slashes n }.hostEndsIn "/v1" = true :=
      (hostEndsIn_iff rfl hends' "/v1").mpr (endsIn_append "/v1" h)
    have hjoin : h ++ "/v1" ++ "/" = h ++ "/v1/" := String.append_assoc
    rw [openAiUrl, if_pos hfull, url_eq_append rfl hends' hbegins, hjoin]

/-- With or without its version, a host leads to the same model. -/
theorem openAi_congr (hends : ¬ EndsIn "/" h) (hversion : ¬ EndsIn "/v1" h)
    (hhost : Spells h "/v1" host) :
    { e with host }.openAi = { e with host := h }.openAi := by
  have hpost (path : String) (hbegins : ¬ BeginsWith "/" path) :
      { e with host }.openAiPost path = { e with host := h }.openAiPost path := by
    funext payload
    rw [openAiPost, openAiPost, openAiUrl_eq hends hversion hhost hbegins,
      openAiUrl_eq hends hversion (.self h _) hbegins]
    rfl
  rw [openAi, openAi, hpost "chat/completions" (by decide), hpost "embeddings" (by decide),
    hpost "rerank" (by decide)]

end OpenAi

/-! ### Models with and without their collection -/

section Gemini

variable {e : Endpoint} {h host m model rest : String}

/-- Whether a model is spelled as another one, perhaps with the collection in front. -/
inductive Names (m : String) : String → Prop where
  | bare : Names m m
  | collected : Names m ("models/" ++ m)

theorem Names.withoutLeading {k : Nat} (hmodel : Names m model)
    (hm : m = copies k "models/" ++ rest) (hrest : ¬ BeginsWith "models/" rest) :
    Text.withoutLeading "models/" model = rest := by
  cases hmodel with
  | bare => rw [hm, Text.withoutLeading_copies_append (by decide) hrest]
  | collected =>
    rw [hm, ← String.append_assoc, ← Text.copies_succ,
      Text.withoutLeading_copies_append (by decide) hrest]

/-- With or without its version, a host makes up for the version in the path. -/
theorem geminiModelPath_eq (hends : ¬ EndsIn "/" h) (hv1 : ¬ EndsIn "/v1" h)
    (hbeta : ¬ EndsIn "/v1beta" h) (hhost : Spells h "/v1beta" host) :
    (∃ n, host = h ++ slashes n ∧ { e with host }.geminiModelPath =
        "v1beta/models/" ++ Text.withoutLeading "models/" e.model) ∨
      (∃ n, host = h ++ "/v1beta" ++ slashes n ∧ { e with host }.geminiModelPath =
        "models/" ++ Text.withoutLeading "models/" e.model) := by
  cases hhost with
  | bare n =>
    refine .inl ⟨n, rfl, ?_⟩
    have hnone : ¬ ({ e with host := h ++ slashes n }.hostEndsIn "/v1beta" ||
        { e with host := h ++ slashes n }.hostEndsIn "/v1") = true := by
      rw [Bool.or_eq_true, hostEndsIn_iff rfl hends, hostEndsIn_iff rfl hends]
      exact not_or.mpr ⟨hbeta, hv1⟩
    rw [geminiModelPath, if_neg hnone]
  | versioned n =>
    refine .inr ⟨n, rfl, ?_⟩
    have hends' : ¬ EndsIn "/" (h ++ "/v1beta") := not_endsIn_slash_append (by decide) (by decide) h
    have hsome : ({ e with host := h ++ "/v1beta" ++ slashes n }.hostEndsIn "/v1beta" ||
        { e with host := h ++ "/v1beta" ++ slashes n }.hostEndsIn "/v1") = true := by
      rw [Bool.or_eq_true, hostEndsIn_iff rfl hends']
      exact .inl (endsIn_append "/v1beta" h)
    rw [geminiModelPath, if_pos hsome]

/-- With or without its version, a host leads to the same address of a method. -/
theorem geminiUrl_eq (hends : ¬ EndsIn "/" h) (hv1 : ¬ EndsIn "/v1" h)
    (hbeta : ¬ EndsIn "/v1beta" h) (hhost : Spells h "/v1beta" host) (method : String) :
    { e with host }.geminiUrl method =
      h ++ "/v1beta/models/" ++ Text.withoutLeading "models/" e.model ++ ":" ++ method := by
  set rest := Text.withoutLeading "models/" e.model
  obtain ⟨n, rfl, hpath⟩ | ⟨n, rfl, hpath⟩ := geminiModelPath_eq (e := e) hends hv1 hbeta hhost
  · have hbegins : ¬ BeginsWith "/" ("v1beta/models/" ++ rest ++ ":" ++ method) := by
      rw [String.append_assoc, String.append_assoc]
      exact not_beginsWith_slash_append (by decide) (by decide) _
    rw [geminiUrl, hpath, url_eq_append rfl hends hbegins, ← String.toList_inj]
    simp
  · have hends' : ¬ EndsIn "/" (h ++ "/v1beta") := not_endsIn_slash_append (by decide) (by decide) h
    have hbegins : ¬ BeginsWith "/" ("models/" ++ rest ++ ":" ++ method) := by
      rw [String.append_assoc, String.append_assoc]
      exact not_beginsWith_slash_append (by decide) (by decide) _
    rw [geminiUrl, hpath, url_eq_append rfl hends' hbegins, ← String.toList_inj]
    simp

/-- With or without its version, a host leads to the same name for embeddings.  It is the one of the
model in its collection. -/
theorem geminiModelName_eq (e : Endpoint) :
    e.geminiModelName = "models/" ++ Text.withoutLeading "models/" e.model := by
  set rest := Text.withoutLeading "models/" e.model with hrest
  have hnone : ¬ BeginsWith "v1beta/" ("models/" ++ rest) := by
    rw [BeginsWith, String.toList_append]
    intro hbegins
    exact absurd (List.prefix_of_prefix_length_le hbegins
      ((List.prefix_append "models/".toList rest.toList)) (by decide)) (by decide)
  rw [geminiModelName, geminiModelPath, ← hrest]
  split
  · exact Text.withoutLeading_eq_self hnone
  · have hcopy : "v1beta/models/" ++ rest = copies 1 "v1beta/" ++ ("models/" ++ rest) := by
      rw [Text.copies_succ, Text.copies_zero, String.append_empty, ← String.append_assoc]
      rfl
    rw [hcopy, Text.withoutLeading_copies_append (by decide) hnone]

/-- However host and model are spelled, they lead to a model that does the same.  It is only called
as it is spelled. -/
theorem gemini_congr (hends : ¬ EndsIn "/" h) (hv1 : ¬ EndsIn "/v1" h)
    (hbeta : ¬ EndsIn "/v1beta" h) (hhost : Spells h "/v1beta" host) (hmodel : Names m model) :
    { e with host, model }.gemini =
      { ({ e with host := h, model := m } : Endpoint).gemini with name := model } := by
  obtain ⟨k, rest, hm, hrest⟩ := Text.exists_eq_copies_append (by decide : "models/" ≠ "") m
  have hpost : { e with host, model }.geminiPost = { e with host := h, model := m }.geminiPost := by
    funext method payload
    rw [geminiPost, geminiPost, geminiUrl_eq (e := { e with model }) hends hv1 hbeta hhost,
      geminiUrl_eq (e := { e with model := m }) hends hv1 hbeta (.self h _),
      hmodel.withoutLeading hm hrest, Names.bare.withoutLeading hm hrest]
  have hname :
      { e with host, model }.geminiModelName =
        { e with host := h, model := m }.geminiModelName := by
    rw [geminiModelName_eq, geminiModelName_eq, hmodel.withoutLeading hm hrest,
      Names.bare.withoutLeading hm hrest]
  have hcomplete :
      { e with host, model }.geminiComplete = { e with host := h, model := m }.geminiComplete := by
    funext history tools options
    rw [geminiComplete, geminiComplete, hpost]
  rw [gemini, gemini, hpost, hname, hcomplete]

/-- A request for embeddings asks for every text under the name of the model. -/
theorem embedPayload_requests (name : String) (texts : List String) :
    ∃ requests, (Wire.Gemini.embedPayload name texts).member "requests" = .arr requests ∧
      requests.length = texts.length ∧
      ∀ request ∈ requests, request.member "model" = .str name := by
  let request (text : String) : Json := .object [("model", .str name),
    ("content", .object [("parts", .arr [.object [("text", .str text)]])])]
  have hrequests : (Wire.Gemini.embedPayload name texts).member "requests" =
      .arr (texts.map request) := by
    rw [Wire.Gemini.embedPayload, Json.member_object]
    rfl
  refine ⟨texts.map request, hrequests, List.length_map request, fun r hr => ?_⟩
  obtain ⟨text, -, rfl⟩ := List.mem_map.mp hr
  rw [Json.member_object]
  rfl

end Gemini

/-! ### Spellings -/

/-- **Addresses do not depend on how host and model are spelled.**  Slashes behind a host and in
front of a path do not matter: an address is the host and the path without them, with one slash
between.  In the OpenAI format, a host with the version behind it and one without lead to the same
addresses and to the same model.  In the Gemini format, so do they, and so does a model with its
collection in front; requests for embeddings always name the model in its collection once. -/
theorem spelling_does_not_matter (e : Endpoint) (h : String) :
    (∀ path n k,
      { e with host := h ++ slashes n }.url (slashes k ++ path) = { e with host := h }.url path) ∧
    (∀ path, ∃ host n rest k, h = host ++ slashes n ∧ ¬ EndsIn "/" host ∧ path = slashes k ++ rest ∧
      ¬ BeginsWith "/" rest ∧ { e with host := h }.url path = host ++ "/" ++ rest) ∧
    (¬ EndsIn "/" h → ¬ EndsIn "/v1" h → ∀ host, Spells h "/v1" host →
      (∀ path, ¬ BeginsWith "/" path → { e with host }.openAiUrl path = h ++ "/v1/" ++ path) ∧
      { e with host }.openAi = { e with host := h }.openAi) ∧
    (¬ EndsIn "/" h → ¬ EndsIn "/v1" h → ¬ EndsIn "/v1beta" h → ∀ m, ∃ k rest,
      m = copies k "models/" ++ rest ∧ ¬ BeginsWith "models/" rest ∧
      ∀ host model, Spells h "/v1beta" host → Names m model →
        (∀ method, { e with host, model }.geminiUrl method =
          h ++ "/v1beta/models/" ++ rest ++ ":" ++ method) ∧
        { e with host, model }.gemini =
          { ({ e with host := h, model := m } : Endpoint).gemini with name := model } ∧
        ∀ texts, ∃ requests,
          (Wire.Gemini.embedPayload { e with host, model }.geminiModelName texts).member
            "requests" =
            .arr requests ∧
          requests.length = texts.length ∧
          ∀ request ∈ requests, request.member "model" = .str ("models/" ++ rest)) := by
  refine ⟨fun path n k => url_slashes e h path n k, fun path => ?_,
    fun hends hversion host hhost => ?_, fun hends hv1 hbeta m => ?_⟩
  · obtain ⟨host, n, hh, hends⟩ := exists_eq_append_slashes h
    obtain ⟨k, rest, hpath, hbegins⟩ := Text.exists_eq_copies_append (by decide : "/" ≠ "") path
    refine ⟨host, n, rest, k, hh, hends, hpath, hbegins, ?_⟩
    rw [hpath, ← slashes, url_eq hh hends hbegins]
  · exact ⟨fun path hbegins => openAiUrl_eq hends hversion hhost hbegins,
      openAi_congr hends hversion hhost⟩
  · obtain ⟨k, rest, hm, hrest⟩ := Text.exists_eq_copies_append (by decide : "models/" ≠ "") m
    refine ⟨k, rest, hm, hrest, fun host model hhost hmodel => ⟨fun method => ?_, ?_,
      fun texts => ?_⟩⟩
    · rw [geminiUrl_eq (e := { e with model }) hends hv1 hbeta hhost,
        hmodel.withoutLeading hm hrest]
    · exact gemini_congr hends hv1 hbeta hhost hmodel
    · rw [geminiModelName_eq, hmodel.withoutLeading hm hrest]
      exact embedPayload_requests _ texts

/-- The host of a vendor with the version and two slashes behind it, and a model with its collection
in front. -/
theorem spelling_does_not_matter_versioned :
    let e : Endpoint := { id := "p", host := "", model := "" }
    { e with host := "https://h/v1//" }.openAi = { e with host := "https://h" }.openAi ∧
      { e with host := "https://h/v1beta//", model := "models/gem" }.geminiUrl "generateContent" =
        "https://h/v1beta/models/gem:generateContent" := by
  intro e
  obtain ⟨-, -, hopenAi, hgemini⟩ := spelling_does_not_matter e "https://h"
  have hspells (version : String) :
      Spells "https://h" version ("https://h" ++ version ++ "//") := Spells.versioned 2
  obtain ⟨k, rest, hm, hrest, hspelled⟩ := hgemini (by decide) (by decide) (by decide) "gem"
  obtain ⟨hurl, -⟩ := hspelled _ "models/gem" (hspells "/v1beta") .collected
  refine ⟨(hopenAi (by decide) (by decide) _ (hspells "/v1")).2, (hurl "generateContent").trans ?_⟩
  have hgem : "gem" = rest := by
    rw [← Text.withoutLeading_copies_append (by decide : "models/" ≠ "") hrest k, ← hm,
      Text.withoutLeading_eq_self (by decide)]
  rw [← hgem]
  rfl

end Provider.Endpoint

end Parley
