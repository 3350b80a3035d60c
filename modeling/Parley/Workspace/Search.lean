import Parley.Text.Casing
import Parley.Workspace.Store

/-!
# Searching the workspace

A search goes through all files at and below a location and finds the lines that hold a phrase,
whatever its case.  It is a `Walk`, which keeps on a stack what is still to be looked at: a
directory is taken off and its entries are put on, the first one on top.  Before each file or
directory, and before each line, the walk asks whether there is room for another hit.  It ends when
there is none or when nothing is left.  What the system does not take the path of is passed over.

Each step takes a file or directory off the stack for good, so that every walk ends
(`Walk.size_lt_of_step?`).  `hitsIn` are all hits in a tree, whether there is room for them or not.
-/

namespace Parley.Workspace

open Chat (ToolError)

/-- The number of hits after which a search ends. -/
def hitLimit : Nat := 50

/-! ### Hits -/

/-- A line that a search found. -/
structure Hit where
  /-- The path of the file. -/
  path : String
  /-- The number of the line, counted from one. -/
  line : Nat
  /-- The line without blanks around it. -/
  text : String
deriving DecidableEq, Repr

/-- A hit as a value. -/
def Hit.toJson (h : Hit) : Json :=
  .object [("path", .str h.path), ("line", .nat h.line), ("text", .str h.text)]

/-- The hits in a text: the lines that hold the needle in lower case. -/
def hitsInText (needle path text : String) : List Hit :=
  (Text.lines text).zipIdx.filterMap fun (line, i) =>
    if Text.contains (Text.lower line) needle then some ⟨path, i + 1, Text.trim line⟩ else none

/-- The hits in a file at a location.  Files whose path is not taken, large files and files that are
no text have none. -/
def hitsInFile (takes : Location → Bool) (needle : String) (l : Location) (contents : ByteArray) :
    List Hit :=
  if !takes l || readLimit < contents.size then []
  else match String.fromUTF8? contents with
    | some text => hitsInText needle (Location.toPath l) text
    | none => []

mutual

/-- All hits in a tree at a location, the entries of directories in order of name. -/
def hitsIn (takes : Location → Bool) (needle : String) (l : Location) : Tree → List Hit
  | .file contents => hitsInFile takes needle l contents
  | .dir es => hitsInEntries takes needle l es

/-- All hits in the entries of a directory at a location. -/
def hitsInEntries (takes : Location → Bool) (needle : String) (l : Location) :
    List (String × Tree) → List Hit
  | [] => []
  | (name, t) :: rest => hitsIn takes needle (l ++ [name]) t ++ hitsInEntries takes needle l rest

end

/-! ### Walks -/

mutual

/-- How many files and directories there are in a tree. -/
def Tree.count : Tree → Nat
  | .file _ => 1
  | .dir es => countEntries es + 1

/-- How many files and directories there are in the entries of a directory. -/
def Tree.countEntries : List (String × Tree) → Nat
  | [] => 0
  | (_, t) :: rest => t.count + countEntries rest

end

theorem Tree.count_pos (t : Tree) : 0 < t.count := by
  cases t with
  | file contents => rw [count]; exact Nat.one_pos
  | dir es => rw [count]; exact Nat.succ_pos _

/-- The entries of a directory at a location, each with its own location. -/
def located (l : Location) (es : List (String × Tree)) : List (Location × Tree) :=
  es.map fun (name, t) => (l ++ [name], t)

theorem located_cons (l : Location) (name : String) (t : Tree) (es : List (String × Tree)) :
    located l ((name, t) :: es) = (l ++ [name], t) :: located l es := rfl

/-- How many files and directories there are in what stands at some locations. -/
def countLocated : List (Location × Tree) → Nat
  | [] => 0
  | (_, t) :: rest => t.count + countLocated rest

theorem countLocated_append (es es' : List (Location × Tree)) :
    countLocated (es ++ es') = countLocated es + countLocated es' := by
  induction es with
  | nil => rw [List.nil_append, countLocated, Nat.zero_add]
  | cons e es ih => rw [List.cons_append, countLocated, countLocated, ih, Nat.add_assoc]

theorem countLocated_located (l : Location) (es : List (String × Tree)) :
    countLocated (located l es) = Tree.countEntries es := by
  induction es with
  | nil => rfl
  | cons e es ih => rw [located_cons, countLocated, ih, Tree.countEntries]

/-- A search under way. -/
structure Walk where
  /-- What is still to be looked at, the next first. -/
  pending : List (Location × Tree)
  /-- What has been found. -/
  hits : List Hit := []

namespace Walk

/-- The hits that there are with those in the lines of a file, while there is room.  Each line comes
with its place in the text. -/
def takeLines (needle path : String) (room : Nat) (hits : List Hit) :
    List (String × Nat) → List Hit
  | [] => hits
  | (line, i) :: rest =>
    if room ≤ hits.length then hits
    else if Text.contains (Text.lower line) needle then
      takeLines needle path room (hits ++ [⟨path, i + 1, Text.trim line⟩]) rest
    else takeLines needle path room hits rest

/-- The hits that there are with those in a file.  Large files and files that are no text have
none. -/
def takeFile (needle : String) (room : Nat) (l : Location) (contents : ByteArray)
    (hits : List Hit) : List Hit :=
  if readLimit < contents.size then hits
  else match String.fromUTF8? contents with
    | some text => takeLines needle (Location.toPath l) room hits (Text.lines text).zipIdx
    | none => hits

/-- Look at what is on top of the stack; none when the walk is over.  The system does not tell what
there is at a path that it does not take. -/
def step? (takes : Location → Bool) (needle : String) (room : Nat) (w : Walk) : Option Walk :=
  match w.pending with
  | [] => none
  | (l, t) :: pending =>
    if room ≤ w.hits.length then none
    else if !takes l then some { w with pending }
    else match t with
      | .file contents => some ⟨pending, takeFile needle room l contents w.hits⟩
      | .dir es => some { w with pending := located l es ++ pending }

/-- How many files and directories are in what is still to be looked at. -/
def size (w : Walk) : Nat := countLocated w.pending

/-- **A walk ends.**  Each step leaves less to be looked at. -/
theorem size_lt_of_step? {takes : Location → Bool} {needle : String} {room : Nat} {w w' : Walk}
    (h : w.step? takes needle room = some w') : w'.size < w.size := by
  obtain ⟨_ | ⟨⟨l, t⟩, pending⟩, hits⟩ := w
  · cases h
  · have htop := t.count_pos
    simp only [step?] at h
    split at h
    · cases h
    · split at h
      · cases h
        dsimp only [size]
        rw [countLocated]
        omega
      · cases t with
        | file contents =>
          cases h
          dsimp only [size]
          rw [countLocated]
          omega
        | dir es =>
          cases h
          dsimp only [size]
          rw [countLocated, countLocated_append, countLocated_located, Tree.count]
          omega

/-- What a walk finds. -/
def run (takes : Location → Bool) (needle : String) (room : Nat) (w : Walk) : List Hit :=
  match _h : w.step? takes needle room with
  | none => w.hits
  | some w' => w'.run takes needle room
termination_by w.size
decreasing_by exact size_lt_of_step? _h

end Walk

/-- The first hits in a tree at a location, at most `room` of them. -/
def firstHits (takes : Location → Bool) (needle : String) (room : Nat) (l : Location) (t : Tree) :
    List Hit :=
  Walk.run takes needle room { pending := [(l, t)] }

/-! ### The operation -/

/-- Search the lines of all text files at and below a path for a phrase, whatever its case.  A path
that does not exist has no hits. -/
def search (t : Tree) (query path : String) (m : Mount := .whole) :
    Except ToolError (List Hit) :=
  let needle := Text.lower (Text.trim query)
  if needle.isEmpty then .error (.invalidParameters "Query must not be empty")
  else do
    let l ← resolve path
    match Disk.inspect t l m with
    | .ok found => return firstHits m.takes needle hitLimit l found
    | .error _ => return []

end Parley.Workspace
