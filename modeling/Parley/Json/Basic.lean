import Parley.Entries
import Parley.Floating.Binary
import Parley.Word

/-!
# JSON values

`Json` is the type of JSON values.  A number is an integer of at most 64 bits or a float; an object
is a list of members.  Objects are kept in *canonical* form, with the names of their members in
strictly ascending order: `Json.object` brings any list of members into it, the last of several
members with one name winning.  `Json.Canonical` is the predicate on whole values.
-/

namespace Parley

open Floating (Binary binary64)

namespace Json

/-- A JSON number: an integer or a binary float.

Integers range from -2^63 to 2^64 - 1; minus zero and whatever is written with a fraction or an
exponent is a float. -/
inductive Number where
  /-- An integer. -/
  | int (i : Int)
  /-- A finite double. -/
  | float (x : Binary)
deriving DecidableEq, Repr

end Json

/-- A JSON value. -/
inductive Json where
  /-- The value `null`. -/
  | null
  /-- A truth value. -/
  | bool (b : Bool)
  /-- A number. -/
  | num (n : Json.Number)
  /-- A text. -/
  | str (s : String)
  /-- A list of values. -/
  | arr (items : List Json)
  /-- Named values. -/
  | obj (members : List (String × Json))
deriving Repr, Inhabited

namespace Json

/-! ### Equality is decidable -/

mutual

/-- Whether two values are equal. -/
def same : Json → Json → Bool
  | .null, .null => true
  | .bool a, .bool b => a == b
  | .num a, .num b => a == b
  | .str a, .str b => a == b
  | .arr a, .arr b => sameItems a b
  | .obj a, .obj b => sameMembers a b
  | _, _ => false

/-- Whether two lists of values are equal. -/
def sameItems : List Json → List Json → Bool
  | [], [] => true
  | a :: as, b :: bs => same a b && sameItems as bs
  | _, _ => false

/-- Whether two lists of members are equal. -/
def sameMembers : List (String × Json) → List (String × Json) → Bool
  | [], [] => true
  | (k, a) :: as, (l, b) :: bs => k == l && same a b && sameMembers as bs
  | _, _ => false

end

mutual

theorem same_iff : ∀ a b : Json, same a b = true ↔ a = b
  | .null, b => by cases b <;> simp [same]
  | .bool _, b => by cases b <;> simp [same]
  | .num _, b => by cases b <;> simp [same]
  | .str _, b => by cases b <;> simp [same]
  | .arr as, b => by cases b <;> simp [same, sameItems_iff as]
  | .obj as, b => by cases b <;> simp [same, sameMembers_iff as]

theorem sameItems_iff : ∀ as bs : List Json, sameItems as bs = true ↔ as = bs
  | [], bs => by cases bs <;> simp [sameItems]
  | a :: as, bs => by cases bs <;> simp [sameItems, same_iff a, sameItems_iff as]

theorem sameMembers_iff : ∀ as bs : List (String × Json), sameMembers as bs = true ↔ as = bs
  | [], bs => by cases bs <;> simp [sameMembers]
  | (k, a) :: as, bs => by
    cases bs with
    | nil => simp [sameMembers]
    | cons b bs => cases b; simp [sameMembers, same_iff a, sameMembers_iff as]

end

instance : DecidableEq Json := fun a b => decidable_of_iff _ (same_iff a b)

/-! ### Members -/

/-- The object with the given members. -/
def object (members : List (String × Json)) : Json := .obj (Entries.ofList members)

/-- The member of an object with a name; none for any other value. -/
def get? (v : Json) (name : String) : Option Json :=
  match v with
  | .obj members => members.lookup name
  | _ => none

/-- The element of a list at a position; none for any other value. -/
def item? (v : Json) (i : Nat) : Option Json :=
  match v with
  | .arr items => items[i]?
  | _ => none

mutual

/-- The names of every object inside a value ascend strictly. -/
def Canonical : Json → Prop
  | .arr items => CanonicalItems items
  | .obj members => Entries.Ascending members ∧ CanonicalMembers members
  | _ => True

/-- All values of a list are canonical. -/
def CanonicalItems : List Json → Prop
  | [] => True
  | v :: rest => Canonical v ∧ CanonicalItems rest

/-- The values of all members are canonical. -/
def CanonicalMembers : List (String × Json) → Prop
  | [] => True
  | (_, v) :: rest => Canonical v ∧ CanonicalMembers rest

end

/-! ### Views

What a value is when it is taken for one kind, and none when it is of another kind. -/

/-- The text of a text value. -/
def str? : Json → Option String
  | .str s => some s
  | _ => none

/-- The truth value. -/
def bool? : Json → Option Bool
  | .bool b => some b
  | _ => none

/-- The elements of a list. -/
def items? : Json → Option (List Json)
  | .arr items => some items
  | _ => none

/-- The members of an object. -/
def members? : Json → Option (List (String × Json))
  | .obj members => some members
  | _ => none

/-- An integer. -/
def int? : Json → Option Int
  | .num (.int i) => some i
  | _ => none

/-- An integer that fits a signed word of 64 bits. -/
def int64? (v : Json) : Option Int :=
  v.int?.filter (Word.holdsSigned 64)

/-- A natural number of at most 64 bits. -/
def nat64? (v : Json) : Option Nat :=
  (v.int?.filter fun i => 0 ≤ i && Word.holds 64 i.toNat).map Int.toNat

/-- The member of an object with a name, and `null` where there is none. -/
def member (v : Json) (name : String) : Json := (v.get? name).getD .null

/-- The element of a list at a position, and `null` where there is none. -/
def nth (v : Json) (i : Nat) : Json := (v.item? i).getD .null

/-- The text of a text value, and the empty text for any other. -/
def strOrEmpty (v : Json) : String := v.str?.getD ""

/-- Whether a value is an object. -/
def isObject : Json → Bool
  | .obj _ => true
  | _ => false

/-- Whether a value is `null`. -/
def isNull : Json → Bool
  | .null => true
  | _ => false

/-- A member that is present and not `null`. -/
def present? (v : Json) (name : String) : Option Json :=
  (v.get? name).filter (!·.isNull)

/-- A natural number as a value. -/
def nat (n : Nat) : Json := .num (.int n)

end Json

end Parley
