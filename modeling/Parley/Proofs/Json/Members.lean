import Mathlib.Data.List.Induction
import Parley.Json.Record

/-!
# Members of objects

What is found in an object that is made of members (`get?_object`), when a member is put in its
place (`withMember`) or left out (`withoutMember`), and what a member says about the value that it
stands in.
-/

namespace Parley

/-- Of several entries of a name the last one is found. -/
theorem Entries.lookup_ofList {α : Type} (es : List (String × α)) (k : String) :
    (ofList es).lookup k = es.reverse.lookup k := by
  induction es using List.reverseRecOn with
  | nil => rfl
  | append_singleton es e ih =>
    have hput : ofList (es ++ [e]) = put e.1 e.2 (ofList es) := by
      rw [ofList, List.foldl_append]; rfl
    rw [hput, lookup_put, ih, List.reverse_append, List.reverse_singleton, List.singleton_append,
      lookup_cons]

namespace Json

/-! ### Members that an object is made of -/

theorem get?_object (members : List (String × Json)) (k : String) :
    (object members).get? k = members.reverse.lookup k := Entries.lookup_ofList members k

theorem field?_object (members : List (String × Json)) (place : Nat) (k : String) :
    (object members).field? place k = members.reverse.lookup k := Entries.lookup_ofList members k

/-- An optional member is found under its name when it is there. -/
theorem lookup_member? {α : Type} (name : String) (write : α → Json) (a? : Option α)
    (rest : List (String × Json)) :
    ((member? name write a?).reverse ++ rest).lookup name =
      (a?.map write).or (rest.lookup name) := by
  cases a? with
  | none => rfl
  | some a => simp [member?]

/-- It does not hide the other members. -/
theorem lookup_member?_of_ne {α : Type} {name k : String} (hk : k ≠ name) (write : α → Json)
    (a? : Option α) (rest : List (String × Json)) :
    ((member? name write a?).reverse ++ rest).lookup k = rest.lookup k := by
  cases a? with
  | none => rfl
  | some a => exact (Entries.lookup_cons k name (write a) rest).trans (if_neg hk)

theorem member_object (members : List (String × Json)) (k : String) :
    (object members).member k = (members.reverse.lookup k).getD .null := by rw [member, get?_object]

theorem isRecord_object (members : List (String × Json)) (n : Nat) :
    (object members).isRecord n = true := rfl

/-! ### Other members -/

/-- An object with another value under a name. -/
def withMember (v : Json) (name : String) (a : Json) : Json :=
  match v with
  | .obj members => .obj (Entries.put name a members)
  | v => v

/-- An object without what it has under a name. -/
def withoutMember (v : Json) (name : String) : Json :=
  match v with
  | .obj members => .obj (Entries.erase name members)
  | v => v

variable {v a : Json} {name k : String}

theorem isObject_of_member_ne_null (h : v.member name ≠ .null) : v.isObject = true := by
  cases v with
  | obj members => rfl
  | _ => exact absurd rfl h

theorem isObject_withoutMember (h : v.isObject = true) :
    (v.withoutMember name).isObject = true := by
  cases v with
  | obj members => rfl
  | _ => cases h

theorem get?_withMember (h : v.isObject = true) :
    (v.withMember name a).get? k = if k = name then some a else v.get? k := by
  cases v with
  | obj members => exact Entries.lookup_put name k a members
  | _ => cases h

theorem get?_withoutMember :
    (v.withoutMember name).get? k = if k = name then none else v.get? k := by
  cases v with
  | obj members => exact Entries.lookup_erase name k members
  | _ => exact (ite_self none).symm

theorem member_withMember_self (h : v.isObject = true) : (v.withMember name a).member name = a := by
  rw [member, get?_withMember h, if_pos rfl, Option.getD_some]

theorem member_withMember_of_ne (h : v.isObject = true) (hne : k ≠ name) :
    (v.withMember name a).member k = v.member k := by
  rw [member, get?_withMember h, if_neg hne, member]

theorem member_withoutMember_of_ne (hne : k ≠ name) :
    (v.withoutMember name).member k = v.member k := by
  rw [member, get?_withoutMember, if_neg hne, member]

theorem filter_isObject (h : (v.member name).isObject = true) :
    (v.get? name).filter isObject = some (v.member name) := by
  rw [member] at h ⊢
  cases hv : v.get? name with
  | none =>
    rw [hv] at h
    cases h
  | some a =>
    rw [hv] at h
    exact Option.filter_eq_some_iff.mpr ⟨rfl, h⟩

end Json

end Parley
