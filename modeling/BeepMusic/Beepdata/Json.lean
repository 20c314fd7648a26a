import Mathlib.Data.Int.Notation
import Mathlib.Data.List.Basic

/-!
`json_object_equal` of `lib/beep/json.c`. Objects are compared member by member of the
first one, and a member that the second one does not have counts as null. Arrays are not
compared: where two different arrays meet, the process exits.

Two objects at the same address are equal, whatever they are, so the addresses are part
of the model. Doubles are any type with a comparison.
-/

namespace BeepMusic.Beepdata

mutual

/-- A `json_object *`; null is the null pointer. An integer has the value that
`json_object_get_int` gives. -/
inductive Json (δ : Type) : Type
  | null
  | boolean (addr : ℕ) (b : Bool)
  | double (addr : ℕ) (x : δ)
  | int (addr : ℕ) (n : ℤ)
  | string (addr : ℕ) (s : String)
  | object (addr : ℕ) (members : Members δ)
  | array (addr : ℕ)

/-- The members of an object, in the order of `json_object_object_foreach`. -/
inductive Members (δ : Type) : Type
  | nil
  | cons (key : String) (val : Json δ) (rest : Members δ)

end

variable {δ : Type}

def Json.addr : Json δ → Option ℕ
  | .null => none
  | .boolean addr _ | .double addr _ | .int addr _ | .string addr _ | .object addr _
  | .array addr => some addr

/-- `json_object_len`. -/
def Members.len : Members δ → ℕ
  | .nil => 0
  | .cons _ _ rest => rest.len + 1

/-- `json_object_object_get`. -/
def Members.get : Members δ → String → Json δ
  | .nil, _ => .null
  | .cons key val rest, name => if key = name then val else rest.get name

/-- The C string that `json_object_get_string` gives, on which `strcmp` works. -/
def getString (s : String) : List Char := s.toList.takeWhile fun c => c ≠ Char.ofNat 0

mutual

/-- `json_object_equal`; `none` is the exit of the process. -/
def jsonObjectEqual [BEq δ] : Json δ → Json δ → Option Bool
  | .null, .null => some true
  | .boolean a b, .boolean a' b' => some (a == a' || b == b')
  | .double a x, .double a' x' => some (a == a' || x == x')
  | .int a n, .int a' n' => some (a == a' || n == n')
  | .string a s, .string a' s' => some (a == a' || getString s == getString s')
  | .object a members, .object a' members' =>
    if a = a' then some true
    else if members.len ≠ members'.len then some false
    else membersEqual members members'
  | .array a, .array a' => if a = a' then some true else none
  | obj, obj' => some (obj.addr == obj'.addr)

/-- The loop over the members of the first object. -/
def membersEqual [BEq δ] : Members δ → Members δ → Option Bool
  | .nil, _ => some true
  | .cons key val rest, members' =>
    match jsonObjectEqual val (members'.get key) with
    | some true => membersEqual rest members'
    | some false => some false
    | none => none

end

mutual

/-- There is no array in it. -/
def Json.arrayFree : Json δ → Bool
  | .object _ members => members.arrayFree
  | .array _ => false
  | _ => true

def Members.arrayFree : Members δ → Bool
  | .nil => true
  | .cons _ val rest => val.arrayFree && rest.arrayFree

end

mutual

/-- Without arrays, everything is compared. -/
theorem jsonObjectEqual_isSome [BEq δ] {obj : Json δ} (h : obj.arrayFree = true) (obj' : Json δ) :
    (jsonObjectEqual obj obj').isSome = true := by
  cases obj with
  | object a members =>
    cases obj' with
    | object a' members' =>
      simp only [jsonObjectEqual]
      split_ifs
      · rfl
      · rfl
      · exact membersEqual_isSome h members'
    | _ => rfl
  | array a => cases h
  | _ => cases obj' <;> rfl

theorem membersEqual_isSome [BEq δ] {members : Members δ} (h : members.arrayFree = true)
    (members' : Members δ) : (membersEqual members members').isSome = true := by
  cases members with
  | nil => rfl
  | cons key val rest =>
    simp only [Members.arrayFree, Bool.and_eq_true] at h
    simp only [membersEqual]
    cases hval : jsonObjectEqual val (members'.get key) with
    | none =>
      have hsome := jsonObjectEqual_isSome h.1 (members'.get key)
      rw [hval] at hsome
      cases hsome
    | some eq =>
      cases eq with
      | true => exact membersEqual_isSome h.2 members'
      | false => rfl

end

end BeepMusic.Beepdata
