import Mathlib.Data.Rat.Defs

/-! JSON values as a program reads them after parsing: numbers are exact
rationals, an object is the list of its members in insertion order. -/
namespace Applik8s

inductive Json where
  | null
  | boolean (value : Bool)
  | number (value : Rat)
  | string (text : String)
  | array (items : List Json)
  | object (members : List (String × Json))
deriving Inhabited

namespace Json

mutual

def same : Json → Json → Bool
  | .null, .null => true
  | .boolean left, .boolean right => left == right
  | .number left, .number right => left == right
  | .string left, .string right => left == right
  | .array left, .array right => sameItems left right
  | .object left, .object right => sameMembers left right
  | _, _ => false

def sameItems : List Json → List Json → Bool
  | [], [] => true
  | left :: lefts, right :: rights => same left right && sameItems lefts rights
  | _, _ => false

def sameMembers : List (String × Json) → List (String × Json) → Bool
  | [], [] => true
  | (name, left) :: lefts, (name', right) :: rights => name == name' && same left right && sameMembers lefts rights
  | _, _ => false

end

mutual

theorem same_iff (left right : Json) : same left right = true ↔ left = right := by
  cases left <;> cases right <;> simp [same, sameItems_iff, sameMembers_iff]

theorem sameItems_iff (left right : List Json) : sameItems left right = true ↔ left = right := by
  cases left with
  | nil => cases right <;> simp [sameItems]
  | cons => cases right <;> simp [sameItems, same_iff, sameItems_iff]

theorem sameMembers_iff (left right : List (String × Json)) : sameMembers left right = true ↔ left = right := by
  cases left with
  | nil => cases right <;> simp [sameMembers]
  | cons head rest =>
    obtain ⟨_, _⟩ := head
    cases right with
    | nil => simp [sameMembers]
    | cons other others =>
      obtain ⟨_, _⟩ := other
      simp [sameMembers, same_iff, sameMembers_iff]

end

instance : DecidableEq Json := fun left right => decidable_of_iff _ (same_iff left right)

def insertMember (member : String × Json) : List (String × Json) → List (String × Json)
  | [] => [member]
  | other :: rest =>
    if other.1 ≤ member.1 then other :: insertMember member rest else member :: other :: rest

/-- Members in the order of their names, equal names in the order they came. -/
def sortMembers (members : List (String × Json)) : List (String × Json) :=
  members.foldl (fun sorted member => insertMember member sorted) []

mutual

/-- The value with every object's members in the order of their names: what a canonical
text of the value denotes. -/
def sorted : Json → Json
  | .array items => .array (sortedItems items)
  | .object members => .object (sortMembers (sortedMembers members))
  | scalar => scalar

def sortedItems : List Json → List Json
  | [] => []
  | item :: rest => sorted item :: sortedItems rest

def sortedMembers : List (String × Json) → List (String × Json)
  | [] => []
  | (name, value) :: rest => (name, sorted value) :: sortedMembers rest

end

mutual

/-- The number of values, names and brackets in a value. -/
def size : Json → Nat
  | .array items => 1 + sizeItems items
  | .object members => 1 + sizeMembers members
  | _ => 1

def sizeItems : List Json → Nat
  | [] => 0
  | item :: rest => size item + sizeItems rest

def sizeMembers : List (String × Json) → Nat
  | [] => 0
  | (_, value) :: rest => 1 + size value + sizeMembers rest

end

theorem size_pos (value : Json) : 0 < value.size := by
  cases value <;> simp only [size] <;> omega

theorem size_le_sizeItems (member : item ∈ items) : item.size ≤ sizeItems items := by
  induction items with
  | nil => simp at member
  | cons head rest ih =>
    rw [sizeItems]
    rcases List.mem_cons.mp member with rfl | later
    · omega
    · have := ih later
      omega

theorem size_lt_sizeMembers (member : (name, value) ∈ members) : value.size < sizeMembers members := by
  induction members with
  | nil => simp at member
  | cons head rest ih =>
    obtain ⟨_, _⟩ := head
    rw [sizeMembers]
    rcases List.mem_cons.mp member with same | later
    · cases same
      omega
    · have := ih later
      omega

end Json
end Applik8s
