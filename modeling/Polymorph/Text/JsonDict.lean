import Mathlib.Data.List.Sort
import Mathlib.Data.String.Basic
import Polymorph.Text.Json

/-!
# JSON objects as dictionaries

Loading an object into a dictionary keeps the last value of a repeated key at the position of its
first occurrence (`plain`). A loader with hooks instead rejects repeated keys and the non-finite
constants (`strict`). `sortKeys` is the writer's key ordering by code point at every level.
-/

set_option autoImplicit false

namespace JsonText

variable {α : Type}

/-! ## Dictionaries as association lists -/

/-- `d[key] = value`. -/
def dictSet (key : String) (value : α) : List (String × α) → List (String × α)
  | [] => [(key, value)]
  | (k, v) :: rest => if k = key then (k, value) :: rest else (k, v) :: dictSet key value rest

/-- `dict(pairs)`. -/
def dictOf (pairs : List (String × α)) : List (String × α) :=
  pairs.foldl (fun d p => dictSet p.1 p.2 d) []

/-- `d.get(key)`. -/
def dictGet (key : String) (d : List (String × α)) : Option α :=
  (d.find? fun p => p.1 = key).map Prod.snd

@[simp] theorem dictGet_dictSet_self (key : String) (value : α) (d : List (String × α)) :
    dictGet key (dictSet key value d) = some value := by
  induction d with
  | nil => simp [dictSet, dictGet]
  | cons p rest ih =>
      by_cases h : p.1 = key
      · simp [dictSet, dictGet, h]
      · simpa [dictSet, dictGet, h] using ih

theorem dictGet_dictSet_of_ne {key other : String} (h : other ≠ key) (value : α)
    (d : List (String × α)) : dictGet other (dictSet key value d) = dictGet other d := by
  induction d with
  | nil => simp [dictSet, dictGet, h.symm]
  | cons p rest ih =>
      by_cases hp : p.1 = key
      · simp [dictSet, dictGet, hp, h.symm]
      · by_cases ho : p.1 = other
        · simp [dictSet, dictGet, ho, h]
        · simpa [dictSet, dictGet, hp, ho] using ih

/-- The keys are pairwise distinct. -/
def distinctKeys (members : List (String × α)) : Bool := decide (members.map Prod.fst).Nodup

/-! ## Loaders -/

mutual

/-- Every object turned into a dictionary. -/
def plain : Json → Json
  | .arr items => .arr (plainItems items)
  | .obj members => .obj (dictOf (plainMembers members))
  | .null => .null
  | .bool b => .bool b
  | .int z => .int z
  | .real lexeme => .real lexeme
  | .constant name => .constant name
  | .str s => .str s

def plainItems : List Json → List Json
  | [] => []
  | x :: xs => plain x :: plainItems xs

def plainMembers : List (String × Json) → List (String × Json)
  | [] => []
  | (k, v) :: rest => (k, plain v) :: plainMembers rest

end

mutual

/-- No object repeats a key and no non-finite constant occurs. -/
def strict : Json → Bool
  | .arr items => strictItems items
  | .obj members => distinctKeys members && strictMembers members
  | .constant _ => false
  | .null => true
  | .bool _ => true
  | .int _ => true
  | .real _ => true
  | .str _ => true

def strictItems : List Json → Bool
  | [] => true
  | x :: xs => strict x && strictItems xs

def strictMembers : List (String × Json) → Bool
  | [] => true
  | (_, v) :: rest => strict v && strictMembers rest

end

/-- `json.loads(text)`. -/
def plainLoads (text : String) : Option Json := (loads text).map plain

/-- `json.loads` with hooks that reject repeated keys and non-finite constants. -/
def strictLoads (text : String) : Option Json :=
  match loads text with
  | some j => if strict j then some j else none
  | none => none

/-! ## Key order -/

/-- Members ordered by key. -/
def sortMembers (members : List (String × Json)) : List (String × Json) :=
  members.insertionSort fun p q => p.1 ≤ q.1

mutual

/-- The value with the members of every object ordered by key. -/
def sortKeys : Json → Json
  | .arr items => .arr (sortItems items)
  | .obj members => .obj (sortMembers (sortValues members))
  | .null => .null
  | .bool b => .bool b
  | .int z => .int z
  | .real lexeme => .real lexeme
  | .constant name => .constant name
  | .str s => .str s

def sortItems : List Json → List Json
  | [] => []
  | x :: xs => sortKeys x :: sortItems xs

def sortValues : List (String × Json) → List (String × Json)
  | [] => []
  | (k, v) :: rest => (k, sortKeys v) :: sortValues rest

end

/-- `json.dumps(value, sort_keys=True, separators=(",", ":"), ensure_ascii=False)`. -/
def canonical (j : Json) : String := dumps (sortKeys j)

end JsonText
