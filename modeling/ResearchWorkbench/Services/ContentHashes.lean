import ResearchWorkbench.Library.Json
import ResearchWorkbench.Library.ObjectKeys
import ResearchWorkbench.Domain.Content

namespace ResearchWorkbench

/-!
# Content hashes

`lib/providers/ai-shared.ts` and `lib/export/snapshot.ts`: the hash of a value, taken of the text of
the value with the keys of its objects sorted.

* `JsLeaf`, `JsValue` — the values that are hashed, which may hold dates;
* `withSortedKeys` — the recursion that `stableValue` and `canonicalize` share, and how it goes over
  items and fields;
* `stableValue`, `stableJson`, `inputHash`, `canonicalize`, `exportContentHash`.
-/

/-- What is neither an array nor an object with keys; a date by its `toISOString()`. -/
inductive JsLeaf
  | scalar (s : JsonScalar)
  | date (iso : Text)

/-- A value of the program. -/
abbrev JsValue := JsonTree JsLeaf

namespace JsonTree

variable {α β : Type}

mutual

/-- A value with its leaves replaced. -/
def map (f : α → β) : JsonTree α → JsonTree β
  | .leaf a => .leaf (f a)
  | .array items => .array (mapItems f items)
  | .object fields => .object (mapFields f fields)

/-- The items with their leaves replaced. -/
def mapItems (f : α → β) : List (JsonTree α) → List (JsonTree β)
  | [] => []
  | x :: items => map f x :: mapItems f items

/-- The fields with their leaves replaced. -/
def mapFields (f : α → β) : List (Text × JsonTree α) → List (Text × JsonTree β)
  | [] => []
  | (k, x) :: fields => (k, map f x) :: mapFields f fields

end

mutual

/-- A value with the keys of its objects sorted, at any depth, and its leaves replaced. -/
def withSortedKeys (le : Text → Text → Bool) (f : α → JsonTree β) : JsonTree α → JsonTree β
  | .leaf a => f a
  | .array items => .array (itemsWithSortedKeys le f items)
  | .object fields => .object (sortedObject le (fieldsWithSortedKeys le f fields))

/-- The items of an array. -/
def itemsWithSortedKeys (le : Text → Text → Bool) (f : α → JsonTree β) :
    List (JsonTree α) → List (JsonTree β)
  | [] => []
  | x :: items => withSortedKeys le f x :: itemsWithSortedKeys le f items

/-- The fields of an object before they are sorted. -/
def fieldsWithSortedKeys (le : Text → Text → Bool) (f : α → JsonTree β) :
    List (Text × JsonTree α) → List (Text × JsonTree β)
  | [] => []
  | (k, x) :: fields => (k, withSortedKeys le f x) :: fieldsWithSortedKeys le f fields

end

variable {le : Text → Text → Bool} {f : α → JsonTree β} {items : List (JsonTree α)}
  {fields : List (Text × JsonTree α)}

theorem itemsWithSortedKeys_eq :
    itemsWithSortedKeys le f items = items.map (withSortedKeys le f) := by
  induction items with
  | nil => rfl
  | cons x items ih => rw [itemsWithSortedKeys, ih, List.map_cons]

theorem fieldsWithSortedKeys_eq :
    fieldsWithSortedKeys le f fields = fields.map fun e => (e.1, withSortedKeys le f e.2) := by
  induction fields with
  | nil => rfl
  | cons e fields ih => rw [fieldsWithSortedKeys, ih, List.map_cons]

end JsonTree

/-! ### The hashes -/

/-- A JSON value as a value of the program. -/
def ofJson (v : Json) : JsValue := v.map .scalar

/-- `left.localeCompare(right) <= 0`: the sort leaves `left` before `right`. -/
def localeLe (localeCompare : Text → Text → ℤ) (left right : Text) : Bool :=
  localeCompare left right ≤ 0

/-- `stableValue(value)`.  A date is an object without entries here. -/
def stableValue (localeCompare : Text → Text → ℤ) : JsValue → Json :=
  JsonTree.withSortedKeys (localeLe localeCompare) fun
    | .scalar s => .leaf s
    | .date _ => .object []

/-- `stableJson(value)`. -/
def stableJson (localeCompare : Text → Text → ℤ) (value : JsValue) : Text :=
  stringify (stableValue localeCompare value)

/-- `inputHash(value)`, with `sha256` from a text to the digest. -/
def inputHash (localeCompare : Text → Text → ℤ) (sha256 : Text → Text) (value : JsValue) : Text :=
  sha256 (stableJson localeCompare value)

/-- `canonicalize(value)`. -/
def canonicalize (localeCompare : Text → Text → ℤ) : JsValue → Json :=
  JsonTree.withSortedKeys (localeLe localeCompare) fun
    | .scalar s => .leaf s
    | .date iso => .leaf (.string iso)

/-- `exportContentHash(content)`. -/
def exportContentHash (localeCompare : Text → Text → ℤ) (sha256 : Text → Text)
    (content : JsValue) : Text :=
  sha256 (stringify (canonicalize localeCompare content))

end ResearchWorkbench
