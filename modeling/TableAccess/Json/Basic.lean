import TableAccess.Number.Binary64

/-!
# JSON values

Objects keep their members in the order of their first mention.  A number is a whole number that
fits into 64 bits, signed or not, or a floating point number.
-/

namespace TableAccess

open TableAccess.Number (Binary64)

/-- A number in a JSON text. -/
inductive JsonNumber where
  | integer (i : Int)
  | float (x : Binary64)
deriving DecidableEq

/-- A JSON value. -/
inductive Json where
  | null
  | bool (b : Bool)
  | number (n : JsonNumber)
  | string (s : String)
  | array (items : List Json)
  | object (members : List (String × Json))

instance : Inhabited Json := ⟨.null⟩

namespace Json

def ofInt (i : Int) : Json := .number (.integer i)

/-- A finite number as itself; the rest has no JSON form and becomes null. -/
def ofFloat (x : Binary64) : Json := if x.isFinite then .number (.float x) else .null

/-- Set a member: a key that is already there keeps its place. -/
def put (key : String) (value : Json) : List (String × Json) → List (String × Json)
  | [] => [(key, value)]
  | (k, v) :: r => if k == key then (k, value) :: r else (k, v) :: put key value r

/-- The members after all entries have been set in order. -/
def ofEntries (entries : List (String × Json)) : List (String × Json) :=
  entries.foldl (fun members entry => put entry.1 entry.2 members) []

/-- The value of a key. -/
def find? (key : String) : List (String × Json) → Option Json
  | [] => none
  | (k, v) :: r => if k == key then some v else find? key r

/-- The keys after setting one: a new key comes last, a known one stays where it is. -/
theorem keys_put (key : String) (value : Json) (members : List (String × Json)) :
    (put key value members).map Prod.fst =
      if key ∈ members.map Prod.fst then members.map Prod.fst
      else members.map Prod.fst ++ [key] := by
  induction members with
  | nil => simp [put]
  | cons m r ih =>
    obtain ⟨k, v⟩ := m
    by_cases h : k = key
    · simp [put, h]
    · simp only [put, beq_iff_eq, h, if_false, List.map_cons, List.mem_cons, ih,
        Ne.symm h, false_or]
      split <;> rfl

end Json

end TableAccess
