/-!
Tables from names to values that keep the order in which names were first set.
-/
namespace RepoAtlas

abbrev Table (α : Type u) := List (String × α)

namespace Table

/-- The value of the first entry with a name. -/
def get? (key : String) : Table α → Option α
  | [] => none
  | (k, v) :: rest => if k == key then some v else get? key rest

/-- Sets a name: in its old place if there is one, else at the end. -/
def set (key : String) (value : α) : Table α → Table α
  | [] => [(key, value)]
  | (k, v) :: rest => if k == key then (k, value) :: rest else (k, v) :: set key value rest

/-- The entries one after another, so that a repeated name takes its last value. -/
def ofEntries (entries : List (String × α)) : Table α :=
  entries.foldl (fun done (k, v) => set k v done) []

theorem get?_set_self (key : String) (value : α) (t : Table α) :
    get? key (set key value t) = some value := by
  induction t with
  | nil => simp [set, get?]
  | cons entry rest ih =>
    obtain ⟨k, v⟩ := entry
    unfold set
    by_cases h : k = key
    · simp [h, get?]
    · simp [h, get?, ih]

theorem get?_set_of_ne {key other : String} (h : key ≠ other) (value : α) (t : Table α) :
    get? other (set key value t) = get? other t := by
  induction t with
  | nil => simp [set, get?, h]
  | cons entry rest ih =>
    obtain ⟨k, v⟩ := entry
    unfold set
    by_cases hk : k = key
    · subst hk
      simp [get?, h]
    · simp only [beq_iff_eq, hk, if_false, get?, ih]

end Table

end RepoAtlas
