/-!
# Tables

Values under names, each name at most once: the bindings of a scope, the fields of an instance,
the methods of a class.
-/

namespace Lox

/-- Names with their values. -/
structure Table (α : Type) where
  entries : List (String × α)

namespace Table

variable {α : Type}

def empty : Table α := ⟨[]⟩

/-- The value that the first entry of a name has. -/
def getEntry? (name : String) : List (String × α) → Option α
  | [] => none
  | (key, value) :: rest => if key = name then some value else getEntry? name rest

/-- The entries with a value put under a name: in place of the one that is there, or at the
end. -/
def setEntry (name : String) (value : α) : List (String × α) → List (String × α)
  | [] => [(name, value)]
  | (key, old) :: rest =>
    if key = name then (key, value) :: rest else (key, old) :: setEntry name value rest

/-- The value under a name. -/
def get? (table : Table α) (name : String) : Option α := getEntry? name table.entries

/-- The table with a value put under a name, in place of an earlier one. -/
def set (table : Table α) (name : String) (value : α) : Table α :=
  ⟨setEntry name value table.entries⟩

theorem get?_empty (name : String) : (empty : Table α).get? name = none := rfl

theorem getEntry?_setEntry (entries : List (String × α)) (name : String) (value : α)
    (other : String) :
    getEntry? other (setEntry name value entries) =
      if name = other then some value else getEntry? other entries := by
  induction entries with
  | nil => rfl
  | cons entry rest ih =>
    obtain ⟨key, old⟩ := entry
    by_cases here : key = name
    · subst here
      by_cases same : key = other <;> simp [setEntry, getEntry?, same]
    · by_cases atKey : key = other
      · subst atKey
        have differs : ¬ name = key := fun equal => here equal.symm
        simp [setEntry, getEntry?, here, differs]
      · simp [setEntry, getEntry?, here, atKey, ih]

/-- Setting a name changes what is under that name, and nothing else. -/
theorem get?_set (table : Table α) (name : String) (value : α) (other : String) :
    (table.set name value).get? other = if name = other then some value else table.get? other :=
  getEntry?_setEntry table.entries name value other

end Table

end Lox
