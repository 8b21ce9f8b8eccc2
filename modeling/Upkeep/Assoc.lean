/-!
# Association lists

Values by key, each key in the place of its first insertion.
-/

namespace Upkeep.Assoc

variable {κ α : Type} [BEq κ]

/-- The list with a value for a key in the place of its former one, or at the
end. -/
def put (key : κ) (value : α) : List (κ × α) → List (κ × α)
  | [] => [(key, value)]
  | (k, v) :: rest => if k == key then (key, value) :: rest else (k, v) :: put key value rest

@[simp] theorem put_nil (key : κ) (value : α) : put key value [] = [(key, value)] := rfl

/-- A key has the value that was last put there, and no other key is affected. -/
theorem lookup_put [LawfulBEq κ] (key key' : κ) (value : α) (list : List (κ × α)) :
    (put key value list).lookup key' =
      if key' == key then some value else list.lookup key' := by
  induction list with
  | nil => simp only [put, List.lookup_cons]; cases key' == key <;> rfl
  | cons entry rest ih =>
      obtain ⟨k, v⟩ := entry
      simp only [put]
      by_cases hk : k = key
      · subst hk
        simp only [beq_self_eq_true, if_true, List.lookup_cons]
        cases key' == k <;> rfl
      · by_cases h : key' = key
        · subst h
          have : (key' == k) = false := by simpa using fun h => hk h.symm
          simp [List.lookup_cons, hk, this, ih]
        · simp [List.lookup_cons, hk, h, ih]

end Upkeep.Assoc
