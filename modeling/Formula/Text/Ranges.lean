/-!
# Ranges of code points

A property of characters is given by an ascending list of closed ranges of code points. The search stops at the
first range that starts above the code point, which loses nothing in an ascending list.
-/

namespace Formula.Text.Ranges

/-- The range of an ascending list that holds `n`. -/
def find? : List (Nat × Nat) → Nat → Option (Nat × Nat)
  | [], _ => none
  | range :: rest, n =>
    if n < range.1 then none else if n ≤ range.2 then some range else find? rest n

/-- Some range holds `n`. -/
def contains (ranges : List (Nat × Nat)) (n : Nat) : Bool := (find? ranges n).isSome

theorem find?_some {ranges : List (Nat × Nat)} {n : Nat} {range : Nat × Nat} (h : find? ranges n = some range) :
    range ∈ ranges ∧ range.1 ≤ n ∧ n ≤ range.2 := by
  induction ranges with
  | nil => simp [find?] at h
  | cons head rest ih =>
    unfold find? at h
    split at h
    · simp at h
    · split at h
      · obtain rfl := Option.some.inj h
        exact ⟨List.mem_cons_self, by omega, by omega⟩
      · obtain ⟨hm, hr⟩ := ih h
        exact ⟨List.mem_cons_of_mem _ hm, hr⟩

end Formula.Text.Ranges
