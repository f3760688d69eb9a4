/-!
# Tables

A table holds at most one entry for each name, in ascending order of the names. So two tables that answer every question
alike are the same table (`Table.ext_find?`). The list functions below work for any strict total order of the names; the
order of operator symbols is another one.
-/

namespace Formula

/-- A strict total order of names. -/
structure StrictOrder (before : String → String → Prop) : Prop where
  irrefl : ∀ s, ¬before s s
  trans : ∀ {s t u}, before s t → before t u → before s u
  eq_of_not : ∀ {s t}, ¬before s t → ¬before t s → s = t

theorem strictOrder_lt : StrictOrder (· < ·) where
  irrefl := String.lt_irrefl
  trans := String.lt_trans
  eq_of_not h h' := String.le_antisymm (String.not_lt.1 h') (String.not_lt.1 h)

/-! ## Ordered insertion -/

variable {α : Type} {key : α → String} {before : String → String → Prop}

/-- Puts an entry into an ordered list, in place of the entry of the same name if there is one. -/
def insertOrdered (key : α → String) (before : String → String → Prop) [DecidableRel before] (a : α) :
    List α → List α
  | [] => [a]
  | b :: rest =>
    if before (key a) (key b) then a :: b :: rest
    else if before (key b) (key a) then b :: insertOrdered key before a rest
    else a :: rest

theorem mem_of_mem_insertOrdered [DecidableRel before] {a b : α} {entries : List α}
    (h : b ∈ insertOrdered key before a entries) : b = a ∨ b ∈ entries := by
  induction entries with
  | nil => simpa [insertOrdered] using h
  | cons c rest ih =>
    unfold insertOrdered at h
    split at h
    · simpa using h
    · split at h
      · rcases List.mem_cons.1 h with rfl | h
        · exact .inr List.mem_cons_self
        · exact (ih h).imp_right (List.mem_cons_of_mem _)
      · rcases List.mem_cons.1 h with rfl | h
        · exact .inl rfl
        · exact .inr (List.mem_cons_of_mem _ h)

theorem mem_insertOrdered_id [DecidableRel before] (order : StrictOrder before) {s t : String} {names : List String} :
    t ∈ insertOrdered id before s names ↔ t = s ∨ t ∈ names := by
  refine ⟨mem_of_mem_insertOrdered, ?_⟩
  induction names with
  | nil => simp [insertOrdered]
  | cons u rest ih =>
    unfold insertOrdered
    split
    · simp
    · split
      · simp only [List.mem_cons]
        rintro (rfl | rfl | h)
        · exact .inr (ih (.inl rfl))
        · exact .inl rfl
        · exact .inr (ih (.inr h))
      · rename_i h h'
        obtain rfl : s = u := order.eq_of_not h h'
        simp

theorem pairwise_insertOrdered [DecidableRel before] (order : StrictOrder before) (a : α) {entries : List α}
    (h : entries.Pairwise fun b c => before (key b) (key c)) :
    (insertOrdered key before a entries).Pairwise fun b c => before (key b) (key c) := by
  induction entries with
  | nil => simp [insertOrdered]
  | cons b rest ih =>
    obtain ⟨hb, hr⟩ := List.pairwise_cons.1 h
    unfold insertOrdered
    split
    · rename_i hab
      refine List.pairwise_cons.2 ⟨fun c hc => ?_, h⟩
      rcases List.mem_cons.1 hc with rfl | hc
      · exact hab
      · exact order.trans hab (hb c hc)
    · split
      · rename_i hba
        refine List.pairwise_cons.2 ⟨fun c hc => ?_, ih hr⟩
        rcases mem_of_mem_insertOrdered hc with rfl | hc
        · exact hba
        · exact hb c hc
      · rename_i hab hba
        have heq := order.eq_of_not hab hba
        exact List.pairwise_cons.2 ⟨fun c hc => heq ▸ hb c hc, hr⟩

/-- The entry of a name. -/
def entryNamed? (key : α → String) (entries : List α) (name : String) : Option α :=
  entries.find? fun a => key a == name

theorem entryNamed?_eq_none_of_before (order : StrictOrder before) {entries : List α} {name : String}
    (h : ∀ b ∈ entries, before name (key b)) : entryNamed? key entries name = none := by
  refine List.find?_eq_none.2 fun b hb hk => ?_
  exact order.irrefl _ (beq_iff_eq.1 hk ▸ h b hb)

/-- The entry put in is found under its name, and under other names everything is as before. -/
theorem entryNamed?_insertOrdered [DecidableRel before] (order : StrictOrder before) (a : α) {entries : List α}
    (h : entries.Pairwise fun b c => before (key b) (key c)) (name : String) :
    entryNamed? key (insertOrdered key before a entries) name =
      if key a = name then some a else entryNamed? key entries name := by
  induction entries with
  | nil => by_cases hn : key a = name <;> simp [insertOrdered, entryNamed?, hn]
  | cons b rest ih =>
    obtain ⟨hb, hr⟩ := List.pairwise_cons.1 h
    unfold insertOrdered
    split
    · by_cases hn : key a = name <;> simp [entryNamed?, hn]
    · split
      · rename_i hba
        have ih := ih hr
        unfold entryNamed? at ih ⊢
        by_cases hn : key b = name
        · have : key a ≠ name := fun e => order.irrefl _ (hn.trans e.symm ▸ hba)
          simp [hn, this]
        · simpa [hn] using ih
      · rename_i hab hba
        have heq := order.eq_of_not hab hba
        by_cases hn : key a = name
        · simp [entryNamed?, hn]
        · have : key b ≠ name := heq ▸ hn
          simp [entryNamed?, hn, this]

/-- Ordered lists that answer every question alike are equal. -/
theorem eq_of_entryNamed?_eq (order : StrictOrder before) {entries others : List α}
    (h : entries.Pairwise fun b c => before (key b) (key c))
    (h' : others.Pairwise fun b c => before (key b) (key c))
    (same : ∀ name, entryNamed? key entries name = entryNamed? key others name) : entries = others := by
  induction entries generalizing others with
  | nil =>
    cases others with
    | nil => rfl
    | cons b rest => simpa [entryNamed?] using same (key b)
  | cons a rest ih =>
    cases others with
    | nil => simpa [entryNamed?] using same (key a)
    | cons b rest' =>
      obtain ⟨ha, hr⟩ := List.pairwise_cons.1 h
      obtain ⟨hb, hr'⟩ := List.pairwise_cons.1 h'
      have hab : key a = key b := by
        refine order.eq_of_not (fun hlt => ?_) (fun hlt => ?_)
        · have hn : entryNamed? key (b :: rest') (key a) = none := by
            refine entryNamed?_eq_none_of_before order fun c hc => ?_
            rcases List.mem_cons.1 hc with rfl | hc
            · exact hlt
            · exact order.trans hlt (hb c hc)
          simpa [entryNamed?, hn] using (same (key a)).trans hn
        · have hn : entryNamed? key (a :: rest) (key b) = none := by
            refine entryNamed?_eq_none_of_before order fun c hc => ?_
            rcases List.mem_cons.1 hc with rfl | hc
            · exact hlt
            · exact order.trans hlt (ha c hc)
          simpa [entryNamed?, hn] using (same (key b)).symm.trans hn
      have heq : a = b := by simpa [entryNamed?, hab] using same (key a)
      subst heq
      congr 1
      refine ih hr hr' fun name => ?_
      by_cases hn : key a = name
      · subst hn
        rw [entryNamed?_eq_none_of_before order ha, entryNamed?_eq_none_of_before order hb]
      · simpa [entryNamed?, hn] using same name

/-! ## Tables by name -/

/-- Entries in ascending order of their names. -/
structure Table (α : Type) (key : α → String) where
  entries : List α
  ascending : entries.Pairwise fun a b => key a < key b

namespace Table

/-- A table without entries. -/
def empty : Table α key := ⟨[], .nil⟩

/-- The entry of a name. -/
def find? (table : Table α key) (name : String) : Option α := entryNamed? key table.entries name

/-- Puts an entry in, in place of the one of the same name. -/
def insert (table : Table α key) (a : α) : Table α key :=
  ⟨insertOrdered key (· < ·) a table.entries, pairwise_insertOrdered strictOrder_lt a table.ascending⟩

/-- Takes the entry of a name out. -/
def erase (table : Table α key) (name : String) : Table α key :=
  ⟨table.entries.filter fun a => key a != name, table.ascending.filter _⟩

@[simp]
theorem find?_empty (name : String) : (empty : Table α key).find? name = none := rfl

theorem key_of_find? {table : Table α key} {name : String} {a : α} (h : table.find? name = some a) : key a = name :=
  by simpa using List.find?_some h

theorem mem_of_find? {table : Table α key} {name : String} {a : α} (h : table.find? name = some a) :
    a ∈ table.entries :=
  List.mem_of_find?_eq_some h

theorem find?_insert (table : Table α key) (a : α) (name : String) :
    (table.insert a).find? name = if key a = name then some a else table.find? name :=
  entryNamed?_insertOrdered strictOrder_lt a table.ascending name

theorem find?_erase (table : Table α key) (erased name : String) :
    (table.erase erased).find? name = if name = erased then none else table.find? name := by
  unfold find? erase entryNamed?
  by_cases h : name = erased
  · subst h
    simp [List.find?_eq_none]
  · rw [if_neg h, List.find?_filter]
    congr 1
    funext a
    by_cases ha : key a = name
    · simp [ha, h]
    · simp [ha]

theorem mem_of_mem_insert {table : Table α key} {a b : α} (h : b ∈ (table.insert a).entries) :
    b = a ∨ b ∈ table.entries :=
  mem_of_mem_insertOrdered h

/-- Tables that answer every question alike are equal. -/
theorem ext_find? {table other : Table α key} (h : ∀ name, table.find? name = other.find? name) : table = other := by
  obtain ⟨entries, ascending⟩ := table
  obtain ⟨others, ascending'⟩ := other
  obtain rfl : entries = others := eq_of_entryNamed?_eq strictOrder_lt ascending ascending' h
  rfl

end Table

end Formula
