import Formula.Proofs.SessionRun

/-!
# Updates that stop half way

Giving several variables values goes on up to the first value that is no number (`Session.setEach_eq_stored`). When it
fails there, the values before it are stored, and the variables that were to be removed are gone. So a failure leaves
the variables as they were in one case only, namely if all that was stored was there before and nothing else was removed
(`Session.failed_setVariables`).
-/

namespace Formula

/-! ## Pairs -/

/-- The pairs that are stored, one after another: those before the first value that is no number. -/
def storedPairs (pairs : List (String × Value)) : List (String × Value) := pairs.takeWhile (·.2.isNumeric)

/-- The first pair whose value is no number. -/
def refusedPair? (pairs : List (String × Value)) : Option (String × Value) := pairs.find? (!·.2.isNumeric)

/-- In merged pairs every name occurs once. -/
theorem nodup_mergePairs (pairs : List (String × Value)) : ((mergePairs pairs).map Prod.fst).Nodup := by
  unfold mergePairs
  refine List.foldlRecOn (motive := fun merged : List (String × Value) => (merged.map Prod.fst).Nodup) pairs _ .nil ?_
  intro merged hmerged first _
  split
  · have hnames : (merged.map fun old => if old.1 == first.1 then first else old).map Prod.fst =
        merged.map Prod.fst := by
      rw [List.map_map]
      refine List.map_congr_left fun old _ => ?_
      by_cases hold : old.1 = first.1 <;> simp [hold]
    rwa [hnames]
  · rename_i hany
    have hfresh : ∀ pair ∈ merged, pair.1 ≠ first.1 := by
      intro pair hp he
      exact hany (List.any_eq_true.2 ⟨pair, hp, beq_iff_eq.2 he⟩)
    rw [List.map_append, List.nodup_append]
    refine ⟨hmerged, List.pairwise_singleton _ _, ?_⟩
    intro name hname other hother
    obtain ⟨pair, hpair, rfl⟩ := List.mem_map.1 hname
    obtain rfl : other = first.1 := by simpa using hother
    exact hfresh pair hpair

namespace Table

variable {α : Type} {key : α → String} {entries : List α}

/-- Entries that are put in change nothing under other names. -/
theorem find?_foldl_insert_of_not_mem {name : String} (h : name ∉ entries.map key) (table : Table α key) :
    (entries.foldl insert table).find? name = table.find? name := by
  induction entries generalizing table with
  | nil => rfl
  | cons entry entries ih =>
    rw [List.map_cons, List.mem_cons, not_or] at h
    rw [List.foldl_cons, ih h.2, find?_insert, if_neg (Ne.symm h.1)]

/-- Entries of different names that are put in are found. -/
theorem find?_foldl_insert_of_mem {entry : α} (hn : (entries.map key).Nodup) (h : entry ∈ entries)
    (table : Table α key) : (entries.foldl insert table).find? (key entry) = some entry := by
  induction entries generalizing table with
  | nil => cases h
  | cons first entries ih =>
    obtain ⟨hfirst, hn⟩ := List.nodup_cons.1 hn
    rw [List.foldl_cons]
    rcases List.mem_cons.1 h with rfl | h
    · rw [find?_foldl_insert_of_not_mem hfirst, find?_insert, if_pos rfl]
    · exact ih hn h _

/-- Putting entries into a part of a table, or into an empty one, gives the table back if it had them, and nothing else
that is not in the part. -/
theorem foldl_insert_eq_iff {table other : Table α key} (hn : (entries.map key).Nodup) :
    entries.foldl insert table = other ↔
      (∀ entry ∈ entries, other.find? (key entry) = some entry) ∧
        ∀ name, name ∉ entries.map key → table.find? name = other.find? name := by
  constructor
  · rintro rfl
    exact ⟨fun entry he => find?_foldl_insert_of_mem hn he table, fun name hname =>
      (find?_foldl_insert_of_not_mem hname table).symm⟩
  · rintro ⟨hentries, hothers⟩
    refine ext_find? fun name => ?_
    by_cases hname : name ∈ entries.map key
    · obtain ⟨entry, he, rfl⟩ := List.mem_map.1 hname
      rw [find?_foldl_insert_of_mem hn he, hentries entry he]
    · rw [find?_foldl_insert_of_not_mem hname, hothers name hname]

end Table

namespace Session

variable {session next : Session} {pairs : List (String × Value)}

/-- Values are stored one after another, up to the first that is no number. -/
theorem setEach_eq_stored (session : Session) (pairs : List (String × Value)) :
    session.setEach pairs =
      ((refusedPair? pairs).elim (.ok ()) fun refused => .error (.variableType refused.1 refused.2),
        { session with bindings := (storedPairs pairs).foldl Table.insert session.bindings }) := by
  induction pairs generalizing session with
  | nil => rfl
  | cons pair pairs ih =>
    obtain ⟨name, value⟩ := pair
    cases hn : value.isNumeric with
    | true => simp [setEach, setVariable, hn, ih, storedPairs, refusedPair?]
    | false => simp [setEach, setVariable, hn, storedPairs, refusedPair?]

/-- **A refused value leaves an update half done.** The values before it are stored, over the old ones or, if these were
to be removed, over nothing. The variables are as before if and only if all that was stored was there already and no
other variable was removed. -/
theorem failed_setVariables {clear : Bool} {fault : Fault}
    (h : session.setVariables pairs clear = (.error fault, next)) :
    (∃ refused, refusedPair? (mergePairs pairs) = some refused ∧ fault = .variableType refused.1 refused.2) ∧
    next = { session with
      bindings := (storedPairs (mergePairs pairs)).foldl Table.insert (if clear then .empty else session.bindings) } ∧
    (next.bindings = session.bindings ↔
      (∀ pair ∈ storedPairs (mergePairs pairs), session.bindings.find? pair.1 = some pair) ∧
        (clear = true → ∀ name, (session.bindings.find? name).isSome = true →
          name ∈ (storedPairs (mergePairs pairs)).map Prod.fst)) := by
  have hn : ((storedPairs (mergePairs pairs)).map Prod.fst).Nodup :=
    (nodup_mergePairs pairs).sublist ((List.takeWhile_sublist _).map _)
  rw [setVariables, setEach_eq_stored] at h
  obtain ⟨hfault, rfl⟩ := Prod.mk.inj h
  refine ⟨?_, by cases clear <;> rfl, ?_⟩
  · cases hr : refusedPair? (mergePairs pairs) with
    | none =>
      rw [hr] at hfault
      cases hfault
    | some refused =>
      rw [hr] at hfault
      exact ⟨refused, rfl, (Except.error.inj hfault).symm⟩
  · refine (Table.foldl_insert_eq_iff hn).trans (and_congr_right fun _ => ?_)
    cases clear with
    | false => exact iff_of_true (fun _ _ => rfl) fun hc => nomatch hc
    | true =>
      have hbase : ∀ name, session.removeVariables.bindings.find? name = none := fun _ => rfl
      constructor
      · intro hothers _ name hsome
        refine Decidable.byContradiction fun hname => ?_
        rw [← hothers name hname, if_pos rfl, hbase] at hsome
        cases hsome
      · intro hall name hname
        rw [if_pos rfl, hbase]
        exact (Option.not_isSome_iff_eq_none.1 (mt (hall rfl name) hname)).symm

/-- An update that stores what is there already, up to a text, leaves the variables of a new session as they were. -/
theorem failed_setVariables_again :
    let session := start .shipped none none
    let pairs := [("pi", .float 3.14159265359), ("b", .text "x")]
    (session.setVariables pairs false).1 = .error (.variableType "b" (.text "x")) ∧
      (session.setVariables pairs false).2.bindings = session.bindings := by
  intro session pairs
  have h : session.setVariables pairs false =
      (.error (.variableType "b" (.text "x")), (session.setVariables pairs false).2) := rfl
  have hpi : session.bindings.find? "pi" = some ("pi", .float 3.14159265359) := rfl
  refine ⟨congrArg Prod.fst h, (failed_setVariables h).2.2.2 ⟨?_, fun hc => nomatch hc⟩⟩
  intro pair hp
  obtain rfl : pair = ("pi", .float 3.14159265359) := List.mem_singleton.1 hp
  exact hpi

/-- An update of a new session that stops at a text has removed `pi` and stored the value before the text. -/
theorem variables_lost :
    let session := start .shipped none none
    let pairs := [("a", .int 1), ("b", .text "x")]
    (session.setVariables pairs true).1 = .error (.variableType "b" (.text "x")) ∧
      (session.setVariables pairs true).2.bindings ≠ session.bindings ∧
      (session.bindings.find? "pi").isSome = true ∧ (session.setVariables pairs true).2.bindings.find? "pi" = none := by
  intro session pairs
  have hbefore : (session.bindings.find? "pi").isSome = true := rfl
  have hafter : (session.setVariables pairs true).2.bindings.find? "pi" = none := rfl
  refine ⟨rfl, fun hsame => ?_, hbefore, hafter⟩
  rw [← hsame, hafter] at hbefore
  cases hbefore

end Session

end Formula
