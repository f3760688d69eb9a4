import Formula.Proofs.CacheCoherence
import Mathlib.Data.List.Dedup
import Mathlib.Data.List.DropRight

/-!
# The cache keeps the latest texts

What a cache holds is settled by the calls since it was last emptied: the texts of the calls that succeeded, each of
them once, in the order of their last calls, and of these the latest ones (`Call.kept`). A call is a hit if its text
was among them when it was made, and a miss if not. A cache that agrees with its calls (`Cache.Reflects`) agrees with
them after every command (`Session.reflects_perform`): whether a text is made the last, added with the oldest one
dropped, or not stored at all, the texts that are kept change in the same way (`Call.kept_of_mem`,
`Call.kept_of_not_mem`).

The calls themselves are read off the commands and the sessions in which they are carried out
(`Session.callsSinceReset`), so that the theorem is about whole histories (`Session.cache_eq_kept`).
-/

/-! ## The last entries of a list -/

section Last

variable {α : Type} [DecidableEq α] {xs : List α} {x : α} {n : ℕ}

theorem List.dedup_concat (xs : List α) (x : α) : (xs ++ [x]).dedup = xs.dedup.filter (· != x) ++ [x] := by
  induction xs with
  | nil => simp
  | cons y xs ih =>
    rw [List.cons_append]
    by_cases hx : y = x
    · subst hx
      by_cases hy : y ∈ xs <;> simp [hy, ih]
    · by_cases hy : y ∈ xs <;> simp [hy, hx, ih]

/-- Without one of the last entries, those that are left are the last ones. -/
theorem List.rtake_filter_of_mem (hn : xs.Nodup) (h : x ∈ xs.rtake (n + 1)) :
    (xs.filter (· != x)).rtake n = (xs.rtake (n + 1)).filter (· != x) := by
  induction xs using List.reverseRecOn generalizing n with
  | nil => simp at h
  | append_singleton xs y ih =>
    obtain ⟨hxs, -, hd⟩ := List.nodup_append.1 hn
    have hy : y ∉ xs := fun hm => hd y hm y (by simp) rfl
    rw [List.rtake_concat_succ] at h ⊢
    by_cases hx : y = x
    · subst hx
      have hall : ∀ ys : List α, y ∉ ys → ys.filter (· != y) = ys := fun ys hys =>
        List.filter_eq_self.2 fun z hz => by simpa using fun he : z = y => hys (he ▸ hz)
      have hlast : y ∉ xs.rtake n := fun hm => hy (List.mem_of_mem_drop hm)
      rw [List.filter_append, List.filter_append, hall xs hy, hall _ hlast]
      simp
    · have hm : x ∈ xs.rtake n := by simpa [Ne.symm hx] using h
      cases n with
      | zero => simp at hm
      | succ n =>
        have hkeep : [y].filter (· != x) = [y] := by simp [hx]
        rw [List.filter_append, List.filter_append, hkeep, List.rtake_concat_succ, ih hxs hm]

/-- What is none of the last entries may be left out. -/
theorem List.rtake_filter_of_not_mem (h : x ∉ xs.rtake (n + 1)) :
    (xs.filter (· != x)).rtake n = (xs.rtake (n + 1)).rtake n := by
  induction xs using List.reverseRecOn generalizing n with
  | nil => simp
  | append_singleton xs y ih =>
    rw [List.rtake_concat_succ] at h ⊢
    have hx : y ≠ x := fun he => h (by simp [he])
    cases n with
    | zero => simp
    | succ n =>
      have hm : x ∉ xs.rtake (n + 1) := fun hm => h (by simp [hm])
      have hkeep : [y].filter (· != x) = [y] := by simp [hx]
      rw [List.filter_append, hkeep, List.rtake_concat_succ, List.rtake_concat_succ, ih hm]

end Last

namespace Formula

/-! ## What calls leave in a cache -/

/-- A call for a text. -/
structure Call where
  text : String
  /-- The text could be read and arranged when it was called for. -/
  succeeds : Bool
deriving DecidableEq

namespace Call

/-- The texts of the calls that succeeded, each once, in the order of their last calls. -/
def recent (calls : List Call) : List String := ((calls.filter succeeds).map text).dedup

/-- As many of the latest texts as a capacity allows. -/
def limited (capacity : Option Int) (texts : List String) : List String :=
  match capacity with
  | none => texts
  | some n => if n = 0 then texts else texts.rtake n.toNat

/-- The texts that are kept after these calls, the one called for longest ago first. -/
def kept (capacity : Option Int) (calls : List Call) : List String := limited capacity (recent calls)

/-- The number of calls for a text that was kept when the call was made. -/
def hits (capacity : Option Int) (calls : List Call) : ℕ :=
  calls.zipIdx.countP fun (call, place) => decide (call.text ∈ kept capacity (calls.take place))

/-- The number of all other calls. -/
def misses (capacity : Option Int) (calls : List Call) : ℕ :=
  calls.zipIdx.countP fun (call, place) => decide (call.text ∉ kept capacity (calls.take place))

variable {capacity : Option Int} {calls : List Call}

theorem nodup_recent (calls : List Call) : (recent calls).Nodup := List.nodup_dedup _

theorem recent_succeeding (calls : List Call) (text : String) :
    recent (calls ++ [⟨text, true⟩]) = (recent calls).filter (· != text) ++ [text] := by
  simp [recent, List.dedup_concat]

theorem kept_failing (capacity : Option Int) (calls : List Call) (text : String) :
    kept capacity (calls ++ [⟨text, false⟩]) = kept capacity calls := by
  simp [kept, recent]

/-- A text that is kept becomes the latest one. -/
theorem kept_of_mem (hc : ∀ n ∈ capacity, 0 ≤ n) {text : String} (h : text ∈ kept capacity calls) :
    kept capacity (calls ++ [⟨text, true⟩]) = (kept capacity calls).filter (· != text) ++ [text] := by
  unfold kept limited at *
  rw [recent_succeeding]
  cases capacity with
  | none => rfl
  | some n =>
    by_cases hn : n = 0
    · simp [hn]
    · obtain ⟨m, hm⟩ : ∃ m, n.toNat = m + 1 := ⟨n.toNat - 1, by have := hc n rfl; omega⟩
      simp only [hn, if_false, hm] at h ⊢
      rw [List.rtake_concat_succ, List.rtake_filter_of_mem (nodup_recent calls) h]

/-- A text that is not kept is added, and the oldest one is dropped where there is no place for it. -/
theorem kept_of_not_mem (hc : ∀ n ∈ capacity, 0 ≤ n) {text : String} (h : text ∉ kept capacity calls) :
    kept capacity (calls ++ [⟨text, true⟩]) = limited capacity (kept capacity calls ++ [text]) := by
  have hall : text ∉ recent calls → (recent calls).filter (· != text) = recent calls := fun hr =>
    List.filter_eq_self.2 fun other ho => by simpa using fun he : other = text => hr (he ▸ ho)
  unfold kept limited at *
  rw [recent_succeeding]
  cases capacity with
  | none => simp only [hall h]
  | some n =>
    by_cases hn : n = 0
    · simp only [hn, if_true] at h ⊢
      rw [hall h]
    · obtain ⟨m, hm⟩ : ∃ m, n.toNat = m + 1 := ⟨n.toNat - 1, by have := hc n rfl; omega⟩
      simp only [hn, if_false, hm] at h ⊢
      rw [List.rtake_concat_succ, List.rtake_concat_succ, List.rtake_filter_of_not_mem h]

/-- Calls that are counted by what was kept before them. -/
theorem countP_zipIdx_concat (counts : Call → List Call → Bool) (calls : List Call) (call : Call) :
    ((calls ++ [call]).zipIdx.countP fun (c, place) => counts c ((calls ++ [call]).take place)) =
      (calls.zipIdx.countP fun (c, place) => counts c (calls.take place)) + if counts call calls then 1 else 0 := by
  rw [List.zipIdx_append, List.countP_append]
  congr 1
  · refine List.countP_congr fun entry he => ?_
    obtain ⟨c, place⟩ := entry
    have hp : place ≤ calls.length := (List.mem_zipIdx' he).1.le
    simp only [List.take_append_of_le_length hp]
  · simp [List.countP_singleton]

theorem hits_concat (capacity : Option Int) (calls : List Call) (call : Call) :
    hits capacity (calls ++ [call]) = hits capacity calls + if call.text ∈ kept capacity calls then 1 else 0 := by
  simpa [hits] using countP_zipIdx_concat (fun c before => decide (c.text ∈ kept capacity before)) calls call

theorem misses_concat (capacity : Option Int) (calls : List Call) (call : Call) :
    misses capacity (calls ++ [call]) = misses capacity calls + if call.text ∈ kept capacity calls then 0 else 1 := by
  have h := countP_zipIdx_concat (fun c before => decide (c.text ∉ kept capacity before)) calls call
  by_cases hm : call.text ∈ kept capacity calls <;> simpa [misses, hm] using h

/-- Every call is a hit or a miss. -/
theorem hits_add_misses (capacity : Option Int) (calls : List Call) :
    hits capacity calls + misses capacity calls = calls.length := by
  rw [← List.length_zipIdx (i := 0), List.length_eq_countP_add_countP
    fun (entry : Call × ℕ) => decide (entry.1.text ∈ kept capacity (calls.take entry.2))]
  simp [hits, misses]

theorem length_kept_le {n : Int} (hn : 0 < n) (calls : List Call) : ((kept (some n) calls).length : Int) ≤ n := by
  have hne : n ≠ 0 := by omega
  simp only [kept, limited, if_neg hne, List.rtake, List.length_drop]
  omega

end Call

/-! ## Caches that agree with calls -/

namespace Cache

variable {α : Type} {cache : Cache α} {calls : List Call} {text : String} {made : α}

/-- The cache holds what the calls leave in it, and has counted them. -/
structure Reflects (cache : Cache α) (calls : List Call) : Prop where
  keys : cache.keys = Call.kept cache.capacity calls
  hits : cache.hits = Call.hits cache.capacity calls
  misses : cache.misses = Call.misses cache.capacity calls

theorem mem_keys_of_find? (h : cache.find? text = some made) : text ∈ cache.keys :=
  List.mem_map_of_mem (mem_of_find? h)

theorem not_mem_keys_of_find? (h : cache.find? text = none) : text ∉ cache.keys := by
  intro hm
  obtain ⟨entry, he, rfl⟩ := List.mem_map.1 hm
  simpa using List.lookup_eq_none_iff.1 h entry he

theorem reflects_empty (capacity : Option Int) : (empty capacity : Cache α).Reflects [] := by
  refine ⟨?_, rfl, rfl⟩
  cases capacity with
  | none => rfl
  | some n => simp [Call.kept, Call.limited, Call.recent, empty, keys]

theorem keys_touch (cache : Cache α) (text : String) (made : α) :
    (cache.touch text made).keys = cache.keys.filter (· != text) ++ [text] := by
  simp only [keys, touch, List.map_append, List.filter_map]
  rfl

theorem keys_store (h : cache.TakesEntries) (text : String) (made : α) :
    (cache.store text made).2.keys = Call.limited cache.capacity (cache.keys ++ [text]) := by
  unfold store Call.limited
  split
  · rename_i hc
    rw [hc]
    simp [keys]
  · rename_i capacity hc
    rw [if_neg (by have := h capacity hc; omega), hc]
    by_cases hz : capacity = 0
    · simp [keys, hz]
    · simp [keys, hz, latest, List.rtake, List.map_drop]

theorem store_counts (h : cache.TakesEntries) (text : String) (made : α) :
    (cache.store text made).2.hits = cache.hits ∧ (cache.store text made).2.misses = cache.misses ∧
      (cache.store text made).2.capacity = cache.capacity := by
  unfold store
  split
  · exact ⟨rfl, rfl, rfl⟩
  · rename_i capacity hc
    rw [if_neg (by have := h capacity hc; omega)]
    split <;> exact ⟨rfl, rfl, rfl⟩

/-- A hit makes its text the latest one. -/
theorem Reflects.touch (h : cache.Reflects calls) (ht : cache.TakesEntries) (hf : cache.find? text = some made) :
    (cache.touch text made).Reflects (calls ++ [⟨text, true⟩]) := by
  have hm : text ∈ Call.kept cache.capacity calls := h.keys ▸ mem_keys_of_find? hf
  refine ⟨?_, ?_, ?_⟩
  · rw [keys_touch, h.keys]
    exact (Call.kept_of_mem ht hm).symm
  · show cache.hits + 1 = Call.hits cache.capacity _
    rw [Call.hits_concat, if_pos hm, h.hits]
  · show cache.misses = Call.misses cache.capacity _
    rw [Call.misses_concat, if_pos hm, h.misses, Nat.add_zero]

/-- A call that fails is counted, and nothing else. -/
theorem Reflects.countMiss (h : cache.Reflects calls) (hf : cache.find? text = none) :
    cache.countMiss.Reflects (calls ++ [⟨text, false⟩]) := by
  have hm : text ∉ Call.kept cache.capacity calls := h.keys ▸ not_mem_keys_of_find? hf
  refine ⟨?_, ?_, ?_⟩
  · show cache.keys = Call.kept cache.capacity _
    rw [Call.kept_failing, h.keys]
  · show cache.hits = Call.hits cache.capacity _
    rw [Call.hits_concat, if_neg hm, h.hits, Nat.add_zero]
  · show cache.misses + 1 = Call.misses cache.capacity _
    rw [Call.misses_concat, if_neg hm, h.misses]

/-- A call that succeeds on a text that was not there adds it. -/
theorem Reflects.store (h : cache.Reflects calls) (ht : cache.TakesEntries) (hf : cache.find? text = none) (made : α) :
    (cache.countMiss.store text made).2.Reflects (calls ++ [⟨text, true⟩]) := by
  have hm : text ∉ Call.kept cache.capacity calls := h.keys ▸ not_mem_keys_of_find? hf
  have ht' : cache.countMiss.TakesEntries := ht
  obtain ⟨hhits, hmisses, hcapacity⟩ := store_counts ht' text made
  refine ⟨?_, ?_, ?_⟩
  · rw [keys_store ht', hcapacity]
    show Call.limited cache.capacity (cache.keys ++ [text]) = Call.kept cache.capacity _
    rw [h.keys, Call.kept_of_not_mem ht hm]
  · rw [hhits, hcapacity]
    show cache.hits = Call.hits cache.capacity _
    rw [Call.hits_concat, if_neg hm, h.hits, Nat.add_zero]
  · rw [hmisses, hcapacity]
    show cache.misses + 1 = Call.misses cache.capacity _
    rw [Call.misses_concat, if_neg hm, h.misses]

end Cache

/-! ## Calls of a run -/

namespace Session

/-- A command and the session in which it is carried out. -/
structure Moment where
  session : Session
  command : Command

namespace Moment

/-- The command empties the cache: it is told to, or it succeeds in adding an operator or a function. -/
def resets (moment : Moment) : Bool :=
  match moment.command with
  | .clearCache => true
  | .addOperator _ | .addFunction _ _ _ => (moment.session.perform moment.command).1.isOk
  | _ => false

/-- The call that the command makes, if it calls for a text. -/
def call? (moment : Moment) : Option Call :=
  match moment.command with
  | .execute text | .compile text => some ⟨text, (Postfix.compile moment.session.registry text).isOk⟩
  | _ => none

end Moment

/-- The moments of a run. -/
def moments (session : Session) : List Command → List Moment
  | [] => []
  | command :: commands => ⟨session, command⟩ :: (session.perform command).2.moments commands

/-- The calls of a run since the cache was last emptied. -/
def callsSinceReset (session : Session) (commands : List Command) : List Call :=
  ((session.moments commands).rtakeWhile fun moment => !moment.resets).filterMap Moment.call?

theorem run_concat (session : Session) (commands : List Command) (command : Command) :
    (session.run (commands ++ [command])).2 = ((session.run commands).2.perform command).2 := by
  induction commands generalizing session with
  | nil => rfl
  | cons first commands ih => exact ih (session.perform first).2

theorem moments_concat (session : Session) (commands : List Command) (command : Command) :
    session.moments (commands ++ [command]) = session.moments commands ++ [⟨(session.run commands).2, command⟩] := by
  induction commands generalizing session with
  | nil => rfl
  | cons first commands ih => exact congrArg (_ :: ·) (ih (session.perform first).2)

/-- A command that resets begins anew, and every other one adds its call. -/
theorem callsSinceReset_concat (session : Session) (commands : List Command) (command : Command) :
    session.callsSinceReset (commands ++ [command]) =
      if (Moment.mk (session.run commands).2 command).resets then []
      else session.callsSinceReset commands ++ (Moment.mk (session.run commands).2 command).call?.toList := by
  rw [callsSinceReset, moments_concat, List.rtakeWhile_concat]
  cases (Moment.mk (session.run commands).2 command).resets with
  | true => rfl
  | false =>
    cases hc : (Moment.mk (session.run commands).2 command).call? <;> simp [callsSinceReset, hc]

variable {session : Session} {calls : List Call}

theorem reflects_compile (h : session.cache.Reflects calls) (hs : session.Coherent) (ht : session.cache.TakesEntries)
    (text : String) :
    (session.compile text).2.cache.Reflects (calls ++ [⟨text, (Postfix.compile session.registry text).isOk⟩]) := by
  unfold compile
  split
  · rename_i tokens hf
    rw [hs _ (Cache.mem_of_find? hf)]
    exact h.touch ht hf
  · rename_i hf
    split
    · rename_i fault hc
      rw [hc]
      exact h.countMiss hf
    · rename_i tokens hc
      rw [hc]
      exact h.store ht hf tokens

/-- An operator is added if its draft passes the check, and else nothing changes. -/
theorem perform_addOperator (session : Session) (draft : OperatorDraft) :
    session.perform (.addOperator draft) = match draft.check with
      | .error fault => (.error fault, session)
      | .ok op =>
        (.ok .done, { session with registry := session.registry.addOperator op, cache := session.cache.clear }) := by
  rw [perform, addOperator]
  cases draft.check <;> rfl

theorem perform_addFunction (session : Session) (name : String) (callable : Callable) (arity : Int) :
    session.perform (.addFunction name (some callable) arity) =
      match (FunctionDraft.mk name callable arity).check with
      | .error fault => (.error fault, session)
      | .ok function =>
        (.ok .done,
          { session with registry := session.registry.addFunction function, cache := session.cache.clear }) := by
  rw [perform, addFunction]
  cases (FunctionDraft.mk name callable arity).check <;> rfl

/-- What a command does to the cache. -/
theorem perform_cache (session : Session) (command : Command) :
    (session.perform command).2.cache =
      if (Moment.mk session command).resets then .empty session.cache.capacity
      else match (Moment.mk session command).call? with
        | some call => (session.compile call.text).2.cache
        | none => session.cache := by
  cases command with
  | execute text => exact congrArg Session.cache (execute_snd session text)
  | compile text | removeVariable name | removeVariables | setDivision raises | clearCache => rfl
  | setVariable name value =>
    simp only [perform, setVariable]
    split <;> rfl
  | setVariables pairs clear =>
    obtain ⟨answer, last, h⟩ := setVariables_eq session.bindings pairs clear
    exact congrArg (·.2.cache) (h session.registry session.cache)
  | addOperator draft =>
    rw [Moment.resets, perform_addOperator]
    cases draft.check <;> rfl
  | addFunction name callable arity =>
    cases callable with
    | none => rfl
    | some callable =>
      rw [Moment.resets, perform_addFunction]
      cases (FunctionDraft.mk name callable arity).check <;> rfl

/-- Every command keeps a cache in agreement with its calls. -/
theorem reflects_perform (h : session.cache.Reflects calls) (hs : session.Coherent) (ht : session.cache.TakesEntries)
    (command : Command) :
    (session.perform command).2.cache.Reflects
      (if (Moment.mk session command).resets then []
       else calls ++ (Moment.mk session command).call?.toList) := by
  rw [perform_cache]
  split
  · exact Cache.reflects_empty _
  · cases command with
    | execute text | compile text => exact reflects_compile h hs ht text
    | _ => simpa [Moment.call?] using h

section Start

variable (settings : Settings) (capacity : Option Int) (raises : Option Bool)

/-- A cache agrees with the calls of its run. -/
theorem reflects_run_start (h : ∀ n ∈ capacity.or settings.cacheCapacity, 0 ≤ n) (commands : List Command) :
    ((start settings capacity raises).run commands).2.cache.Reflects
      ((start settings capacity raises).callsSinceReset commands) := by
  induction commands using List.reverseRecOn with
  | nil =>
    obtain ⟨bindings, hs⟩ := start_eq settings raises
    rw [hs]
    exact Cache.reflects_empty (capacity.or settings.cacheCapacity)
  | append_singleton commands command ih =>
    obtain ⟨hs, ht⟩ := coherent_run_start settings capacity raises h commands
    rw [run_concat, callsSinceReset_concat]
    exact reflects_perform ih hs ht command

theorem run_capacity (commands : List Command) :
    ((start settings capacity raises).run commands).2.cache.capacity = capacity.or settings.cacheCapacity := by
  refine run_induct (P := fun session => session.cache.capacity = capacity.or settings.cacheCapacity)
    (fun session command h => (perform_capacity session command).trans h) ?_ commands
  obtain ⟨bindings, hs⟩ := start_eq settings raises
  rw [hs]
  rfl

/-- **The cache keeps the latest texts.** Behind any commands it holds the texts of the calls that succeeded since it
was last emptied, each once and in the order of their last calls, cut to the latest ones that its capacity allows. It
has counted as hits the calls whose text was among them at the time, as misses all other calls, and it never outgrows
its capacity. -/
theorem cache_eq_kept (h : ∀ n ∈ capacity.or settings.cacheCapacity, 0 ≤ n) (commands : List Command) :
    let limit := capacity.or settings.cacheCapacity
    let cache := ((start settings capacity raises).run commands).2.cache
    let calls := (start settings capacity raises).callsSinceReset commands
    cache.keys = Call.kept limit calls ∧ cache.hits = Call.hits limit calls ∧ cache.misses = Call.misses limit calls ∧
      cache.hits + cache.misses = calls.length ∧ ∀ n ∈ limit, 0 < n → (cache.entries.length : Int) ≤ n := by
  intro limit cache calls
  have hr := reflects_run_start settings capacity raises h commands
  have hc : cache.capacity = limit := run_capacity settings capacity raises commands
  have hkeys : cache.keys = Call.kept limit calls := hc ▸ hr.keys
  have hhits : cache.hits = Call.hits limit calls := hc ▸ hr.hits
  have hmisses : cache.misses = Call.misses limit calls := hc ▸ hr.misses
  refine ⟨hkeys, hhits, hmisses, ?_, fun n hn hpos => ?_⟩
  · rw [hhits, hmisses, Call.hits_add_misses]
  · have hlength : cache.entries.length = (Call.kept limit calls).length := by rw [← hkeys, Cache.keys, List.length_map]
    rw [hlength, Option.mem_def.1 hn]
    exact Call.length_kept_le hpos calls

end Start

/-- In a cache of two entries, a hit keeps its text from being dropped, a failure is not stored and a new function
empties the cache. -/
def crowding : List Command :=
  [.execute "7", .addFunction "half" (some .neg) 1, .execute "1", .compile "2", .execute "1", .compile "(1",
    .execute "3", .compile "2", .setVariable "x" (.int 1), .execute "3"]

theorem cache_eq_kept_crowding :
    (∀ n ∈ (some 2).or Settings.shipped.cacheCapacity, 0 ≤ n) ∧
    let cache := ((start .shipped (some 2) none).run crowding).2.cache
    cache.keys = ["2", "3"] ∧ cache.hits = 2 ∧ cache.misses = 5 ∧ cache.hits + cache.misses = 7 ∧
      (cache.entries.length : Int) ≤ 2 := by
  have two : ∀ n ∈ (some 2).or Settings.shipped.cacheCapacity, 0 ≤ n := by simp
  obtain ⟨hkeys, hhits, hmisses, htotal, hsize⟩ := cache_eq_kept .shipped (some 2) none two crowding
  have calls : (start .shipped (some 2) none).callsSinceReset crowding =
      [⟨"1", true⟩, ⟨"2", true⟩, ⟨"1", true⟩, ⟨"(1", false⟩, ⟨"3", true⟩, ⟨"2", true⟩, ⟨"3", true⟩] := by
    decide +kernel
  rw [calls] at hkeys hhits hmisses htotal
  exact ⟨two, hkeys, hhits, hmisses, htotal, hsize 2 rfl (by decide)⟩

end Session

end Formula
