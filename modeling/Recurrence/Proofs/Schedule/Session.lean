import Recurrence.Proofs.Schedule.Occurrences

/-!
# Sessions over named cursors

A session opens cursors under names, copies them and pulls them, in any order. Beside the table it
keeps a log, which gives every open name the direction and the date at which its line of copies was
opened and all results that were pulled along this line. The log decides nothing: it says what the
table's cursors have yielded, and the results are always the beginning of one sequence.
-/

namespace Recurrence

namespace Schedule

variable {s : Schedule} {dir : Direction} {start d e : Date} {i j : ℕ}

/-- The occurrences from a date on, each once, and after the last of them nothing for ever. -/
def stream (s : Schedule) (dir : Direction) (start : Date) (i : ℕ) : Option Date :=
  (s.occurrencesFrom dir start)[i]?

theorem before_of_stream (hij : i < j) (hi : s.stream dir start i = some d)
    (hj : s.stream dir start j = some e) : dir.Before d e := by
  obtain ⟨hilt, hi⟩ := List.getElem?_eq_some_iff.1 hi
  obtain ⟨hjlt, hj⟩ := List.getElem?_eq_some_iff.1 hj
  have hpairwise := List.pairwise_iff_getElem.1 (pairwise_occurrencesFrom s dir start)
  rw [← hi, ← hj]
  exact hpairwise i j hilt hjlt hij

theorem exists_stream_eq_some_iff :
    (∃ i, s.stream dir start i = some d) ↔ dir.Reaches start d ∧ s.occurs d = true :=
  List.mem_iff_getElem?.symm.trans mem_occurrencesFrom

theorem stream_eq_none_of_le (hij : i ≤ j) (hi : s.stream dir start i = none) :
    s.stream dir start j = none := by
  rw [stream, List.getElem?_eq_none_iff] at hi ⊢
  exact hi.trans hij

end Schedule

/-- What is known of the line of copies to which a cursor belongs. -/
structure Trace where
  direction : Direction
  start : Date
  results : List (Option Date)
  deriving DecidableEq

namespace Trace

variable {s : Schedule} {c : Cursor} {t : Trace}

/-- The cursor stands where the results end, and they are the beginning of the stream. -/
structure Follows (s : Schedule) (c : Cursor) (t : Trace) : Prop where
  results_eq : t.results = (List.range t.results.length).map (s.stream t.direction t.start)
  remaining_eq :
    c.remaining s = (s.occurrencesFrom t.direction t.start).drop t.results.length

theorem follows_ofDate (s : Schedule) (dir : Direction) (start : Date) :
    Follows s (.ofDate dir start) ⟨dir, start, []⟩ := ⟨rfl, rfl⟩

theorem Follows.pulls_eq (h : Follows s c t) (n : ℕ) :
    (c.pulls s n).1 =
      (List.range n).map fun i => s.stream t.direction t.start (t.results.length + i) := by
  rw [Cursor.pulls_fst, h.remaining_eq]
  apply List.map_congr_left
  intro i _
  exact List.getElem?_drop

theorem Follows.pulls (h : Follows s c t) (n : ℕ) :
    Follows s (c.pulls s n).2 { t with results := t.results ++ (c.pulls s n).1 } := by
  have hlength : (c.pulls s n).1.length = n := by
    rw [h.pulls_eq, List.length_map, List.length_range]
  constructor
  · dsimp only
    rw [List.length_append, hlength, List.range_add, List.map_append, ← h.results_eq,
      h.pulls_eq, List.map_map]
    rfl
  · dsimp only
    rw [Cursor.remaining_pulls, h.remaining_eq, List.drop_drop, List.length_append, hlength]

end Trace

namespace CursorTable

variable {s : Schedule} {table : CursorTable} {c : Cursor} {name copy other : String} {n : ℕ}

theorem clone_of_some (h : table.get? name = some c) :
    table.clone name copy = table.put copy c := by
  rw [clone, h]

theorem clone_of_none (h : table.get? name = none) : table.clone name copy = table := by
  rw [clone, h]

theorem pulls_of_some (h : table.get? name = some c) :
    table.pulls s name n = ((c.pulls s n).1, table.put name (c.pulls s n).2) := by
  rw [pulls, h]

theorem pulls_of_none (h : table.get? name = none) : table.pulls s name n = ([], table) := by
  rw [pulls, h]

theorem pulls_fst_congr {table' : CursorTable} (h : table.get? name = table'.get? name) :
    (table.pulls s name n).1 = (table'.pulls s name n).1 := by
  cases hc : table.get? name with
  | none => rw [pulls_of_none hc, pulls_of_none (h.symm.trans hc)]
  | some c => rw [pulls_of_some hc, pulls_of_some (h.symm.trans hc)]

theorem get?_put_of_ne (h : other ≠ name) : (table.put name c).get? other = table.get? other := by
  rw [get?_put, if_neg h]

end CursorTable

inductive Step
  | openAt (name : String) (direction : Direction) (start : Date)
  | clone (name copy : String)
  | pull (name : String) (times : ℕ)
  deriving DecidableEq

namespace Step

/-- The name under which a step changes a cursor. -/
def target : Step → String
  | openAt name _ _ => name
  | clone _ copy => copy
  | pull name _ => name

/-- The results of a step, and the table after it. -/
def apply (s : Schedule) (table : CursorTable) : Step → List (Option Date) × CursorTable
  | openAt name dir start => ([], table.put name (.ofDate dir start))
  | clone name copy => ([], table.clone name copy)
  | pull name n => table.pulls s name n

/-- The log after a step that had these results. -/
def record (results : List (Option Date)) (log : String → Option Trace) :
    Step → String → Option Trace
  | openAt name dir start => Function.update log name (some ⟨dir, start, []⟩)
  | clone name copy => if (log name).isSome then Function.update log copy (log name) else log
  | pull name _ => Function.update log name
      ((log name).map fun t => { t with results := t.results ++ results })

end Step

structure Session where
  table : CursorTable
  log : String → Option Trace

namespace Session

variable {s : Schedule} {σ : Session} {x : Step} {xs : List Step} {name : String}

def empty : Session := ⟨.empty, fun _ => none⟩

def step (s : Schedule) (σ : Session) (x : Step) : Session :=
  ⟨(x.apply s σ.table).2, x.record (x.apply s σ.table).1 σ.log⟩

def run (s : Schedule) (xs : List Step) : Session := xs.foldl (step s) empty

theorem run_concat : run s (xs ++ [x]) = step s (run s xs) x := by
  rw [run, List.foldl_concat]
  rfl

/-- Every name is open in the table and in the log, or in neither, and what is open under it
follows its trace. -/
def Faithful (s : Schedule) (σ : Session) : Prop :=
  ∀ name, Option.Rel (Trace.Follows s) (σ.table.get? name) (σ.log name)

theorem faithful_empty (s : Schedule) : Faithful s empty := fun _ => .none

theorem Faithful.closed_or_open (h : Faithful s σ) (name : String) :
    (σ.table.get? name = none ∧ σ.log name = none) ∨
      ∃ c t, σ.table.get? name = some c ∧ σ.log name = some t ∧ t.Follows s c := by
  have hname := h name
  cases hc : σ.table.get? name with
  | none =>
      cases ht : σ.log name with
      | none => exact .inl ⟨rfl, rfl⟩
      | some t =>
          rw [hc, ht] at hname
          cases hname
  | some c =>
      cases ht : σ.log name with
      | none =>
          rw [hc, ht] at hname
          cases hname
      | some t =>
          rw [hc, ht] at hname
          cases hname with
          | some hfollows => exact .inr ⟨c, t, rfl, rfl, hfollows⟩

theorem Faithful.put {c : Cursor} {t : Trace} (h : Faithful s σ) (hfollows : t.Follows s c) :
    Faithful s ⟨σ.table.put name c, Function.update σ.log name (some t)⟩ := by
  intro other
  dsimp only
  by_cases hother : other = name
  · subst hother
    rw [CursorTable.get?_put, if_pos rfl, Function.update_self]
    exact .some hfollows
  · rw [CursorTable.get?_put_of_ne hother, Function.update_of_ne hother]
    exact h other

theorem Faithful.step (h : Faithful s σ) (x : Step) : Faithful s (step s σ x) := by
  cases x with
  | openAt name dir start => exact h.put (Trace.follows_ofDate s dir start)
  | clone name copy =>
      rw [Session.step, Step.apply, Step.record]
      rcases h.closed_or_open name with ⟨hc, ht⟩ | ⟨c, t, hc, ht, hfollows⟩
      · rw [CursorTable.clone_of_none hc, ht, if_neg (by simp)]
        exact h
      · rw [CursorTable.clone_of_some hc, ht, if_pos (by simp)]
        exact h.put hfollows
  | pull name n =>
      rw [Session.step, Step.apply, Step.record]
      rcases h.closed_or_open name with ⟨hc, ht⟩ | ⟨c, t, hc, ht, hfollows⟩
      · rw [CursorTable.pulls_of_none hc, ht, Option.map_none, ← ht, Function.update_eq_self]
        exact h
      · rw [CursorTable.pulls_of_some hc, ht, Option.map_some]
        exact h.put (hfollows.pulls n)

theorem faithful_run (s : Schedule) (xs : List Step) : Faithful s (run s xs) := by
  induction xs using List.reverseRecOn with
  | nil => exact faithful_empty s
  | append_singleton xs x ih =>
      rw [run_concat]
      exact ih.step x

theorem get?_step (h : x.target ≠ name) :
    (step s σ x).table.get? name = σ.table.get? name := by
  cases x with
  | openAt opened dir start => exact CursorTable.get?_put_of_ne h.symm
  | clone origin copy =>
      rw [step, Step.apply]
      cases hc : σ.table.get? origin with
      | none => rw [CursorTable.clone_of_none hc]
      | some c =>
          rw [CursorTable.clone_of_some hc]
          exact CursorTable.get?_put_of_ne h.symm
  | pull pulled n =>
      rw [step, Step.apply]
      cases hc : σ.table.get? pulled with
      | none => rw [CursorTable.pulls_of_none hc]
      | some c =>
          rw [CursorTable.pulls_of_some hc]
          exact CursorTable.get?_put_of_ne h.symm

/-- Steps on other names leave a cursor where it stands. -/
theorem get?_run_append {more : List Step} (h : ∀ x ∈ more, x.target ≠ name) :
    (run s (xs ++ more)).table.get? name = (run s xs).table.get? name := by
  induction more using List.reverseRecOn with
  | nil => rw [List.append_nil]
  | append_singleton more x ih =>
      have hmore : ∀ y ∈ more, y.target ≠ name := by
        intro y hy
        exact h y (List.mem_append_left [x] hy)
      have hx : x.target ≠ name := h x (List.mem_append_right more (List.mem_singleton_self x))
      rw [← List.append_assoc, run_concat, get?_step hx, ih hmore]

theorem results_eq_stream (s : Schedule) (xs : List Step) (name : String) :
    ((run s xs).table.get? name).isSome = ((run s xs).log name).isSome ∧
    (∀ t, (run s xs).log name = some t →
      t.results = (List.range t.results.length).map (s.stream t.direction t.start) ∧
      ∀ n, ((run s xs).table.pulls s name n).1 =
        (List.range n).map fun i => s.stream t.direction t.start (t.results.length + i)) ∧
    (∀ more : List Step, (∀ x ∈ more, x.target ≠ name) → ∀ n,
      ((run s (xs ++ more)).table.pulls s name n).1 = ((run s xs).table.pulls s name n).1) ∧
    ∀ dir start,
      (∀ i j d e, i < j → s.stream dir start i = some d → s.stream dir start j = some e →
        dir.Before d e) ∧
      (∀ d, (∃ i, s.stream dir start i = some d) ↔ dir.Reaches start d ∧ s.occurs d = true) ∧
      ∀ i j, i ≤ j → s.stream dir start i = none → s.stream dir start j = none := by
  refine ⟨?_, ?_, ?_, fun dir start => ⟨?_, ?_, ?_⟩⟩
  · rcases (faithful_run s xs).closed_or_open name with ⟨hc, ht⟩ | ⟨c, t, hc, ht, -⟩
    · rw [hc, ht, Option.isSome_none, Option.isSome_none]
    · rw [hc, ht, Option.isSome_some, Option.isSome_some]
  · intro t ht
    rcases (faithful_run s xs).closed_or_open name with ⟨-, hclosed⟩ | ⟨c, u, hc, hu, hfollows⟩
    · rw [hclosed] at ht
      cases ht
    · obtain rfl : u = t := Option.some.inj (hu.symm.trans ht)
      refine ⟨hfollows.results_eq, fun n => ?_⟩
      rw [CursorTable.pulls_of_some hc]
      exact hfollows.pulls_eq n
  · intro more hmore n
    exact CursorTable.pulls_fst_congr (get?_run_append hmore)
  · intro i j d e
    exact Schedule.before_of_stream
  · intro d
    exact Schedule.exists_stream_eq_some_iff
  · intro i j
    exact Schedule.stream_eq_none_of_le

/-- Every other week on the weekday of the last date. -/
def lastFortnights : Schedule := ⟨[⟨.weekly (.everyNth 2 .last Nat.two_pos), 1, by decide⟩]⟩

def copyAtEnd : List Step :=
  [.openAt "end" .forward .last, .pull "end" 1, .clone "end" "copy", .pull "end" 1]

theorem results_eq_stream_copyAtEnd :
    (run lastFortnights copyAtEnd).log "copy" = some ⟨.forward, .last, [some .last]⟩ ∧
      ((run lastFortnights (copyAtEnd ++ [.pull "end" 3])).table.pulls lastFortnights "copy" 2).1 =
        [lastFortnights.stream .forward .last 1, lastFortnights.stream .forward .last 2] := by
  obtain ⟨-, hpulls, hframe, -⟩ := results_eq_stream lastFortnights copyAtEnd "copy"
  have hlog : (run lastFortnights copyAtEnd).log "copy" =
      some ⟨.forward, .last, [some .last]⟩ := by decide +kernel
  exact ⟨hlog, (hframe [.pull "end" 3] (by decide) 2).trans ((hpulls _ hlog).2 2)⟩

end Session

end Recurrence
