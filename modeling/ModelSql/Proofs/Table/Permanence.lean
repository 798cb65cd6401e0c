import Mathlib.Data.Finset.Card
import ModelSql.Proofs.Lists
import ModelSql.Proofs.Table.Sharing
/-!
# Permanent tables

A cache only grows, by a table that was built for a key it did not hold. So a table that
has been served stays where it is: it is served again for its model and stands in the way
of any other model under its key, whatever is requested in between. What the cache holds
is what it has served.

* `Cache.Publishes`, `Cache.Step.grows`: when and how a request adds an entry;
* `Cache.Step.entries_iff`, `Cache.run_entries_iff`: what is held after a request and a run;
* `Cache.Sound.request_held`: the answer under a key that is held;
* `Cache.published_tables_stay`: the answers and the size along a run.
-/

namespace ModelSql

namespace Cache

/-- The request adds the table: its key is not held, and its build gives the table. -/
def Publishes (c : Cache) (r : CacheRequest) (t : Table) : Prop :=
  (∀ m t, ¬ c.Holds r.key m t) ∧ r.model.build r.engine r.tableName c.settings = .ok t

/-- The keys of the requests that were answered with a table. -/
def servedKeys (requests : List CacheRequest) (answers : List (Except Fault CachedTable)) :
    List CacheKey :=
  (requests.zip answers).filterMap fun (r, answer) => answer.toOption.map fun _ => r.key

section
variable {c : Cache} {r : CacheRequest} {outcome : Except Fault CachedTable × Cache}

/-! ## One request -/

/-- A request that fails leaves no trace. -/
theorem Step.of_error (h : c.Step r outcome) {fault : Fault} (failed : outcome.1 = .error fault) :
    outcome.2 = c := by
  cases h with
  | hit | conflict | failed => rfl
  | added => cases failed

/-- A request adds its table at the end, or nothing. -/
theorem Step.grows (h : c.Step r outcome) :
    (∃ t, c.Publishes r t ∧
      outcome.2 = { c with entries := c.entries ++ [⟨r.key, r.model, t⟩] }) ∨
    (∀ t, ¬ c.Publishes r t) ∧ outcome.2 = c := by
  cases h with
  | hit held =>
    have holds := List.mem_of_getElem? held
    exact .inr ⟨fun t publishes => publishes.1 _ _ holds, rfl⟩
  | conflict holds => exact .inr ⟨fun t publishes => publishes.1 _ _ holds, rfl⟩
  | failed absent failed =>
    refine .inr ⟨?_, rfl⟩
    rintro t ⟨-, built⟩
    rw [failed] at built
    cases built
  | added absent built => exact .inl ⟨_, ⟨absent, built⟩, rfl⟩

/-- The cache grows by one entry or not at all. -/
theorem Step.size_iff (h : c.Step r outcome) :
    outcome.2.size = c.size + 1 ↔ ∃ t, c.Publishes r t := by
  obtain ⟨t, publishes, next⟩ | ⟨none, next⟩ := h.grows
  · simp [next, size, Exists.intro t publishes]
  · simp [next, none]

/-- After a request the cache holds what it held and what it has served, at its place. -/
theorem Step.entries_iff (h : c.Step r outcome) {place : Nat} {e : CacheEntry} :
    outcome.2.entries[place]? = some e ↔
      c.entries[place]? = some e ∨
      ∃ s, outcome.1 = .ok s ∧ s.place = place ∧ e = ⟨r.key, r.model, s.table⟩ := by
  cases h with
  | @hit found t held =>
    constructor
    · exact Or.inl
    · rintro (there | ⟨s, served, rfl, rfl⟩)
      · exact there
      · cases served
        exact held
  | conflict | failed => simp
  | @added t absent built =>
    rw [getElem?_concat_eq_some_iff]
    constructor
    · rintro (there | ⟨rfl, rfl⟩)
      · exact .inl there
      · exact .inr ⟨_, rfl, rfl, rfl⟩
    · rintro (there | ⟨s, served, rfl, rfl⟩)
      · exact .inl there
      · cases served
        exact .inr ⟨rfl, rfl⟩

/-- No two places are held under one key. -/
theorem Sound.place_unique (sound : c.Sound) {i j : Nat} {e e' : CacheEntry}
    (h : c.entries[i]? = some e) (h' : c.entries[j]? = some e') (same : e.key = e'.key) :
    i = j := by
  have inside : i < (c.entries.map (·.key)).length := by
    rw [List.length_map]
    exact (List.getElem?_eq_some_iff.mp h).1
  apply (List.getElem?_inj inside sound.distinct).mp
  rw [List.getElem?_map, List.getElem?_map, h, h', Option.map_some, Option.map_some, same]

/-- Under a key that is held, its model gets the table that is held and others are refused. -/
theorem Sound.request_held (sound : c.Sound) {place : Nat} {m : Model} {t : Table}
    (held : c.entries[place]? = some ⟨r.key, m, t⟩) :
    c.request r =
      (if r.model = m then .ok ⟨place, t⟩ else .error (.conflictingModelKey r.model.cacheKey),
        c) := by
  have holds : c.Holds r.key m t := List.mem_of_getElem? held
  have step := c.step_request r
  generalize c.request r = outcome at step
  cases step with
  | hit found =>
    obtain rfl := sound.place_unique found held rfl
    cases found.symm.trans held
    simp
  | conflict other different =>
    obtain ⟨rfl, -⟩ := sound.unique holds other
    simp only [different.symm, if_false]
    rfl
  | failed absent | added absent => exact absurd holds (absent m t)

end

/-! ## Runs -/

theorem run_append (c : Cache) (xs ys : List CacheRequest) :
    (c.run (xs ++ ys)).2 = ((c.run xs).2.run ys).2 := by
  induction xs generalizing c with
  | nil => rfl
  | cons x xs ih => exact ih (c.request x).2

/-- Each request of a run is answered by the cache that the requests before it leave. -/
theorem run_getElem? (c : Cache) (requests : List CacheRequest) (i : Nat) :
    (c.run requests).1[i]? =
      requests[i]?.map fun r => ((c.run (requests.take i)).2.request r).1 := by
  induction requests generalizing c i with
  | nil => rfl
  | cons first rest ih =>
    cases i with
    | zero => rfl
    | succ i => exact ih (c.request first).2 i

/-- After a run the cache holds what it held and what it has served, at its place. -/
theorem run_entries_iff (c : Cache) (requests : List CacheRequest) {place : Nat}
    {e : CacheEntry} :
    (c.run requests).2.entries[place]? = some e ↔
      c.entries[place]? = some e ∨
      ∃ r s, (r, .ok s) ∈ requests.zip (c.run requests).1 ∧ s.place = place ∧
        e = ⟨r.key, r.model, s.table⟩ := by
  induction requests generalizing c with
  | nil => simp [run]
  | cons first rest ih =>
    have later := ih (c.request first).2
    rw [(c.step_request first).entries_iff, or_assoc] at later
    refine later.trans (or_congr_right ?_)
    have answers : (c.run (first :: rest)).1 =
        (c.request first).1 :: ((c.request first).2.run rest).1 := rfl
    rw [answers, List.zip_cons_cons]
    constructor
    · rintro (⟨s, served, there⟩ | ⟨r, s, mem, there⟩)
      · refine ⟨first, s, ?_, there⟩
        rw [served]
        exact List.mem_cons_self
      · exact ⟨r, s, List.mem_cons_of_mem _ mem, there⟩
    · rintro ⟨r, s, mem, there⟩
      obtain same | mem := List.mem_cons.mp mem
      · obtain ⟨rfl, served⟩ := Prod.mk.inj same
        exact .inl ⟨s, served.symm, there⟩
      · exact .inr ⟨r, s, mem, there⟩

/-- A table that has been served is held at its place from then on. -/
theorem Step.stays {c : Cache} {r : CacheRequest} {outcome : Except Fault CachedTable × Cache}
    (h : c.Step r outcome) {s : CachedTable} (served : outcome.1 = .ok s)
    (between : List CacheRequest) :
    (outcome.2.run between).2.entries[s.place]? = some ⟨r.key, r.model, s.table⟩ := by
  have held := h.entries_iff.mpr (.inr ⟨s, served, rfl, rfl⟩)
  exact (run_entries_iff outcome.2 between).mpr (.inl held)

/-- A cache that was empty holds what it has served, at its place. -/
theorem served_iff (settings : Settings) (requests : List CacheRequest) {place : Nat}
    {e : CacheEntry} :
    (run { settings } requests).2.entries[place]? = some e ↔
      ∃ r s, (r, .ok s) ∈ requests.zip (run { settings } requests).1 ∧ s.place = place ∧
        e = ⟨r.key, r.model, s.table⟩ := by
  rw [run_entries_iff]
  simp

theorem mem_servedKeys {requests : List CacheRequest}
    {answers : List (Except Fault CachedTable)} {key : CacheKey} :
    key ∈ servedKeys requests answers ↔
      ∃ r s, (r, .ok s) ∈ requests.zip answers ∧ r.key = key := by
  simp only [servedKeys, List.mem_filterMap]
  constructor
  · rintro ⟨⟨r, answer⟩, mem, found⟩
    cases answer with
    | error fault => cases found
    | ok s => exact ⟨r, s, mem, Option.some.inj found⟩
  · rintro ⟨r, s, mem, rfl⟩
    exact ⟨(r, .ok s), mem, rfl⟩

/-- There are as many entries as keys that have been served. -/
theorem size_eq_card (settings : Settings) (requests : List CacheRequest) :
    (run { settings } requests).2.size =
      (servedKeys requests (run { settings } requests).1).toFinset.card := by
  have sound := (sound_empty settings).run requests
  have keys : (servedKeys requests (run { settings } requests).1).toFinset =
      ((run { settings } requests).2.entries.map (·.key)).toFinset := by
    ext key
    rw [List.mem_toFinset, List.mem_toFinset, mem_servedKeys, List.mem_map]
    constructor
    · rintro ⟨r, s, mem, rfl⟩
      have held := (served_iff settings requests).mpr ⟨r, s, mem, rfl, rfl⟩
      exact ⟨_, List.mem_of_getElem? held, rfl⟩
    · rintro ⟨e, present, rfl⟩
      obtain ⟨place, held⟩ := List.mem_iff_getElem?.mp present
      obtain ⟨r, s, served, -, rfl⟩ := (served_iff settings requests).mp held
      exact ⟨r, s, served, rfl⟩
  rw [keys, List.toFinset_card_of_nodup sound.distinct, List.length_map]
  rfl

/-- Each answer is that to a request. -/
theorem exists_request {c : Cache} {requests : List CacheRequest}
    {answer : Except Fault CachedTable} (h : answer ∈ (c.run requests).1) :
    ∃ r, (r, answer) ∈ requests.zip (c.run requests).1 := by
  induction requests generalizing c with
  | nil => cases h
  | cons first rest ih =>
    obtain rfl | h := List.mem_cons.mp h
    · exact ⟨first, List.mem_cons_self⟩
    · obtain ⟨r, mem⟩ := ih h
      exact ⟨r, List.mem_cons_of_mem _ mem⟩

/-- A table is served at a place that no earlier answer has exactly if it was added. -/
theorem new_place_iff (settings : Settings) (before : List CacheRequest) (r : CacheRequest)
    {s : CachedTable} (served : ((run { settings } before).2.request r).1 = .ok s) :
    (∀ s', .ok s' ∈ (run { settings } before).1 → s'.place ≠ s.place) ↔
      (run { settings } before).2.size < ((run { settings } before).2.request r).2.size := by
  have step := (run { settings } before).2.step_request r
  generalize (run { settings } before).2.request r = outcome at step served
  cases step with
  | hit held =>
    cases served
    obtain ⟨r', s', mem, same, -⟩ := (served_iff settings before).mp held
    have earlier : .ok s' ∈ (run { settings } before).1 := (List.of_mem_zip mem).2
    constructor
    · intro fresh
      exact absurd same (fresh s' earlier)
    · intro grew
      exact absurd grew (Nat.lt_irrefl _)
  | conflict | failed => cases served
  | added absent built =>
    cases served
    constructor
    · intro _
      simp [size]
    · intro _ s' earlier same
      obtain ⟨r', mem⟩ := exists_request earlier
      have held := (served_iff settings before).mpr ⟨r', s', mem, rfl, rfl⟩
      exact absurd same (Nat.ne_of_lt (List.getElem?_eq_some_iff.mp held).1)

end Cache

/-- Along a run, a table that has been served is served again, as the same object, whenever
its model is requested under its key, and any other model under its key is refused. A
request that fails leaves the cache as it was. One whose key is not held and whose build
succeeds adds its entry at the end, and no other changes the cache. So there are as many
entries as keys that have been served, and an object is new exactly if the cache grew. -/
theorem Cache.published_tables_stay (settings : Settings) (before : List CacheRequest)
    (r : CacheRequest) (after : List CacheRequest) :
    let earlier := (run { settings } before).1
    let c := (run { settings } before).2
    let c' := (run { settings } (before ++ [r])).2
    let answers := (run { settings } (before ++ r :: after)).1
    ∃ answer, answers[before.length]? = some answer ∧
      (∀ served, answer = .ok served →
        ∀ (i : Nat) later, after[i]? = some later → later.key = r.key →
          answers[before.length + 1 + i]? =
            some (if later.model = r.model then .ok served
              else .error (.conflictingModelKey later.model.cacheKey))) ∧
      (∀ fault, answer = .error fault → c' = c) ∧
      ((∃ t, c.Publishes r t ∧
          c' = { c with entries := c.entries ++ [⟨r.key, r.model, t⟩] }) ∨
        (∀ t, ¬ c.Publishes r t) ∧ c' = c) ∧
      (c'.size = c.size + 1 ↔ ∃ t, c.Publishes r t) ∧
      c.size = (servedKeys before earlier).toFinset.card ∧
      (∀ served, answer = .ok served →
        ((∀ s, .ok s ∈ earlier → s.place ≠ served.place) ↔ c.size < c'.size)) := by
  intro earlier c c' answers
  have next : c' = (c.request r).2 := run_append { settings } before [r]
  have step := c.step_request r
  refine ⟨(c.request r).1, run_answer { settings } before r after, ?_, ?_⟩
  · intro served answered i later there same
    have position : (before ++ r :: after)[before.length + 1 + i]? = some later := by
      rw [List.getElem?_append_right (by omega),
        show before.length + 1 + i - before.length = i + 1 by omega, List.getElem?_cons_succ,
        there]
    have prior : (before ++ r :: after).take (before.length + 1 + i) =
        before ++ r :: after.take i := by
      rw [Nat.add_assoc, Nat.add_comm 1, List.take_length_add_append, List.take_succ_cons]
    have sound := (sound_empty settings).run (before ++ r :: after.take i)
    have held : (run { settings } (before ++ r :: after.take i)).2.entries[served.place]? =
        some ⟨later.key, r.model, served.table⟩ := by
      rw [run_append, same]
      exact step.stays answered (after.take i)
    rw [run_getElem?, position, prior, Option.map_some, sound.request_held held]
  · rw [next]
    exact ⟨fun fault failed => step.of_error failed, step.grows, step.size_iff,
      size_eq_card settings before,
      fun served answered => new_place_iff settings before r answered⟩

/-- A model without fields fails under a key of its own and conflicts under that of another;
neither keeps the table from being served again. -/
theorem Cache.published_tables_stay_invoice :
    let invoice : CacheRequest := { model := invoiceModel, engine := .sqlServer }
    let broken : CacheRequest := { model := { name := "Broken" }, engine := .sqlServer }
    let other : CacheRequest := { model := { name := "Invoice" }, engine := .sqlServer }
    let answers := (run {} [invoice, broken, other, invoice]).1
    answers[0]? = some (.ok ⟨0, invoiceTable⟩) ∧
      answers[2]? = some (.error (.conflictingModelKey "Invoice")) ∧
      answers[3]? = some (.ok ⟨0, invoiceTable⟩) := by
  intro invoice broken other answers
  have first : answers[0]? = some (.ok ⟨0, invoiceTable⟩) := by
    have built : invoice.model.build invoice.engine invoice.tableName {} = .ok invoiceTable :=
      build_invoice
    simp [answers, run, request, lookup?, publish, find?, built]
  obtain ⟨answer, answered, again, -⟩ :=
    published_tables_stay {} [] invoice [broken, other, invoice]
  have served : answer = .ok ⟨0, invoiceTable⟩ := Option.some.inj (answered.symm.trans first)
  exact ⟨first, again _ served 1 other rfl rfl, again _ served 2 invoice rfl rfl⟩

end ModelSql
