import ModelSql.Proofs.Table.Misconfiguration
import ModelSql.Table.Cache
/-!
# Shared tables

A cache answers as if it built every table anew, except that it refuses a request
under a key that it holds for another model. What it holds was built for the key
under which it is held, and each request keeps it so.

* `Cache.Step`: what a request does, in four cases;
* `Cache.publish_after_run`: a table is published as if it had been requested only then;
* `Cache.Step.sound`, `Cache.Sound.run`: the invariant, over one request and over a run;
* `Cache.run_transparent`: the answers of a run.
-/

namespace ModelSql

namespace Cache

/-- The cache holds the model and its table under the key. -/
def Holds (c : Cache) (key : CacheKey) (m : Model) (t : Table) : Prop :=
  ⟨key, m, t⟩ ∈ c.entries

/-- The cache holds another model under the key of the request. -/
def Conflicts (c : Cache) (r : CacheRequest) : Prop :=
  ∃ m t, c.Holds r.key m t ∧ m ≠ r.model

/-- What a request does: the answer, and the cache after it. -/
inductive Step (c : Cache) (r : CacheRequest) : Except Fault CachedTable × Cache → Prop where
  | hit {place : Nat} {t : Table} : c.entries[place]? = some ⟨r.key, r.model, t⟩ →
      Step c r (.ok ⟨place, t⟩, c)
  | conflict {m : Model} {t : Table} : c.Holds r.key m t → m ≠ r.model →
      Step c r (.error (.conflictingModelKey r.key.model), c)
  | failed {fault : Fault} : (∀ m t, ¬ c.Holds r.key m t) →
      r.model.build r.engine r.tableName c.settings = .error fault →
      Step c r (.error fault, c)
  | added {t : Table} : (∀ m t, ¬ c.Holds r.key m t) →
      r.model.build r.engine r.tableName c.settings = .ok t →
      Step c r
        (.ok ⟨c.entries.length, t⟩, { c with entries := c.entries ++ [⟨r.key, r.model, t⟩] })

section
variable {c : Cache} {key : CacheKey}

theorem find?_eq_some {place : Nat} {entry : CacheEntry} (h : c.find? key = some (place, entry)) :
    c.entries[place]? = some entry ∧ entry.key = key := by
  obtain ⟨found, hfound, h⟩ := Option.bind_eq_some_iff.mp h
  obtain ⟨entry', hentry, same⟩ := Option.map_eq_some_iff.mp h
  cases same
  obtain ⟨bound, own, -⟩ := List.findIdx?_eq_some_iff_getElem.mp hfound
  obtain ⟨_, rfl⟩ := List.getElem?_eq_some_iff.mp hentry
  exact ⟨hentry, of_decide_eq_true own⟩

theorem find?_eq_none (h : c.find? key = none) (m : Model) (t : Table) : ¬ c.Holds key m t := by
  intro holds
  cases hfound : c.entries.findIdx? (·.key = key) with
  | none => simpa using List.findIdx?_eq_none_iff.mp hfound _ holds
  | some place =>
    obtain ⟨bound, -⟩ := List.findIdx?_eq_some_iff_getElem.mp hfound
    simp [find?, hfound, List.getElem?_eq_getElem bound] at h

end

section
variable {c : Cache} {r : CacheRequest}

theorem step_of_lookup? {answer : Except Fault CachedTable} (h : c.lookup? r = some answer) :
    c.Step r (answer, c) := by
  obtain ⟨⟨place, ⟨key, m, t⟩⟩, found, rfl⟩ := Option.map_eq_some_iff.mp h
  obtain ⟨held, rfl⟩ := find?_eq_some found
  by_cases same : m = r.model
  · subst same
    simp only [if_true]
    exact .hit held
  · simp only [same, if_false]
    exact .conflict (List.mem_of_getElem? held) same

theorem lookup?_eq_none (h : c.lookup? r = none) (m : Model) (t : Table) :
    ¬ c.Holds r.key m t :=
  find?_eq_none (Option.map_eq_none_iff.mp h) m t

theorem step_publish {t : Table} (built : r.model.build r.engine r.tableName c.settings = .ok t) :
    c.Step r (c.publish r t) := by
  unfold publish
  cases found : c.lookup? r with
  | some answer => exact step_of_lookup? found
  | none => exact .added (lookup?_eq_none found) built

theorem step_request (c : Cache) (r : CacheRequest) : c.Step r (c.request r) := by
  unfold request
  cases found : c.lookup? r with
  | some answer => exact step_of_lookup? found
  | none =>
    simp only
    split
    · rename_i fault failed
      exact .failed (lookup?_eq_none found) failed
    · rename_i t built
      exact step_publish built

/-- If the table of a request is built, what the cache holds when it is published decides. -/
theorem publish_eq_request {t : Table}
    (built : r.model.build r.engine r.tableName c.settings = .ok t) :
    c.publish r t = c.request r := by
  rw [request, built]
  cases found : c.lookup? r with
  | some answer => rw [publish, found]
  | none => rfl

end

/-- What a cache holds was built for the key under which it is held, and is held there alone. -/
structure Sound (c : Cache) : Prop where
  built : ∀ key m t, c.Holds key m t →
    m.cacheKey = key.model ∧ m.build key.engine key.tableName c.settings = .ok t
  distinct : (c.entries.map (·.key)).Nodup

theorem sound_empty (settings : Settings) : Sound { settings } :=
  ⟨fun _ _ _ holds => (List.not_mem_nil holds).elim, List.nodup_nil⟩

section
variable {c : Cache} {r : CacheRequest} {outcome : Except Fault CachedTable × Cache}

theorem Step.settings_eq (h : c.Step r outcome) : outcome.2.settings = c.settings := by
  cases h with
  | hit | conflict | failed | added => rfl

/-- A request keeps the cache sound: what it adds was built for its key, which is new. -/
theorem Step.sound (h : c.Step r outcome) (sound : c.Sound) : outcome.2.Sound := by
  cases h with
  | hit | conflict | failed => exact sound
  | @added t absent fresh =>
    constructor
    · intro key m t' holds
      obtain holds | same := List.mem_append.mp holds
      · exact sound.built key m t' holds
      · cases List.mem_singleton.mp same
        exact ⟨rfl, fresh⟩
    · have unused : r.key ∉ c.entries.map (·.key) := by
        intro used
        obtain ⟨⟨_, m, t'⟩, held, rfl⟩ := List.mem_map.mp used
        exact absent m t' held
      rw [List.map_append, List.map_singleton, List.nodup_append']
      exact ⟨sound.distinct, List.nodup_singleton _, List.disjoint_singleton.mpr unused⟩

/-- The entry of a key is the only one. -/
theorem Sound.unique (sound : c.Sound) {key : CacheKey} {m m' : Model} {t t' : Table}
    (h : c.Holds key m t) (h' : c.Holds key m' t') : m = m' ∧ t = t' := by
  have same : (⟨key, m, t⟩ : CacheEntry) = ⟨key, m', t'⟩ :=
    List.inj_on_of_nodup_map sound.distinct h h' rfl
  cases same
  exact ⟨rfl, rfl⟩

/-- A conflict is answered as such. -/
theorem Step.conflicting (h : c.Step r outcome) (sound : c.Sound) (conflicts : c.Conflicts r) :
    outcome.1 = .error (.conflictingModelKey r.model.cacheKey) := by
  obtain ⟨m, t, holds, other⟩ := conflicts
  cases h with
  | hit held => exact absurd (sound.unique holds (List.mem_of_getElem? held)).1 other
  | conflict => rfl
  | failed absent | added absent => exact absurd holds (absent m t)

/-- Without a conflict the answer is what a build gives. -/
theorem Step.transparent (h : c.Step r outcome) (sound : c.Sound) (agrees : ¬ c.Conflicts r) :
    outcome.1.map (·.table) = r.model.build r.engine r.tableName c.settings := by
  cases h with
  | @hit place t held =>
    obtain ⟨-, built⟩ := sound.built r.key r.model t (List.mem_of_getElem? held)
    exact built.symm
  | conflict holds other => exact absurd ⟨_, _, holds, other⟩ agrees
  | failed _ failed => exact failed.symm
  | added _ built => exact built.symm

end

/-! ## Runs -/

theorem run_settings (c : Cache) (requests : List CacheRequest) :
    (c.run requests).2.settings = c.settings := by
  induction requests generalizing c with
  | nil => rfl
  | cons r rest ih => exact (ih (c.request r).2).trans (c.step_request r).settings_eq

/-- Look-up, build and publication make a request, whatever is requested in between: a table is
published as if it had been requested only then. -/
theorem publish_after_run {c : Cache} {r : CacheRequest} {t : Table}
    (built : r.model.build r.engine r.tableName c.settings = .ok t)
    (between : List CacheRequest) :
    (c.run between).2.publish r t = (c.run between).2.request r := by
  rw [← c.run_settings between] at built
  exact publish_eq_request built

/-- A run keeps the cache sound. -/
theorem Sound.run {c : Cache} (sound : c.Sound) (requests : List CacheRequest) :
    (c.run requests).2.Sound := by
  induction requests generalizing c with
  | nil => exact sound
  | cons r rest ih => exact ih ((c.step_request r).sound sound)

/-- A request within a run is answered by the cache that the requests before it leave. -/
theorem run_answer (c : Cache) (before : List CacheRequest) (r : CacheRequest)
    (after : List CacheRequest) :
    (c.run (before ++ r :: after)).1[before.length]? = some ((c.run before).2.request r).1 := by
  induction before generalizing c with
  | nil => rfl
  | cons first before ih => exact ih (c.request first).2

end Cache

/-- A build never reports a conflict of keys. -/
theorem Model.build_ne_conflict (m : Model) (engine : Engine) (override : Option String)
    (settings : Settings) (key : String) :
    m.build engine override settings ≠ .error (.conflictingModelKey key) := by
  intro failed
  obtain ⟨t, built, -⟩ | ⟨fault, reported, reports⟩ := m.build_spec engine override settings
  · rw [built] at failed
    cases failed
  · rw [reported] at failed
    cases failed
    cases reports with
    | field refused =>
      obtain ⟨_, _, _, _, breaks, _⟩ := refused
      cases breaks

/-- In every state of a run the cache holds what builds give, and each request is answered
as a build would, unless the cache holds another model under its key. -/
theorem Cache.run_transparent (settings : Settings) (before : List CacheRequest)
    (r : CacheRequest) (after : List CacheRequest) :
    let c := (run { settings } before).2
    c.settings = settings ∧ c.Sound ∧
    ∃ answer, (run { settings } (before ++ r :: after)).1[before.length]? = some answer ∧
      (c.Conflicts r ↔ ∃ key, answer = .error (.conflictingModelKey key)) ∧
      (c.Conflicts r → answer = .error (.conflictingModelKey r.model.cacheKey)) ∧
      (¬ c.Conflicts r →
        answer.map (·.table) = r.model.build r.engine r.tableName settings) ∧
      ∀ served, answer = .ok served →
        r.model.build r.engine r.tableName settings = .ok served.table := by
  intro c
  have hsettings : c.settings = settings := run_settings { settings } before
  have sound : c.Sound := (sound_empty settings).run before
  have step := c.step_request r
  have conflicting := step.conflicting sound
  have transparent := step.transparent sound
  rw [hsettings] at transparent
  refine ⟨hsettings, sound, (c.request r).1, run_answer { settings } before r after, ?_,
    conflicting, transparent, ?_⟩
  · constructor
    · intro conflicts
      exact ⟨_, conflicting conflicts⟩
    · rintro ⟨key, refused⟩
      by_contra agrees
      have built := transparent agrees
      rw [refused] at built
      exact r.model.build_ne_conflict r.engine r.tableName settings key built.symm
  · intro served answered
    have agrees : ¬ c.Conflicts r := by
      intro conflicts
      rw [conflicting conflicts] at answered
      cases answered
    have built := transparent agrees
    rw [answered] at built
    exact built.symm

end ModelSql
