import ModelSql.Proofs.Table.Permanence
/-!
# Reordered requests

What a request is answered with, apart from the place of the table, depends on the cache
only through what is held under its own key. Requests under other keys do not change that,
and one for the same model does not either. So such requests can change places: both get
what they got, and the cache holds the same in the end, in another order at most.

* `Cache.request_unaffected`: a request before another leaves the answer as it is;
* `Cache.exchange`: what two requests leave, in either order;
* `Cache.run_content`, `Cache.run_perm`: the answers and the cache of a reordered run;
* `Cache.independent_requests_commute`: these from every state of a run.
-/

namespace ModelSql

/-- What a request is answered with: a fault, or a table whatever its place is. -/
def answerContent (answer : Except Fault CachedTable) : Except Fault Table :=
  answer.map (·.table)

/-- The keys of the requests differ, or their models are equal. -/
def CacheRequest.Independent (a b : CacheRequest) : Prop := a.key ≠ b.key ∨ a.model = b.model

/-- Requests for equal models under one key are equal. -/
theorem CacheRequest.eq_of_key {a b : CacheRequest} (key : a.key = b.key)
    (model : a.model = b.model) : a = b := by
  obtain ⟨m, engine, tableName⟩ := a
  obtain ⟨m', engine', tableName'⟩ := b
  obtain rfl : m = m' := model
  obtain ⟨-, rfl, rfl⟩ := CacheKey.mk.inj key
  rfl

/-- Requests under one key are for one model. -/
def OneModelPerKey (requests : List CacheRequest) : Prop :=
  ∀ a ∈ requests, ∀ b ∈ requests, a.key = b.key → a.model = b.model

namespace Cache

/-- The caches hold the same under each key, with the same settings. -/
structure SameContent (c c' : Cache) : Prop where
  settings : c.settings = c'.settings
  holds_iff {key : CacheKey} {m : Model} {t : Table} : c.Holds key m t ↔ c'.Holds key m t

theorem SameContent.refl (c : Cache) : c.SameContent c := ⟨rfl, .rfl⟩

theorem SameContent.trans {c c' c'' : Cache} (h : c.SameContent c') (h' : c'.SameContent c'') :
    c.SameContent c'' :=
  ⟨h.settings.trans h'.settings, h.holds_iff.trans h'.holds_iff⟩

/-- Caches of the same content differ in the order of their entries at most. -/
theorem SameContent.perm {c c' : Cache} (h : c.SameContent c') (sound : c.Sound)
    (sound' : c'.Sound) : c.entries.Perm c'.entries := by
  apply (List.perm_ext_iff_of_nodup sound.distinct.of_map sound'.distinct.of_map).mpr
  rintro ⟨key, m, t⟩
  exact h.holds_iff

/-! ## What a request changes -/

section
variable {c c' : Cache} {r : CacheRequest}

/-- What is held after a request was held before, or has been added by it. -/
theorem holds_request_iff {key : CacheKey} {m : Model} {t : Table} :
    (c.request r).2.Holds key m t ↔
      c.Holds key m t ∨ c.Publishes r t ∧ key = r.key ∧ m = r.model := by
  obtain ⟨t', publishes, next⟩ | ⟨none, next⟩ := (c.step_request r).grows
  · rw [next, Holds, Holds, List.mem_append, List.mem_singleton]
    refine or_congr_right ?_
    constructor
    · intro same
      cases same
      exact ⟨publishes, rfl, rfl⟩
    · rintro ⟨⟨-, built⟩, rfl, rfl⟩
      cases publishes.2.symm.trans built
      rfl
  · rw [next]
    constructor
    · exact Or.inl
    · rintro (holds | ⟨publishes, -⟩)
      · exact holds
      · exact absurd publishes (none t)

theorem settings_request (c : Cache) (r : CacheRequest) :
    (c.request r).2.settings = c.settings :=
  (c.step_request r).settings_eq

/-- What a request adds depends on the settings and on whether its key is held. -/
theorem publishes_congr (settings : c.settings = c'.settings)
    (held : ∀ m t, c.Holds r.key m t ↔ c'.Holds r.key m t) {t : Table} :
    c.Publishes r t ↔ c'.Publishes r t := by
  simp only [Publishes, held, settings]

/-- A request changes caches of the same content alike. -/
theorem SameContent.request (h : c.SameContent c') (r : CacheRequest) :
    (c.request r).2.SameContent (c'.request r).2 := by
  refine ⟨?_, ?_⟩
  · rw [settings_request, settings_request, h.settings]
  · intro key m t
    have publishes : c.Publishes r t ↔ c'.Publishes r t :=
      publishes_congr h.settings fun _ _ => h.holds_iff
    rw [holds_request_iff, holds_request_iff, h.holds_iff, publishes]

theorem SameContent.run (h : c.SameContent c') (requests : List CacheRequest) :
    (c.run requests).2.SameContent (c'.run requests).2 := by
  induction requests generalizing c c' with
  | nil => exact h
  | cons r rest ih => exact ih (h.request r)

/-- The content of an answer depends on the settings and on whether there is a conflict. -/
theorem answer_congr (sound : c.Sound) (sound' : c'.Sound) (settings : c.settings = c'.settings)
    (conflicts : c.Conflicts r ↔ c'.Conflicts r) :
    answerContent (c.request r).1 = answerContent (c'.request r).1 := by
  by_cases refused : c.Conflicts r
  · rw [(c.step_request r).conflicting sound refused,
      (c'.step_request r).conflicting sound' (conflicts.mp refused)]
  · have built := (c.step_request r).transparent sound refused
    have built' := (c'.step_request r).transparent sound' fun h => refused (conflicts.mpr h)
    rw [← settings] at built'
    exact built.trans built'.symm

end

/-! ## One request before another -/

section
variable {c : Cache} {a b : CacheRequest}

/-- A request under another key or for the same model causes no conflict. -/
theorem conflicts_unaffected (independent : a.Independent b) :
    (c.request a).2.Conflicts b ↔ c.Conflicts b := by
  constructor
  · rintro ⟨m, t, holds, other⟩
    obtain holds | ⟨-, key, rfl⟩ := holds_request_iff.mp holds
    · exact ⟨m, t, holds, other⟩
    · obtain apart | same := independent
      · exact absurd key.symm apart
      · exact absurd same other
  · rintro ⟨m, t, holds, other⟩
    exact ⟨m, t, holds_request_iff.mpr (.inl holds), other⟩

/-- A request before another leaves the content of its answer as it is. -/
theorem request_unaffected (sound : c.Sound) (independent : a.Independent b) :
    answerContent ((c.request a).2.request b).1 = answerContent (c.request b).1 :=
  answer_congr ((c.step_request a).sound sound) sound (settings_request c a)
    (conflicts_unaffected independent)

/-- A request under another key leaves what is held under a key, and so what is added. -/
theorem publishes_unaffected (apart : a.key ≠ b.key) {t : Table} :
    (c.request a).2.Publishes b t ↔ c.Publishes b t := by
  apply publishes_congr (settings_request c a)
  intro m t
  rw [holds_request_iff]
  constructor
  · rintro (holds | ⟨-, key, -⟩)
    · exact holds
    · exact absurd key.symm apart
  · exact Or.inl

/-- Two requests leave the same in either order. -/
theorem exchange (c : Cache) (independent : a.Independent b) :
    ((c.request a).2.request b).2.SameContent ((c.request b).2.request a).2 := by
  by_cases key : a.key = b.key
  · obtain apart | model := independent
    · exact absurd key apart
    · rw [CacheRequest.eq_of_key key model]
      exact .refl _
  · refine ⟨by simp only [settings_request], ?_⟩
    intro k m t
    simp only [holds_request_iff, publishes_unaffected key, publishes_unaffected (Ne.symm key)]
    exact or_right_comm

end

/-! ## Reordered runs -/

/-- Requests before another leave the content of its answer as it is. -/
theorem run_unaffected {c : Cache} (sound : c.Sound) {before : List CacheRequest}
    {r : CacheRequest} (independent : ∀ a ∈ before, a.Independent r) :
    answerContent ((c.run before).2.request r).1 = answerContent (c.request r).1 := by
  induction before generalizing c with
  | nil => rfl
  | cons a before ih =>
    obtain ⟨first, others⟩ := List.forall_mem_cons.mp independent
    exact (ih ((c.step_request a).sound sound) others).trans (request_unaffected sound first)

end Cache

theorem OneModelPerKey.independent {requests : List CacheRequest} (h : OneModelPerKey requests)
    {a b : CacheRequest} (ha : a ∈ requests) (hb : b ∈ requests) : a.Independent b := by
  by_cases key : a.key = b.key
  · exact .inr (h a ha b hb key)
  · exact .inl key

theorem OneModelPerKey.perm {requests reordered : List CacheRequest}
    (h : OneModelPerKey requests) (perm : requests.Perm reordered) : OneModelPerKey reordered :=
  fun a ha b hb => h a (perm.mem_iff.mpr ha) b (perm.mem_iff.mpr hb)

namespace Cache

/-- Each request of a run is answered as if it were the first, if no two models share a key. -/
theorem run_content {c : Cache} (sound : c.Sound) {requests : List CacheRequest}
    (one : OneModelPerKey requests) {i : Nat} {r : CacheRequest} (h : requests[i]? = some r) :
    (c.run requests).1[i]?.map answerContent = some (answerContent (c.request r).1) := by
  have independent : ∀ a ∈ requests.take i, a.Independent r := fun a ha =>
    one.independent (List.mem_of_mem_take ha) (List.mem_of_getElem? h)
  rw [run_getElem?, h, Option.map_some, Option.map_some, run_unaffected sound independent]

/-- A reordered run leaves the same, if no two models share a key. -/
theorem run_perm (c : Cache) {requests reordered : List CacheRequest}
    (perm : requests.Perm reordered) (one : OneModelPerKey requests) :
    (c.run requests).2.SameContent (c.run reordered).2 := by
  induction perm generalizing c with
  | nil => exact .refl c
  | cons r perm ih =>
    exact ih (c.request r).2 fun a ha b hb =>
      one a (List.mem_cons_of_mem _ ha) b (List.mem_cons_of_mem _ hb)
  | swap b a rest =>
    have independent : a.Independent b :=
      one.independent List.mem_cons_self (List.mem_cons_of_mem _ List.mem_cons_self)
    exact (c.exchange independent).run rest
  | trans first second ih ih' => exact (ih c one).trans (ih' c (one.perm first))

end Cache

/-- From every state of a run, two requests under different keys or for equal models can
change places: both are answered with the same content, and the cache holds the same
afterwards. So any run in which no two models share a key can be reordered at will: wherever
a request stands, it is answered with the same content, and the cache holds the same in the
end. -/
theorem Cache.independent_requests_commute (settings : Settings) (before : List CacheRequest) :
    let c := (run { settings } before).2
    (∀ a b : CacheRequest, a.key ≠ b.key ∨ a.model = b.model →
      answerContent (c.request a).1 = answerContent ((c.request b).2.request a).1 ∧
      answerContent ((c.request a).2.request b).1 = answerContent (c.request b).1 ∧
      ((c.request a).2.request b).2.entries.Perm ((c.request b).2.request a).2.entries) ∧
    (∀ requests reordered, OneModelPerKey requests → requests.Perm reordered →
      (∀ (i j : Nat) r, requests[i]? = some r → reordered[j]? = some r →
        ∃ content, (c.run requests).1[i]?.map answerContent = some content ∧
          (c.run reordered).1[j]?.map answerContent = some content) ∧
      (c.run requests).2.entries.Perm (c.run reordered).2.entries) := by
  intro c
  have sound : c.Sound := (sound_empty settings).run before
  constructor
  · intro a b independent
    have converse : b.Independent a := independent.imp Ne.symm Eq.symm
    refine ⟨(request_unaffected sound converse).symm, request_unaffected sound independent, ?_⟩
    exact (c.exchange independent).perm (sound.run [a, b]) (sound.run [b, a])
  · intro requests reordered one perm
    refine ⟨?_, (c.run_perm perm one).perm (sound.run requests) (sound.run reordered)⟩
    intro i j r there there'
    exact ⟨answerContent (c.request r).1, run_content sound one there,
      run_content sound (one.perm perm) there'⟩

/-- One model under two names of its table, and a build that fails, in two orders. -/
theorem Cache.independent_requests_commute_invoice :
    let plain : CacheRequest := { model := invoiceModel, engine := .sqlServer }
    let archive : CacheRequest :=
      { model := invoiceModel, engine := .sqlServer, tableName := some "Archive" }
    let broken : CacheRequest := { model := { name := "Broken" }, engine := .sqlServer }
    let forwards := run {} [plain, archive, broken]
    let backwards := run {} [broken, archive, plain]
    OneModelPerKey [plain, archive, broken] ∧
      forwards.1[0]?.map answerContent = some (.ok invoiceTable) ∧
      backwards.1[2]?.map answerContent = some (.ok invoiceTable) ∧
      forwards.2.entries.Perm backwards.2.entries := by
  intro plain archive broken forwards backwards
  have one : OneModelPerKey [plain, archive, broken] := by
    unfold OneModelPerKey
    decide
  have reordered : [plain, archive, broken].Perm [broken, archive, plain] := by decide
  have first : forwards.1[0]?.map answerContent = some (.ok invoiceTable) := by
    have built : plain.model.build plain.engine plain.tableName {} = .ok invoiceTable :=
      build_invoice
    simp [forwards, run, request, lookup?, publish, find?, built, answerContent, Except.map]
  obtain ⟨answers, content⟩ := (independent_requests_commute {} []).2 _ _ one reordered
  obtain ⟨answer, left, right⟩ := answers 0 2 plain rfl rfl
  have same : answer = .ok invoiceTable := Option.some.inj (left.symm.trans first)
  rw [same] at right
  exact ⟨one, first, right, content⟩

end ModelSql
