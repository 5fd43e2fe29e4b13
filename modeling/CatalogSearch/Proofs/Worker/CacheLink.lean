import CatalogSearch.Proofs.Service.Exchanges
import CatalogSearch.Proofs.Store.Intact
import CatalogSearch.Proofs.Worker.Requests

/-!
# When the worker is connected

What it means that the worker is connected to the cache: by the record of its exchanges, a
connection has been made and none has been closed since (`cacheLink_of_history`). The ping that
follows a connection does not count, so a cache that does not answer it is connected nevertheless.
-/

namespace CatalogSearch

open Cache (Connection)

variable {ε α : Type} {settings : Settings} {c c' : Connections} {record record' : List Exchange}

/-! ### By the record -/

/-- Whether the request makes or closes a connection to the cache. -/
def Request.linksCache : Request → Bool
  | .cache (.connect _) | .cache .close => true
  | _ => false

/-- Whether the request is for the cache. -/
def Request.forCache : Request → Bool
  | .cache _ => true
  | _ => false

/-- A connection to the cache has been made on the record and none has been closed since. -/
inductive CacheHeld : List Exchange → Prop where
  | made {record : List Exchange} {connection : Connection} :
    CacheHeld (record ++ [⟨.cache (.connect connection), .ok ()⟩])
  | kept {record : List Exchange} {x : Exchange} :
    CacheHeld record → x ≠ ⟨.cache .close, .ok ()⟩ → CacheHeld (record ++ [x])

/-- The latest attempt at a connection to the cache made it and had its ping answered, and no
connection has been closed since. -/
inductive CacheAnswered : List Exchange → Prop where
  | answered {record : List Exchange} {connection : Connection} :
    CacheAnswered (record ++ [⟨.cache (.connect connection), .ok ()⟩] ++ [⟨.cache .ping, .ok ()⟩])
  | kept {record : List Exchange} {x : Exchange} :
    CacheAnswered record → (∀ connection, x.1 ≠ .cache (.connect connection)) →
      x ≠ ⟨.cache .close, .ok ()⟩ → CacheAnswered (record ++ [x])

theorem not_cacheHeld_nil : ¬ CacheHeld [] := by
  intro h
  generalize hrecord : ([] : List Exchange) = record at h
  cases h <;> simp at hrecord

theorem cacheHeld_concat {x : Exchange} :
    CacheHeld (record ++ [x]) ↔ (∃ connection, x = ⟨.cache (.connect connection), .ok ()⟩) ∨
      CacheHeld record ∧ x ≠ ⟨.cache .close, .ok ()⟩ := by
  constructor
  · intro h
    generalize hrecord : record ++ [x] = record' at h
    cases h with
    | made =>
      obtain ⟨-, hx⟩ := List.append_inj' hrecord rfl
      exact .inl ⟨_, List.singleton_inj.1 hx⟩
    | kept h hx =>
      obtain ⟨rfl, hx'⟩ := List.append_inj' hrecord rfl
      exact .inr ⟨h, List.singleton_inj.1 hx' ▸ hx⟩
  · rintro (⟨connection, rfl⟩ | ⟨h, hx⟩)
    · exact .made
    · exact .kept h hx

theorem CacheHeld.exists_made (h : CacheHeld record) :
    ∃ connection, (⟨.cache (.connect connection), .ok ()⟩ : Exchange) ∈ record := by
  induction h with
  | made => exact ⟨_, List.mem_append_right _ List.mem_cons_self⟩
  | kept _ _ ih =>
    obtain ⟨connection, hmade⟩ := ih
    exact ⟨connection, List.mem_append_left _ hmade⟩

/-- The exchange is a ping that the cache has answered. -/
def Exchange.isPong : Exchange → Bool
  | ⟨.cache .ping, .ok _⟩ => true
  | _ => false

theorem CacheAnswered.any_isPong (h : CacheAnswered record) :
    record.any Exchange.isPong = true := by
  induction h with
  | answered => simp [Exchange.isPong]
  | kept _ _ _ ih => rw [List.any_append, ih, Bool.true_or]

theorem CacheAnswered.held (h : CacheAnswered record) : CacheHeld record := by
  induction h with
  | answered => exact .kept .made (by rintro ⟨⟩)
  | kept _ _ hx ih => exact .kept ih hx

/-- What neither makes a connection nor closes one leaves it as it is. -/
theorem cacheHeld_concat_of_ne {x : Exchange}
    (hmade : ∀ connection, x ≠ ⟨.cache (.connect connection), .ok ()⟩)
    (hclosed : x ≠ ⟨.cache .close, .ok ()⟩) : CacheHeld (record ++ [x]) ↔ CacheHeld record := by
  rw [cacheHeld_concat]
  constructor
  · rintro (⟨connection, hx⟩ | ⟨h, -⟩)
    · exact absurd hx (hmade connection)
    · exact h
  · exact fun h => .inr ⟨h, hclosed⟩

theorem cacheHeld_concat_of_not_links {r : Request} (hr : r.linksCache = false) (x : r.Reply) :
    CacheHeld (record ++ [⟨r, x⟩]) ↔ CacheHeld record := by
  refine cacheHeld_concat_of_ne (fun connection hx => ?_) fun hx => ?_
  · cases hx
    cases hr
  · cases hx
    cases hr

theorem Publication.Plan.Requests.not_linksCache {p : Publication.Plan} {r : Request}
    (h : p.Requests r) : r.linksCache = false := by
  cases h <;> rfl

theorem Publication.Plan.Requests.not_forCache {p : Publication.Plan} {r : Request}
    (h : p.Requests r) : r.forCache = false := by
  cases h <;> rfl

/-! ### By the worker -/

namespace Worker

/-- The worker is connected to the cache as the record says. -/
def Linked (c : Connections) (record : List Exchange) : Prop := c.cache = true ↔ CacheHeld record

/-- Whatever comes of the work, the worker knows how it is connected. -/
def KeepsLink (w : Worker ε α) : Prop :=
  ∀ c record, Linked c record → Ensures Dialogue.recorded (fun _ => True)
    (fun _ c' record' => Linked c' record') (fun _ c' record' => Linked c' record') w c record

theorem keepsLink_pure {a : α} : KeepsLink (pure a : Worker ε α) := fun _ _ h => h

theorem keepsLink_throw {e : ε} : KeepsLink (throw e : Worker ε α) := fun _ _ h => h

theorem keepsLink_get : KeepsLink (get : Worker ε Connections) := fun _ _ h => h

theorem keepsLink_setEngine (b : Bool) :
    KeepsLink (modify ({ · with engine := b }) : Worker ε Unit) := fun _ _ h => h

theorem keepsLink_ofAttempt {a : Attempt ε α} (ha : Attempt.Asks (·.linksCache = false) a) :
    KeepsLink (ofAttempt a) := by
  intro c record h
  refine ensures_ofAttempt.2 (ha.ensures (J := Linked c) ?_ (fun _ _ => trivial) h)
  rintro r t x _ hr ht rfl
  exact ht.trans (cacheHeld_concat_of_not_links hr x).symm

theorem KeepsLink.bind {β : Type} {w : Worker ε α} {f : α → Worker ε β} (hw : KeepsLink w)
    (hf : ∀ x, KeepsLink (f x)) : KeepsLink (w >>= f) := fun c record h =>
  ensures_bind.2 ((hw c record h).mono (fun x c' record' h' => hf x c' record' h') fun _ _ _ h => h)

theorem KeepsLink.withError {ε' : Type} {f : ε → ε'} {w : Worker ε α} (hw : KeepsLink w) :
    KeepsLink (w.withError f) := fun c record h =>
  ensures_withError.2 (hw c record h)

theorem KeepsLink.outcome {ε' : Type} {w : Worker ε α} (hw : KeepsLink w) :
    KeepsLink (w.outcome : Worker ε' (Except ε α)) := fun c record h =>
  ensures_outcome.2 (hw c record h)

/-! ### The operations -/

/-- The connection counts from the moment the cache takes it, whatever the ping comes to; where the
cache does not take it, an earlier one is kept. -/
theorem keepsLink_connectCache (settings : Settings) : KeepsLink (connectCache settings) := by
  intro c record h
  refine ensures_bind.2 (ensures_ofAttempt.2 (Attempt.ensures_askCache.2 ?_))
  rintro (fault | _) _ rfl
  · refine ⟨trivial, h.trans (cacheHeld_concat_of_ne ?_ ?_).symm⟩
    · rintro _ ⟨⟩
    · rintro ⟨⟩
  · refine ⟨trivial, ensures_bind.2 ?_⟩
    have hlinked : Linked { c with cache := true }
        (record ++ [⟨.cache (.connect settings.cacheConnection), .ok ()⟩]) := iff_of_true rfl .made
    exact keepsLink_ofAttempt (Attempt.asks_askCache (p := (·.linksCache = false)) rfl) _ _ hlinked

/-- The connection counts as closed only when the cache has closed it. -/
theorem keepsLink_disconnectCache : KeepsLink disconnectCache := by
  refine keepsLink_get.bind fun connections => ?_
  split
  · intro c record h
    refine ensures_bind.2 (ensures_ofAttempt.2 (Attempt.ensures_askCache.2 ?_))
    rintro (fault | _) _ rfl
    · refine ⟨trivial, h.trans (cacheHeld_concat_of_ne ?_ ?_).symm⟩
      · rintro _ ⟨⟩
      · rintro ⟨⟩
    · refine ⟨trivial, iff_of_false Bool.false_ne_true fun hheld => ?_⟩
      rcases cacheHeld_concat.1 hheld with ⟨_, ⟨⟩⟩ | ⟨-, hne⟩
      exact hne rfl
  · exact keepsLink_pure

theorem keepsLink_cacheHealth : KeepsLink (cacheHealth : Worker ε CacheHealth) := by
  have huse : KeepsLink (useCache .info) := by
    refine keepsLink_get.bind fun d => ?_
    split
    · exact keepsLink_ofAttempt (Attempt.asks_askCache (p := (·.linksCache = false)) rfl).withError
    · exact keepsLink_throw
  refine huse.outcome.bind fun r => ?_
  split <;> exact keepsLink_pure

theorem keepsLink_askEngine (call : Engine.Call) : KeepsLink (askEngineUnhandled call) :=
  keepsLink_ofAttempt (Attempt.asks_askEngine (p := (·.linksCache = false)) rfl).withError

theorem keepsLink_engineHealth (settings : Settings) : KeepsLink (engineHealth settings) := by
  have hcount : KeepsLink (countDocuments settings) := by
    refine keepsLink_get.bind fun d => ?_
    split
    · exact (keepsLink_askEngine _).bind fun _ => (keepsLink_askEngine _).bind fun _ =>
        keepsLink_askEngine _
    · exact keepsLink_throw
  refine hcount.outcome.bind fun r => ?_
  split
  · exact keepsLink_pure
  · exact keepsLink_throw
  · exact keepsLink_pure

theorem keepsLink_startup (settings : Settings) : KeepsLink (startup settings) :=
  (keepsLink_connectCache settings).outcome.bind fun _ => keepsLink_cacheHealth.bind fun _ =>
    ((keepsLink_askEngine _).bind fun _ => keepsLink_setEngine true).bind fun _ =>
      (keepsLink_engineHealth settings).bind fun _ => keepsLink_pure

theorem keepsLink_shutdown : KeepsLink shutdown := by
  have hengine : KeepsLink disconnectEngine := by
    refine keepsLink_get.bind fun d => ?_
    split
    · exact (keepsLink_askEngine _).bind fun _ => keepsLink_setEngine false
    · exact keepsLink_pure
  exact hengine.withError.bind fun _ => keepsLink_disconnectCache.withError

theorem keepsLink_runJob (settings : Settings) (registry : License.Registry) :
    KeepsLink (runJob settings registry) := by
  have hindex : KeepsLink (index settings true registry) :=
    keepsLink_get.bind fun d => keepsLink_ofAttempt
      (Indexing.asks_run (fun _ => rfl) (fun _ _ => rfl) (fun _ _ _ _ => rfl) _ _)
  have hpublish (documents : List Document) : KeepsLink (publish settings documents) := by
    refine keepsLink_get.bind fun d => ?_
    split
    · exact keepsLink_ofAttempt
        ((Publication.asks_publish _).imp fun _ h => h.not_linksCache)
    · exact keepsLink_throw
  refine hindex.outcome.bind fun r => ?_
  split
  · split
    · exact keepsLink_pure
    · exact keepsLink_throw
  · refine (hpublish _).outcome.bind fun r => ?_
    split
    · exact keepsLink_pure
    · exact keepsLink_pure
    · exact keepsLink_throw

/-! ### Histories -/

/-- How the worker is connected, with the record of all its exchanges, after it has connected and
disconnected the cache, started, stopped and run its job in any order and under any settings. Each
of these may fail, and any service may give any reply at any time. -/
inductive LinkHistory : Connections → List Exchange → Prop where
  | start : LinkHistory .none []
  | connect {settings : Settings} {c c' : Connections} {record record' : List Exchange}
    {result : Except Cache.Fault Unit} :
    LinkHistory c record → Dialogue.Reaches Dialogue.recorded ((connectCache settings).run c) record
      (.done (result, c')) record' → LinkHistory c' record'
  | disconnect {c c' : Connections} {record record' : List Exchange}
    {result : Except Cache.Fault Unit} :
    LinkHistory c record → Dialogue.Reaches Dialogue.recorded (disconnectCache.run c) record
      (.done (result, c')) record' → LinkHistory c' record'
  | startup {settings : Settings} {c c' : Connections} {record record' : List Exchange}
    {result : Except Publication.Failure Unit} :
    LinkHistory c record → Dialogue.Reaches Dialogue.recorded ((startup settings).run c) record
      (.done (result, c')) record' → LinkHistory c' record'
  | shutdown {c c' : Connections} {record record' : List Exchange}
    {result : Except ShutdownError Unit} :
    LinkHistory c record → Dialogue.Reaches Dialogue.recorded (shutdown.run c) record
      (.done (result, c')) record' → LinkHistory c' record'
  | job {settings : Settings} {registry : License.Registry} {c c' : Connections}
    {record record' : List Exchange} {result : Except JobError JobReport} :
    LinkHistory c record →
      Dialogue.Reaches Dialogue.recorded ((runJob settings registry).run c) record
        (.done (result, c')) record' → LinkHistory c' record'

theorem KeepsLink.linked {w : Worker ε α} (hw : KeepsLink w) (h : Linked c record)
    {result : Except ε α}
    (hr : Dialogue.Reaches Dialogue.recorded (w.run c) record (.done (result, c')) record') :
    Linked c' record' := by
  have hpost := (hw c record h).rest hr
  cases result <;> exact hpost

theorem LinkHistory.linked (h : LinkHistory c record) : Linked c record := by
  induction h with
  | start => exact iff_of_false Bool.false_ne_true not_cacheHeld_nil
  | connect _ hr ih => exact (keepsLink_connectCache _).linked ih hr
  | disconnect _ hr ih => exact keepsLink_disconnectCache.linked ih hr
  | startup _ hr ih => exact (keepsLink_startup _).linked ih hr
  | shutdown _ hr ih => exact keepsLink_shutdown.linked ih hr
  | job _ hr ih => exact (keepsLink_runJob _ _).linked ih hr

theorem asks_indexUnlinked (settings : Settings) (cached : Bool) (registry : License.Registry)
    (h : c.cache = false) :
    Dialogue.Asks (·.forCache = false) ((index settings cached registry).run c) := by
  have hcached : (cached && c.cache) = false := by rw [h, Bool.and_false]
  have hrun : Attempt.Asks (·.forCache = false)
      (Indexing.run settings (cached && c.cache) registry) :=
    Indexing.asks_run (fun _ => rfl) (fun hcache => nomatch hcached.symm.trans hcache)
      (fun hcache => nomatch hcached.symm.trans hcache) settings registry
  exact asks_run_get (asks_ofAttempt hrun c)

/-- Without a connection the job goes without the cache. -/
theorem asks_runJobUnlinked (settings : Settings) (registry : License.Registry)
    (h : c.cache = false) :
    Dialogue.Asks (·.forCache = false) ((runJob settings registry).run c) := by
  have hpublish (documents : List Document) :
      Asks (·.forCache = false) (publish settings documents) := by
    refine asks_get.bind fun d => ?_
    split
    · exact asks_ofAttempt ((Publication.asks_publish _).imp fun _ h => h.not_forCache)
    · exact asks_throw
  refine asks_run_bind (Dialogue.Asks.bind (asks_indexUnlinked settings true _ h) fun _ => trivial)
    fun r => ?_
  split
  · split
    · exact asks_pure
    · exact asks_throw
  · refine (hpublish _).outcome.bind fun r => ?_
    split
    · exact asks_pure
    · exact asks_pure
    · exact asks_throw

/-- After every history the worker takes itself to be connected just when a connection has been
made and none has been closed since, in particular when the latest attempt had its ping answered.
A worker that was not connected and is started while no connection can be made is not connected, and
without a connection the job goes without the cache. -/
theorem cacheLink_of_history (h : LinkHistory c record) :
    (c.cache = true ↔ CacheHeld record) ∧ (CacheAnswered record → c.cache = true) ∧
      (∀ settings result c' record', c.cache = false →
        Dialogue.Reaches Dialogue.recorded ((startup settings).run c) []
          (.done (result, c')) record' →
        (∀ connection, (⟨.cache (.connect connection), .ok ()⟩ : Exchange) ∉ record') →
          c'.cache = false) ∧
      (c.cache = false → ∀ settings registry,
        Dialogue.Asks (·.forCache = false) ((runJob settings registry).run c)) := by
  refine ⟨h.linked, fun hanswered => h.linked.2 hanswered.held, ?_,
    fun hc settings registry => asks_runJobUnlinked settings registry hc⟩
  intro settings result c' record' hc hr hnone
  have hlinked : Linked c [] :=
    iff_of_false (by rw [hc]; exact Bool.false_ne_true) not_cacheHeld_nil
  refine Bool.eq_false_iff.2 fun hc' => ?_
  obtain ⟨connection, hmade⟩ := (((keepsLink_startup settings).linked hlinked hr).1 hc').exists_made
  exact hnone connection hmade

/-- A cache that takes a connection or not, answers a ping or not, and closes; all else succeeds
that the worker asks when it starts and stops. -/
def linkServices (connects pongs : Bool) : (r : Request) → r.Reply
  | .store q => .ok (Store.sample.answer q)
  | .cache (.connect _) => if connects then .ok () else .error (.unreachable "refused")
  | .cache .ping => if pongs then .ok () else .error (.unreachable "timed out")
  | .cache .close => .ok ()
  | .cache .info => .ok []
  | .cache (.read _) | .cache (.write _ _ _) => .error (.unreachable "timed out")
  | .engine (.connect _ _ _) | .engine .close | .engine .health | .engine (.getIndex _) => .ok ()
  | .engine (.stats _) => .ok 0
  | .engine (.deleteIndex _) | .engine (.createIndex _ _) | .engine (.configure _ _)
  | .engine (.addDocuments _ _ _) | .engine (.swap _) | .engine (.wait _ _) =>
    .error (.error "read only")

/-- A start of the worker with such services. -/
def linkStartup (connects pongs : Bool) :
    (Except Publication.Failure Unit × Connections) × List Exchange :=
  ((startup .default).run .none).run (Dialogue.recording (linkServices connects pongs)) []

theorem reaches_linkStartup (connects pongs : Bool) :
    Dialogue.Reaches Dialogue.recorded ((startup .default).run .none) []
      (.done ((linkStartup connects pongs).1.1, (linkStartup connects pongs).1.2))
      (linkStartup connects pongs).2 :=
  Dialogue.reaches_run (fun _ _ => rfl) _ _

theorem linkHistory_startup (connects pongs : Bool) :
    LinkHistory (linkStartup connects pongs).1.2 (linkStartup connects pongs).2 :=
  .startup .start (reaches_linkStartup connects pongs)

theorem cacheLink_of_history_startups :
    (linkStartup true true).1.2.cache = true ∧ CacheHeld (linkStartup true true).2 ∧
      (linkStartup false true).1.2.cache = false ∧ ¬ CacheHeld (linkStartup false true).2 := by
  have hlinked := (cacheLink_of_history (linkHistory_startup true true)).1
  have hunlinked := (cacheLink_of_history (linkHistory_startup false true)).1
  have hcache : (linkStartup true true).1.2.cache = true := by decide +kernel
  have hnone : (linkStartup false true).1.2.cache = false := by decide +kernel
  exact ⟨hcache, hlinked.1 hcache, hnone, fun h => Bool.false_ne_true (hnone ▸ hunlinked.2 h)⟩

/-- A worker whose ping is not answered when it starts takes itself to be connected. -/
theorem not_answered_of_history : ¬ ∀ (c : Connections) (record : List Exchange),
    LinkHistory c record → (c.cache = true ↔ CacheAnswered record) := by
  intro h
  have hcache : (linkStartup true false).1.2.cache = true := by decide +kernel
  have hping : (linkStartup true false).2.any Exchange.isPong = false := by decide +kernel
  have hanswered := ((h _ _ (linkHistory_startup true false)).1 hcache).any_isPong
  cases hping.symm.trans hanswered

end Worker

end CatalogSearch
