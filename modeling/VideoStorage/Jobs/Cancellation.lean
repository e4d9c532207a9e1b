import VideoStorage.Foundation.Tokens

/-!
# Cancelling jobs

Two holders of cancellation tokens: `job_cancel` for the mirror routes and
`media_job_cancel` for the media routes, the chain routes and the sweep worker. A
run clones its holder's token when it starts and asks it from time to time; the
cancel routes swap the token under the lock and cancel the old one afterwards. What
a run is answered is decided by the first request that swapped after it started
(`job_cancellation`).
-/

namespace VideoStorage.Jobs.Cancellation

open Foundation

/-! ## Tokens of a server -/

inductive Holder
  | jobCancel
  | mediaJobCancel
  deriving DecidableEq, Repr

/-- What clones a token. -/
inductive Origin
  | scanStorj | scanHetzner | phashBackfill | mirror | runPipeline
  | importVideoIndex | runPhash | chainSnapshotStart
  /-- The import that `chain_audit` spawns. -/
  | chainAudit
  /-- `SweepWorker::run_pass`; its drain and its discovery share the token. -/
  | sweepPass
  deriving DecidableEq, Repr

def Origin.holder : Origin → Holder
  | scanStorj | scanHetzner | phashBackfill | mirror | runPipeline => .jobCancel
  | importVideoIndex | runPhash | chainSnapshotStart | chainAudit | sweepPass =>
      .mediaJobCancel

/-- One run of a job, with its own number. -/
structure Run where
  origin : Origin
  number : ℕ
  deriving DecidableEq, Repr

/-- One request of `cancel_all`, which swaps `job_cancel`, or of
`cancel_media_jobs`, which swaps `media_job_cancel`. -/
structure Request where
  holder : Holder
  number : ℕ
  deriving DecidableEq, Repr

abbrev Run.holder (j : Run) : Holder := j.origin.holder

structure Server where
  tokens : Holder → Tokens Run Request := fun _ => {}
  /-- The token of the sweep worker's loop, which the shutdown cancels. -/
  shutdown : Bool := false

def Server.set (s : Server) (h : Holder) (t : Tokens Run Request) : Server :=
  { s with tokens := Function.update s.tokens h t }

@[simp] theorem Server.tokens_set (s : Server) (h h' : Holder)
    (t : Tokens Run Request) :
    (s.set h t).tokens h' = if h' = h then t else s.tokens h' :=
  Function.update_apply ..

inductive CancelEvent
  /-- The run clones the token. -/
  | start (j : Run)
  /-- The request puts a fresh token into the holder. -/
  | swap (r : Request)
  /-- It cancels the old one, and answers. -/
  | cancel (r : Request)
  /-- `is_cancelled()`, with its answer. -/
  | poll (j : Run) (cancelled : Bool)
  /-- Ctrl-C. -/
  | shutdown

/-- A pass of the sweep worker is dropped, and none begins, once the server is
shutting down. -/
def Server.Alive (s : Server) (j : Run) : Prop :=
  j.origin = .sweepPass → s.shutdown = false

inductive CancelStep (s : Server) : CancelEvent → Server → Prop
  | start (j : Run) (halive : s.Alive j)
      (h : (s.tokens j.holder).taken j = none) :
      CancelStep s (.start j) (s.set j.holder ((s.tokens j.holder).take j))
  | swap (r : Request) (h : (s.tokens r.holder).swapped r = none) :
      CancelStep s (.swap r) (s.set r.holder ((s.tokens r.holder).swap r))
  | cancel (r : Request) (n : ℕ) (h : (s.tokens r.holder).swapped r = some n) :
      CancelStep s (.cancel r) (s.set r.holder ((s.tokens r.holder).cancel n))
  | poll (j : Run) (n : ℕ) (halive : s.Alive j)
      (h : (s.tokens j.holder).taken j = some n) :
      CancelStep s (.poll j ((s.tokens j.holder).cancelled n)) s
  | shutdown : CancelStep s .shutdown { s with shutdown := true }

/-! ## One holder -/

/-- The events that are steps of the holder's tokens. -/
def CancelEvent.on (h : Holder) : CancelEvent → Option (TokenEvent Run Request)
  | .start j => if j.holder = h then some (.take j) else none
  | .swap r => if r.holder = h then some (.swap r) else none
  | .cancel r => if r.holder = h then some (.cancel r) else none
  | .poll _ _ => none
  | .shutdown => none

theorem on_eq_swap {h : Holder} {e : CancelEvent} {r : Request} :
    e.on h = some (.swap r) ↔ e = .swap r ∧ r.holder = h := by
  cases e <;> simp only [CancelEvent.on, Option.ite_none_right_eq_some,
    Option.some.injEq, reduceCtorEq, and_false, false_and, CancelEvent.swap.injEq,
    TokenEvent.swap.injEq]
  constructor
  · rintro ⟨hr, rfl⟩
    exact ⟨rfl, hr⟩
  · rintro ⟨rfl, hr⟩
    exact ⟨hr, rfl⟩

theorem on_eq_cancel {h : Holder} {e : CancelEvent} {r : Request} :
    e.on h = some (.cancel r) ↔ e = .cancel r ∧ r.holder = h := by
  cases e <;> simp only [CancelEvent.on, Option.ite_none_right_eq_some,
    Option.some.injEq, reduceCtorEq, and_false, false_and, CancelEvent.cancel.injEq,
    TokenEvent.cancel.injEq]
  constructor
  · rintro ⟨hr, rfl⟩
    exact ⟨rfl, hr⟩
  · rintro ⟨rfl, hr⟩
    exact ⟨hr, rfl⟩

theorem mem_swap_on {h : Holder} {es : List CancelEvent} {r : Request} :
    .swap r ∈ es.filterMap (·.on h) ↔ .swap r ∈ es ∧ r.holder = h := by
  rw [List.mem_filterMap]
  constructor
  · rintro ⟨e, he, hon⟩
    obtain ⟨rfl, hr⟩ := on_eq_swap.mp hon
    exact ⟨he, hr⟩
  · rintro ⟨he, hr⟩
    exact ⟨_, he, on_eq_swap.mpr ⟨rfl, hr⟩⟩

theorem mem_cancel_on {h : Holder} {es : List CancelEvent} {r : Request} :
    .cancel r ∈ es.filterMap (·.on h) ↔ .cancel r ∈ es ∧ r.holder = h := by
  rw [List.mem_filterMap]
  constructor
  · rintro ⟨e, he, hon⟩
    obtain ⟨rfl, hr⟩ := on_eq_cancel.mp hon
    exact ⟨he, hr⟩
  · rintro ⟨he, hr⟩
    exact ⟨_, he, on_eq_cancel.mpr ⟨rfl, hr⟩⟩

variable {s s' t : Server} {e : CancelEvent} {es : List CancelEvent}

/-- **One holder.** Its tokens go through the events that are theirs. -/
theorem holder_run (h : Holder) (hrun : Trace CancelStep s es t) :
    Trace TokenStep (s.tokens h) (es.filterMap (·.on h)) (t.tokens h) := by
  refine hrun.project (·.tokens h) (·.on h) ?_ ?_
  · intro a e b hstep hnone
    cases hstep with
    | start j _ _ => simp_all [CancelEvent.on, eq_comm]
    | swap r _ => simp_all [CancelEvent.on, eq_comm]
    | cancel r n _ => simp_all [CancelEvent.on, eq_comm]
    | poll j n _ _ => rfl
    | shutdown => rfl
  · intro a e b m hstep hsome
    cases hstep with
    | start j _ hj =>
        obtain ⟨rfl, hm⟩ := Option.ite_none_right_eq_some.mp hsome
        obtain rfl := Option.some.inj hm
        rw [Server.tokens_set, if_pos rfl]
        exact .take j hj
    | swap r hr =>
        obtain ⟨rfl, hm⟩ := Option.ite_none_right_eq_some.mp hsome
        obtain rfl := Option.some.inj hm
        rw [Server.tokens_set, if_pos rfl]
        exact .swap r hr
    | cancel r n hr =>
        obtain ⟨rfl, hm⟩ := Option.ite_none_right_eq_some.mp hsome
        obtain rfl := Option.some.inj hm
        rw [Server.tokens_set, if_pos rfl]
        exact .cancel r n hr
    | poll j n _ _ => cases hsome
    | shutdown => cases hsome

/-! ## What a run is answered -/

/-- The first request of the holder in `es` to swap has cancelled since. -/
def FirstHasCancelled (h : Holder) (es : List CancelEvent) : Prop :=
  ∃ mid r rest, es = mid ++ .swap r :: rest ∧ r.holder = h ∧
    (∀ r' : Request, r'.holder = h → .swap r' ∉ mid) ∧ .cancel r ∈ rest

theorem firstHasCancelled_iff (h : Holder) (es : List CancelEvent) :
    FirstHasCancelled h es ↔ ∃ mid r rest,
      es.filterMap (·.on h) = mid ++ .swap r :: rest ∧
        (∀ r', .swap r' ∉ mid) ∧ .cancel r ∈ rest := by
  constructor
  · rintro ⟨mid, r, rest, rfl, hr, hmid, hcancel⟩
    refine ⟨mid.filterMap (·.on h), r, rest.filterMap (·.on h), ?_, ?_, ?_⟩
    · rw [List.filterMap_append,
        List.filterMap_cons_some (on_eq_swap.mpr ⟨rfl, hr⟩)]
    · intro r' hr'
      obtain ⟨hmem, hholder⟩ := mem_swap_on.mp hr'
      exact hmid r' hholder hmem
    · exact mem_cancel_on.mpr ⟨hcancel, hr⟩
  · rintro ⟨mid, r, rest, hes, hmid, hcancel⟩
    obtain ⟨pre, post, rfl, rfl, hpost⟩ := List.filterMap_eq_append_iff.mp hes
    obtain ⟨skipped, e, post, rfl, hskipped, hon, rfl⟩ :=
      List.filterMap_eq_cons_iff.mp hpost
    obtain ⟨rfl, hr⟩ := on_eq_swap.mp hon
    refine ⟨pre ++ skipped, r, post, by simp, hr, ?_,
      (mem_cancel_on.mp hcancel).1⟩
    intro r' hr' hmem
    rcases List.mem_append.mp hmem with hmem | hmem
    · exact hmid r' (mem_swap_on.mpr ⟨hmem, hr'⟩)
    · have hnone := hskipped _ hmem
      rw [on_eq_swap.mpr ⟨rfl, hr'⟩] at hnone
      cases hnone

theorem FirstHasCancelled.append {h : Holder} {es : List CancelEvent}
    (hes : FirstHasCancelled h es) (fs : List CancelEvent) :
    FirstHasCancelled h (es ++ fs) := by
  obtain ⟨mid, r, rest, rfl, hr, hmid, hcancel⟩ := hes
  exact ⟨mid, r, rest ++ fs, by simp, hr, hmid, List.mem_append_left _ hcancel⟩

theorem first_swap {h : Holder} {es : List CancelEvent} {r : Request}
    (hr : r.holder = h) (hmem : .swap r ∈ es) :
    ∃ mid r' rest, es = mid ++ .swap r' :: rest ∧ r'.holder = h ∧
      ∀ r'' : Request, r''.holder = h → .swap r'' ∉ mid := by
  induction es with
  | nil => cases hmem
  | cons e es ih =>
      by_cases hfirst : ∃ r', e = .swap r' ∧ r'.holder = h
      · obtain ⟨r', rfl, hr'⟩ := hfirst
        exact ⟨[], r', es, rfl, hr', fun _ _ => List.not_mem_nil⟩
      · have hrest : .swap r ∈ es := by
          rcases List.mem_cons.mp hmem with rfl | hrest
          · exact absurd ⟨r, rfl, hr⟩ hfirst
          · exact hrest
        obtain ⟨mid, r', rest, rfl, hr', hmid⟩ := ih hrest
        refine ⟨e :: mid, r', rest, rfl, hr', fun r'' hr'' hin => ?_⟩
        rcases List.mem_cons.mp hin with rfl | hin
        · exact hfirst ⟨r'', rfl, hr''⟩
        · exact hmid r'' hr'' hin

/-- **One answer.** The token is cancelled exactly if the first request to swap it
out has cancelled. -/
theorem poll_iff {pre since : List CancelEvent} {j : Run}
    (hrun : Trace CancelStep {} (pre ++ .start j :: since) s) {b : Bool}
    (hpoll : CancelStep s (.poll j b) s') :
    b = true ↔ FirstHasCancelled j.holder since := by
  obtain ⟨a, c, hpre, hstart, hsince⟩ := hrun.at_event
  have hinv : TokenInv (a.tokens j.holder) :=
    tokenInv_init.run (holder_run j.holder hpre)
  have htake : TokenStep (a.tokens j.holder) (.take j) (c.tokens j.holder) := by
    cases hstart with
    | start _ _ h =>
        rw [Server.tokens_set, if_pos rfl]
        exact .take j h
  obtain ⟨n, hn, hfate⟩ := token_after_take hinv htake (holder_run j.holder hsince)
  cases hpoll with
  | poll _ m _ hm =>
      rw [hn] at hm
      obtain rfl := Option.some.inj hm
      rw [firstHasCancelled_iff]
      exact hfate.cancelled_iff

/-- What a run is answered after the events `since` it started, and from then
on. -/
structure Answers (s : Server) (j : Run) (since : List CancelEvent) : Prop where
  /-- Cancelled, exactly if the first request to swap its holder's token has
  cancelled since. -/
  exact : ∀ b s', CancelStep s (.poll j b) s' →
    (b = true ↔ FirstHasCancelled j.holder since)
  /-- So it is cancelled once all requests that swapped since have answered. -/
  reached : (∃ r : Request, r.holder = j.holder ∧ .swap r ∈ since) →
    (∀ mid r rest, since = mid ++ .swap r :: rest → r.holder = j.holder →
      .cancel r ∈ rest) →
    ∀ b s', CancelStep s (.poll j b) s' → b = true
  /-- A run that is cancelled stays so. -/
  stays : ∀ s', CancelStep s (.poll j true) s' → ∀ es t, Trace CancelStep s es t →
    ∀ b t', CancelStep t (.poll j b) t' → b = true

/-- **Cancelling jobs.** In every order of the runs' starts and polls, the
requests' swaps and cancellations, and the shutdown. -/
theorem job_cancellation {pre since : List CancelEvent} {j : Run}
    (hrun : Trace CancelStep {} (pre ++ .start j :: since) s) :
    Answers s j since := by
  refine ⟨fun b s' hpoll => poll_iff hrun hpoll, fun hswap hall b s' hpoll => ?_,
    fun s' hpoll es t hrun' b t' hpoll' => ?_⟩
  · obtain ⟨r, hr, hmem⟩ := hswap
    obtain ⟨mid, r', rest, hes, hr', hmid⟩ := first_swap hr hmem
    exact (poll_iff hrun hpoll).mpr
      ⟨mid, r', rest, hes, hr', hmid, hall mid r' rest hes hr'⟩
  · have hrun'' : Trace CancelStep {} (pre ++ .start j :: (since ++ es)) t := by
      rw [← List.cons_append, ← List.append_assoc]
      exact hrun.append hrun'
    exact (poll_iff hrun'' hpoll').mpr
      (((poll_iff hrun hpoll).mp rfl).append es)

/-- The hash job starts; the first of two requests has swapped its token and not
cancelled it yet when the second answers. -/
def overlapping : List CancelEvent :=
  [.swap ⟨.mediaJobCancel, 0⟩, .swap ⟨.mediaJobCancel, 1⟩,
    .cancel ⟨.mediaJobCancel, 1⟩]

theorem job_cancellation_overlapping : ∃ s, Answers s ⟨.runPhash, 0⟩ overlapping ∧
    CancelStep s (.poll ⟨.runPhash, 0⟩ false) s := by
  have hrun : Trace CancelStep {} ([] ++ .start ⟨.runPhash, 0⟩ :: overlapping) _ :=
    .cons (.start _ nofun rfl) <|
    .cons (.swap _ rfl) <|
    .cons (.swap _ rfl) <|
    .cons (.cancel _ 1 rfl) <|
    .nil _
  exact ⟨_, job_cancellation hrun, .poll _ 0 nofun rfl⟩

end VideoStorage.Jobs.Cancellation
