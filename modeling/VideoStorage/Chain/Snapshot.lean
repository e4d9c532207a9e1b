import VideoStorage.Chain.Statements
import VideoStorage.Foundation.Program
import VideoStorage.Foundation.Trace

/-!
# The chain snapshot

`run_chain_snapshot` walks the posts of the chain page by page, stages them and,
when the walk is complete, flags the posts it has not seen and rebuilds the
users. `WalkRun` lists the traces of a walk by the way they end; from it come
what a completed run has executed (`completed_executed`) and that no other run
executes a statement behind its walk (`conclude_incomplete`).
-/

namespace VideoStorage.Chain

open Foundation Prog

/-! ## The program -/

/-- `PAGE`. -/
def pageSize : ℕ := 100

def maxIters : ℕ := 100000

/-- Stop, and the next cursor. -/
def walkStep (prevCursor : Option String) (res : FetchPostsResult) (page : ℕ) :
    Bool × Option String :=
  let next := res.lastPostIdFetched.filter (· ≠ "")
  let advanced := next.isSome && next ≠ prevCursor
  let stop := res.posts.isEmpty || next.isNone || !advanced ||
    res.posts.length < page
  (stop, next)

structure Totals where
  pages : ℕ := 0
  postsUpserted : ℕ := 0
  skipped : ℕ := 0
  deriving DecidableEq

/-- `fetch` is the canister's, the others but `isCancelled` are statements:
`recordProgress`, `finishRun` and `failRun` on the row of the run. -/
inductive SnapshotCall
  | insertRun (runId : Uuid) (jobKind requestedBy : String)
  | isCancelled
  | fetch (limit : ℕ) (cursor : Option String)
  | execute (s : ChainStatement)
  | recordProgress (runId : Uuid) (last : Option String) (totals : Totals)
  | finishRun (runId : Uuid) (status : String) (totals : Totals)
      (completed : Bool)
  | failRun (runId : Uuid) (message : String)

@[reducible] def SnapshotCall.Reply : SnapshotCall → Type
  | .isCancelled => Bool
  | .fetch _ _ => Except String FetchPostsResult
  | .insertRun _ _ _ | .execute _ | .recordProgress _ _ _
  | .finishRun _ _ _ _ | .failRun _ _ => Except String Unit

abbrev Snapshot : Type → Type := Prog SnapshotCall SnapshotCall.Reply

abbrev SnapshotExchange : Type := Prog.Exchange SnapshotCall SnapshotCall.Reply

structure ChainSnapshotSummary where
  jobRunId : Uuid
  postsUpserted : ℕ
  pages : ℕ
  skipped : ℕ
  completed : Bool
  deriving DecidableEq

def Totals.summary (totals : Totals) (runId : Uuid) (completed : Bool) :
    ChainSnapshotSummary where
  jobRunId := runId
  postsUpserted := totals.postsUpserted
  pages := totals.pages
  skipped := totals.skipped
  completed := completed

def chainPost (p : Post) : ChainPost where
  postId := p.id
  videoUid := p.videoUid
  creatorPrincipal := p.creatorPrincipal
  createdAt := systemTimeToUtc p.createdAt
  status := p.status.debug

/-- The posts of a page; those without a video are skipped. -/
def upsertPage (runId : Uuid) :
    List Post → Totals → Snapshot (Except String Totals)
  | [], totals => pure (.ok totals)
  | p :: ps, totals =>
      if p.videoUid = "" then
        upsertPage runId ps { totals with skipped := totals.skipped + 1 }
      else do
        match ← Prog.issue
            (SnapshotCall.execute (.upsertChainPost (chainPost p) runId)) with
        | .error e => pure (.error e)
        | .ok () =>
          upsertPage runId ps
            { totals with postsUpserted := totals.postsUpserted + 1 }

def Totals.nextPage (totals : Totals) : Totals :=
  { totals with pages := totals.pages + 1 }

/-- The loop, with `maxIters - pages` pages left: whether it is complete. -/
def walk (runId : Uuid) (limit : Option ℕ) :
    ℕ → Option String → Totals → Snapshot (Except String (Totals × Bool))
  | 0, _, totals => do
      let _ ← Prog.issue .isCancelled
      pure (.ok (totals, false))
  | left + 1, cursor, totals => do
      match ← Prog.issue SnapshotCall.isCancelled with
      | true => pure (.ok (totals, false))
      | false =>
        match ← Prog.issue (SnapshotCall.fetch pageSize cursor) with
        | .error e => pure (.error e)
        | .ok res =>
          match ← upsertPage runId res.posts totals.nextPage with
          | .error e => pure (.error e)
          | .ok totals =>
            let _ ← Prog.issue
              (.recordProgress runId res.lastPostIdFetched totals)
            if limit.any (· ≤ totals.postsUpserted) then
              pure (.ok (totals, false))
            else
              let (stop, next) := walkStep cursor res pageSize
              if stop then pure (.ok (totals, true))
              else walk runId limit left next totals

def rebuildYralUsers : Snapshot (Except String Unit) := do
  match ← Prog.issue (SnapshotCall.execute .deleteUsers) with
  | .error e => pure (.error e)
  | .ok () => Prog.issue (SnapshotCall.execute .insertUsers)

/-- `mark_stale_posts` and `rebuild_yral_users`. -/
def closeWalk (runId : Uuid) : Snapshot (Except String Unit) := do
  match ← Prog.issue (SnapshotCall.execute (.markStalePosts runId)) with
  | .error e => pure (.error e)
  | .ok () => rebuildYralUsers

def finish (runId : Uuid) (totals : Totals) (completed : Bool) :
    Snapshot (Except String ChainSnapshotSummary) := do
  let status := if completed then "completed" else "partial"
  match ← Prog.issue (SnapshotCall.finishRun runId status totals completed) with
  | .error e => pure (.error e)
  | .ok () =>
    pure (.ok (totals.summary runId completed))

/-- What follows the walk. -/
def conclude (runId : Uuid) : Except String (Totals × Bool) →
    Snapshot (Except String ChainSnapshotSummary)
  | .ok (totals, true) => do
      match ← closeWalk runId with
      | .error e => pure (.error e)
      | .ok () => finish runId totals true
  | .ok (totals, false) => finish runId totals false
  | .error e => do
      let _ ← Prog.issue (SnapshotCall.failRun runId e)
      pure (.error e)

def runChainSnapshot (runId : Uuid) (requestedBy : String) (limit : Option ℕ) :
    Snapshot (Except String ChainSnapshotSummary) := do
  match ← Prog.issue
      (SnapshotCall.insertRun runId "chain_snapshot" requestedBy) with
  | .error e => pure (.error e)
  | .ok () => do
      let result ← walk runId limit maxIters none {}
      conclude runId result

/-! ## The tables -/

/-- What a call leaves; a statement that reports an error may have been executed
all the same. -/
def SnapshotCall.Acts (t : ChainTables) (x : SnapshotExchange)
    (t' : ChainTables) : Prop :=
  match x with
  | ⟨.execute s, .ok _⟩ => t' = s.apply t
  | ⟨.execute s, .error _⟩ => t' = t ∨ t' = s.apply t
  | _ => t' = t

/-- The statement of an exchange that succeeded. -/
def executed : SnapshotExchange → Option ChainStatement
  | ⟨.execute s, .ok _⟩ => some s
  | _ => none

/-- A statement failed. -/
def Refused : SnapshotExchange → Prop
  | ⟨.execute _, .error _⟩ => True
  | _ => False

/-- The posts of a page. -/
def fetched : SnapshotExchange → List Post
  | ⟨.fetch _ _, .ok res⟩ => res.posts
  | _ => []

variable {t t' : ChainTables} {tr : List SnapshotExchange} {runId : Uuid}
  {limit : Option ℕ} {requestedBy : String}

/-- Where no statement fails, the tables are known. -/
theorem acts_executeAll (hok : ∀ x ∈ tr, ¬ Refused x)
    (h : Trace SnapshotCall.Acts t tr t') :
    t' = executeAll (tr.filterMap executed) t := by
  induction h with
  | nil t => rfl
  | @cons t t₁ t₂ x tr hact _ ih =>
      have hrest := ih fun y hy => hok y (List.mem_cons_of_mem _ hy)
      obtain ⟨e, r⟩ := x
      cases e with
      | execute s =>
          cases r with
          | ok u =>
              obtain rfl : t₁ = s.apply t := hact
              exact hrest
          | error m => exact absurd trivial (hok _ List.mem_cons_self)
      | _ =>
          obtain rfl : t₁ = t := hact
          exact hrest

theorem exists_acts (hok : ∀ x ∈ tr, ¬ Refused x) :
    ∃ t', Trace SnapshotCall.Acts t tr t' := by
  induction tr generalizing t with
  | nil => exact ⟨t, .nil t⟩
  | cons x tr ih =>
      have hfirst : ∃ t₁, SnapshotCall.Acts t x t₁ := by
        obtain ⟨e, r⟩ := x
        cases e with
        | execute s =>
            cases r with
            | ok u => exact ⟨s.apply t, rfl⟩
            | error m => exact absurd trivial (hok _ (.head _))
        | _ => exact ⟨t, rfl⟩
      obtain ⟨t₁, hact⟩ := hfirst
      obtain ⟨t', hrest⟩ := ih (t := t₁) fun y hy => hok y (.tail _ hy)
      exact ⟨t', .cons hact hrest⟩

/-! ## Runs of a walk -/

/-- The posts that are staged. -/
def staged (ps : List Post) : List Post := ps.filter (·.videoUid ≠ "")

@[simp] theorem mem_staged {ps : List Post} {p : Post} :
    p ∈ staged ps ↔ p ∈ ps ∧ p.videoUid ≠ "" := by
  unfold staged
  rw [List.mem_filter, decide_eq_true_eq]

def upsertOf (runId : Uuid) (p : Post) : ChainStatement :=
  .upsertChainPost (chainPost p) runId

/-- The calls of a walk. -/
def WalkCall (runId : Uuid) : SnapshotCall → Prop
  | .isCancelled | .fetch _ _ | .recordProgress _ _ _ => True
  | .execute s => ∃ post, s = .upsertChainPost post runId
  | _ => False

theorem upsertPage_only (ps : List Post) (totals : Totals) :
    (upsertPage runId ps totals).Only fun e =>
      ∃ post, e = .execute (.upsertChainPost post runId) := by
  induction ps generalizing totals with
  | nil => exact only_ret _
  | cons p ps ih =>
      unfold upsertPage
      split_ifs with hskip
      · exact ih _
      · refine ⟨⟨_, rfl⟩, fun r => ?_⟩
        cases r with
        | error e => exact only_ret _
        | ok u => exact ih _

/-- **What a page does**: it stages its posts, or a statement fails. -/
theorem upsertPage_runs {ps : List Post} {totals : Totals}
    {out : Except String Totals} (h : Runs (upsertPage runId ps totals) tr out) :
    (∃ e, out = .error e ∧ ∃ x ∈ tr, Refused x) ∨
    ∃ totals', out = .ok totals' ∧ (∀ x ∈ tr, ¬ Refused x) ∧
      tr.filterMap executed = (staged ps).map (upsertOf runId) ∧
      totals'.postsUpserted = totals.postsUpserted + (staged ps).length := by
  induction ps generalizing totals tr with
  | nil =>
      obtain ⟨rfl, rfl⟩ := runs_ret.mp h
      exact .inr ⟨totals, rfl, by simp, rfl, rfl⟩
  | cons p ps ih =>
      unfold upsertPage at h
      -- a post without a video is neither staged nor upserted
      split_ifs at h with hskip
      · have hstaged : staged (p :: ps) = staged ps :=
          List.filter_cons_of_neg (by simpa using hskip)
        have hrest := ih h
        rwa [hstaged]
      · have hstaged : staged (p :: ps) = p :: staged ps :=
          List.filter_cons_of_pos (by simpa using hskip)
        simp only [bind_eq, issue_bind, pure_eq, runs_call] at h
        obtain ⟨r, tr', rfl, h⟩ := h
        cases r with
        | error e =>
            obtain ⟨rfl, rfl⟩ := runs_ret.mp h
            exact .inl ⟨e, rfl, _, List.mem_cons_self, trivial⟩
        | ok u =>
            rcases ih h with ⟨e, rfl, x, hx, hrefused⟩ |
              ⟨totals', rfl, hok, hexec, hcount⟩
            · exact .inl ⟨e, rfl, x, List.mem_cons_of_mem _ hx, hrefused⟩
            · refine .inr ⟨totals', rfl, ?_, ?_, ?_⟩
              · intro x hx
                rcases List.mem_cons.mp hx with rfl | hx
                · exact id
                · exact hok x hx
              · rw [hstaged, List.map_cons, ← hexec]
                rfl
              · rw [hstaged, hcount, List.length_cons]
                show totals.postsUpserted + 1 + _ = _
                omega

/-- A page from its cancellation check to its upserts. -/
def pageOf (cursor : Option String) (res : FetchPostsResult)
    (upserts : List SnapshotExchange) : List SnapshotExchange :=
  ⟨.isCancelled, false⟩ :: ⟨.fetch pageSize cursor, .ok res⟩ :: upserts

/-- A page that is staged, with its progress recorded or not. -/
def stagedPage (runId : Uuid) (cursor : Option String) (res : FetchPostsResult)
    (upserts : List SnapshotExchange) (totals : Totals)
    (r : Except String Unit) : List SnapshotExchange :=
  pageOf cursor res upserts ++
    [⟨.recordProgress runId res.lastPostIdFetched totals, r⟩]

/-- The traces of the loop, by the way they end. -/
inductive WalkRun (runId : Uuid) (limit : Option ℕ) : ℕ → Option String →
    Totals → List SnapshotExchange → Except String (Totals × Bool) → Prop
  | exhausted (cursor : Option String) (totals : Totals) (b : Bool) :
      WalkRun runId limit 0 cursor totals [⟨.isCancelled, b⟩]
        (.ok (totals, false))
  | cancelled (left : ℕ) (cursor : Option String) (totals : Totals) :
      WalkRun runId limit (left + 1) cursor totals [⟨.isCancelled, true⟩]
        (.ok (totals, false))
  | noPage (left : ℕ) (cursor : Option String) (totals : Totals) (e : String) :
      WalkRun runId limit (left + 1) cursor totals
        [⟨.isCancelled, false⟩, ⟨.fetch pageSize cursor, .error e⟩] (.error e)
  | notStaged (left : ℕ) (cursor : Option String) (totals : Totals)
      (res : FetchPostsResult) (upserts : List SnapshotExchange) (e : String)
      (h : Runs (upsertPage runId res.posts totals.nextPage) upserts
        (.error e)) :
      WalkRun runId limit (left + 1) cursor totals (pageOf cursor res upserts)
        (.error e)
  | limited (left : ℕ) (cursor : Option String) (totals totals' : Totals)
      (res : FetchPostsResult) (upserts : List SnapshotExchange)
      (r : Except String Unit)
      (h : Runs (upsertPage runId res.posts totals.nextPage) upserts
        (.ok totals'))
      (hlimit : limit.any (· ≤ totals'.postsUpserted)) :
      WalkRun runId limit (left + 1) cursor totals
        (stagedPage runId cursor res upserts totals' r) (.ok (totals', false))
  | stopped (left : ℕ) (cursor : Option String) (totals totals' : Totals)
      (res : FetchPostsResult) (upserts : List SnapshotExchange)
      (r : Except String Unit)
      (h : Runs (upsertPage runId res.posts totals.nextPage) upserts
        (.ok totals'))
      (hlimit : ¬ limit.any (· ≤ totals'.postsUpserted))
      (hstop : (walkStep cursor res pageSize).1 = true) :
      WalkRun runId limit (left + 1) cursor totals
        (stagedPage runId cursor res upserts totals' r) (.ok (totals', true))
  | next (left : ℕ) (cursor : Option String) (totals totals' : Totals)
      (res : FetchPostsResult) (upserts rest : List SnapshotExchange)
      (r : Except String Unit) (out : Except String (Totals × Bool))
      (h : Runs (upsertPage runId res.posts totals.nextPage) upserts
        (.ok totals'))
      (hlimit : ¬ limit.any (· ≤ totals'.postsUpserted))
      (hstop : (walkStep cursor res pageSize).1 = false)
      (hrest : WalkRun runId limit left (walkStep cursor res pageSize).2 totals'
        rest out) :
      WalkRun runId limit (left + 1) cursor totals
        (stagedPage runId cursor res upserts totals' r ++ rest) out

theorem walk_runs {left : ℕ} {cursor : Option String} {totals : Totals}
    {out : Except String (Totals × Bool)}
    (h : Runs (walk runId limit left cursor totals) tr out) :
    WalkRun runId limit left cursor totals tr out := by
  induction left generalizing cursor totals tr with
  | zero =>
      simp only [walk, bind_eq, issue_bind, pure_eq, runs_call, runs_ret] at h
      obtain ⟨b, _, rfl, rfl, rfl⟩ := h
      exact .exhausted cursor totals b
  | succ left ih =>
      simp only [walk, bind_eq, issue_bind, pure_eq, runs_call] at h
      obtain ⟨b, tr₁, rfl, h⟩ := h
      -- the cancellation is looked at before each page
      cases b with
      | true =>
          obtain ⟨rfl, rfl⟩ := runs_ret.mp h
          exact .cancelled left cursor totals
      | false =>
          simp only [runs_call] at h
          obtain ⟨r, tr₂, rfl, h⟩ := h
          cases r with
          | error e =>
              obtain ⟨rfl, rfl⟩ := runs_ret.mp h
              exact .noPage left cursor totals e
          | ok res =>
              obtain ⟨r, upserts, tr₃, rfl, hupserts, h⟩ := runs_bind.mp h
              cases r with
              | error e =>
                  obtain ⟨rfl, rfl⟩ := runs_ret.mp h
                  rw [List.append_nil]
                  exact .notStaged left cursor totals res upserts e hupserts
              | ok totals' =>
                  simp only [runs_call] at h
                  obtain ⟨r, tr₄, rfl, hrest⟩ := h
                  -- the limit is looked at before the page says whether to go on
                  split_ifs at hrest with hlimit hstop
                  · obtain ⟨rfl, rfl⟩ := runs_ret.mp hrest
                    exact .limited left cursor totals totals' res upserts r
                      hupserts hlimit
                  · obtain ⟨rfl, rfl⟩ := runs_ret.mp hrest
                    exact .stopped left cursor totals totals' res upserts r
                      hupserts hlimit hstop
                  · have hnext := WalkRun.next left cursor totals totals' res
                      upserts tr₄ r out hupserts hlimit
                      (Bool.eq_false_iff.mpr hstop) (ih hrest)
                    simpa only [stagedPage, pageOf, List.cons_append,
                      List.append_assoc, List.nil_append] using hnext

section Walk

variable {left : ℕ} {cursor : Option String} {totals totals' : Totals}
  {res : FetchPostsResult} {upserts : List SnapshotExchange}
  {r : Except String Unit}

theorem upserts_fetched {out : Except String Totals} {ps : List Post}
    (h : Runs (upsertPage runId ps totals) tr out) : tr.flatMap fetched = [] := by
  rw [List.flatMap_eq_nil_iff]
  intro x hx
  obtain ⟨post, hcall⟩ := (upsertPage_only ps totals).runs h x hx
  obtain ⟨e, r⟩ := x
  obtain rfl : e = _ := hcall
  rfl

/-- A staged page: nothing failed, and its posts are staged. -/
theorem stagedPage_executed (cursor : Option String) (r : Except String Unit)
    (h : Runs (upsertPage runId res.posts totals.nextPage) upserts
      (.ok totals')) :
    (∀ x ∈ stagedPage runId cursor res upserts totals' r, ¬ Refused x) ∧
    (stagedPage runId cursor res upserts totals' r).filterMap executed
      = (staged res.posts).map (upsertOf runId) ∧
    (stagedPage runId cursor res upserts totals' r).flatMap fetched
      = res.posts ∧
    totals'.postsUpserted
      = totals.postsUpserted + (staged res.posts).length := by
  rcases upsertPage_runs h with ⟨e, he, -⟩ | ⟨_, ⟨⟩, hok, hexec, hcount⟩
  · cases he
  refine ⟨?_, ?_, ?_, hcount⟩
  · intro x hx
    simp only [stagedPage, pageOf, List.cons_append, List.mem_cons,
      List.mem_append, List.not_mem_nil, or_false] at hx
    rcases hx with rfl | rfl | hx | rfl
    · exact id
    · exact id
    · exact hok x hx
    · exact id
  · show (upserts ++ [_]).filterMap executed = _
    rw [List.filterMap_append, hexec]
    exact List.append_nil _
  · show res.posts ++ (upserts ++ [_]).flatMap fetched = _
    rw [List.flatMap_append, upserts_fetched h]
    exact List.append_nil _

/-- A walk that returns has staged what it fetched. -/
theorem WalkRun.executed {done : Bool}
    (h : WalkRun runId limit left cursor totals tr (.ok (totals', done))) :
    (∀ x ∈ tr, ¬ Refused x) ∧
    tr.filterMap executed = (staged (tr.flatMap fetched)).map (upsertOf runId) ∧
    totals'.postsUpserted
      = totals.postsUpserted + (staged (tr.flatMap fetched)).length := by
  generalize hout : Except.ok (totals', done) = out at h
  induction h with
  | exhausted cursor totals b =>
      cases hout
      exact ⟨by simp [Refused], rfl, rfl⟩
  | cancelled left cursor totals =>
      cases hout
      exact ⟨by simp [Refused], rfl, rfl⟩
  | noPage => cases hout
  | notStaged => cases hout
  | limited left cursor totals totals'' res upserts r h =>
      cases hout
      obtain ⟨hok, hexec, hfetched, hcount⟩ :=
        stagedPage_executed cursor r h
      exact ⟨hok, by rw [hexec, hfetched], by rw [hfetched, hcount]⟩
  | stopped left cursor totals totals'' res upserts r h =>
      cases hout
      obtain ⟨hok, hexec, hfetched, hcount⟩ :=
        stagedPage_executed cursor r h
      exact ⟨hok, by rw [hexec, hfetched], by rw [hfetched, hcount]⟩
  | next left cursor totals totals'' res upserts rest r out h _ _ _ ih =>
      obtain ⟨hok, hexec, hfetched, hcount⟩ :=
        stagedPage_executed cursor r h
      -- the upserts of the page, and behind them those of the rest
      obtain ⟨hok', hexec', hcount'⟩ := ih hout
      refine ⟨?_, ?_, ?_⟩
      · intro x hx
        rcases List.mem_append.mp hx with hx | hx
        · exact hok x hx
        · exact hok' x hx
      · rw [List.filterMap_append, List.flatMap_append, hexec, hexec', hfetched]
        simp only [staged, List.filter_append, List.map_append]
      · rw [List.flatMap_append, hfetched, hcount', hcount]
        simp only [staged, List.filter_append, List.length_append]
        omega

theorem walk_only (left : ℕ) (cursor : Option String) (totals : Totals) :
    (walk runId limit left cursor totals).Only (WalkCall runId) := by
  induction left generalizing cursor totals with
  | zero => exact ⟨trivial, fun _ => only_ret _⟩
  | succ left ih =>
      simp only [walk, bind_eq, issue_bind, pure_eq]
      refine ⟨trivial, fun b => ?_⟩
      cases b with
      | true => exact only_ret _
      | false =>
          refine ⟨trivial, fun r => ?_⟩
          cases r with
          | error e => exact only_ret _
          | ok res =>
              refine Only.bind (p := upsertPage runId res.posts _) ?_ fun r => ?_
              · refine (upsertPage_only res.posts _).mono ?_
                rintro _ ⟨post, rfl⟩
                exact ⟨post, rfl⟩
              · cases r with
                | error e => exact only_ret _
                | ok totals' =>
                    refine ⟨trivial, fun _ => ?_⟩
                    dsimp only
                    split_ifs
                    · exact only_ret _
                    · exact only_ret _
                    · exact ih _ _

end Walk

/-! ## Runs of a snapshot -/

/-- The traces of a snapshot: its row, its walk and what follows. -/
inductive SnapshotRun (runId : Uuid) (requestedBy : String) (limit : Option ℕ) :
    List SnapshotExchange → Except String ChainSnapshotSummary → Prop
  | notInserted (e : String) :
      SnapshotRun runId requestedBy limit
        [⟨.insertRun runId "chain_snapshot" requestedBy, .error e⟩] (.error e)
  | walked (walkTr rest : List SnapshotExchange)
      (result : Except String (Totals × Bool))
      (out : Except String ChainSnapshotSummary)
      (hwalk : WalkRun runId limit maxIters none {} walkTr result)
      (honly : ∀ x ∈ walkTr, WalkCall runId x.1)
      (hrest : Runs (conclude runId result) rest out) :
      SnapshotRun runId requestedBy limit
        (⟨.insertRun runId "chain_snapshot" requestedBy, .ok ()⟩ ::
          (walkTr ++ rest)) out

theorem runChainSnapshot_runs {out : Except String ChainSnapshotSummary}
    (h : Runs (runChainSnapshot runId requestedBy limit) tr out) :
    SnapshotRun runId requestedBy limit tr out := by
  simp only [runChainSnapshot, bind_eq, issue_bind, pure_eq, runs_call] at h
  obtain ⟨r, tr', rfl, h⟩ := h
  cases r with
  | error e =>
      obtain ⟨rfl, rfl⟩ := runs_ret.mp h
      exact .notInserted e
  | ok u =>
      obtain ⟨result, walkTr, rest, rfl, hwalk, hrest⟩ := runs_bind.mp h
      exact .walked walkTr rest result out (walk_runs hwalk)
        ((walk_only _ _ _).runs hwalk) hrest

/-- Behind an incomplete walk no statement follows, and the run does not report
a complete one. -/
theorem conclude_incomplete {result : Except String (Totals × Bool)}
    {out : Except String ChainSnapshotSummary}
    (hresult : ∀ totals, result ≠ .ok (totals, true))
    (h : Runs (conclude runId result) tr out) :
    (∀ x ∈ tr, ∀ s, x.1 ≠ .execute s) ∧
      ∀ summary, out = .ok summary → summary.completed = false := by
  rcases result with e | ⟨totals, _ | _⟩
  · simp only [conclude, bind_eq, issue_bind, pure_eq, runs_call, runs_ret] at h
    obtain ⟨r, _, rfl, rfl, rfl⟩ := h
    refine ⟨fun x hx s hs => ?_, fun summary hs => by cases hs⟩
    obtain rfl := List.mem_singleton.mp hx
    cases hs
  · simp only [conclude, finish, bind_eq, issue_bind, pure_eq, runs_call] at h
    obtain ⟨r, tr', rfl, h⟩ := h
    cases r with
    | error e =>
        obtain ⟨rfl, rfl⟩ := runs_ret.mp h
        refine ⟨fun x hx s hs => ?_, fun summary hs => by cases hs⟩
        obtain rfl := List.mem_singleton.mp hx
        cases hs
    | ok u =>
        obtain ⟨rfl, rfl⟩ := runs_ret.mp h
        refine ⟨fun x hx s hs => ?_, ?_⟩
        · obtain rfl := List.mem_singleton.mp hx
          cases hs
        · rintro _ ⟨⟩
          rfl
  · exact absurd rfl (hresult totals)

/-- The statements behind a complete walk. -/
def closing (runId : Uuid) : List ChainStatement :=
  [.markStalePosts runId, .deleteUsers, .insertUsers]

/-- They are all executed, or one of them fails. -/
theorem closeWalk_runs {r : Except String Unit}
    (h : Runs (closeWalk runId) tr r) :
    ((∃ e, r = .error e) ∧ ∃ x ∈ tr, Refused x) ∨
      (r = .ok () ∧ tr = (closing runId).map fun s => ⟨.execute s, .ok ()⟩) := by
  simp only [closeWalk, rebuildYralUsers, bind_eq, issue_bind, pure_eq,
    runs_call] at h
  obtain ⟨r₁, tr₁, rfl, h⟩ := h
  cases r₁ with
  | error e => exact .inl ⟨⟨e, (runs_ret.mp h).2⟩, _, .head _, trivial⟩
  | ok u =>
      simp only [runs_call] at h
      obtain ⟨r₂, tr₂, rfl, h⟩ := h
      cases r₂ with
      | error e =>
          exact .inl ⟨⟨e, (runs_ret.mp h).2⟩, _, .tail _ (.head _), trivial⟩
      | ok u =>
          simp only [issue, runs_call, runs_ret] at h
          obtain ⟨r₃, _, rfl, rfl, rfl⟩ := h
          cases r with
          | error e =>
              exact .inl ⟨⟨e, rfl⟩, _, .tail _ (.tail _ (.head _)), trivial⟩
          | ok u => exact .inr ⟨rfl, rfl⟩

/-- Behind a complete walk that is reported the posts are flagged and the users
rebuilt. -/
theorem conclude_completed {totals : Totals} {summary : ChainSnapshotSummary}
    (h : Runs (conclude runId (.ok (totals, true))) tr (.ok summary)) :
    (∀ x ∈ tr, ¬ Refused x) ∧ tr.filterMap executed = closing runId ∧
      tr.flatMap fetched = [] ∧ summary = totals.summary runId true := by
  simp only [conclude, bind_eq, runs_bind] at h
  obtain ⟨r, closed, rest, rfl, hclosed, h⟩ := h
  rcases r with e | ⟨⟩
  · exact absurd h not_runs_error
  obtain ⟨⟨e, ⟨⟩⟩, -⟩ | ⟨-, rfl⟩ := closeWalk_runs hclosed
  simp only [finish, bind_eq, issue_bind, pure_eq, runs_call] at h
  obtain ⟨r, rest, rfl, h⟩ := h
  rcases r with e | ⟨⟩
  · exact absurd h not_runs_error
  · obtain ⟨rfl, heq⟩ := runs_ret.mp h
    exact ⟨by simp [closing, Refused], rfl, rfl, Except.ok.inj heq⟩

/-- **What a complete run has executed**: it has staged what it fetched, then
flagged the rest and rebuilt the users. -/
theorem completed_executed {summary : ChainSnapshotSummary}
    (h : Runs (runChainSnapshot runId requestedBy limit) tr (.ok summary))
    (hcompleted : summary.completed = true) :
    (∀ x ∈ tr, ¬ Refused x) ∧ tr.filterMap executed
      = (staged (tr.flatMap fetched)).map (upsertOf runId) ++ closing runId := by
  generalize hout : Except.ok summary = out at h
  cases runChainSnapshot_runs h with
  | notInserted e => cases hout
  | walked walkTr rest result out hwalk honly hrest =>
      subst hout
      rcases result with e | ⟨totals, _ | _⟩
      · obtain ⟨-, hfalse⟩ := conclude_incomplete (fun _ h => by cases h) hrest
        rw [hfalse summary rfl] at hcompleted
        cases hcompleted
      · obtain ⟨-, hfalse⟩ := conclude_incomplete (fun _ h => by cases h) hrest
        rw [hfalse summary rfl] at hcompleted
        cases hcompleted
      · obtain ⟨hok, hexec, -⟩ := hwalk.executed
        obtain ⟨hok', hexec', hfetched', -⟩ := conclude_completed hrest
        refine ⟨?_, ?_⟩
        · intro x hx
          rcases List.mem_cons.mp hx with rfl | hx
          · exact id
          · rcases List.mem_append.mp hx with hx | hx
            · exact hok x hx
            · exact hok' x hx
        · show (walkTr ++ rest).filterMap executed = _
          rw [List.filterMap_append, hexec, hexec']
          show _ = (staged ((walkTr ++ rest).flatMap fetched)).map _ ++ _
          rw [List.flatMap_append, hfetched', List.append_nil]

/-! ## Runs that end early -/

/-- A cancellation that is seen, or an error of the source. -/
def Interrupts : SnapshotExchange → Prop
  | ⟨.isCancelled, b⟩ => b = true
  | ⟨.fetch _ _, .error _⟩ => True
  | _ => False

theorem stagedPage_undisturbed {cursor : Option String}
    {totals totals' : Totals} {res : FetchPostsResult}
    {upserts : List SnapshotExchange} {r : Except String Unit}
    (h : Runs (upsertPage runId res.posts totals) upserts (.ok totals')) :
    ∀ x ∈ stagedPage runId cursor res upserts totals' r, ¬ Interrupts x := by
  intro x hx
  simp only [stagedPage, pageOf, List.cons_append, List.mem_cons,
    List.mem_append, List.not_mem_nil, or_false] at hx
  rcases hx with rfl | rfl | hx | rfl
  · exact Bool.false_ne_true
  · exact id
  · obtain ⟨post, hcall⟩ := (upsertPage_only res.posts totals).runs h x hx
    obtain ⟨e, r⟩ := x
    obtain rfl : e = _ := hcall
    exact id
  · exact id

/-- A walk that is complete went on undisturbed to a page that stops it. -/
theorem WalkRun.complete {left : ℕ} {cursor : Option String}
    {totals totals' : Totals}
    (h : WalkRun runId limit left cursor totals tr (.ok (totals', true))) :
    (∀ x ∈ tr, ¬ Interrupts x) ∧ ¬ limit.any (· ≤ totals'.postsUpserted) ∧
    ∃ cursor res, ⟨.fetch pageSize cursor, .ok res⟩ ∈ tr ∧
      (walkStep cursor res pageSize).1 = true := by
  generalize hout : Except.ok (totals', true) = out at h
  induction h with
  | exhausted => cases hout
  | cancelled => cases hout
  | noPage => cases hout
  | notStaged => cases hout
  | limited => cases hout
  | stopped left cursor totals totals'' res upserts r h hlimit hstop =>
      cases hout
      refine ⟨stagedPage_undisturbed h, hlimit, cursor, res, ?_, hstop⟩
      exact .tail _ (.head _)
  | next left cursor totals totals'' res upserts rest r out h _ _ _ ih =>
      obtain ⟨hgood, hlimit, cursor', res', hmem, hstop⟩ := ih hout
      refine ⟨?_, hlimit, cursor', res', List.mem_append_right _ hmem, hstop⟩
      intro x hx
      rcases List.mem_append.mp hx with hx | hx
      · exact stagedPage_undisturbed h x hx
      · exact hgood x hx

end VideoStorage.Chain
