import VideoStorage.Chain.Snapshot

/-!
# Snapshots that end early

A run that is cancelled, reaches its limit or the last page it may fetch, or gets
an error of the source: its walk is not complete, so it flags no post and leaves
the users as they are (`EndsEarly.untouched`).
-/

namespace VideoStorage.Chain

open Foundation Prog

variable {runId : Uuid} {limit : Option ℕ} {requestedBy : String}
  {tr : List SnapshotExchange} {t t' : ChainTables}
  {out : Except String ChainSnapshotSummary}

/-! ## The ways to end early -/

def ChainStatement.isUpsert : ChainStatement → Bool
  | .upsertChainPost _ _ => true
  | _ => false

/-- How many posts have been upserted. -/
def upserted (tr : List SnapshotExchange) : ℕ :=
  (tr.filterMap executed).countP (·.isUpsert)

def isPage : SnapshotExchange → Bool
  | ⟨.fetch _ _, .ok _⟩ => true
  | _ => false

inductive EndsEarly (limit : Option ℕ) (tr : List SnapshotExchange) : Prop
  /-- Cancelled, or an error of the source. -/
  | interrupted (x : SnapshotExchange) (hx : x ∈ tr) (h : Interrupts x)
  | limited (l : ℕ) (hlimit : limit = some l) (h : l ≤ upserted tr)
  /-- `maxIters` pages, and none of them is the last. -/
  | exhausted (hpages : tr.countP isPage = maxIters)
      (h : ∀ cursor res, ⟨.fetch pageSize cursor, .ok res⟩ ∈ tr →
        (walkStep cursor res pageSize).1 = false)

/-- No row has become stale, and the users are the same. -/
structure Frame (t t' : ChainTables) : Prop where
  stale : ∀ row ∈ t'.posts.rows, row.stale = true → row ∈ t.posts.rows
  users : t'.users = t.users

/-- Nor does the run report a complete walk. -/
structure Untouched (t t' : ChainTables)
    (out : Except String ChainSnapshotSummary) : Prop extends Frame t t' where
  incomplete : ∀ summary, out = .ok summary → summary.completed = false

/-! ## An early end is no complete walk -/

/-- The calls behind a walk. -/
def ConcludeCall (runId : Uuid) : SnapshotCall → Prop
  | .execute s => s ∈ closing runId
  | .finishRun _ _ _ _ | .failRun _ _ => True
  | _ => False

theorem finish_only (totals : Totals) (completed : Bool) :
    (finish runId totals completed).Only (ConcludeCall runId) := by
  refine ⟨trivial, fun r => ?_⟩
  cases r with
  | error e => exact only_ret _
  | ok u => exact only_ret _

theorem closeWalk_only : (closeWalk runId).Only (ConcludeCall runId) := by
  refine ⟨.head _, fun r => ?_⟩
  cases r with
  | error e => exact only_ret _
  | ok u =>
      refine ⟨.tail _ (.head _), fun r => ?_⟩
      cases r with
      | error e => exact only_ret _
      | ok u => exact (only_issue _).mpr (.tail _ (.tail _ (.head _)))

theorem conclude_only (result : Except String (Totals × Bool)) :
    (conclude runId result).Only (ConcludeCall runId) := by
  rcases result with e | ⟨totals, _ | _⟩
  · exact ⟨trivial, fun _ => only_ret _⟩
  · exact finish_only totals false
  · refine closeWalk_only.bind fun r => ?_
    cases r with
    | error e => exact only_ret _
    | ok u => exact finish_only totals true

/-- What comes behind a walk upserts nothing. -/
theorem upserted_conclude (h : ∀ x ∈ tr, ConcludeCall runId x.1) :
    upserted tr = 0 := by
  unfold upserted
  rw [List.countP_eq_zero]
  intro s hs
  obtain ⟨⟨e, r⟩, hx, hexec⟩ := List.mem_filterMap.mp hs
  have hcall := h _ hx
  cases e with
  | execute s' =>
      cases r with
      | error m => cases hexec
      | ok u =>
          obtain rfl := Option.some.inj hexec
          have hmem : s' ∈ closing runId := hcall
          simp only [closing, List.mem_cons, List.not_mem_nil, or_false] at hmem
          rcases hmem with rfl | rfl | rfl <;> exact Bool.false_ne_true
  | _ => cases hexec

theorem upserted_append (tr tr' : List SnapshotExchange) :
    upserted (tr ++ tr') = upserted tr + upserted tr' := by
  unfold upserted
  rw [List.filterMap_append, List.countP_append]

/-- A walk has upserted what it counts. -/
theorem WalkRun.upserted_eq {left : ℕ} {cursor : Option String}
    {totals totals' : Totals} {done : Bool}
    (h : WalkRun runId limit left cursor totals tr (.ok (totals', done))) :
    totals'.postsUpserted = totals.postsUpserted + upserted tr := by
  obtain ⟨-, hexec, hcount⟩ := h.executed
  unfold upserted
  rw [hcount, hexec, List.countP_map]
  congr 1
  exact (List.countP_eq_length.mpr fun _ _ => rfl).symm

/-- **A complete walk does not end early.** -/
theorem not_endsEarly {walkTr rest : List SnapshotExchange} {totals : Totals}
    (hwalk : WalkRun runId limit maxIters none {} walkTr (.ok (totals, true)))
    (hrest : ∀ x ∈ rest, ConcludeCall runId x.1) :
    ¬ EndsEarly limit
      (⟨.insertRun runId "chain_snapshot" requestedBy, .ok ()⟩ ::
        (walkTr ++ rest)) := by
  obtain ⟨hgood, hlimit, cursor, res, hmem, hstop⟩ := hwalk.complete
  intro hearly
  cases hearly with
  | interrupted x hx h =>
      rcases List.mem_cons.mp hx with rfl | hx
      · exact h
      rcases List.mem_append.mp hx with hx | hx
      · exact hgood x hx h
      · have hcall := hrest x hx
        obtain ⟨e, r⟩ := x
        cases e with
        | isCancelled => exact hcall
        | fetch limit cursor => exact hcall
        | _ => exact h
  | limited l hl h =>
      subst hl
      -- what follows the walk upserts nothing
      have hcount : upserted (⟨.insertRun runId "chain_snapshot" requestedBy,
          .ok ()⟩ :: (walkTr ++ rest)) = totals.postsUpserted := by
        show upserted (walkTr ++ rest) = _
        rw [upserted_append, upserted_conclude hrest, hwalk.upserted_eq]
        show _ = 0 + _
        omega
      rw [hcount] at h
      exact hlimit (decide_eq_true h)
  | exhausted hpages h =>
      have hgo := h cursor res (.tail _ (List.mem_append_left _ hmem))
      rw [hstop] at hgo
      cases hgo

/-! ## What such a run leaves -/

theorem frame_refl (t : ChainTables) : Frame t t :=
  ⟨fun _ hrow _ => hrow, rfl⟩

theorem frame_upsert (t : ChainTables) (post : ChainPost) (runId : Uuid) :
    Frame t (ChainStatement.apply (.upsertChainPost post runId) t) := by
  refine ⟨fun row hrow hstale => ?_, rfl⟩
  rcases (Rows.mem_upsert _).mp hrow with rfl | ⟨hrow, -⟩
  · cases hstale
  · exact hrow

/-- A call that executes at most an upsert. -/
theorem acts_frame {x : SnapshotExchange} (h : SnapshotCall.Acts t x t')
    (hcall : ∀ s, x.1 = .execute s → ∃ post, s = .upsertChainPost post runId) :
    Frame t t' := by
  obtain ⟨e, r⟩ := x
  cases e with
  | execute s =>
      obtain ⟨post, rfl⟩ := hcall s rfl
      cases r with
      | ok u =>
          obtain rfl : t' = _ := h
          exact frame_upsert t post runId
      | error m =>
          rcases h with rfl | rfl
          · exact frame_refl _
          · exact frame_upsert t post runId
  | _ =>
      obtain rfl : t' = t := h
      exact frame_refl _

theorem upserts_frame (h : Trace SnapshotCall.Acts t tr t')
    (hcalls : ∀ x ∈ tr, ∀ s, x.1 = .execute s →
      ∃ post, s = .upsertChainPost post runId) : Frame t t' := by
  induction h with
  | nil t => exact frame_refl t
  | cons hact _ ih =>
      have hfirst := acts_frame hact (hcalls _ (.head _))
      have hrest := ih fun y hy => hcalls y (.tail _ hy)
      refine ⟨fun row hrow hs => ?_, hrest.users.trans hfirst.users⟩
      exact hfirst.stale row (hrest.stale row hrow hs) hs

/-- A run whose walk is not complete flags nothing and leaves the users. -/
theorem incomplete_untouched {walkTr rest : List SnapshotExchange}
    {result : Except String (Totals × Bool)}
    (honly : ∀ x ∈ walkTr, WalkCall runId x.1)
    (hresult : ∀ totals, result ≠ .ok (totals, true))
    (hrest : Runs (conclude runId result) rest out)
    (hacts : Trace SnapshotCall.Acts t
      (⟨.insertRun runId "chain_snapshot" requestedBy, .ok ()⟩ ::
        (walkTr ++ rest)) t') : Untouched t t' out := by
  obtain ⟨hnone, hincomplete⟩ := conclude_incomplete hresult hrest
  have hcalls : ∀ x ∈ (⟨.insertRun runId "chain_snapshot" requestedBy,
      .ok ()⟩ :: (walkTr ++ rest) : List SnapshotExchange), ∀ s,
      x.1 = .execute s → ∃ post, s = .upsertChainPost post runId := by
    intro x hx s hs
    rcases List.mem_cons.mp hx with rfl | hx
    · cases hs
    rcases List.mem_append.mp hx with hx | hx
    · have hcall := honly x hx
      rw [hs] at hcall
      exact hcall
    · exact absurd hs (hnone x hx s)
  have hframe := upserts_frame hacts hcalls
  exact ⟨hframe, hincomplete⟩

/-- **A run that ends early** flags nothing and leaves the users. -/
theorem EndsEarly.untouched
    (hrun : Runs (runChainSnapshot runId requestedBy limit) tr out)
    (hacts : Trace SnapshotCall.Acts t tr t') (hearly : EndsEarly limit tr) :
    Untouched t t' out := by
  cases runChainSnapshot_runs hrun with
  | notInserted e =>
      have hcalls : ∀ x ∈ ([⟨.insertRun runId "chain_snapshot" requestedBy,
          .error e⟩] : List SnapshotExchange), ∀ s, x.1 = .execute s →
          ∃ post, s = .upsertChainPost post runId := by
        simp
      have hframe := upserts_frame hacts hcalls
      exact ⟨hframe, fun summary h => by cases h⟩
  | walked walkTr rest result _ hwalk honly hrest =>
      refine incomplete_untouched honly ?_ hrest hacts
      rintro totals rfl
      exact not_endsEarly hwalk ((conclude_only _).runs hrest) hearly

end VideoStorage.Chain
