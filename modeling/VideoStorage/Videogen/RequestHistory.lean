import Mathlib.Data.List.Nodup
import VideoStorage.Videogen.RequestStore

/-!
# The history of a request

A row is inserted pending and changes at most once more, when it is closed
(`RequestRow.Evolves`). `StoreInv` is what holds of the store at all times,
`StoreLater` what one state says of any later one; a step keeps the first and is
an instance of the second.
-/

namespace VideoStorage.Videogen

open Foundation

/-! ## One row -/

/-- The nullable columns are filled as the status says. -/
structure RequestRow.Coherent (row : RequestRow) : Prop where
  video : row.videoId.isSome ↔ row.status = .complete
  bucket : row.bucketUrl.isSome ↔ row.status = .complete
  reason : row.failureReason.isSome ↔ row.status = .failed

/-- A row stays, or it is pending and gets closed. -/
inductive RequestRow.Evolves : RequestRow → RequestRow → Prop
  | same (row : RequestRow) : Evolves row row
  | closed (row : RequestRow) (hpending : row.status = .pending)
      (status : RequestStatus) (hclosed : status ≠ .pending)
      (videoId bucketUrl failureReason : Option String) :
      Evolves row { row with
        status := status
        videoId := videoId
        bucketUrl := bucketUrl
        failureReason := failureReason }

namespace RequestRow.Evolves

variable {r r' r'' : RequestRow}

theorem counter (h : r.Evolves r') : r'.counter = r.counter := by
  cases h <;> rfl

theorem principal (h : r.Evolves r') : r'.principal = r.principal := by
  cases h <;> rfl

theorem trans (h : r.Evolves r') (h' : r'.Evolves r'') : r.Evolves r'' := by
  cases h with
  | same => exact h'
  | closed hpending status hclosed v b f =>
      cases h' with
      | same => exact .closed r hpending status hclosed v b f
      | closed hpending' => exact absurd hpending' hclosed

/-- A closed row is not changed again. -/
theorem eq_of_closed (h : r.Evolves r') (hclosed : r.status ≠ .pending) :
    r' = r := by
  cases h with
  | same => rfl
  | closed hpending => exact absurd hpending hclosed

end RequestRow.Evolves

variable {w : RequestWrite} {seen : Seen} {row row' : RequestRow}
  {guard : RequestRow → Bool} {set : RequestRow → RequestRow}

theorem updateWhere_some (h : updateWhere guard set row = some row') :
    row' = row ∨ (guard row ∧ row' = set row) := by
  obtain rfl := Option.some.inj h
  split_ifs with hg
  · exact .inr ⟨hg, rfl⟩
  · exact .inl rfl

theorem updateWhere_of_not (h : ¬ guard row) :
    updateWhere guard set row = some row :=
  congrArg some (if_neg h)

/-- **What a statement does to a row**: it leaves it, or it closes a pending row
of its own principal. -/
theorem onRow_some (h : w.onRow seen row = some row') :
    row' = row ∨ (row.status = .pending ∧ row.principal = w.principal ∧
      ((∃ v b, row' = { row with
        status := .complete, videoId := some v, bucketUrl := some b }) ∨
      ∃ reason, row' = { row with
        status := .failed, failureReason := some reason })) := by
  cases w with
  | markComplete p c v b =>
      simp only [RequestWrite.onRow, markComplete] at h
      refine (updateWhere_some h).imp_right ?_
      rintro ⟨hg, hrow'⟩
      simp only [Bool.and_eq_true, beq_iff_eq] at hg
      exact ⟨hg.2, hg.1.1.2, .inl ⟨v, b, hrow'⟩⟩
  | markFailed p c reason =>
      simp only [RequestWrite.onRow, markFailed] at h
      refine (updateWhere_some h).imp_right ?_
      rintro ⟨hg, hrow'⟩
      simp only [Bool.and_eq_true, beq_iff_eq] at hg
      exact ⟨hg.2, hg.1.1.2, .inr ⟨reason, hrow'⟩⟩
  | expireStaleForPrincipal p secs now =>
      simp only [RequestWrite.onRow, expireStaleForPrincipal] at h
      refine (updateWhere_some h).imp_right ?_
      rintro ⟨hg, hrow'⟩
      simp only [Bool.and_eq_true, beq_iff_eq] at hg
      exact ⟨hg.1.2, hg.1.1.2, .inr ⟨staleReason secs, hrow'⟩⟩
  | purgeForPrincipal p days now =>
      simp only [RequestWrite.onRow, purgeForPrincipal] at h
      split_ifs at h
      exact .inl (Option.some.inj h).symm

/-- A statement does not touch a row of another principal. -/
theorem onRow_other (h : row.principal ≠ w.principal) :
    w.onRow seen row = some row := by
  have hp : (row.principal == w.principal) = false := beq_eq_false_iff_ne.mpr h
  cases w with
  | markComplete p c v b =>
      simp only [RequestWrite.onRow, markComplete]
      refine updateWhere_of_not ?_
      simp_all [RequestWrite.principal]
  | markFailed p c reason =>
      simp only [RequestWrite.onRow, markFailed]
      refine updateWhere_of_not ?_
      simp_all [RequestWrite.principal]
  | expireStaleForPrincipal p secs now =>
      simp only [RequestWrite.onRow, expireStaleForPrincipal]
      refine updateWhere_of_not ?_
      simp_all [RequestWrite.principal]
  | purgeForPrincipal p days now =>
      refine if_neg ?_
      simp_all [RequestWrite.principal]

theorem onRow_evolves (h : w.onRow seen row = some row') : row.Evolves row' := by
  rcases onRow_some h with rfl | ⟨hpending, -, ⟨v, b, rfl⟩ | ⟨reason, rfl⟩⟩
  · exact .same _
  · exact .closed row hpending .complete nofun _ _ _
  · exact .closed row hpending .failed nofun _ _ _

theorem onRow_coherent (h : w.onRow seen row = some row')
    (hc : row.Coherent) : row'.Coherent := by
  obtain ⟨hvideo, hbucket, hreason⟩ := hc
  rcases onRow_some h with rfl | ⟨hpending, -, ⟨v, b, rfl⟩ | ⟨reason, rfl⟩⟩
  · exact ⟨hvideo, hbucket, hreason⟩
  · constructor <;> simp_all
  · constructor <;> simp_all

/-! ## The store at all times -/

structure StoreInv (s : RequestStore) : Prop where
  coherent : ∀ r ∈ s.rows, r.Coherent
  pending : ∀ r ∈ s.inserting, r.status = .pending ∧ r.Coherent
  distinct : ((s.rows ++ s.inserting).map RequestRow.counter).Nodup
  below : ∀ r ∈ s.rows ++ s.inserting, r.counter < s.nextCounter

/-- What a state says of one after it: every later row of a counter drawn by now
comes from a row here, and no insert under way is new. -/
structure StoreLater (s t : RequestStore) : Prop where
  next : s.nextCounter ≤ t.nextCounter
  rows : ∀ r' ∈ t.rows, r'.counter < s.nextCounter →
    ∃ r ∈ s.rows ++ s.inserting, r.Evolves r'
  inserting : ∀ r' ∈ t.inserting, r'.counter < s.nextCounter →
    r' ∈ s.inserting

theorem StoreLater.refl (s : RequestStore) : StoreLater s s where
  next := le_rfl
  rows r' hr' _ := ⟨r', List.mem_append_left _ hr', .same r'⟩
  inserting _ hr' _ := hr'

theorem StoreLater.trans {s t u : RequestStore} (h : StoreLater s t)
    (h' : StoreLater t u) : StoreLater s u where
  next := le_trans h.next h'.next
  rows r'' hr'' hlt := by
    obtain ⟨r', hr', hev⟩ := h'.rows r'' hr'' (lt_of_lt_of_le hlt h.next)
    have hlt' : r'.counter < s.nextCounter := hev.counter ▸ hlt
    rcases List.mem_append.mp hr' with hr' | hr'
    · obtain ⟨r, hr, hev'⟩ := h.rows r' hr' hlt'
      exact ⟨r, hr, hev'.trans hev⟩
    · exact ⟨r', List.mem_append_right _ (h.inserting r' hr' hlt'), hev⟩
  inserting r' hr' hlt :=
    h.inserting r' (h'.inserting r' hr' (lt_of_lt_of_le hlt h.next)) hlt

variable {rfc3339 : ℤ → String} {s t : RequestStore} {e : RequestEvent}

/-- Counters of what a statement leaves are among those it found. -/
theorem map_counter_filterMap_sublist (rows : List RequestRow) :
    ((rows.filterMap (w.onRow seen)).map RequestRow.counter).Sublist
      (rows.map RequestRow.counter) := by
  induction rows with
  | nil => exact List.Sublist.slnil
  | cons r rows ih =>
      cases h : w.onRow seen r with
      | none =>
          rw [List.filterMap_cons_none h]
          exact ih.cons _
      | some r' =>
          rw [List.filterMap_cons_some h, List.map_cons, List.map_cons,
            (onRow_evolves h).counter]
          exact ih.cons_cons _

theorem StoreInv.step (h : StoreInv s) (hstep : RequestStep rfc3339 s e t) :
    StoreInv t := by
  obtain ⟨hcoherent, hpending, hdistinct, hbelow⟩ := h
  cases hstep with
  | draw req now hnext =>
      have hperm : (s.rows ++ req.row s.nextCounter now :: s.inserting).Perm
          (req.row s.nextCounter now :: (s.rows ++ s.inserting)) :=
        List.perm_middle
      refine ⟨hcoherent, ?_, ?_, ?_⟩
      · intro r hr
        rcases List.mem_cons.mp hr with rfl | hr
        · exact ⟨rfl, by constructor <;> simp [NewRequest.row]⟩
        · exact hpending r hr
      -- the counter drawn is above all others
      · rw [(hperm.map RequestRow.counter).nodup_iff, List.map_cons]
        refine List.nodup_cons.mpr ⟨fun hmem => ?_, hdistinct⟩
        obtain ⟨r, hr, heq⟩ := List.mem_map.mp hmem
        have hlt := hbelow r hr
        rw [heq] at hlt
        exact lt_irrefl _ hlt
      · intro r hr
        rcases List.mem_cons.mp (hperm.mem_iff.mp hr) with rfl | hr
        · exact Int.lt_succ s.nextCounter
        · exact Int.lt_trans (hbelow r hr) (Int.lt_succ s.nextCounter)
  | inserted row hrow =>
      -- the row moves from the inserts under way to the table
      have hperm : (row :: s.rows ++ s.inserting.erase row).Perm
          (s.rows ++ s.inserting) :=
        List.perm_middle.symm.trans
          ((List.perm_cons_erase hrow).symm.append_left s.rows)
      refine ⟨?_, ?_, ?_, ?_⟩
      · intro r hr
        rcases List.mem_cons.mp hr with rfl | hr
        · exact (hpending r hrow).2
        · exact hcoherent r hr
      · exact fun r hr => hpending r (List.mem_of_mem_erase hr)
      · exact (hperm.map RequestRow.counter).nodup_iff.mpr hdistinct
      · exact fun r hr => hbelow r (hperm.mem_iff.mp hr)
  | abandoned row hrow =>
      -- an insert that fails leaves its counter unused
      have hsub : (s.rows ++ s.inserting.erase row).Sublist
          (s.rows ++ s.inserting) :=
        (List.erase_sublist).append_left s.rows
      exact ⟨hcoherent, fun r hr => hpending r (List.mem_of_mem_erase hr),
        hdistinct.sublist (hsub.map _), fun r hr => hbelow r (hsub.subset hr)⟩
  | write w seen =>
      -- a statement changes rows in place and keeps their counters
      refine ⟨?_, hpending, ?_, ?_⟩
      · intro r' hr'
        obtain ⟨r, hr, hrow⟩ := List.mem_filterMap.mp hr'
        exact onRow_coherent hrow (hcoherent r hr)
      · show (((s.rows.filterMap _) ++ s.inserting).map _).Nodup
        rw [List.map_append] at hdistinct ⊢
        exact hdistinct.sublist
          ((map_counter_filterMap_sublist s.rows).append_right _)
      · intro r' hr'
        rcases List.mem_append.mp hr' with hr' | hr'
        · obtain ⟨r, hr, hrow⟩ := List.mem_filterMap.mp hr'
          rw [(onRow_evolves hrow).counter]
          exact hbelow r (List.mem_append_left _ hr)
        · exact hbelow r' (List.mem_append_right _ hr')
  | listPending principal out _ =>
      exact ⟨hcoherent, hpending, hdistinct, hbelow⟩

theorem StoreLater.of_step (hstep : RequestStep rfc3339 s e t) :
    StoreLater s t := by
  cases hstep with
  | draw req now hnext =>
      refine ⟨?_, (StoreLater.refl s).rows, ?_⟩
      · show s.nextCounter ≤ s.nextCounter + 1
        omega
      · intro r' hr' hlt
        rcases List.mem_cons.mp hr' with rfl | hr'
        · exact absurd hlt (lt_irrefl _)
        · exact hr'
  | inserted row hrow =>
      refine ⟨le_rfl, ?_, fun r' hr' _ => List.mem_of_mem_erase hr'⟩
      intro r' hr' _
      rcases List.mem_cons.mp hr' with rfl | hr'
      · exact ⟨r', List.mem_append_right _ hrow, .same r'⟩
      · exact ⟨r', List.mem_append_left _ hr', .same r'⟩
  | abandoned row hrow =>
      exact ⟨le_rfl, (StoreLater.refl s).rows,
        fun r' hr' _ => List.mem_of_mem_erase hr'⟩
  | write w seen =>
      refine ⟨le_rfl, ?_, (StoreLater.refl s).inserting⟩
      intro r' hr' _
      obtain ⟨r, hr, hrow⟩ := List.mem_filterMap.mp hr'
      exact ⟨r, List.mem_append_left _ hr, onRow_evolves hrow⟩
  | listPending principal out _ => exact StoreLater.refl _

/-! ## Runs -/

variable {es es' : List RequestEvent}

theorem StoreInv.empty : StoreInv {} where
  coherent _ hr := absurd hr List.not_mem_nil
  pending _ hr := absurd hr List.not_mem_nil
  distinct := List.nodup_nil
  below _ hr := absurd hr List.not_mem_nil

theorem StoreInv.run (hs : StoreInv s) (h : Trace (RequestStep rfc3339) s es t) :
    StoreInv t :=
  h.invariant StoreInv (fun _ _ _ ha hab => ha.step hab) hs

theorem StoreLater.of_run (h : Trace (RequestStep rfc3339) s es t) :
    StoreLater s t :=
  h.relates (fun _ => True) .refl (fun _ _ _ => .trans)
    (fun _ _ _ _ _ => trivial) (fun _ _ _ _ hab => .of_step hab) trivial

/-- Two rows of one counter in one state are the same. -/
theorem StoreInv.eq_of_counter (hs : StoreInv s) {r r' : RequestRow}
    (hr : r ∈ s.rows ++ s.inserting) (hr' : r' ∈ s.rows ++ s.inserting)
    (h : r.counter = r'.counter) : r = r' :=
  List.inj_on_of_nodup_map hs.distinct hr hr' h

/-- A row under way has no counter of the table. -/
theorem StoreInv.apart (hs : StoreInv s) {r r' : RequestRow} (hr : r ∈ s.rows)
    (hr' : r' ∈ s.inserting) : r.counter ≠ r'.counter := by
  have hdistinct := hs.distinct
  rw [List.map_append] at hdistinct
  have hdisjoint := List.disjoint_of_nodup_append hdistinct
  intro heq
  have hmem : r.counter ∈ s.inserting.map RequestRow.counter :=
    heq ▸ List.mem_map_of_mem hr'
  exact hdisjoint (List.mem_map_of_mem hr) hmem

/-- A row and the later row of its counter. -/
theorem StoreLater.evolves (h : StoreLater s t) (hs : StoreInv s)
    {r r' : RequestRow} (hr : r ∈ s.rows) (hr' : r' ∈ t.rows)
    (hc : r'.counter = r.counter) : r.Evolves r' := by
  have hmem : r ∈ s.rows ++ s.inserting := List.mem_append_left _ hr
  obtain ⟨r₀, hr₀, hev⟩ := h.rows r' hr' (hc ▸ hs.below r hmem)
  have heq : r₀ = r := hs.eq_of_counter hr₀ hmem (hev.counter.symm.trans hc)
  exact heq ▸ hev

/-- A counter that an insert returns stands in no row of any earlier state. -/
theorem returned_fresh (h : Trace (RequestStep rfc3339) s es t)
    (hs : StoreInv s) {c : ℤ} (hc : c ∈ es.filterMap RequestEvent.returned) :
    ∀ r ∈ s.rows, r.counter ≠ c := by
  intro r hr
  obtain ⟨e, he, hret⟩ := List.mem_filterMap.mp hc
  cases e with
  | inserted row =>
      obtain rfl := Option.some.inj hret
      obtain ⟨pre, post, rfl⟩ := List.append_of_mem he
      obtain ⟨a, b, hpre, hstep, -⟩ := h.at_event
      cases hstep with
      | inserted _ hrow =>
          intro heq
          have hlt := hs.below r (List.mem_append_left _ hr)
          exact hs.apart hr
            ((StoreLater.of_run hpre).inserting row hrow (heq ▸ hlt)) heq
  | _ => cases hret

/-- Counters are never handed out twice. -/
theorem returned_nodup (h : Trace (RequestStep rfc3339) s es t)
    (hs : StoreInv s) : (es.filterMap RequestEvent.returned).Nodup := by
  induction h with
  | nil s => exact List.nodup_nil
  | @cons s t u e es hstep hrun ih =>
      have ht : StoreInv t := hs.step hstep
      cases hret : e.returned with
      | none =>
          rw [List.filterMap_cons_none hret]
          exact ih ht
      | some c =>
          rw [List.filterMap_cons_some hret]
          refine List.nodup_cons.mpr ⟨fun hc => ?_, ih ht⟩
          cases hstep with
          | inserted row hrow =>
              exact returned_fresh hrun ht hc row List.mem_cons_self
                (Option.some.inj hret)
          | _ => cases hret

/-- A counter that was returned and is in no row any more stays so. -/
theorem returned_gone (h : Trace (RequestStep rfc3339) s es t)
    (hs : StoreInv s) {c : ℤ} (hc : c ∈ es.filterMap RequestEvent.returned)
    (hgone : ∀ r ∈ t.rows, r.counter ≠ c) {u : RequestStore}
    (h' : Trace (RequestStep rfc3339) t es' u) : ∀ r ∈ u.rows, r.counter ≠ c := by
  rintro r' hr' rfl
  obtain ⟨e, he, hret⟩ := List.mem_filterMap.mp hc
  cases e with
  | inserted row =>
      obtain ⟨pre, post, rfl⟩ := List.append_of_mem he
      obtain ⟨a, b, hpre, hstep, hpost⟩ := h.at_event
      have hb : StoreInv b := (hs.run hpre).step hstep
      have hrow : row ∈ b.rows := by
        cases hstep
        exact List.mem_cons_self
      have heq : row.counter = r'.counter := Option.some.inj hret
      have hltb : r'.counter < b.nextCounter :=
        heq ▸ hb.below row (List.mem_append_left _ hrow)
      have hlater := StoreLater.of_run hpost
      -- the row it comes from is neither in the table nor under way
      obtain ⟨r, hr, hev⟩ := (StoreLater.of_run h').rows r' hr'
        (lt_of_lt_of_le hltb hlater.next)
      rcases List.mem_append.mp hr with hr | hr
      · exact hgone r hr hev.counter.symm
      · have hins := hlater.inserting r hr (hev.counter ▸ hltb)
        exact hb.apart hrow hins (heq.trans hev.counter)
  | _ => cases hret

/-- A step leaves the rows of other principals alone. -/
theorem step_other (hstep : RequestStep rfc3339 s e t) {r : RequestRow}
    (hr : r.principal ≠ e.principal) : r ∈ t.rows ↔ r ∈ s.rows := by
  cases hstep with
  | draw => exact Iff.rfl
  | inserted row hrow =>
      have hne : r ≠ row := fun heq => hr (congrArg _ heq)
      show r ∈ row :: s.rows ↔ r ∈ s.rows
      rw [List.mem_cons, or_iff_right hne]
  | abandoned => exact Iff.rfl
  | write w seen =>
      show r ∈ s.rows.filterMap _ ↔ r ∈ s.rows
      rw [List.mem_filterMap]
      constructor
      · rintro ⟨r₀, hr₀, hrow⟩
        have hp := (onRow_evolves hrow).principal
        rw [onRow_other (hp ▸ hr : r₀.principal ≠ w.principal)] at hrow
        exact Option.some.inj hrow ▸ hr₀
      · exact fun h => ⟨r, h, onRow_other hr⟩
  | listPending => exact Iff.rfl

/-! ## The list -/

/-- The rows a list shows: pending rows of the principal, the newest of them,
and all of them if they are few. -/
structure ShowsPending (rows : List RequestRow) (principal : String)
    (shown : List RequestRow) : Prop where
  pending : ∀ r ∈ shown,
    r ∈ rows ∧ r.principal = principal ∧ r.status = .pending
  newestFirst : NewestFirst shown
  newest : ∀ r ∈ shown, ∀ r' ∈ rows, r'.principal = principal →
    r'.status = .pending → r' ∉ shown → r'.createdAt ≤ r.createdAt
  all : (rows.filter (isPendingOf principal)).length ≤ 50 →
    shown.Perm (rows.filter (isPendingOf principal))

theorem isPendingOf_iff {principal : String} :
    isPendingOf principal row ↔
      row.principal = principal ∧ row.status = .pending := by
  unfold isPendingOf
  rw [Bool.and_eq_true, beq_iff_eq, beq_iff_eq]

theorem IsListPending.shows {rows : List RequestRow} {principal : String}
    {out : List InProgressRow} (h : IsListPending rfc3339 rows principal out) :
    ∃ shown, ShowsPending rows principal shown ∧
      out = shown.map (·.inProgress rfc3339) := by
  obtain ⟨sorted, hperm, hsorted, rfl⟩ := h
  refine ⟨sorted.take inProgressLimit, ?_, rfl⟩
  refine ⟨?_, hsorted.sublist (List.take_sublist _ _), ?_, ?_⟩
  · intro r hr
    have hr := hperm.mem_iff.mp ((List.take_sublist _ _).subset hr)
    obtain ⟨hmem, hpending⟩ := List.mem_filter.mp hr
    exact ⟨hmem, isPendingOf_iff.mp hpending⟩
  · intro r hr r' hr' hp hs hnot
    have hmem : r' ∈ sorted := hperm.mem_iff.mpr
      (List.mem_filter.mpr ⟨hr', isPendingOf_iff.mpr ⟨hp, hs⟩⟩)
    rw [← List.take_append_drop inProgressLimit sorted] at hmem hsorted
    rcases List.mem_append.mp hmem with h | h
    · exact absurd h hnot
    · exact (List.pairwise_append.mp hsorted).2.2 r hr r' h
  · intro hfew
    have hlen : sorted.length ≤ inProgressLimit := hperm.length_eq ▸ hfew
    rw [List.take_of_length_le hlen]
    exact hperm

/-! ## All of it -/

/-- What holds of a store that was created empty and went through `es`. -/
structure StoreGuarantees (rfc3339 : ℤ → String) (es : List RequestEvent)
    (s : RequestStore) : Prop where
  coherent : ∀ r ∈ s.rows, r.Coherent
  distinct : (s.rows.map RequestRow.counter).Nodup
  neverTwice : (es.filterMap RequestEvent.returned).Nodup
  neverBack : ∀ c ∈ es.filterMap RequestEvent.returned,
    (∀ r ∈ s.rows, r.counter ≠ c) → ∀ es' t,
    Trace (RequestStep rfc3339) s es' t → ∀ r ∈ t.rows, r.counter ≠ c
  evolves : ∀ es' t, Trace (RequestStep rfc3339) s es' t →
    ∀ r ∈ s.rows, ∀ r' ∈ t.rows, r'.counter = r.counter → r.Evolves r'
  closed : ∀ es' t, Trace (RequestStep rfc3339) s es' t →
    ∀ r ∈ s.rows, r.status ≠ .pending →
    r ∈ t.rows ∨ ∀ r' ∈ t.rows, r'.counter ≠ r.counter
  others : ∀ e t, RequestStep rfc3339 s e t →
    ∀ r, r.principal ≠ e.principal → (r ∈ t.rows ↔ r ∈ s.rows)
  lists : ∀ principal out t,
    RequestStep rfc3339 s (.listPending principal out) t →
    ∃ shown, ShowsPending s.rows principal shown ∧
      out = shown.map (·.inProgress rfc3339)

/-- **The request store**, after any run from the empty table. -/
theorem request_store {rfc3339 : ℤ → String} {es : List RequestEvent}
    {s : RequestStore} (h : Trace (RequestStep rfc3339) {} es s) :
    StoreGuarantees rfc3339 es s := by
  have hs : StoreInv s := StoreInv.empty.run h
  refine ⟨hs.coherent, ?_, returned_nodup h .empty, ?_, ?_, ?_, ?_, ?_⟩
  · have hdistinct := hs.distinct
    rw [List.map_append] at hdistinct
    exact (List.nodup_append.mp hdistinct).1
  · exact fun c hc hgone es' t h' => returned_gone h .empty hc hgone h'
  · intro es' t h' r hr r' hr' hc
    exact (StoreLater.of_run h').evolves hs hr hr' hc
  · intro es' t h' r hr hclosed
    by_cases hex : ∃ r' ∈ t.rows, r'.counter = r.counter
    · obtain ⟨r', hr', hc⟩ := hex
      have hev := (StoreLater.of_run h').evolves hs hr hr' hc
      exact .inl (hev.eq_of_closed hclosed ▸ hr')
    · exact .inr fun r' hr' hc => hex ⟨r', hr', hc⟩
  · exact fun e t hstep r hr => step_other hstep hr
  · intro principal out t hstep
    cases hstep with
    | listPending _ _ hlist => exact hlist.shows

/-! A failure that comes late finds the request closed. -/

def sunrise : NewRequest :=
  ⟨"alice", "req-1", "ltx2", "a sunrise over mountains"⟩

theorem request_store_sunrise : StoreGuarantees (fun _ => "2026-07-01T00:00:00Z")
    [.draw sunrise 0, .inserted (sunrise.row 1 0),
      .write (.markComplete "alice" 1 "vid-1" "https://bucket/vid-1.mp4"),
      .write (.markFailed "alice" 1 "generation timed out")]
    { rows := [{ sunrise.row 1 0 with
        status := .complete
        videoId := some "vid-1"
        bucketUrl := some "https://bucket/vid-1.mp4" }]
      nextCounter := 2 } := by
  have hdraw : RequestStep (fun _ => "2026-07-01T00:00:00Z") {}
      (.draw sunrise 0) _ := .draw sunrise 0 (by decide)
  refine request_store (.cons hdraw (.cons
    (.inserted (sunrise.row 1 0) List.mem_cons_self)
    (.cons (.write _ fun _ => true) ?_)))
  exact Trace.single (RequestStep.write _ fun _ => true)

end VideoStorage.Videogen
